import BsslRam.Daemon
import BsslRam.NativePort
import BsslRam.ReportCodec

/-!
# A report on its way from the extension to the scan

A report passes three programs.  The extension posts it on a native port and waits for a
frame, the bridge behind the port forwards it in an HTTP request over its connection
(`bridge/src/client.rs`), and the daemon answers from the signal store that its scan
reads.  `State` puts the transport of `NativePort` and the system of `Daemon` together
and adds the connections in between.

A bridge waits for one response at a time.  Its connection may end at any moment, and so
may the bridge.  The daemon may still handle a request that it has by then, and the
extension never learns about it.  So a missing answer says nothing, and a report is not
sent again.  `Acknowledgement` has what an answer says.

* `httpRequest`, `clientReturns` and `serve` are the request that `handle_frame` makes,
  what it makes of the response, and the daemon in between.
* `ext_reachable` and `daemon_reachable`: the system refines both of its ends.
* `PortOk` is the invariant of one port with its connection.  It keeps the requests of the
  port in order, from the log of the daemon to the messages that are not read yet, and
  ties each frame to an entry of the log.
* `Inv` puts the ports together, and `inv_step` says that every step keeps it.
-/

namespace BsslRam.Delivery

open BsslRam.Lib BsslRam.Signals BsslRam.NativePort
open BsslRam.SignalRequests (handle handle_cases Valid)
open BsslRam.ReportCodec (decodeReport)

/-! ## The connection between the bridge and the daemon -/

/-- What `client.rs` asks the daemon for. -/
inductive HttpRequest where
  | getPing
  | postReport (payload : Json)

/-- The statuses that the daemon answers with.  The last two are those of the `Json`
extractor. -/
inductive Status where
  | ok
  | noContent
  | badRequest
  | unauthorized
  | payloadTooLarge
  | unprocessableEntity
  deriving DecidableEq

namespace Status

def code : Status → UInt16
  | ok => 200
  | noContent => 204
  | badRequest => 400
  | unauthorized => 401
  | payloadTooLarge => 413
  | unprocessableEntity => 422

/-- The canonical reason. -/
def reason : Status → String
  | ok => "OK"
  | noContent => "No Content"
  | badRequest => "Bad Request"
  | unauthorized => "Unauthorized"
  | payloadTooLarge => "Payload Too Large"
  | unprocessableEntity => "Unprocessable Entity"

def isSuccess (status : Status) : Bool := 200 ≤ status.code && status.code < 300

def text (status : Status) : String := toString status.code ++ " " ++ status.reason

def ofHandler : StatusCode → Status
  | .noContent => noContent
  | .badRequest => badRequest
  | .unauthorized => unauthorized

end Status

structure HttpResponse where
  status : Status
  body : Json

/-- The request that `handle_frame` makes for a frame.  It makes none for a kind that it
does not know. -/
def httpRequest (frame : Json) : Option HttpRequest :=
  let kind := ((getField "kind" frame).bind Json.text).getD ""
  if kind = "ping" then some .getPing
  else if kind = "report" then some (.postReport ((getField "payload" frame).getD .null))
  else none

/-- What `get_ping` and `post_report` return for what came back. -/
def clientReturns : Except String HttpResponse → DaemonAnswers
  | .ok response =>
      { getPing :=
          if response.status.isSuccess then .ok response.body
          else .error ("ping returned status " ++ response.status.text)
        postReport := .ok (response.status.isSuccess, response.status.code) }
  | .error err => { getPing := .error err, postReport := .error err }

/-! ## The daemon behind its socket -/

def MAX_REPORT_BYTES : Nat := 1024 * 1024

/-- The body of `ping_handler`. -/
def pingResponse : Json :=
  .object
    [(Utf16.encode "protocol_version", .number (.integer PROTOCOL_VERSION.toNat)),
      (Utf16.encode "accepted_families",
        .array [.string (Utf16.encode "firefox"), .string (Utf16.encode "chromium")]),
      (Utf16.encode "max_report_bytes", .number (.integer MAX_REPORT_BYTES))]

/-- The body limit and the `Json` extractor in front of `report_handler`.  `size` is the
length of a body. -/
def extractReport (size : Json → Nat) (payload : Json) : Except Status BrowserSignalsReport :=
  if MAX_REPORT_BYTES < size payload then .error .payloadTooLarge
  else
    match decodeReport payload with
    | none => .error .unprocessableEntity
    | some report => .ok report

/-- A report request of the bridge.  The Unix socket asks for no source header, and the
bridge sends none. -/
def bridgeRequest (report : BrowserSignalsReport) : SignalRequests.Request where
  requiresSourceHeader := false
  sourceHeader := none
  report := report

/-- The router of the daemon. -/
def serve (size : Json → Nat) (d : Daemon.State) (wall : UInt64) :
    HttpRequest → HttpResponse × Daemon.State
  | .getPing => (⟨.ok, pingResponse⟩, d)
  | .postReport payload =>
      match extractReport size payload with
      | .error status => (⟨status, .null⟩, d)
      | .ok report =>
          (⟨.ofHandler (handle d.store d.clock wall (bridgeRequest report)).1, .null⟩,
            d.receive wall (bridgeRequest report))

/-! ## The system -/

/-- Whether the client may send, waits for a response, or has lost its connection. -/
inductive Phase where
  | ready
  | waiting
  | closed
  deriving DecidableEq

/-- The connection of a bridge.  `inbox` is the request that the daemon has not handled
yet, with the number of the message that it was made for.  The number is a note of the
model. -/
structure Connection where
  phase : Phase := .ready
  inbox : Option (Nat × HttpRequest) := none
  response : Option HttpResponse := none

/-- A request that the daemon has handled: for which message it came over which port, the
answer, the clocks, and the operations that had the lock of the store before it. -/
structure Entry where
  port : Nat
  id : Nat
  request : HttpRequest
  response : HttpResponse
  now : Instant
  wall : UInt64
  before : List StoreOp

/-- The extension with its bridges, their connections, and the daemon.  `messages` are the
messages that were given to `sendNative`, and `log` the requests that the daemon has
handled; both are notes of the model. -/
structure State where
  ext : NativePort.State
  messages : List Json
  connections : Nat → Connection
  daemon : Daemon.State
  log : List Entry

namespace State

/-- A port and its connection in another state. -/
def move (s : State) (port : Nat) (p : Port) (c : Connection) : State :=
  { s with ext := s.ext.setPort port p, connections := Function.update s.connections port c }

/-- The entry of the request that the daemon handles now. -/
def entry (s : State) (size : Json → Nat) (port id : Nat) (request : HttpRequest)
    (wall : UInt64) : Entry where
  port := port
  id := id
  request := request
  response := (serve size s.daemon wall request).1
  now := s.daemon.clock
  wall := wall
  before := s.daemon.ops

end State

/-- The bridge with a reply for the request in its hand. -/
def replied (p : Port) (bridge : Bridge) (id : Nat) (body : Json) : Port :=
  { p with bridge := bridge, toExtension := p.toExtension ++ [⟨some id, body, p.number⟩] }

/-- One step of the extension, of a bridge, of a connection or of the daemon.  With a
request in its hand a bridge can only die on its own; its other steps there are those
that talk to the daemon. -/
inductive Step (size : Json → Nat) (config : Config) : State → State → Prop where
  | send (s : State) (msg : Json) (connects : Bool) (thrown : Option String) :
      Step size config s
        { s with ext := s.ext.sendNative msg connects thrown, messages := s.messages ++ [msg] }
  | deliver (s : State) (port : Nat) (p : Port) (frame : Frame) (rest : List Frame)
      (hport : s.ext.ports port = some p) (hlive : p.live = true)
      (hframe : p.toExtension = frame :: rest) :
      Step size config s
        { s with ext := (s.ext.setPort port { p with toExtension := rest }).onMessage frame }
  | disconnect (s : State) (port : Nat) (p : Port) (lastError : Option String)
      (hport : s.ext.ports port = some p) (hlive : p.live = true) :
      Step size config s
        { s with ext := (s.ext.setPort port { p with live := false }).onDisconnect lastError }
  | bridge (s : State) (port : Nat) (p p' : Port) (hport : s.ext.ports port = some p)
      (hstep : BridgeStep p p')
      (hown : ∀ r, p.bridge = .handling r → p' = { p with bridge := .exited }) :
      Step size config s (s.move port p' (s.connections port))
  | post (s : State) (port : Nat) (p : Port) (r : Request) (request : HttpRequest)
      (hport : s.ext.ports port = some p) (hbridge : p.bridge = .handling r)
      (hrequest : httpRequest r.msg = some request)
      (hready : (s.connections port).phase = .ready) :
      Step size config s
        (s.move port p { phase := .waiting, inbox := some (r.id, request) })
  | serve (s : State) (port : Nat) (p : Port) (id : Nat) (request : HttpRequest) (wall : UInt64)
      (hport : s.ext.ports port = some p)
      (hinbox : (s.connections port).inbox = some (id, request)) :
      Step size config s
        { s.move port p
            { s.connections port with
              inbox := none, response := some (serve size s.daemon wall request).1 } with
          daemon := (serve size s.daemon wall request).2
          log := s.log ++ [s.entry size port id request wall] }
  | drop (s : State) (port : Nat) (p : Port) (hport : s.ext.ports port = some p) :
      Step size config s (s.move port p { s.connections port with phase := .closed })
  | reply (s : State) (port : Nat) (p : Port) (r : Request) (response : HttpResponse)
      (body : Json) (hport : s.ext.ports port = some p) (hbridge : p.bridge = .handling r)
      (hwaiting : (s.connections port).phase = .waiting)
      (hresponse : (s.connections port).response = some response)
      (hbody : handleFrame r.msg (clientReturns (.ok response)) = some body) :
      Step size config s (s.move port (replied p .serving r.id body) {})
  | fails (s : State) (port : Nat) (p : Port) (r : Request) (err : String) (body : Json)
      (hport : s.ext.ports port = some p) (hbridge : p.bridge = .handling r)
      (hclosed : (s.connections port).phase = .closed)
      (hbody : handleFrame r.msg (clientReturns (.error err)) = some body) :
      Step size config s
        (s.move port (replied p .serving r.id body) (s.connections port))
  | unknown (s : State) (port : Nat) (p : Port) (r : Request) (body : Json)
      (hport : s.ext.ports port = some p) (hbridge : p.bridge = .handling r)
      (hrequest : httpRequest r.msg = none)
      (hbody : handleFrame r.msg (clientReturns (.error "")) = some body) :
      Step size config s
        (s.move port (replied p .serving r.id body) (s.connections port))
  | daemonGone (s : State) (port : Nat) (p : Port) (r : Request)
      (hport : s.ext.ports port = some p) (hbridge : p.bridge = .handling r)
      (hclosed : (s.connections port).phase = .closed) :
      Step size config s
        (s.move port (replied p .exited r.id (errorBody "daemon disconnected"))
          (s.connections port))
  | daemon (s : State) (d : Daemon.State) (hstep : Daemon.Step config s.daemon d) :
      Step size config s { s with daemon := d }

/-- Nothing was sent yet, and the daemon has just started. -/
def machine (size : Json → Nat) (config : Config) (ttl grace : Duration) : Machine State where
  init s := s.ext = {} ∧ s.messages = [] ∧ s.connections = (fun _ => {}) ∧
    (Daemon.daemon config ttl grace).init s.daemon ∧ s.log = []
  step := Step size config

/-! ## Sending -/

/-- What `sendNative` does to the ports and the notes. -/
structure Sent (msg : Json) (e e' : NativePort.State) : Prop where
  sent : e'.sent = e.sent + 1
  settled : ∀ id frame, (id, .resolved frame) ∈ e'.settled → (id, .resolved frame) ∈ e.settled
  postedOn : ∀ id q, e.postedOn id = some q → e'.postedOn id = some q
  /-- The message went to a port that was there or is new, or it went nowhere. -/
  ports : ∀ port p', e'.ports port = some p' →
    ∃ p, (e.ports port = some p ∨ e.ports port = none ∧ p = { number := port }) ∧
      (p' = p ∨ p' = { p with toBridge := p.toBridge ++ [⟨e.sent, msg⟩] } ∧
        e'.postedOn e.sent = some port)
  absent : ∀ port, e'.ports port = none → e.ports port = none

section Sending

variable {e : NativePort.State}

theorem ports_getNativePort (hn : NativePort.Inv e) (connects : Bool) (port : Nat) :
    (e.getNativePort connects).1.ports port = e.ports port ∨
      e.ports port = none ∧ (e.getNativePort connects).1.ports port = some { number := port } := by
  unfold NativePort.State.getNativePort
  cases e.nativePort with
  | some q => exact Or.inl rfl
  | none =>
    cases connects with
    | false => exact Or.inl rfl
    | true =>
      by_cases hport : port = e.opened
      · rw [hport]
        exact Or.inr ⟨hn.newPort e.opened (Nat.le_refl _), Function.update_self _ _ _⟩
      · exact Or.inl (Function.update_of_ne hport _ _)

theorem notes_getNativePort (e : NativePort.State) (connects : Bool) :
    (e.getNativePort connects).1.sent = e.sent ∧
      (e.getNativePort connects).1.settled = e.settled ∧
      (e.getNativePort connects).1.postedOn = e.postedOn := by
  unfold NativePort.State.getNativePort
  cases e.nativePort with
  | some q => exact ⟨rfl, rfl, rfl⟩
  | none => cases connects <;> exact ⟨rfl, rfl, rfl⟩

/-- A message that is not posted leaves only a rejected promise. -/
theorem sent_rejected {msg : Json} {pending : List Nat} {reason : String} :
    Sent msg e { e with
      sent := e.sent + 1
      pendingResolvers := pending
      settled := (e.sent, .rejected reason) :: e.settled } where
  sent := rfl
  settled := fun id frame hmem => (List.mem_cons.mp hmem).resolve_left (by simp)
  postedOn := fun _ _ h => h
  ports := fun _ p hp => ⟨p, Or.inl hp, Or.inl rfl⟩
  absent := fun _ h => h

theorem sent_sendOn (hnew : e.postedOn e.sent = none) (msg : Json) (thrown : Option String)
    (got : Option Nat) : Sent msg e (e.sendOn msg thrown got) := by
  cases got with
  | none => exact sent_rejected
  | some port =>
    cases thrown with
    | some err => exact sent_rejected
    | none =>
      have hports : ∀ q, (e.sendOn msg none (some port)).ports q =
          if q = port then (e.ports port).map
            (fun p => { p with toBridge := p.toBridge ++ [⟨e.sent, msg⟩] })
          else e.ports q := fun q => Function.update_apply _ _ _ _
      refine ⟨rfl, fun id frame hmem => hmem, ?_, ?_, ?_⟩
      · intro id q hq
        have hne : id ≠ e.sent := by
          intro heq
          rw [heq, hnew] at hq
          cases hq
        exact (Function.update_of_ne hne _ _).trans hq
      · intro q p' hp'
        rw [hports] at hp'
        split at hp'
        · rename_i hq
          rw [Option.map_eq_some_iff] at hp'
          obtain ⟨p, hp, hp'⟩ := hp'
          refine ⟨p, Or.inl (hq ▸ hp), Or.inr ⟨hp'.symm, ?_⟩⟩
          rw [hq]
          exact Function.update_self _ _ _
        · exact ⟨p', Or.inl hp', Or.inl rfl⟩
      · intro q hq
        rw [hports] at hq
        split at hq
        · rename_i heq
          rw [heq]
          exact Option.map_eq_none_iff.mp hq
        · exact hq

theorem sent_sendNative (hn : NativePort.Inv e) (msg : Json) (connects : Bool)
    (thrown : Option String) : Sent msg e (e.sendNative msg connects thrown) := by
  obtain ⟨hsent, hsettled, hposted⟩ := notes_getNativePort e connects
  have hon := sent_sendOn (e := (e.getNativePort connects).1)
    (by rw [hposted, hsent]; exact (hn.newId e.sent (Nat.le_refl _)).1) msg thrown
    (e.getNativePort connects).2
  refine ⟨by rw [← hsent]; exact hon.sent, ?_, ?_, ?_, ?_⟩
  · rw [← hsettled]
    exact hon.settled
  · rw [← hposted]
    exact hon.postedOn
  · intro port p' hp'
    obtain ⟨p, hp, hmove⟩ := hon.ports port p' hp'
    rw [hsent] at hmove
    refine ⟨p, ?_, hmove⟩
    rcases hp with hp | ⟨hp, hnew⟩
    · rcases ports_getNativePort hn connects port with hsame | ⟨hnone, hopened⟩
      · exact Or.inl (hsame ▸ hp)
      · rw [hopened] at hp
        exact Or.inr ⟨hnone, (Option.some.inj hp).symm⟩
    · rcases ports_getNativePort hn connects port with hsame | ⟨hnone, hopened⟩
      · exact Or.inr ⟨hsame ▸ hp, hnew⟩
      · rw [hopened] at hp
        cases hp
  · intro port hp
    rcases ports_getNativePort hn connects port with hsame | ⟨hnone, -⟩
    · rw [← hsame]
      exact hon.absent port hp
    · exact hnone

end Sending

/-! ## The two ends -/

section Ends

variable {size : Json → Nat} {config : Config} {ttl grace : Duration} {s s' : State}

theorem setPort_self {e : NativePort.State} {port : Nat} {p : Port}
    (hport : e.ports port = some p) :
    e.setPort port p = e := by
  unfold NativePort.State.setPort
  rw [← hport, Function.update_eq_self]

/-- Every step is one of the transport, or leaves it alone. -/
theorem ext_step (hstep : Step size config s s') :
    s'.ext = s.ext ∨ NativePort.Step s.ext s'.ext := by
  cases hstep with
  | send msg connects thrown => exact Or.inr (.send s.ext msg connects thrown)
  | deliver port p frame rest hport hlive hframe =>
    exact Or.inr (.deliver s.ext port p frame rest hport hlive hframe)
  | disconnect port p lastError hport hlive =>
    exact Or.inr (.disconnect s.ext port p lastError hport hlive)
  | bridge port p p' hport hstep => exact Or.inr (.bridge s.ext port p p' hport hstep)
  | post port p r request hport => exact Or.inl (setPort_self hport)
  | serve port p id request wall hport => exact Or.inl (setPort_self hport)
  | drop port p hport => exact Or.inl (setPort_self hport)
  | reply port p r response body hport hbridge hwaiting hresponse hbody =>
    exact Or.inr (.bridge s.ext port p _ hport (.reply p r _ body hbridge hbody))
  | fails port p r err body hport hbridge hclosed hbody =>
    exact Or.inr (.bridge s.ext port p _ hport (.reply p r _ body hbridge hbody))
  | unknown port p r body hport hbridge hrequest hbody =>
    exact Or.inr (.bridge s.ext port p _ hport (.reply p r _ body hbridge hbody))
  | daemonGone port p r hport hbridge =>
    exact Or.inr (.bridge s.ext port p _ hport (.daemonGone p r hbridge))
  | daemon d hstep => exact Or.inl rfl

theorem serve_step (config : Config) (d : Daemon.State) (wall : UInt64) (request : HttpRequest) :
    (serve size d wall request).2 = d ∨ Daemon.Step config d (serve size d wall request).2 := by
  cases request with
  | getPing => exact Or.inl rfl
  | postReport payload =>
    simp only [serve]
    cases extractReport size payload with
    | error status => exact Or.inl rfl
    | ok report => exact Or.inr (.request d wall (bridgeRequest report))

/-- Every step is one of the daemon, or leaves it alone. -/
theorem daemon_step (hstep : Step size config s s') :
    s'.daemon = s.daemon ∨ Daemon.Step config s.daemon s'.daemon := by
  cases hstep with
  | serve port p id request wall => exact serve_step config s.daemon wall request
  | daemon d hstep => exact Or.inr hstep
  | _ => exact Or.inl rfl

theorem ext_reachable (hs : (machine size config ttl grace).Reachable s) :
    NativePort.machine.Reachable s.ext := by
  refine hs.refines State.ext ?_ ?_
  · intro s h
    exact h.1
  · intro s s' hstep
    exact ext_step hstep

theorem daemon_reachable (hs : (machine size config ttl grace).Reachable s) :
    (Daemon.daemon config ttl grace).Reachable s.daemon := by
  refine hs.refines State.daemon ?_ ?_
  · intro s h
    exact h.2.2.2.1
  · intro s s' hstep
    exact daemon_step hstep

theorem ext_inv (hs : (machine size config ttl grace).Reachable s) : NativePort.Inv s.ext := by
  refine (ext_reachable hs).invariant NativePort.Inv ?_ ?_
  · intro e hinit
    rw [hinit]
    exact inv_initial
  · intro e e' _ hinv hstep
    exact inv_step hinv hstep

/-- The operations on the store only grow. -/
theorem ops_grow {d d' : Daemon.State} (hstep : Daemon.Step config d d') : d.ops <+: d'.ops := by
  cases hstep with
  | tick elapsed => exact List.prefix_rfl
  | request wall r =>
    show d.ops <+: if _ then d.ops ++ _ else d.ops
    split
    · exact List.prefix_append _ _
    · exact List.prefix_rfl
  | scan sys hstep hwait => exact List.prefix_rfl
  | lowRss tab judged => exact List.prefix_rfl
  | sample tab judged wall => exact List.prefix_rfl
  | query tab judged now wall => exact List.prefix_append _ _

end Ends

/-! ## What a frame says -/

/-- What was noted about the messages: the port of each, its text, and the requests that
were handled for them. -/
structure Notes where
  postedOn : Nat → Option Nat
  messages : List Json
  log : List Entry

def State.notes (s : State) : Notes := ⟨s.ext.postedOn, s.messages, s.log⟩

/-- The entry stands for the message of this number. -/
def Notes.Handled (n : Notes) (id : Nat) (e : Entry) : Prop :=
  e ∈ n.log ∧ e.id = id ∧ ∃ msg, n.messages[id]? = some msg ∧ httpRequest msg = some e.request

/-- The frame tells of an error, or what the daemon answered to this very message. -/
def Notes.Replied (n : Notes) (id : Nat) (body : Json) : Prop :=
  (∃ reason, body = errorBody reason) ∨
    ∃ e msg, n.Handled id e ∧ n.messages[id]? = some msg ∧
      handleFrame msg (clientReturns (.ok e.response)) = some body

/-- The notes grow, and nothing new was handled for the port. -/
structure Notes.Grows (port : Nat) (n n' : Notes) : Prop where
  postedOn : ∀ id q, n.postedOn id = some q → n'.postedOn id = some q
  messages : n.messages <+: n'.messages
  log : ∀ e ∈ n.log, e ∈ n'.log
  elsewhere : ∀ e ∈ n'.log, e ∈ n.log ∨ e.port ≠ port

section Notes

variable {n n' : Notes} {port id : Nat}

theorem getElem?_of_prefix {α : Type*} {xs ys : List α} (h : xs <+: ys) {i : Nat} {x : α}
    (hi : xs[i]? = some x) : ys[i]? = some x := by
  obtain ⟨zs, rfl⟩ := h
  exact (List.getElem?_append_left (List.getElem?_eq_some_iff.mp hi).1).trans hi

theorem Notes.Handled.mono {e : Entry} (h : n.Handled id e) (hmsgs : n.messages <+: n'.messages)
    (hlog : ∀ e ∈ n.log, e ∈ n'.log) : n'.Handled id e := by
  obtain ⟨hmem, hid, msg, hmsg, hrequest⟩ := h
  exact ⟨hlog e hmem, hid, msg, getElem?_of_prefix hmsgs hmsg, hrequest⟩

theorem Notes.Replied.mono {body : Json} (h : n.Replied id body)
    (hmsgs : n.messages <+: n'.messages) (hlog : ∀ e ∈ n.log, e ∈ n'.log) :
    n'.Replied id body := by
  rcases h with h | ⟨e, msg, he, hmsg, hbody⟩
  · exact Or.inl h
  · exact Or.inr ⟨e, msg, he.mono hmsgs hlog, getElem?_of_prefix hmsgs hmsg, hbody⟩

/-- A frame for which no response came back is an error frame. -/
theorem handleFrame_error {msg body : Json} {err : String}
    (h : handleFrame msg (clientReturns (.error err)) = some body) :
    ∃ reason, body = errorBody reason := by
  unfold handleFrame clientReturns at h
  simp only at h
  split at h
  · exact ⟨_, (Option.some.inj h).symm⟩
  · split at h
    · exact ⟨_, (Option.some.inj h).symm⟩
    · exact ⟨_, (Option.some.inj h).symm⟩

end Notes

/-! ## One port -/

/-- The request in the hand of the bridge, if it has not been sent. -/
def ahead (p : Port) (c : Connection) : List Nat :=
  match p.bridge, c.phase with
  | .handling r, .ready => [r.id]
  | _, _ => []

/-- The messages of a port that the daemon has not handled and may still get, in the
order in which it gets them. -/
def queue (p : Port) (c : Connection) : List Nat :=
  c.inbox.toList.map Prod.fst ++ (ahead p c ++ p.toBridge.map Request.id)

/-- Only a bridge with a request in its hand waits, and it waits for the answer to that
request. -/
def Awaits (n : Notes) (p : Port) (c : Connection) : Prop :=
  p.bridge = .exited ∨ ∃ r, p.bridge = .handling r ∧ httpRequest r.msg ≠ none ∧
    ((∃ request, c.inbox = some (r.id, request)) ∧ c.response = none ∨
      c.inbox = none ∧ ∃ e, n.Handled r.id e ∧ c.response = some e.response)

/-- A port and its connection against the notes. -/
structure PortOk (n : Notes) (port : Nat) (p : Port) (c : Connection) : Prop where
  ordered : (queue p c).Pairwise (· < ·)
  posted : ∀ id ∈ queue p c, n.postedOn id = some port
  after : ∀ e ∈ n.log, e.port = port → ∀ id ∈ queue p c, e.id < id
  unread : ∀ r ∈ p.toBridge, n.messages[r.id]? = some r.msg
  inHand : ∀ r, p.bridge = .handling r → n.messages[r.id]? = some r.msg
  asked : ∀ id request, c.inbox = some (id, request) →
    ∃ msg, n.messages[id]? = some msg ∧ httpRequest msg = some request
  ready : c.phase = .ready → c.inbox = none
  waiting : c.phase = .waiting → Awaits n p c
  frames : ∀ frame ∈ p.toExtension, ∀ id, frame.answers = some id → n.Replied id frame.body

section PortOk

variable {n n' : Notes} {port : Nat} {p p' : Port} {c c' : Connection}

theorem portOk_new : PortOk n port { number := port } {} where
  ordered := List.Pairwise.nil
  posted := fun _ h => by cases h
  after := fun _ _ _ _ h => by cases h
  unread := fun _ h => by cases h
  inHand := fun _ h => by cases h
  asked := fun _ _ h => by cases h
  ready := fun _ => rfl
  waiting := fun h => by cases h
  frames := fun _ h => by cases h

theorem PortOk.mono (h : PortOk n port p c) (hn : n.Grows port n') : PortOk n' port p c where
  ordered := h.ordered
  posted := fun id hid => hn.postedOn id port (h.posted id hid)
  after := by
    intro e he hport
    exact h.after e ((hn.elsewhere e he).resolve_right (not_not.mpr hport)) hport
  unread := fun r hr => getElem?_of_prefix hn.messages (h.unread r hr)
  inHand := fun r hr => getElem?_of_prefix hn.messages (h.inHand r hr)
  asked := by
    intro id request hid
    obtain ⟨msg, hmsg, hrequest⟩ := h.asked id request hid
    exact ⟨msg, getElem?_of_prefix hn.messages hmsg, hrequest⟩
  ready := h.ready
  waiting := by
    intro hwaiting
    rcases h.waiting hwaiting with hexited | ⟨r, hr, hrequest, hinbox | ⟨hinbox, e, he, hresponse⟩⟩
    · exact Or.inl hexited
    · exact Or.inr ⟨r, hr, hrequest, Or.inl hinbox⟩
    · exact Or.inr ⟨r, hr, hrequest, Or.inr ⟨hinbox, e, he.mono hn.messages hn.log, hresponse⟩⟩
  frames := fun frame hf id hid => (h.frames frame hf id hid).mono hn.messages hn.log

/-- A port may move on when the rest of its queue stays in order. -/
theorem PortOk.shrink (h : PortOk n port p c) (hqueue : (queue p' c').Sublist (queue p c))
    (hunread : ∀ r ∈ p'.toBridge, r ∈ p.toBridge)
    (hhand : ∀ r, p'.bridge = .handling r → p.bridge = .handling r ∨ r ∈ p.toBridge)
    (hinbox : c'.inbox = c.inbox ∨ c'.inbox = none)
    (hready : c'.phase = .ready → c'.inbox = none)
    (hwaiting : c'.phase = .waiting → Awaits n p' c')
    (hframes : ∀ frame ∈ p'.toExtension, frame ∈ p.toExtension ∨
      ∀ id, frame.answers = some id → n.Replied id frame.body) : PortOk n port p' c' where
  ordered := h.ordered.sublist hqueue
  posted := fun id hid => h.posted id (hqueue.subset hid)
  after := fun e he hport id hid => h.after e he hport id (hqueue.subset hid)
  unread := fun r hr => h.unread r (hunread r hr)
  inHand := by
    intro r hr
    rcases hhand r hr with hold | hread
    · exact h.inHand r hold
    · exact h.unread r hread
  asked := by
    intro id request hid
    rcases hinbox with hsame | hnone
    · exact h.asked id request (hsame ▸ hid)
    · rw [hnone] at hid
      cases hid
  ready := hready
  waiting := hwaiting
  frames := by
    intro frame hf id hid
    rcases hframes frame hf with hold | hnew
    · exact h.frames frame hold id hid
    · exact hnew id hid

/-- Whatever the bridge does, the request in its hand may only leave the queue. -/
theorem queue_sublist (hinbox : c'.inbox = c.inbox ∨ c'.inbox = none) (hahead : ahead p' c' = [])
    (hunread : p'.toBridge = p.toBridge) : (queue p' c').Sublist (queue p c) := by
  have hheld : (c'.inbox.toList.map Prod.fst).Sublist (c.inbox.toList.map Prod.fst) := by
    rcases hinbox with hsame | hnone
    · rw [hsame]
    · rw [hnone]
      exact List.nil_sublist _
  unfold queue
  rw [hahead, hunread]
  exact hheld.append (List.sublist_append_right _ _)

theorem PortOk.exit (h : PortOk n port p c) : PortOk n port { p with bridge := .exited } c := by
  refine h.shrink (queue_sublist (Or.inl rfl) rfl rfl) (fun r hr => hr) ?_ (Or.inl rfl) h.ready
    (fun _ => Or.inl rfl) (fun frame hf => Or.inl hf)
  intro r hr
  cases hr

theorem PortOk.not_waiting (h : PortOk n port p c) (hhand : ∀ r, p.bridge ≠ .handling r)
    (hexited : p.bridge ≠ .exited) : c.phase ≠ .waiting := by
  intro hwaiting
  rcases h.waiting hwaiting with hp | ⟨r, hp, -⟩
  · exact hexited hp
  · exact hhand r hp

theorem PortOk.read (h : PortOk n port p c) {r : Request} {rest : List Request}
    (hbridge : p.bridge = .serving) (hread : p.toBridge = r :: rest) :
    PortOk n port { p with bridge := .handling r, toBridge := rest } c := by
  have hidle := h.not_waiting (by rw [hbridge]; simp) (by rw [hbridge]; simp)
  have hahead : ahead p c = [] := by simp [ahead, hbridge]
  refine h.shrink ?_ ?_ ?_ (Or.inl rfl) h.ready (fun hwaiting => absurd hwaiting hidle)
    (fun frame hf => Or.inl hf)
  · unfold queue
    rw [hahead, hread]
    refine (List.Sublist.refl _).append ?_
    unfold ahead
    -- the request leaves the queue if the connection is gone
    cases c.phase with
    | ready => exact List.Sublist.refl _
    | waiting => exact List.sublist_cons_self _ _
    | closed => exact List.sublist_cons_self _ _
  · intro q hq
    rw [hread]
    exact List.mem_cons_of_mem _ hq
  · intro q hq
    rw [hread, ← Bridge.handling.inj hq]
    exact Or.inr List.mem_cons_self

theorem PortOk.bridgeStep (h : PortOk n port p c) (hstep : BridgeStep p p')
    (hown : ∀ r, p.bridge = .handling r → p' = { p with bridge := .exited }) :
    PortOk n port p' c := by
  cases hstep with
  | connect hbridge =>
    have hidle := h.not_waiting (by rw [hbridge]; simp) (by rw [hbridge]; simp)
    refine h.shrink (queue_sublist (Or.inl rfl) rfl rfl) (fun r hr => hr) ?_ (Or.inl rfl) h.ready
      (fun hwaiting => absurd hwaiting hidle) (fun frame hf => Or.inl hf)
    intro r hr
    cases hr
  | connectFails hbridge =>
    refine h.exit.shrink (List.Sublist.refl _) (fun r hr => hr) (fun r hr => Or.inl hr)
      (Or.inl rfl) h.ready (fun _ => Or.inl rfl) ?_
    intro frame hf
    rcases List.mem_append.mp hf with hold | hnew
    · exact Or.inl hold
    · -- the error frame answers nothing
      rw [List.mem_singleton.mp hnew]
      exact Or.inr (fun id hid => by cases hid)
  | read r rest hbridge hread => exact h.read hbridge hread
  | reply r client body hbridge hbody =>
    rw [hown r hbridge]
    exact h.exit
  | daemonGone r hbridge =>
    rw [hown r hbridge]
    exact h.exit
  | exit => exact h.exit

/-- A message that is posted is the last one of the queue. -/
theorem PortOk.send (h : PortOk n port p c) (r : Request) (hlast : ∀ id ∈ queue p c, id < r.id)
    (hlog : ∀ e ∈ n.log, e.port = port → e.id < r.id) (hposted : n.postedOn r.id = some port)
    (hmsg : n.messages[r.id]? = some r.msg) :
    PortOk n port { p with toBridge := p.toBridge ++ [r] } c := by
  have hqueue : queue { p with toBridge := p.toBridge ++ [r] } c = queue p c ++ [r.id] := by
    simp [queue, ahead]
  refine ⟨?_, ?_, ?_, ?_, h.inHand, h.asked, h.ready, h.waiting, h.frames⟩
  · rw [hqueue, List.pairwise_append]
    refine ⟨h.ordered, List.pairwise_singleton _ _, fun a ha b hb => ?_⟩
    rw [List.mem_singleton.mp hb]
    exact hlast a ha
  · rw [hqueue]
    exact List.forall_mem_append.mpr ⟨h.posted, List.forall_mem_singleton.mpr hposted⟩
  · intro e he hport
    rw [hqueue]
    exact List.forall_mem_append.mpr
      ⟨h.after e he hport, List.forall_mem_singleton.mpr (hlog e he hport)⟩
  · exact List.forall_mem_append.mpr ⟨h.unread, List.forall_mem_singleton.mpr hmsg⟩

theorem PortOk.post (h : PortOk n port p c) {r : Request} {request : HttpRequest}
    (hbridge : p.bridge = .handling r) (hrequest : httpRequest r.msg = some request)
    (hready : c.phase = .ready) :
    PortOk n port p { phase := .waiting, inbox := some (r.id, request) } := by
  have hqueue : queue p { phase := .waiting, inbox := some (r.id, request) } = queue p c := by
    simp [queue, ahead, hbridge, hready, h.ready hready]
  refine ⟨?_, ?_, ?_, h.unread, h.inHand, ?_, ?_, ?_, h.frames⟩
  · rw [hqueue]
    exact h.ordered
  · rw [hqueue]
    exact h.posted
  · rw [hqueue]
    exact h.after
  · intro id asked heq
    cases heq
    exact ⟨r.msg, h.inHand r hbridge, hrequest⟩
  · intro heq
    cases heq
  · intro _
    exact Or.inr ⟨r, hbridge, by rw [hrequest]; simp, Or.inl ⟨⟨request, rfl⟩, rfl⟩⟩

theorem PortOk.drop (h : PortOk n port p c) : PortOk n port p { c with phase := .closed } := by
  have hahead : ahead p { c with phase := .closed } = [] := by
    unfold ahead
    cases p.bridge <;> rfl
  refine h.shrink (queue_sublist (Or.inl rfl) hahead rfl) (fun r hr => hr) (fun r hr => Or.inl hr)
    (Or.inl rfl) ?_ ?_ (fun frame hf => Or.inl hf)
  · intro heq
    cases heq
  · intro heq
    cases heq

/-- The daemon handles the front of the queue. -/
theorem PortOk.serve (h : PortOk n port p c) {e : Entry}
    (hinbox : c.inbox = some (e.id, e.request)) :
    PortOk { n with log := n.log ++ [e] } port p
      { c with inbox := none, response := some e.response } := by
  have hphase : c.phase ≠ .ready := by
    intro hready
    rw [h.ready hready] at hinbox
    cases hinbox
  have hahead : ahead p c = [] := by
    unfold ahead
    cases p.bridge <;> cases hc : c.phase <;> first | rfl | exact absurd hc hphase
  have hqueue : queue p c =
      e.id :: queue p { c with inbox := none, response := some e.response } := by
    simp only [queue, hinbox, hahead]
    simp only [ahead] at hahead ⊢
    rw [hahead]
    rfl
  have hordered := h.ordered
  rw [hqueue, List.pairwise_cons] at hordered
  have hmem : ∀ e' ∈ n.log, e' ∈ n.log ++ [e] := fun e' he' => List.mem_append_left _ he'
  obtain ⟨msg, hmsg, hrequest⟩ := h.asked e.id e.request hinbox
  have hsub : ∀ id ∈ queue p { c with inbox := none, response := some e.response },
      id ∈ queue p c := by
    intro id hid
    rw [hqueue]
    exact List.mem_cons_of_mem _ hid
  refine ⟨hordered.2, fun id hid => h.posted id (hsub id hid), ?_, h.unread, h.inHand, ?_,
    fun _ => rfl, ?_, fun frame hf id hid => (h.frames frame hf id hid).mono List.prefix_rfl hmem⟩
  · intro e' he' hport' id hid
    rcases List.mem_append.mp he' with hold | hnew
    · exact h.after e' hold hport' id (hsub id hid)
    · rw [List.mem_singleton.mp hnew]
      exact hordered.1 id hid
  · intro id request heq
    cases heq
  · intro hwaiting
    rcases h.waiting hwaiting with hexited | ⟨r, hr, hask, ⟨⟨request, hheld⟩, -⟩ | ⟨hnone, -⟩⟩
    · exact Or.inl hexited
    · rw [hinbox, Option.some.injEq, Prod.mk.injEq] at hheld
      refine Or.inr ⟨r, hr, hask, Or.inr ⟨rfl, e, ?_, rfl⟩⟩
      rw [← hheld.1]
      exact ⟨List.mem_append_right _ (List.mem_singleton.mpr rfl), rfl, msg, hmsg, hrequest⟩
    · rw [hinbox] at hnone
      cases hnone

/-- The bridge is done with a request. -/
theorem PortOk.replied (h : PortOk n port p c) {r : Request} {bridge : Bridge} {body : Json}
    (hdone : ∀ r, bridge ≠ .handling r) (hinbox : c'.inbox = c.inbox ∨ c'.inbox = none)
    (hready : c'.phase = .ready → c'.inbox = none) (hphase : c'.phase ≠ .waiting)
    (hbody : n.Replied r.id body) : PortOk n port (replied p bridge r.id body) c' := by
  have hahead : ahead (Delivery.replied p bridge r.id body) c' = [] := by
    cases bridge with
    | handling q => exact absurd rfl (hdone q)
    | _ => rfl
  refine h.shrink (queue_sublist hinbox hahead rfl) (fun q hq => hq)
    (fun q hq => absurd hq (hdone q)) hinbox hready (fun hwaiting => absurd hwaiting hphase) ?_
  intro frame hf
  rcases List.mem_append.mp hf with hold | hnew
  · exact Or.inl hold
  · right
    intro id hid
    rw [List.mem_singleton.mp hnew] at hid ⊢
    rw [← Option.some.inj hid]
    exact hbody

end PortOk

/-! ## Every run -/

/-- What the daemon answered, and what it left in the operations on its store. -/
def Answered (size : Json → Nat) (ops : List StoreOp) (e : Entry) : Prop :=
  match e.request with
  | .getPing => e.response = ⟨.ok, pingResponse⟩
  | .postReport payload =>
      e.response.status.isSuccess = false ∨
        e.response.status = .noContent ∧ ∃ report, extractReport size payload = .ok report ∧
          Valid e.wall (bridgeRequest report) ∧
          e.before ++ [.report e.now e.wall report] <+: ops

/-- The invariant of all runs. -/
structure Inv (size : Json → Nat) (s : State) : Prop where
  ports : ∀ port p, s.ext.ports port = some p → PortOk s.notes port p (s.connections port)
  fresh : ∀ port, s.ext.ports port = none → s.connections port = {}
  sent : s.messages.length = s.ext.sent
  settled : ∀ id frame, (id, .resolved frame) ∈ s.ext.settled → s.notes.Replied id frame.body
  logged : ∀ e ∈ s.log, s.ext.postedOn e.id = some e.port
  inOrder : s.log.Pairwise (fun e e' => e.port = e'.port → e.id < e'.id)
  answered : ∀ e ∈ s.log, Answered size s.daemon.ops e

section Runs

variable {size : Json → Nat} {config : Config} {ttl grace : Duration} {s s' : State}

theorem Answered.mono {ops ops' : List StoreOp} {e : Entry} (h : Answered size ops e)
    (hops : ops <+: ops') : Answered size ops' e := by
  unfold Answered at h ⊢
  cases hrequest : e.request with
  | getPing =>
    rw [hrequest] at h
    exact h
  | postReport payload =>
    rw [hrequest] at h
    rcases h with h | ⟨hstatus, report, hreport, hvalid, hprefix⟩
    · exact Or.inl h
    · exact Or.inr ⟨hstatus, report, hreport, hvalid, hprefix.trans hops⟩

theorem extractReport_error {payload : Json} {status : Status}
    (h : extractReport size payload = .error status) : status.isSuccess = false := by
  unfold extractReport at h
  split at h
  · cases h
    decide
  · cases hdecode : decodeReport payload with
    | none =>
      rw [hdecode] at h
      cases h
      decide
    | some report =>
      rw [hdecode] at h
      cases h

/-- The entry of a request says what the daemon did with it. -/
theorem answered_entry (s : State) (port id : Nat) (request : HttpRequest) (wall : UInt64) :
    Answered size (serve size s.daemon wall request).2.ops (s.entry size port id request wall) := by
  cases request with
  | getPing => exact rfl
  | postReport payload =>
    show (serve size s.daemon wall (.postReport payload)).1.status.isSuccess = false ∨ _
    simp only [serve]
    cases hextract : extractReport size payload with
    | error status => exact Or.inl (extractReport_error hextract)
    | ok report =>
      rcases handle_cases s.daemon.store s.daemon.clock wall (bridgeRequest report) with
        ⟨hvalid, family, -, heq⟩ | ⟨-, status, hstatus, heq⟩
      · refine Or.inr ⟨?_, report, rfl, hvalid, ?_⟩
        · simp only [State.entry, serve, hextract, heq, Status.ofHandler]
        · simp only [Daemon.State.receive, heq, if_pos, State.entry]
          exact List.prefix_rfl
      · left
        simp only [heq]
        cases status with
        | noContent => exact absurd rfl hstatus
        | badRequest => decide
        | unauthorized => decide

theorem inv_init (h : (machine size config ttl grace).init s) : Inv size s := by
  obtain ⟨hext, hmsgs, hconn, -, hlog⟩ := h
  refine ⟨?_, ?_, ?_, ?_, ?_, ?_, ?_⟩
  · intro port p hp
    rw [hext] at hp
    cases hp
  · intro port _
    rw [hconn]
  · rw [hext, hmsgs]
    rfl
  · intro id frame hmem
    rw [hext] at hmem
    cases hmem
  · simp [hlog]
  · simp [hlog]
  · simp [hlog]

/-- A port and its connection may move on when they keep to the notes. -/
theorem Inv.move (h : Inv size s) {port : Nat} {p' : Port} {c' : Connection}
    (hok : PortOk s.notes port p' c') : Inv size (s.move port p' c') := by
  refine ⟨?_, ?_, h.sent, h.settled, h.logged, h.inOrder, h.answered⟩
  · intro q r hr
    change (s.ext.setPort port p').ports q = some r at hr
    show PortOk s.notes q r (Function.update s.connections port c' q)
    rw [ports_setPort] at hr
    by_cases hq : q = port
    · rw [if_pos hq] at hr
      cases hr
      rw [hq, Function.update_self]
      exact hok
    · rw [if_neg hq] at hr
      rw [Function.update_of_ne hq]
      exact h.ports q r hr
  · intro q hq
    change (s.ext.setPort port p').ports q = none at hq
    show Function.update s.connections port c' q = {}
    rw [ports_setPort] at hq
    by_cases heq : q = port
    · rw [if_pos heq] at hq
      cases hq
    · rw [if_neg heq] at hq
      rw [Function.update_of_ne heq]
      exact h.fresh q hq

/-- The extension may settle promises, with frames that are what they say. -/
theorem Inv.settle (h : Inv size s) {ext : NativePort.State} (hports : ext.ports = s.ext.ports)
    (hsent : ext.sent = s.ext.sent) (hposted : ext.postedOn = s.ext.postedOn)
    (hsettled : ∀ id frame, (id, .resolved frame) ∈ ext.settled →
      (id, .resolved frame) ∈ s.ext.settled ∨ s.notes.Replied id frame.body) :
    Inv size { s with ext := ext } := by
  have hnotes : State.notes { s with ext := ext } = s.notes := by
    simp only [State.notes, hposted]
  refine ⟨?_, ?_, h.sent.trans hsent.symm, ?_, ?_, h.inOrder, h.answered⟩
  · rw [hnotes]
    show ∀ port p, ext.ports port = some p → _
    rw [hports]
    exact h.ports
  · show ∀ port, ext.ports port = none → _
    rw [hports]
    exact h.fresh
  · intro id frame hmem
    rw [hnotes]
    rcases hsettled id frame hmem with hold | hnew
    · exact h.settled id frame hold
    · exact hnew
  · show ∀ e ∈ s.log, ext.postedOn e.id = some e.port
    rw [hposted]
    exact h.logged

theorem Inv.send (h : Inv size s) (hn : NativePort.Inv s.ext) {msg : Json}
    {ext : NativePort.State} (hsent : Sent msg s.ext ext) :
    Inv size { s with ext := ext, messages := s.messages ++ [msg] } := by
  have hmsg : (s.messages ++ [msg])[s.ext.sent]? = some msg := by
    rw [← h.sent]
    exact List.getElem?_concat_length
  have hlt : ∀ id port, s.ext.postedOn id = some port → id < s.ext.sent :=
    fun id port hposted => lt_sent_of_posted hn hposted
  refine ⟨?_, ?_, ?_, ?_, ?_, h.inOrder, h.answered⟩
  · intro port p' hp'
    have hgrows : s.notes.Grows port ⟨ext.postedOn, s.messages ++ [msg], s.log⟩ :=
      ⟨hsent.postedOn, List.prefix_append _ _, fun e he => he, fun e he => Or.inl he⟩
    obtain ⟨p, hp, hmove⟩ := hsent.ports port p' hp'
    have hold : PortOk s.notes port p (s.connections port) := by
      rcases hp with hp | ⟨hnone, rfl⟩
      · exact h.ports port p hp
      · rw [h.fresh port hnone]
        exact portOk_new
    rcases hmove with rfl | ⟨rfl, hposted⟩
    · exact hold.mono hgrows
    · refine (hold.mono hgrows).send ⟨s.ext.sent, msg⟩ ?_ ?_ hposted hmsg
      · intro id hid
        exact hlt id port (hold.posted id hid)
      · intro e he _
        exact hlt e.id e.port (h.logged e he)
  · intro port hp
    exact h.fresh port (hsent.absent port hp)
  · show (s.messages ++ [msg]).length = ext.sent
    rw [List.length_append, h.sent, hsent.sent]
    rfl
  · intro id frame hmem
    exact (h.settled id frame (hsent.settled id frame hmem)).mono (List.prefix_append _ _)
      (fun e he => he)
  · intro e he
    exact hsent.postedOn e.id e.port (h.logged e he)

/-- A frame goes to the promise that it answers, or it is the error frame. -/
theorem Inv.deliver (h : Inv size s) (hn : NativePort.Inv s.ext) {port : Nat} {p : Port}
    {frame : Frame} {rest : List Frame} (hport : s.ext.ports port = some p)
    (hlive : p.live = true) (hframe : p.toExtension = frame :: rest) :
    Inv size
      { s with ext := (s.ext.setPort port { p with toExtension := rest }).onMessage frame } := by
  have hok := h.ports port p hport
  have hmoved : Inv size (s.move port { p with toExtension := rest } (s.connections port)) := by
    refine h.move (hok.shrink (List.Sublist.refl _) (fun r hr => hr) (fun r hr => Or.inl hr)
      (Or.inl rfl) hok.ready hok.waiting ?_)
    intro f hf
    rw [hframe]
    exact Or.inl (List.mem_cons_of_mem _ hf)
  have hsame : s.move port { p with toExtension := rest } (s.connections port) =
      { s with ext := s.ext.setPort port { p with toExtension := rest } } := by
    simp only [State.move, Function.update_eq_self]
  rw [hsame] at hmoved
  have hown := (inv_deliver hn hport hlive hframe).ownReply
  cases hpending : s.ext.pendingResolvers with
  | nil =>
    rw [onMessage_nil hpending]
    exact hmoved
  | cons id waiting =>
    rw [onMessage_cons hpending] at hown ⊢
    refine hmoved.settle rfl rfl rfl ?_
    intro i f hmem
    rcases List.mem_cons.mp hmem with heq | hold
    · right
      cases heq
      rcases (hown id frame List.mem_cons_self).2 with hanswers | hterminal
      · refine hok.frames frame ?_ id hanswers
        rw [hframe]
        exact List.mem_cons_self
      · rw [hterminal]
        exact Or.inl ⟨_, rfl⟩
    · exact Or.inl hold

theorem Inv.disconnect (h : Inv size s) {port : Nat} {p : Port}
    (hport : s.ext.ports port = some p) (lastError : Option String) :
    Inv size { s with
      ext := (s.ext.setPort port { p with live := false }).onDisconnect lastError } := by
  have hok := h.ports port p hport
  have hmoved : Inv size (s.move port { p with live := false } (s.connections port)) :=
    h.move ⟨hok.ordered, hok.posted, hok.after, hok.unread, hok.inHand, hok.asked, hok.ready,
      hok.waiting, hok.frames⟩
  have hsame : s.move port { p with live := false } (s.connections port) =
      { s with ext := s.ext.setPort port { p with live := false } } := by
    simp only [State.move, Function.update_eq_self]
  rw [hsame] at hmoved
  refine hmoved.settle rfl rfl rfl ?_
  intro id frame hmem
  rcases List.mem_append.mp hmem with hnew | hold
  · obtain ⟨_, _, heq⟩ := List.mem_map.mp hnew
    cases heq
  · exact Or.inl hold

theorem Inv.serve (h : Inv size s) {port : Nat} {p : Port} {id : Nat} {request : HttpRequest}
    (hport : s.ext.ports port = some p)
    (hinbox : (s.connections port).inbox = some (id, request)) (wall : UInt64)
    (hops : s.daemon.ops <+: (serve size s.daemon wall request).2.ops) :
    Inv size
      { s.move port p
          { s.connections port with
            inbox := none, response := some (serve size s.daemon wall request).1 } with
        daemon := (serve size s.daemon wall request).2
        log := s.log ++ [s.entry size port id request wall] } := by
  have hok := h.ports port p hport
  have hfront : id ∈ queue p (s.connections port) := by
    unfold queue
    rw [hinbox]
    exact List.mem_cons_self
  have hmem : ∀ e ∈ s.log, e ∈ s.log ++ [s.entry size port id request wall] :=
    fun e he => List.mem_append_left _ he
  have hserved : PortOk ⟨s.ext.postedOn, s.messages, s.log ++ [s.entry size port id request wall]⟩
      port p { s.connections port with
        inbox := none, response := some (Delivery.serve size s.daemon wall request).1 } :=
    hok.serve (e := s.entry size port id request wall) hinbox
  refine ⟨?_, ?_, h.sent, ?_, ?_, ?_, ?_⟩
  · intro q r hr
    change (s.ext.setPort port p).ports q = some r at hr
    show PortOk ⟨s.ext.postedOn, s.messages, _⟩ q r (Function.update s.connections port _ q)
    rw [setPort_self hport] at hr
    by_cases hq : q = port
    · rw [hq, hport] at hr
      cases hr
      rw [hq, Function.update_self]
      exact hserved
    · rw [Function.update_of_ne hq]
      refine (h.ports q r hr).mono ⟨fun _ _ hposted => hposted, List.prefix_rfl, hmem, ?_⟩
      exact List.forall_mem_append.mpr
        ⟨fun e he => Or.inl he, List.forall_mem_singleton.mpr (Or.inr (Ne.symm hq))⟩
  · intro q hq
    change (s.ext.setPort port p).ports q = none at hq
    rw [setPort_self hport] at hq
    have hne : q ≠ port := by
      intro heq
      rw [heq, hport] at hq
      cases hq
    exact (Function.update_of_ne hne _ _).trans (h.fresh q hq)
  · intro i frame hmem'
    exact (h.settled i frame hmem').mono List.prefix_rfl hmem
  · exact List.forall_mem_append.mpr
      ⟨h.logged, List.forall_mem_singleton.mpr (hok.posted id hfront)⟩
  · refine List.pairwise_append.mpr ⟨h.inOrder, List.pairwise_singleton _ _, ?_⟩
    intro e he e' he' hsame
    rw [List.mem_singleton.mp he'] at hsame ⊢
    exact hok.after e he hsame id hfront
  · exact List.forall_mem_append.mpr ⟨fun e he => (h.answered e he).mono hops,
      List.forall_mem_singleton.mpr (answered_entry s port id request wall)⟩

theorem inv_step (h : Inv size s) (hn : NativePort.Inv s.ext) (hstep : Step size config s s') :
    Inv size s' := by
  cases hstep with
  | send msg connects thrown => exact h.send hn (sent_sendNative hn msg connects thrown)
  | deliver port p frame rest hport hlive hframe => exact h.deliver hn hport hlive hframe
  | disconnect port p lastError hport hlive => exact h.disconnect hport lastError
  | bridge port p p' hport hstep hown => exact h.move ((h.ports port p hport).bridgeStep hstep hown)
  | post port p r request hport hbridge hrequest hready =>
    exact h.move ((h.ports port p hport).post hbridge hrequest hready)
  | serve port p id request wall hport hinbox =>
    refine h.serve hport hinbox wall ?_
    rcases serve_step config s.daemon wall request with hsame | hstep
    · rw [hsame]
    · exact ops_grow hstep
  | drop port p hport => exact h.move (h.ports port p hport).drop
  | reply port p r response body hport hbridge hwaiting hresponse hbody =>
    have hok := h.ports port p hport
    refine h.move (hok.replied (fun r => by simp) (Or.inr rfl) (fun _ => rfl) (by simp) ?_)
    right
    rcases hok.waiting hwaiting with hexited | ⟨q, hq, -, ⟨-, hnone⟩ | ⟨-, e, he, hheld⟩⟩
    · rw [hbridge] at hexited
      cases hexited
    · rw [hresponse] at hnone
      cases hnone
    · rw [hbridge] at hq
      cases hq
      rw [hresponse] at hheld
      refine ⟨e, r.msg, he, hok.inHand r hbridge, ?_⟩
      rw [← Option.some.inj hheld]
      exact hbody
  | fails port p r err body hport hbridge hclosed hbody =>
    have hok := h.ports port p hport
    exact h.move (hok.replied (fun r => by simp) (Or.inl rfl) hok.ready (by rw [hclosed]; simp)
      (Or.inl (handleFrame_error hbody)))
  | unknown port p r body hport hbridge hrequest hbody =>
    have hok := h.ports port p hport
    refine h.move (hok.replied (fun r => by simp) (Or.inl rfl) hok.ready ?_
      (Or.inl (handleFrame_error hbody)))
    intro hwaiting
    rcases hok.waiting hwaiting with hexited | ⟨q, hq, hask, -⟩
    · rw [hbridge] at hexited
      cases hexited
    · rw [hbridge] at hq
      cases hq
      exact hask hrequest
  | daemonGone port p r hport hbridge hclosed =>
    have hok := h.ports port p hport
    exact h.move (hok.replied (fun r => by simp) (Or.inl rfl) hok.ready (by rw [hclosed]; simp)
      (Or.inl ⟨_, rfl⟩))
  | daemon d hstep =>
    exact ⟨h.ports, h.fresh, h.sent, h.settled, h.logged, h.inOrder,
      fun e he => (h.answered e he).mono (ops_grow hstep)⟩

theorem inv_of_reachable (hs : (machine size config ttl grace).Reachable s) : Inv size s := by
  refine hs.invariant (Inv size) ?_ ?_
  · intro s hinit
    exact inv_init hinit
  · intro s s' hreach hinv hstep
    exact inv_step hinv (ext_inv hreach) hstep

/-- No message is handled twice: two requests for one message would have come over one
port, and there they have an order. -/
theorem Inv.handledOnce (h : Inv size s) : (s.log.map Entry.id).Nodup := by
  refine List.pairwise_map.mpr (h.inOrder.imp_of_mem ?_)
  intro e e' he he' horder heq
  have hport := h.logged e he
  rw [heq, h.logged e' he'] at hport
  have hlt := horder (Option.some.inj hport).symm
  omega

end Runs

end BsslRam.Delivery
