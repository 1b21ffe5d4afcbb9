import BsslRam.Lib.Json
import BsslRam.Lib.Machine

/-!
# Requests and replies over the native port

The transport between `extension/background.js` and `bridge/src/main.rs`.  The
extension keeps one port and one queue of resolvers.  It opens a port when there
is none, pushes a resolver for each message it posts, and gives each frame that
arrives to the resolver at the front.  The bridge behind a port answers the frames
it reads one by one.  If it cannot reach the daemon it writes a single error frame
that answers nothing, and exits.

Nothing on the wire says which request a frame answers.  `Frame.answers` and `Frame.port` are
notes of the model, and the code never looks at them.  `Aligned` is the invariant
that makes the order enough: for the live port, the queue of resolvers is what the
frames under way answer, then what the bridge has in its hand, then what it has not
read yet.  Once the bridge has exited only a prefix of the queue can still be
answered, and the error frame may come in front of it.

`replies_matched` is the result for every interleaving of sends, throws, deliveries,
bridge steps, exits and reconnections.
-/

namespace BsslRam.NativePort

open BsslRam.Lib

/-! ## The bridge -/

/-- A message of the extension. -/
structure Request where
  id : Nat
  msg : Json

/-- A frame of a bridge, with the request that it answers and the port of the bridge. -/
structure Frame where
  answers : Option Nat
  body : Json
  port : Nat

/-- `{"ok": false, "reason": reason}`. -/
def errorBody (reason : String) : Json :=
  .object [(Utf16.encode "ok", .bool false), (Utf16.encode "reason", .string (Utf16.encode reason))]

/-- The frame of a bridge that cannot reach the daemon. -/
def terminalFrame (port : Nat) : Frame := ⟨none, errorBody "daemon unreachable", port⟩

/-- `Value::get` on an object. -/
def getField (name : String) (j : Json) : Option Json :=
  j.fields?.bind (fun fields => fields.lookup (Utf16.encode name))

/-- `value[name] = field`.  It panics on a value that is neither an object nor
`null`. -/
def setField (name : String) (field : Json) : Json → Option Json
  | .object fields =>
      some (.object (fields.filter (fun f => f.1 != Utf16.encode name) ++
        [(Utf16.encode name, field)]))
  | .null => some (.object [(Utf16.encode name, field)])
  | _ => none

/-- What the daemon answers to `get_ping` and to `post_report`. -/
structure DaemonAnswers where
  getPing : Except String Json
  postReport : Except String (Bool × UInt16)

/-- `CARGO_PKG_VERSION` of the bridge. -/
def bridgeVersion : String := "0.1.0"

/-- The response of `handle_frame`; nothing if it panics. -/
def handleFrame (frame : Json) (client : DaemonAnswers) : Option Json :=
  let kind := ((getField "kind" frame).bind Json.text).getD ""
  if kind = "ping" then
    match client.getPing with
    | .ok body => do
        let body ← setField "bridge_version" (.string (Utf16.encode bridgeVersion)) body
        setField "bridge_kind" (.string (Utf16.encode "native-messaging-uds")) body
    | .error err => some (errorBody s!"ping failed: {err}")
  else if kind = "report" then
    match client.postReport with
    | .ok (true, _) => some (.object [(Utf16.encode "ok", .bool true)])
    | .ok (false, status) =>
        some (.object [(Utf16.encode "ok", .bool false),
          (Utf16.encode "status", .number (.integer status.toNat))])
    | .error err => some (errorBody err)
  else some (errorBody "unknown kind")

/-- Where `run_bridge` is. -/
inductive Bridge where
  | connecting
  | serving
  | handling (request : Request)
  | exited

/-- A port: its two channels, the bridge at the other end, and whether the
extension has not yet seen it disconnect.  The number is the note that the frames carry. -/
structure Port where
  number : Nat
  toBridge : List Request := []
  toExtension : List Frame := []
  bridge : Bridge := .connecting
  live : Bool := true

/-- The steps of `run_bridge`.  Apart from its own ends, a signal, a closed or
unreadable input or a crash ends it anywhere.  A reply that cannot be written is one
for a port that the browser has closed, and nothing of the bridge arrives after it;
that is an exit as well. -/
inductive BridgeStep : Port → Port → Prop where
  | connect (p : Port) (h : p.bridge = .connecting) : BridgeStep p { p with bridge := .serving }
  | connectFails (p : Port) (h : p.bridge = .connecting) :
      BridgeStep p
        { p with bridge := .exited, toExtension := p.toExtension ++ [terminalFrame p.number] }
  | read (p : Port) (r : Request) (rest : List Request) (h : p.bridge = .serving)
      (hread : p.toBridge = r :: rest) :
      BridgeStep p { p with bridge := .handling r, toBridge := rest }
  | reply (p : Port) (r : Request) (client : DaemonAnswers) (body : Json)
      (h : p.bridge = .handling r) (hbody : handleFrame r.msg client = some body) :
      BridgeStep p
        { p with
          bridge := .serving
          toExtension := p.toExtension ++ [⟨some r.id, body, p.number⟩] }
  | daemonGone (p : Port) (r : Request) (h : p.bridge = .handling r) :
      BridgeStep p
        { p with
          bridge := .exited
          toExtension :=
            p.toExtension ++ [⟨some r.id, errorBody "daemon disconnected", p.number⟩] }
  | exit (p : Port) : BridgeStep p { p with bridge := .exited }

/-! ## The extension -/

/-- How a promise of `sendNative` is settled. -/
inductive Outcome where
  | resolved (frame : Frame)
  | rejected (reason : String)

/-- The module variables of `background.js`, the ports that the browser has opened
for it, and the promises that were settled.  Requests and ports are numbered, and
`postedOn` notes the port of each request. -/
structure State where
  nativePort : Option Nat := none
  pendingResolvers : List Nat := []
  ports : Nat → Option Port := fun _ => none
  opened : Nat := 0
  sent : Nat := 0
  postedOn : Nat → Option Nat := fun _ => none
  settled : List (Nat × Outcome) := []

namespace State

/-- `openNativePort`; `connects` is whether `connectNative` returns. -/
def openNativePort (s : State) (connects : Bool) : State × Option Nat :=
  if connects then
    ({ s with
        ports := Function.update s.ports s.opened (some { number := s.opened })
        opened := s.opened + 1 },
      some s.opened)
  else (s, none)

/-- `getNativePort`. -/
def getNativePort (s : State) (connects : Bool) : State × Option Nat :=
  match s.nativePort with
  | some port => (s, some port)
  | none =>
      let opened := s.openNativePort connects
      ({ opened.1 with nativePort := opened.2 }, opened.2)

/-- The rest of `sendNative`, on the port it got.  `thrown` is what `postMessage`
throws, if it does. -/
def sendOn (s : State) (msg : Json) (thrown : Option String) : Option Nat → State
  | none =>
      { s with
        sent := s.sent + 1
        settled := (s.sent, .rejected "native messaging host unavailable") :: s.settled }
  | some port =>
      let pending := s.pendingResolvers ++ [s.sent]
      match thrown with
      | none =>
          { s with
            sent := s.sent + 1
            pendingResolvers := pending
            postedOn := Function.update s.postedOn s.sent (some port)
            ports := Function.update s.ports port ((s.ports port).map
              (fun p => { p with toBridge := p.toBridge ++ [⟨s.sent, msg⟩] })) }
      | some err =>
          { s with
            sent := s.sent + 1
            pendingResolvers := pending.filter (fun id => id != s.sent)
            settled := (s.sent, .rejected err) :: s.settled }

/-- `sendNative`. -/
def sendNative (s : State) (msg : Json) (connects : Bool) (thrown : Option String) : State :=
  let got := s.getNativePort connects
  got.1.sendOn msg thrown got.2

/-- The `onMessage` listener. -/
def onMessage (s : State) (frame : Frame) : State :=
  match s.pendingResolvers with
  | id :: rest =>
      { s with pendingResolvers := rest, settled := (id, .resolved frame) :: s.settled }
  | [] => s

/-- The `onDisconnect` listener, with `runtime.lastError`. -/
def onDisconnect (s : State) (lastError : Option String) : State :=
  { s with
    nativePort := none
    pendingResolvers := []
    settled := s.pendingResolvers.map
      (fun id => (id, .rejected (lastError.getD "bridge disconnected"))) ++ s.settled }

/-- A port in another state. -/
def setPort (s : State) (port : Nat) (p : Port) : State :=
  { s with ports := Function.update s.ports port (some p) }

end State

/-- One turn of the event loop of the extension, or one step of a bridge.  The
browser delivers frames in order and only while the port is live, and it may
disconnect a live port at any time. -/
inductive Step : State → State → Prop where
  | send (s : State) (msg : Json) (connects : Bool) (thrown : Option String) :
      Step s (s.sendNative msg connects thrown)
  | deliver (s : State) (port : Nat) (p : Port) (frame : Frame) (rest : List Frame)
      (hport : s.ports port = some p) (hlive : p.live = true)
      (hframe : p.toExtension = frame :: rest) :
      Step s ((s.setPort port { p with toExtension := rest }).onMessage frame)
  | disconnect (s : State) (port : Nat) (p : Port) (lastError : Option String)
      (hport : s.ports port = some p) (hlive : p.live = true) :
      Step s ((s.setPort port { p with live := false }).onDisconnect lastError)
  | bridge (s : State) (port : Nat) (p p' : Port) (hport : s.ports port = some p)
      (hstep : BridgeStep p p') : Step s (s.setPort port p')

def machine : Machine State where
  init s := s = {}
  step := Step

/-! ## What is to hold -/

/-- The promise got the error frame that answers nothing. -/
def Told (s : State) (id : Nat) : Prop :=
  ∃ port, (id, Outcome.resolved (terminalFrame port)) ∈ s.settled

/-- One port at a time, one settlement for each promise, its own reply or the
single error frame, each time from the bridge behind its own port, and nothing left behind a
port that is gone. -/
structure Matched (s : State) : Prop where
  oneLive : ∀ port port' p p', s.ports port = some p → s.ports port' = some p' →
    p.live = true → p'.live = true → port = port'
  settledOnce : (s.settled.map Prod.fst).Nodup
  pendingOnce : ∀ id ∈ s.pendingResolvers, id ∉ s.settled.map Prod.fst
  ownReply : ∀ id frame, (id, .resolved frame) ∈ s.settled →
    s.postedOn id = some frame.port ∧
      (frame.answers = some id ∨ frame = terminalFrame frame.port)
  toldOnce : ∀ port id id', s.postedOn id = some port → s.postedOn id' = some port →
    Told s id → Told s id' → id = id'
  noneLeft : ∀ id port p, s.postedOn id = some port → s.ports port = some p → p.live = false →
    id ∉ s.pendingResolvers ∧ id ∈ s.settled.map Prod.fst

/-! ## The queue and the channels -/

/-- The frames of a channel, each with the request it answers. -/
def Answering (frames : List Frame) (ids : List Nat) : Prop :=
  frames.map Frame.answers = ids.map some

/-- The queue of resolvers against the port it waits for. -/
def Aligned (p : Port) (pending : List Nat) : Prop :=
  match p.bridge with
  | .connecting => p.toExtension = [] ∧ pending = p.toBridge.map Request.id
  | .serving =>
      ∃ ids, Answering p.toExtension ids ∧ pending = ids ++ p.toBridge.map Request.id
  | .handling r =>
      ∃ ids, Answering p.toExtension ids ∧ pending = ids ++ r.id :: p.toBridge.map Request.id
  | .exited =>
      p.toExtension = [terminalFrame p.number] ∨
        ∃ ids, Answering p.toExtension ids ∧ ids <+: pending

/-- The bridge may still write its error frame, or has just written it. -/
def MayTell (p : Port) : Prop := p.bridge ≠ .exited ∨ terminalFrame p.number ∈ p.toExtension

/-- The port has its number, and so have its frames. -/
def Numbered (port : Nat) (p : Port) : Prop :=
  p.number = port ∧ ∀ frame ∈ p.toExtension, frame.port = port

theorem answering_append {frames : List Frame} {ids : List Nat} (h : Answering frames ids)
    (id : Nat) (body : Json) (port : Nat) :
    Answering (frames ++ [⟨some id, body, port⟩]) (ids ++ [id]) := by
  unfold Answering at *
  rw [List.map_append, List.map_append, h]
  rfl

/-- A bridge that has exited has answered a prefix of what it was asked. -/
theorem aligned_exit {p : Port} {pending : List Nat} (h : Aligned p pending) :
    Aligned { p with bridge := .exited } pending := by
  unfold Aligned at h ⊢
  cases hbridge : p.bridge with
  | connecting =>
    rw [hbridge] at h
    exact Or.inr ⟨[], by rw [h.1]; rfl, List.nil_prefix⟩
  | serving =>
    rw [hbridge] at h
    obtain ⟨ids, hids, hpending⟩ := h
    exact Or.inr ⟨ids, hids, hpending ▸ List.prefix_append _ _⟩
  | handling r =>
    rw [hbridge] at h
    obtain ⟨ids, hids, hpending⟩ := h
    exact Or.inr ⟨ids, hids, hpending ▸ List.prefix_append _ _⟩
  | exited =>
    rw [hbridge] at h
    exact h

/-- Every step of the bridge keeps the queue aligned. -/
theorem aligned_bridgeStep {p p' : Port} {pending : List Nat} (hstep : BridgeStep p p')
    (h : Aligned p pending) : Aligned p' pending := by
  cases hstep with
  | exit => exact aligned_exit h
  | connect hbridge =>
    unfold Aligned at h
    rw [hbridge] at h
    exact ⟨[], by rw [h.1]; rfl, h.2⟩
  | connectFails hbridge =>
    unfold Aligned at h
    rw [hbridge] at h
    left
    show p.toExtension ++ [terminalFrame p.number] = [terminalFrame p.number]
    rw [h.1]
    rfl
  | read r rest hbridge hread =>
    unfold Aligned at h
    rw [hbridge] at h
    obtain ⟨ids, hids, hpending⟩ := h
    exact ⟨ids, hids, by rw [hpending, hread]; rfl⟩
  | reply r client body hbridge hbody =>
    unfold Aligned at h
    rw [hbridge] at h
    obtain ⟨ids, hids, hpending⟩ := h
    exact ⟨ids ++ [r.id], answering_append hids r.id body p.number, by
      rw [hpending, List.append_assoc]
      rfl⟩
  | daemonGone r hbridge =>
    unfold Aligned at h
    rw [hbridge] at h
    obtain ⟨ids, hids, hpending⟩ := h
    refine Or.inr ⟨ids ++ [r.id],
      answering_append hids r.id (errorBody "daemon disconnected") p.number, ?_⟩
    rw [hpending]
    exact ⟨p.toBridge.map Request.id, by simp⟩

/-- A bridge that has exited has no error frame left to write. -/
theorem mayTell_bridgeStep {p p' : Port} (hstep : BridgeStep p p') (h : MayTell p') :
    MayTell p := by
  cases hstep with
  | connect hbridge => exact Or.inl (by rw [hbridge]; simp)
  | connectFails hbridge => exact Or.inl (by rw [hbridge]; simp)
  | read r rest hbridge hread => exact Or.inl (by rw [hbridge]; simp)
  | reply r client body hbridge hbody => exact Or.inl (by rw [hbridge]; simp)
  | daemonGone r hbridge => exact Or.inl (by rw [hbridge]; simp)
  | exit =>
    rcases h with h | h
    · exact absurd rfl h
    · exact Or.inr h

theorem live_bridgeStep {p p' : Port} (hstep : BridgeStep p p') : p'.live = p.live := by
  cases hstep <;> rfl

/-- A bridge writes frames with the number of its port only. -/
theorem numbered_bridgeStep {p p' : Port} {port : Nat} (hstep : BridgeStep p p')
    (h : Numbered port p) : Numbered port p' := by
  have hwrite : ∀ frame, frame.port = p.number →
      ∀ f ∈ p.toExtension ++ [frame], f.port = port := by
    intro frame hframe
    refine List.forall_mem_append.mpr ⟨h.2, fun f hf => ?_⟩
    rw [List.mem_singleton.mp hf, hframe, h.1]
  cases hstep with
  | connect hbridge => exact h
  | connectFails hbridge => exact ⟨h.1, hwrite _ rfl⟩
  | read r rest hbridge hread => exact h
  | reply r client body hbridge hbody => exact ⟨h.1, hwrite _ rfl⟩
  | daemonGone r hbridge => exact ⟨h.1, hwrite _ rfl⟩
  | exit => exact h

/-- A message that is posted goes to the end of the queue on both sides. -/
theorem aligned_post {p : Port} {pending : List Nat} (h : Aligned p pending) (r : Request) :
    Aligned { p with toBridge := p.toBridge ++ [r] } (pending ++ [r.id]) := by
  unfold Aligned at h ⊢
  cases hbridge : p.bridge with
  | connecting =>
    rw [hbridge] at h
    exact ⟨h.1, by rw [h.2, List.map_append]; rfl⟩
  | serving =>
    rw [hbridge] at h
    obtain ⟨ids, hids, hpending⟩ := h
    exact ⟨ids, hids, by simp [hpending]⟩
  | handling q =>
    rw [hbridge] at h
    obtain ⟨ids, hids, hpending⟩ := h
    exact ⟨ids, hids, by simp [hpending]⟩
  | exited =>
    rw [hbridge] at h
    rcases h with h | h
    · exact Or.inl h
    · obtain ⟨ids, hids, hpending⟩ := h
      exact Or.inr ⟨ids, hids, hpending.trans (List.prefix_append _ _)⟩

/-- The frame at the front answers the resolver at the front, or it is the error
frame and nothing comes after it. -/
theorem aligned_deliver {p : Port} {pending : List Nat} {frame : Frame} {rest : List Frame}
    (h : Aligned p pending) (hframe : p.toExtension = frame :: rest) :
    (frame = terminalFrame p.number ∧ rest = [] ∧ p.bridge = .exited) ∨
      ∃ id pending', frame.answers = some id ∧ pending = id :: pending' ∧
        Aligned { p with toExtension := rest } pending' := by
  have hcons : ∀ ids, Answering p.toExtension ids →
      ∃ id ids', frame.answers = some id ∧ ids = id :: ids' ∧ Answering rest ids' := by
    intro ids hids
    unfold Answering at hids ⊢
    rw [hframe, List.map_cons] at hids
    cases ids with
    | nil => simp at hids
    | cons id ids' =>
      rw [List.map_cons, List.cons.injEq] at hids
      exact ⟨id, ids', hids.1, rfl, hids.2⟩
  unfold Aligned at h
  cases hbridge : p.bridge with
  | connecting =>
    rw [hbridge] at h
    rw [h.1] at hframe
    cases hframe
  | serving =>
    rw [hbridge] at h
    obtain ⟨ids, hids, hpending⟩ := h
    obtain ⟨id, ids', hanswers, rfl, hrest⟩ := hcons ids hids
    exact Or.inr ⟨id, _, hanswers, hpending, ids', hrest, rfl⟩
  | handling q =>
    rw [hbridge] at h
    obtain ⟨ids, hids, hpending⟩ := h
    obtain ⟨id, ids', hanswers, rfl, hrest⟩ := hcons ids hids
    exact Or.inr ⟨id, _, hanswers, hpending, ids', hrest, rfl⟩
  | exited =>
    rw [hbridge] at h
    rcases h with h | h
    · rw [h, List.cons.injEq] at hframe
      exact Or.inl ⟨hframe.1.symm, hframe.2.symm, rfl⟩
    · obtain ⟨ids, hids, hprefix⟩ := h
      obtain ⟨id, ids', hanswers, rfl, hrest⟩ := hcons ids hids
      obtain ⟨tail, htail⟩ := hprefix
      exact Or.inr ⟨id, ids' ++ tail, hanswers, htail.symm,
        Or.inr ⟨ids', hrest, List.prefix_append _ _⟩⟩

/-! ## The invariant -/

/-- The invariant of all runs. -/
structure Inv (s : State) : Prop where
  newPort : ∀ port, s.opened ≤ port → s.ports port = none
  newId : ∀ id, s.sent ≤ id → s.postedOn id = none ∧ id ∉ s.settled.map Prod.fst
  /-- The port in `_nativePort` is the live one. -/
  live : ∀ port p, s.ports port = some p → (p.live = true ↔ s.nativePort = some port)
  native : ∀ port, s.nativePort = some port → ∃ p, s.ports port = some p
  onPort : ∀ id port, s.postedOn id = some port → port < s.opened
  /-- Whatever is pending was posted on the live port. -/
  posted : ∀ id ∈ s.pendingResolvers, ∃ port, s.nativePort = some port ∧
    s.postedOn id = some port
  accounted : ∀ id port, s.postedOn id = some port →
    id ∈ s.pendingResolvers ∨ id ∈ s.settled.map Prod.fst
  once : (s.settled.map Prod.fst ++ s.pendingResolvers).Nodup
  ownReply : ∀ id frame, (id, .resolved frame) ∈ s.settled →
    s.postedOn id = some frame.port ∧
      (frame.answers = some id ∨ frame = terminalFrame frame.port)
  numbered : ∀ port p, s.ports port = some p → Numbered port p
  aligned : ∀ port p, s.ports port = some p → s.nativePort = some port →
    Aligned p s.pendingResolvers
  untold : ∀ port p, s.ports port = some p → s.nativePort = some port → MayTell p →
    ∀ id, s.postedOn id = some port → ¬ Told s id
  toldOnce : ∀ port id id', s.postedOn id = some port → s.postedOn id' = some port →
    Told s id → Told s id' → id = id'

theorem matched_of_inv {s : State} (h : Inv s) : Matched s where
  oneLive := by
    intro port port' p p' hp hp' hlive hlive'
    have hport := (h.live port p hp).mp hlive
    have hport' := (h.live port' p' hp').mp hlive'
    rw [hport] at hport'
    exact Option.some.inj hport'
  settledOnce := (List.nodup_append.mp h.once).1
  pendingOnce := by
    intro id hid hsettled
    exact (List.nodup_append.mp h.once).2.2 id hsettled id hid rfl
  ownReply := h.ownReply
  toldOnce := h.toldOnce
  noneLeft := by
    intro id port p hposted hp hdead
    have hnot : id ∉ s.pendingResolvers := by
      intro hid
      obtain ⟨port', hnative, hposted'⟩ := h.posted id hid
      rw [hposted] at hposted'
      cases hposted'
      rw [(h.live port p hp).mpr hnative] at hdead
      cases hdead
    exact ⟨hnot, (h.accounted id port hposted).resolve_left hnot⟩

theorem inv_initial : Inv {} where
  newPort := fun _ _ => rfl
  newId := fun _ _ => ⟨rfl, List.not_mem_nil⟩
  live := fun _ _ hp => by cases hp
  native := fun _ hnative => by cases hnative
  onPort := fun _ _ hposted => by cases hposted
  posted := fun _ hid => by cases hid
  accounted := fun _ _ hposted => by cases hposted
  once := List.nodup_nil
  ownReply := fun _ _ hmem => by cases hmem
  numbered := fun _ _ hp => by cases hp
  aligned := fun _ _ hp => by cases hp
  untold := fun _ _ hp => by cases hp
  toldOnce := fun _ _ _ hposted => by cases hposted

section Steps

variable {s : State}

theorem pending_eq_nil (h : Inv s) (hnone : s.nativePort = none) : s.pendingResolvers = [] := by
  apply List.eq_nil_iff_forall_not_mem.mpr
  intro id hid
  obtain ⟨port, hnative, _⟩ := h.posted id hid
  rw [hnone] at hnative
  cases hnative

theorem port_lt_opened (h : Inv s) {port : Nat} {p : Port} (hport : s.ports port = some p) :
    port < s.opened := by
  by_contra hge
  rw [h.newPort port (by omega)] at hport
  cases hport

theorem lt_sent_of_posted (h : Inv s) {id port : Nat} (hposted : s.postedOn id = some port) :
    id < s.sent := by
  by_contra hge
  rw [(h.newId id (by omega)).1] at hposted
  cases hposted

theorem lt_sent_of_pending (h : Inv s) {id : Nat} (hid : id ∈ s.pendingResolvers) :
    id < s.sent := by
  obtain ⟨port, _, hposted⟩ := h.posted id hid
  exact lt_sent_of_posted h hposted

theorem lt_sent_of_settled (h : Inv s) {id : Nat} (hid : id ∈ s.settled.map Prod.fst) :
    id < s.sent := by
  by_contra hge
  exact (h.newId id (by omega)).2 hid

theorem ports_setPort (port q : Nat) (p : Port) :
    (s.setPort port p).ports q = if q = port then some p else s.ports q :=
  Function.update_apply s.ports port (some p) q

/-- What holds of all ports has to be shown of the one that moves. -/
theorem forall_ports_setPort {P : Nat → Port → Prop} {port : Nat} {p : Port}
    (hself : P port p) (hother : ∀ q r, s.ports q = some r → P q r) :
    ∀ q r, (s.setPort port p).ports q = some r → P q r := by
  intro q r hr
  rw [ports_setPort] at hr
  split at hr
  · rename_i hq
    cases hr
    rw [hq]
    exact hself
  · exact hother q r hr

theorem newPort_setPort (h : Inv s) {port : Nat} {p : Port} (hport : s.ports port = some p)
    (p' : Port) : ∀ q, s.opened ≤ q → (s.setPort port p').ports q = none := by
  intro q hq
  have hlt := port_lt_opened h hport
  rw [ports_setPort, if_neg (by omega)]
  exact h.newPort q hq

/-- What holds of the live port, when it is the one that moves. -/
theorem forall_native_setPort {P : Nat → Port → Prop} {port : Nat} {p : Port}
    (hnative : s.nativePort = some port) (hself : P port p) :
    ∀ q r, (s.setPort port p).ports q = some r → s.nativePort = some q → P q r := by
  intro q r hr hq
  rw [hnative] at hq
  cases hq
  rw [ports_setPort, if_pos rfl] at hr
  cases hr
  exact hself

theorem native_setPort (h : Inv s) (port : Nat) (p' : Port) :
    ∀ q, s.nativePort = some q → ∃ r, (s.setPort port p').ports q = some r := by
  intro q hq
  rw [ports_setPort]
  split
  · exact ⟨p', rfl⟩
  · exact h.native q hq

/-- A port may move on as long as it stays aligned with the queue. -/
theorem inv_setPort (h : Inv s) {port : Nat} {p p' : Port} (hport : s.ports port = some p)
    (hlive : p'.live = p.live)
    (haligned : Aligned p s.pendingResolvers → Aligned p' s.pendingResolvers)
    (hnumbered : Numbered port p → Numbered port p')
    (htell : MayTell p' → MayTell p) : Inv (s.setPort port p') := by
  refine ⟨newPort_setPort h hport p', h.newId, forall_ports_setPort ?_ h.live,
    native_setPort h port p', h.onPort, h.posted, h.accounted, h.once, h.ownReply,
    forall_ports_setPort (hnumbered (h.numbered port p hport)) h.numbered,
    forall_ports_setPort ?_ h.aligned, forall_ports_setPort ?_ h.untold, h.toldOnce⟩
  · rw [hlive]
    exact h.live port p hport
  · intro hnative
    exact haligned (h.aligned port p hport hnative)
  · intro hnative hmay
    exact h.untold port p hport hnative (htell hmay)

theorem inv_bridge (h : Inv s) {port : Nat} {p p' : Port} (hport : s.ports port = some p)
    (hstep : BridgeStep p p') : Inv (s.setPort port p') :=
  inv_setPort h hport (live_bridgeStep hstep) (aligned_bridgeStep hstep)
    (numbered_bridgeStep hstep) (mayTell_bridgeStep hstep)

/-- A new port is the only live one, and nobody waits for it yet. -/
theorem inv_open (h : Inv s) (hnone : s.nativePort = none) :
    Inv { s with
      ports := Function.update s.ports s.opened (some { number := s.opened })
      opened := s.opened + 1
      nativePort := some s.opened } := by
  have hpending := pending_eq_nil h hnone
  have hports : ∀ q, State.ports { s with
      ports := Function.update s.ports s.opened (some { number := s.opened })
      opened := s.opened + 1
      nativePort := some s.opened } q =
        if q = s.opened then some { number := s.opened } else s.ports q :=
    fun q => Function.update_apply s.ports s.opened (some { number := s.opened }) q
  refine ⟨?_, h.newId, ?_, ?_, ?_, ?_, h.accounted, h.once, h.ownReply, ?_, ?_, ?_, h.toldOnce⟩
  · intro q hq
    change s.opened + 1 ≤ q at hq
    rw [hports, if_neg (by omega)]
    exact h.newPort q (by omega)
  · intro q r hr
    show r.live = true ↔ some s.opened = some q
    rw [hports] at hr
    split at hr
    · rename_i hq
      cases hr
      rw [hq]
      exact iff_of_true rfl rfl
    · rename_i hq
      -- an older port is not live, since there was none
      rw [h.live q r hr, hnone]
      refine iff_of_false (by simp) ?_
      intro heq
      exact hq (Option.some.inj heq).symm
  · intro q hq
    cases hq
    exact ⟨{ number := s.opened }, by rw [hports, if_pos rfl]⟩
  · intro id port hposted
    exact Nat.lt_succ_of_lt (h.onPort id port hposted)
  · intro id hid
    change id ∈ s.pendingResolvers at hid
    rw [hpending] at hid
    cases hid
  · intro q r hr
    rw [hports] at hr
    split at hr
    · rename_i hq
      cases hr
      exact ⟨hq.symm, fun _ hf => by cases hf⟩
    · exact h.numbered q r hr
  · intro q r hr hq
    cases hq
    rw [hports, if_pos rfl] at hr
    cases hr
    show Aligned { number := s.opened } s.pendingResolvers
    rw [hpending]
    exact ⟨rfl, rfl⟩
  · intro q r _ hq _ id hposted
    cases hq
    exact absurd (h.onPort id _ hposted) (Nat.lt_irrefl _)

/-- `getNativePort` returns what is then in `_nativePort`. -/
theorem inv_getNativePort (h : Inv s) (connects : Bool) :
    Inv (s.getNativePort connects).1 ∧
      (s.getNativePort connects).2 = (s.getNativePort connects).1.nativePort := by
  unfold State.getNativePort
  cases hnative : s.nativePort with
  | some port => exact ⟨h, hnative.symm⟩
  | none =>
    cases connects with
    | true => exact ⟨inv_open h hnative, rfl⟩
    | false =>
      have hsame : { s with nativePort := none } = s := by rw [← hnative]
      refine ⟨?_, rfl⟩
      show Inv { s with nativePort := none }
      rw [hsame]
      exact h

/-- The next promise is neither settled nor pending. -/
theorem sent_fresh (h : Inv s) : s.sent ∉ s.settled.map Prod.fst ++ s.pendingResolvers := by
  intro hmem
  rcases List.mem_append.mp hmem with hsettled | hpending
  · exact Nat.lt_irrefl _ (lt_sent_of_settled h hsettled)
  · exact Nat.lt_irrefl _ (lt_sent_of_pending h hpending)

/-- A promise that is rejected at once has no resolver in the queue. -/
theorem inv_reject (h : Inv s) (reason : String) :
    Inv { s with sent := s.sent + 1, settled := (s.sent, .rejected reason) :: s.settled } := by
  have htold : ∀ id, Told { s with
      sent := s.sent + 1, settled := (s.sent, .rejected reason) :: s.settled } id → Told s id := by
    rintro id ⟨port, hid⟩
    exact ⟨port, (List.mem_cons.mp hid).resolve_left (by simp)⟩
  refine ⟨h.newPort, ?_, h.live, h.native, h.onPort, h.posted, ?_, ?_, ?_, h.numbered, h.aligned,
    ?_, ?_⟩
  · intro id hid
    change s.sent + 1 ≤ id at hid
    obtain ⟨hposted, hsettled⟩ := h.newId id (by omega)
    refine ⟨hposted, ?_⟩
    show id ∉ s.sent :: s.settled.map Prod.fst
    rw [List.mem_cons, not_or]
    exact ⟨by omega, hsettled⟩
  · intro id port hposted
    rcases h.accounted id port hposted with hpending | hsettled
    · exact Or.inl hpending
    · exact Or.inr (List.mem_cons_of_mem _ hsettled)
  · show (s.sent :: (s.settled.map Prod.fst ++ s.pendingResolvers)).Nodup
    rw [List.nodup_cons]
    exact ⟨sent_fresh h, h.once⟩
  · intro id frame hmem
    exact h.ownReply id frame ((List.mem_cons.mp hmem).resolve_left (by simp))
  · intro port p hp hnative hmay id hposted hid
    exact h.untold port p hp hnative hmay id hposted (htold id hid)
  · intro port id id' hposted hposted' hid hid'
    exact h.toldOnce port id id' hposted hposted' (htold id hid) (htold id' hid')

/-- The resolver that a throw takes out again is the one that was just pushed. -/
theorem filter_pushed (h : Inv s) :
    (s.pendingResolvers ++ [s.sent]).filter (fun id => id != s.sent) = s.pendingResolvers := by
  rw [List.filter_append, List.filter_eq_self.mpr]
  · simp
  · intro id hid
    have hlt := lt_sent_of_pending h hid
    simp only [bne_iff_ne]
    omega

theorem sendOn_thrown (h : Inv s) (msg : Json) (port : Nat) (err : String) :
    s.sendOn msg (some err) (some port) =
      { s with sent := s.sent + 1, settled := (s.sent, .rejected err) :: s.settled } := by
  simp only [State.sendOn, filter_pushed h]

/-- A message that is posted has its resolver at the end of the queue. -/
theorem inv_post (h : Inv s) {port : Nat} (hnative : s.nativePort = some port) (msg : Json) :
    Inv (s.sendOn msg none (some port)) := by
  obtain ⟨p, hp⟩ := h.native port hnative
  have hports : (s.sendOn msg none (some port)).ports =
      (s.setPort port { p with toBridge := p.toBridge ++ [⟨s.sent, msg⟩] }).ports := by
    simp only [State.sendOn, State.setPort, hp, Option.map_some]
  have hposted : ∀ id, (s.sendOn msg none (some port)).postedOn id =
      if id = s.sent then some port else s.postedOn id :=
    fun id => Function.update_apply s.postedOn s.sent (some port) id
  have hold : ∀ id outcome, (id, outcome) ∈ s.settled → id ≠ s.sent := by
    intro id outcome hmem
    exact Nat.ne_of_lt (lt_sent_of_settled h (List.mem_map.mpr ⟨_, hmem, rfl⟩))
  have hne : ∀ id, Told s id → id ≠ s.sent := by
    rintro id ⟨_, hid⟩
    exact hold id _ hid
  refine ⟨?_, ?_, ?_, ?_, ?_, ?_, ?_, ?_, ?_, ?_, ?_, ?_, ?_⟩
  · rw [hports]
    exact newPort_setPort h hp _
  · intro id hid
    change s.sent + 1 ≤ id at hid
    rw [hposted, if_neg (by omega)]
    exact h.newId id (by omega)
  · rw [hports]
    exact forall_ports_setPort (h.live port p hp) h.live
  · rw [hports]
    exact native_setPort h port _
  · intro id q hq
    rw [hposted] at hq
    split at hq
    · cases hq
      exact port_lt_opened h hp
    · exact h.onPort id q hq
  · intro id hid
    rw [hposted]
    rcases List.mem_append.mp hid with hold | hnew
    · split
      · exact ⟨port, hnative, rfl⟩
      · exact h.posted id hold
    · rw [if_pos (List.mem_singleton.mp hnew)]
      exact ⟨port, hnative, rfl⟩
  · intro id q hq
    rw [hposted] at hq
    split at hq
    · rename_i hid
      exact Or.inl (List.mem_append_right _ (List.mem_singleton.mpr hid))
    · rcases h.accounted id q hq with hpending | hsettled
      · exact Or.inl (List.mem_append_left _ hpending)
      · exact Or.inr hsettled
  · show (s.settled.map Prod.fst ++ (s.pendingResolvers ++ [s.sent])).Nodup
    rw [← List.append_assoc]
    exact (List.perm_append_singleton _ _).nodup_iff.mpr
      (List.nodup_cons.mpr ⟨sent_fresh h, h.once⟩)
  · intro id frame hmem
    rw [hposted, if_neg (hold id _ hmem)]
    exact h.ownReply id frame hmem
  · rw [hports]
    exact forall_ports_setPort (h.numbered port p hp) h.numbered
  · rw [hports]
    exact forall_native_setPort hnative
      (aligned_post (h.aligned port p hp hnative) ⟨s.sent, msg⟩)
  · rw [hports]
    refine forall_native_setPort hnative ?_
    intro hmay id hid htold
    rw [hposted, if_neg (hne id htold)] at hid
    exact h.untold port p hp hnative hmay id hid htold
  · intro q id id' hid hid' htold htold'
    rw [hposted, if_neg (hne id htold)] at hid
    rw [hposted, if_neg (hne id' htold')] at hid'
    exact h.toldOnce q id id' hid hid' htold htold'

theorem inv_sendNative (h : Inv s) (msg : Json) (connects : Bool) (thrown : Option String) :
    Inv (s.sendNative msg connects thrown) := by
  obtain ⟨hgot, hnative⟩ := inv_getNativePort h connects
  show Inv ((s.getNativePort connects).1.sendOn msg thrown (s.getNativePort connects).2)
  rw [hnative]
  cases hport : (s.getNativePort connects).1.nativePort with
  | none => exact inv_reject hgot _
  | some port =>
    cases thrown with
    | none => exact inv_post hgot hport msg
    | some err =>
      rw [sendOn_thrown hgot]
      exact inv_reject hgot err

/-- A frame that is handed over tells its promise the fatal error, or nobody. -/
theorem told_of_cons {s' : State} {id i : Nat} {frame : Frame}
    (hsettled : s'.settled = (id, .resolved frame) :: s.settled) (htold : Told s' i) :
    (i = id ∧ frame = terminalFrame frame.port) ∨ Told s i := by
  obtain ⟨port, hi⟩ := htold
  rw [hsettled] at hi
  rcases List.mem_cons.mp hi with heq | hi
  · rw [Prod.mk.injEq, Outcome.resolved.injEq] at heq
    exact Or.inl ⟨heq.1, by rw [← heq.2]; rfl⟩
  · exact Or.inr ⟨port, hi⟩

/-- If nobody on the port was told before, the promise that is told now is the only one. -/
theorem toldOnce_of_cons (h : Inv s) {s' : State} {port id : Nat} {frame : Frame}
    (hsettled : s'.settled = (id, .resolved frame) :: s.settled)
    (hid : s.postedOn id = some port)
    (hfirst : frame = terminalFrame frame.port → ∀ i, s.postedOn i = some port → ¬ Told s i)
    {q i i' : Nat} (hposted : s.postedOn i = some q) (hposted' : s.postedOn i' = some q)
    (hi : Told s' i) (hi' : Told s' i') : i = i' := by
  rcases told_of_cons hsettled hi with hnow | hearlier
  · rcases told_of_cons hsettled hi' with hnow' | hearlier'
    · rw [hnow.1, hnow'.1]
    · rw [hnow.1, hid] at hposted
      cases hposted
      exact absurd hearlier' (hfirst hnow.2 i' hposted')
  · rcases told_of_cons hsettled hi' with hnow' | hearlier'
    · rw [hnow'.1, hid] at hposted'
      cases hposted'
      exact absurd hearlier (hfirst hnow'.2 i hposted)
    · exact h.toldOnce q i i' hposted hposted' hearlier hearlier'

/-- The resolver at the front gets the frame that the live port delivers. -/
theorem inv_resolve (h : Inv s) {port : Nat} {p p' : Port} (hport : s.ports port = some p)
    (hnative : s.nativePort = some port) {id : Nat} {rest : List Nat} {frame : Frame}
    (hpending : s.pendingResolvers = id :: rest) (haligned : Aligned p' rest)
    (hlive : p'.live = p.live) (hnumbered : Numbered port p') (hfrom : frame.port = port)
    (hown : frame.answers = some id ∨ frame = terminalFrame frame.port)
    (hbefore : MayTell p' ∨ frame = terminalFrame frame.port → MayTell p)
    (hafter : frame = terminalFrame frame.port → ¬ MayTell p') :
    Inv { s.setPort port p' with
      pendingResolvers := rest, settled := (id, .resolved frame) :: s.settled } := by
  have hid : s.postedOn id = some port := by
    obtain ⟨q, hq, hposted⟩ := h.posted id (by rw [hpending]; exact List.mem_cons_self)
    rw [hnative] at hq
    cases hq
    exact hposted
  have hfirst : frame = terminalFrame frame.port → ∀ i, s.postedOn i = some port → ¬ Told s i :=
    fun hframe => h.untold port p hport hnative (hbefore (Or.inr hframe))
  refine ⟨newPort_setPort h hport p', ?_, forall_ports_setPort ?_ h.live,
    native_setPort h port p', h.onPort, ?_, ?_, ?_, ?_,
    forall_ports_setPort hnumbered h.numbered, ?_, ?_, ?_⟩
  · intro i hi
    obtain ⟨hposted, hsettled⟩ := h.newId i hi
    refine ⟨hposted, ?_⟩
    show i ∉ id :: s.settled.map Prod.fst
    rw [List.mem_cons, not_or]
    have hlt := lt_sent_of_posted h hid
    change s.sent ≤ i at hi
    exact ⟨by omega, hsettled⟩
  · rw [hlive]
    exact h.live port p hport
  · intro i hi
    exact h.posted i (by rw [hpending]; exact List.mem_cons_of_mem _ hi)
  · intro i q hq
    show i ∈ rest ∨ i ∈ id :: s.settled.map Prod.fst
    rcases h.accounted i q hq with hold | hsettled
    · rw [hpending] at hold
      rcases List.mem_cons.mp hold with heq | hrest
      · exact Or.inr (heq ▸ List.mem_cons_self)
      · exact Or.inl hrest
    · exact Or.inr (List.mem_cons_of_mem _ hsettled)
  · have honce := h.once
    rw [hpending] at honce
    exact (List.perm_middle.nodup_iff).mp honce
  · intro i f hmem
    rcases List.mem_cons.mp hmem with heq | hmem
    · rw [Prod.mk.injEq, Outcome.resolved.injEq] at heq
      rw [heq.1, heq.2]
      exact ⟨hid.trans (congrArg some hfrom.symm), hown⟩
    · exact h.ownReply i f hmem
  · exact forall_native_setPort hnative haligned
  · refine forall_native_setPort hnative ?_
    intro hmay i hposted hi
    rcases told_of_cons rfl hi with hnow | hearlier
    · exact hafter hnow.2 hmay
    · exact h.untold port p hport hnative (hbefore (Or.inl hmay)) i hposted hearlier
  · exact fun q i i' hposted hposted' => toldOnce_of_cons h rfl hid hfirst hposted hposted'

theorem onMessage_cons {port : Nat} {p : Port} {frame : Frame} {id : Nat} {rest : List Nat}
    (hpending : s.pendingResolvers = id :: rest) :
    (s.setPort port p).onMessage frame =
      { s.setPort port p with
        pendingResolvers := rest, settled := (id, .resolved frame) :: s.settled } := by
  simp only [State.onMessage, State.setPort, hpending]

theorem onMessage_nil {port : Nat} {p : Port} {frame : Frame}
    (hpending : s.pendingResolvers = []) :
    (s.setPort port p).onMessage frame = s.setPort port p := by
  simp only [State.onMessage, State.setPort, hpending]

theorem inv_deliver (h : Inv s) {port : Nat} {p : Port} {frame : Frame} {rest : List Frame}
    (hport : s.ports port = some p) (hlive : p.live = true)
    (hframe : p.toExtension = frame :: rest) :
    Inv ((s.setPort port { p with toExtension := rest }).onMessage frame) := by
  have hnative := (h.live port p hport).mp hlive
  obtain ⟨hnumber, hfrom⟩ := h.numbered port p hport
  rw [hframe] at hfrom
  have hnumbered : Numbered port { p with toExtension := rest } :=
    ⟨hnumber, fun f hf => hfrom f (List.mem_cons_of_mem _ hf)⟩
  have hmay : MayTell { p with toExtension := rest } → MayTell p := by
    intro hrest
    rcases hrest with hbridge | hmem
    · exact Or.inl hbridge
    · exact Or.inr (by rw [hframe]; exact List.mem_cons_of_mem _ hmem)
  rcases aligned_deliver (h.aligned port p hport hnative) hframe with hterminal | hreply
  · obtain ⟨rfl, rfl, hbridge⟩ := hterminal
    have hsilent : ∀ pending, Aligned { p with toExtension := [] } pending := by
      intro pending
      unfold Aligned
      rw [hbridge]
      exact Or.inr ⟨[], rfl, List.nil_prefix⟩
    cases hpending : s.pendingResolvers with
    | nil =>
      -- nobody waits for the error frame of a port on which every send threw
      rw [onMessage_nil hpending]
      exact inv_setPort h hport rfl (fun _ => hsilent _) (fun _ => hnumbered) hmay
    | cons id waiting =>
      rw [onMessage_cons hpending]
      refine inv_resolve h hport hnative hpending (hsilent _) rfl hnumbered
        (hfrom _ List.mem_cons_self) (Or.inr rfl) ?_ ?_
      · intro _
        exact Or.inr (by rw [hframe]; exact List.mem_cons_self)
      · intro _ htell
        rcases htell with hnot | hmem
        · exact hnot hbridge
        · cases hmem
  · obtain ⟨id, waiting, hanswers, hpending, haligned⟩ := hreply
    have hne : frame ≠ terminalFrame frame.port := by
      intro heq
      rw [heq] at hanswers
      cases hanswers
    rw [onMessage_cons hpending]
    refine inv_resolve h hport hnative hpending haligned rfl hnumbered
      (hfrom _ List.mem_cons_self) (Or.inl hanswers) ?_ ?_
    · intro htell
      exact hmay (htell.resolve_right hne)
    · intro heq
      exact absurd heq hne

/-- The listener rejects whatever is pending, and all of it was sent on this port. -/
theorem inv_disconnect (h : Inv s) {port : Nat} {p : Port} (hport : s.ports port = some p)
    (hlive : p.live = true) (lastError : Option String) :
    Inv ((s.setPort port { p with live := false }).onDisconnect lastError) := by
  have hnative := (h.live port p hport).mp hlive
  have hfst : ((s.setPort port { p with live := false }).onDisconnect lastError).settled.map
      Prod.fst = s.pendingResolvers ++ s.settled.map Prod.fst := by
    show ((s.pendingResolvers.map _) ++ s.settled).map Prod.fst = _
    rw [List.map_append, List.map_map]
    exact congrArg (fun ids => ids ++ _) (List.map_id _)
  have hresolved : ∀ id frame, (id, Outcome.resolved frame) ∈
      ((s.setPort port { p with live := false }).onDisconnect lastError).settled →
      (id, Outcome.resolved frame) ∈ s.settled := by
    intro id frame hmem
    rcases List.mem_append.mp hmem with hmem | hmem
    · obtain ⟨_, _, heq⟩ := List.mem_map.mp hmem
      cases heq
    · exact hmem
  refine ⟨newPort_setPort h hport _, ?_, ?_, ?_, h.onPort, ?_, ?_, ?_, ?_,
    forall_ports_setPort (h.numbered port p hport) h.numbered, ?_, ?_, ?_⟩
  · intro id hid
    obtain ⟨hposted, hsettled⟩ := h.newId id hid
    refine ⟨hposted, ?_⟩
    rw [hfst, List.mem_append, not_or]
    refine ⟨?_, hsettled⟩
    intro hpending
    have hlt := lt_sent_of_pending h hpending
    change s.sent ≤ id at hid
    omega
  · intro q r hr
    show r.live = true ↔ none = some q
    change (s.setPort port { p with live := false }).ports q = some r at hr
    refine iff_of_false ?_ (by simp)
    rw [ports_setPort] at hr
    split at hr
    · cases hr
      simp
    · rename_i hq
      rw [h.live q r hr, hnative]
      intro heq
      exact hq (Option.some.inj heq).symm
  · intro q hq
    cases hq
  · intro id hid
    cases hid
  · intro id q hq
    rw [hfst, List.mem_append]
    exact Or.inr (h.accounted id q hq)
  · rw [hfst]
    show ((s.pendingResolvers ++ s.settled.map Prod.fst) ++ []).Nodup
    rw [List.append_nil]
    exact List.perm_append_comm.nodup_iff.mp h.once
  · intro id frame hmem
    exact h.ownReply id frame (hresolved id frame hmem)
  · intro q r _ hq
    cases hq
  · intro q r _ hq
    cases hq
  · rintro q id id' hposted hposted' ⟨_, htold⟩ ⟨_, htold'⟩
    exact h.toldOnce q id id' hposted hposted' ⟨_, hresolved id _ htold⟩ ⟨_, hresolved id' _ htold'⟩

theorem inv_step {s' : State} (h : Inv s) (hstep : Step s s') : Inv s' := by
  cases hstep with
  | send msg connects thrown => exact inv_sendNative h msg connects thrown
  | deliver port p frame rest hport hlive hframe => exact inv_deliver h hport hlive hframe
  | disconnect port p lastError hport hlive => exact inv_disconnect h hport hlive lastError
  | bridge port p p' hport hbridge => exact inv_bridge h hport hbridge

end Steps

/-! ## Every run -/

theorem replies_matched {s : State} (hs : machine.Reachable s) : Matched s := by
  apply matched_of_inv
  refine hs.invariant Inv ?_ ?_
  · intro s hinit
    rw [hinit]
    exact inv_initial
  · intro s s' _ hinv hstep
    exact inv_step hinv hstep

/-- A report that the daemon takes. -/
def reportMsg : Json := .object [(Utf16.encode "kind", .string (Utf16.encode "report"))]

def okBody : Json := .object [(Utf16.encode "ok", .bool true)]

theorem handleFrame_reportMsg (getPing : Except String Json) (status : UInt16) :
    handleFrame reportMsg ⟨getPing, .ok (true, status)⟩ = some okBody := by
  have hkind : ((getField "kind" reportMsg).bind Json.text).getD "" = "report" := by
    have hfield : getField "kind" reportMsg = some (.string (Utf16.encode "report")) := by
      simp [getField, reportMsg, Json.fields?]
    rw [hfield]
    simp [Json.text, Utf16.decode_encode]
  unfold handleFrame
  rw [hkind, if_neg (by decide), if_pos rfl]
  rfl

/-- Two reports go to the first port, which is closed when one of them is answered.  The third
goes to a second port, and its bridge cannot reach the daemon. -/
theorem exists_settled :
    ∃ s, machine.Reachable s ∧ s.pendingResolvers = [] ∧ s.settled =
      [(2, .resolved (terminalFrame 1)), (1, .rejected "bridge disconnected"),
        (0, .resolved ⟨some 0, okBody, 0⟩)] := by
  have hfirst : machine.Reachable _ := .tail (.start rfl) (Step.send {} reportMsg true none)
  have hsecond := hfirst.tail (Step.send _ reportMsg true none)
  have hserving := hsecond.tail (Step.bridge _ 0 _ _ rfl (.connect _ rfl))
  have hhandling := hserving.tail
    (Step.bridge _ 0 _ _ rfl (.read _ ⟨0, reportMsg⟩ [⟨1, reportMsg⟩] rfl rfl))
  have hreplied := hhandling.tail (Step.bridge _ 0 _ _ rfl
    (.reply _ ⟨0, reportMsg⟩ ⟨.error "", .ok (true, 200)⟩ okBody rfl
      (handleFrame_reportMsg (.error "") 200)))
  have hdelivered := hreplied.tail (Step.deliver _ 0 _ ⟨some 0, okBody, 0⟩ [] rfl rfl rfl)
  have hclosed := hdelivered.tail (Step.disconnect _ 0 _ none rfl rfl)
  have hthird := hclosed.tail (Step.send _ reportMsg true none)
  have hfailed := hthird.tail (Step.bridge _ 1 _ _ rfl (.connectFails _ rfl))
  have htold := hfailed.tail (Step.deliver _ 1 _ (terminalFrame 1) [] rfl rfl rfl)
  exact ⟨_, htold, rfl, rfl⟩

/-- Each of the three promises is settled once, by its own port. -/
theorem replies_matched_three_reports :
    ∃ s, machine.Reachable s ∧ s.pendingResolvers = [] ∧ s.settled =
      [(2, .resolved (terminalFrame 1)), (1, .rejected "bridge disconnected"),
        (0, .resolved ⟨some 0, okBody, 0⟩)] ∧ Matched s := by
  obtain ⟨s, hs, hpending, hsettled⟩ := exists_settled
  exact ⟨s, hs, hpending, hsettled, replies_matched hs⟩

end BsslRam.NativePort
