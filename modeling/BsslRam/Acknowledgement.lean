import BsslRam.Delivery

/-!
# What an answer to the extension says

Results about the system of `Delivery`, for every interleaving of the extension, its
bridges, their connections and the daemon.

* `acknowledged_once`: a report for which `postToDaemon` returns `true` was accepted by
  the daemon, exactly once.
* `acknowledged_protects`: it keeps the tabs of its family from being paged out, until it
  is older than the TTL or a later report takes its place.
* `handshake_agrees`: a ping that comes back without an error is the daemon's own answer,
  with the version that the extension expects.
-/

namespace BsslRam.Delivery

open BsslRam.Lib BsslRam.Signals BsslRam.NativePort
open BsslRam.SignalRequests (handle handle_cases Valid canonicalReport canonicalFamily_eq_some_iff)
open BsslRam.ReportCodec (decodeReport)

/-! ## Acknowledgements -/

/-- `Boolean(v)` of a JSON value. -/
def truthy : Json → Bool
  | .null => false
  | .bool b => b
  | .number (.integer i) => i != 0
  | .number (.decimal significand exponent) =>
      Binary64.round (significand * 10 ^ exponent) != 0
  | .string units => !units.isEmpty
  | .array _ | .object _ => true

/-- What `postToDaemon` returns when its promise is settled: `resp?.ok` decides. -/
def postToDaemon : Outcome → Bool
  | .resolved frame => ((getField "ok" frame.body).map truthy).getD false
  | .rejected _ => false

/-- The message that `postToDaemon` sends. -/
def reportMessage (payload : Json) : Json :=
  .object
    [(Utf16.encode "kind", .string (Utf16.encode "report")), (Utf16.encode "payload", payload)]

/-- The report was sent, and `postToDaemon` returned `true` for it. -/
def Acknowledged (s : State) (id : Nat) (payload : Json) : Prop :=
  s.messages[id]? = some (reportMessage payload) ∧
    ∃ outcome, (id, outcome) ∈ s.ext.settled ∧ postToDaemon outcome = true

/-- The daemon has accepted the report of this payload. -/
structure Accepted (size : Json → Nat) (s : State) (e : Entry) (payload : Json)
    (report : BrowserSignalsReport) : Prop where
  mem : e ∈ s.log
  request : e.request = .postReport payload
  extracted : extractReport size payload = .ok report
  valid : Valid e.wall (bridgeRequest report)
  applied : e.before ++ [.report e.now e.wall report] <+: s.daemon.ops

section Acknowledged

variable {size : Json → Nat} {s : State} {id : Nat} {payload : Json}

theorem lookup_encode (name key : String) (field : Json) (rest : List (List UInt16 × Json)) :
    List.lookup (Utf16.encode name) ((Utf16.encode key, field) :: rest) =
      if name = key then some field else rest.lookup (Utf16.encode name) := by
  by_cases h : name = key
  · simp [h]
  · have hne : Utf16.encode name ≠ Utf16.encode key := fun heq => h (Utf16.encode_inj.mp heq)
    simp [List.lookup, h, beq_eq_false_iff_ne.mpr hne]

theorem kind_reportMessage (payload : Json) :
    getField "kind" (reportMessage payload) = some (.string (Utf16.encode "report")) := by
  simp [getField, reportMessage, Json.fields?]

theorem httpRequest_reportMessage (payload : Json) :
    httpRequest (reportMessage payload) = some (.postReport payload) := by
  have hpayload : getField "payload" (reportMessage payload) = some payload := by
    simp [getField, reportMessage, Json.fields?, lookup_encode]
  simp [httpRequest, kind_reportMessage, hpayload, Json.text, Utf16.decode_encode]

/-- `handle_frame` answers a report with `ok: true` for a successful status only. -/
theorem handleFrame_reportMessage {response : HttpResponse} {body : Json}
    (hbody : handleFrame (reportMessage payload) (clientReturns (.ok response)) = some body) :
    getField "ok" body = some (.bool response.status.isSuccess) := by
  simp only [handleFrame, kind_reportMessage, Option.bind_some, Json.text, Utf16.decode_encode,
    Option.getD_some, clientReturns] at hbody
  rw [if_neg (by decide), if_pos trivial] at hbody
  cases hsuccess : response.status.isSuccess with
  | true =>
    rw [hsuccess] at hbody
    cases hbody
    simp [getField, Json.fields?]
  | false =>
    rw [hsuccess] at hbody
    cases hbody
    simp [getField, Json.fields?]

theorem Inv.accepted_of_acknowledged (h : Inv size s) (hack : Acknowledged s id payload) :
    ∃ e report, e.id = id ∧ Accepted size s e payload report := by
  obtain ⟨hmsg, outcome, hsettled, hok⟩ := hack
  cases outcome with
  | rejected reason => cases hok
  | resolved frame =>
    rcases h.settled id frame hsettled with
      ⟨reason, hbody⟩ | ⟨e, msg, ⟨hmem, hid, msg', hmsg', hask⟩, hmsg'', hbody⟩
    · -- an error frame says that nothing is ok
      rw [postToDaemon, hbody] at hok
      simp [getField, errorBody, Json.fields?, truthy] at hok
    · change s.messages[id]? = some msg' at hmsg'
      change s.messages[id]? = some msg at hmsg''
      rw [hmsg] at hmsg' hmsg''
      cases hmsg'
      cases hmsg''
      rw [httpRequest_reportMessage] at hask
      have hrequest := (Option.some.inj hask).symm
      have hanswered := h.answered e hmem
      rw [Answered, hrequest] at hanswered
      rcases hanswered with hfailed | ⟨-, report, hreport, hvalid, happlied⟩
      · rw [postToDaemon, handleFrame_reportMessage hbody, hfailed] at hok
        cases hok
      · exact ⟨e, report, hid, hmem, hrequest, hreport, hvalid, happlied⟩

end Acknowledged

/-! ## A run -/

/-- The system on the kernel of `PageOut.raceKernel`, with a TTL of 60 ns. -/
abbrev raceMachine : Machine State := machine (fun _ => 0) PageOut.raceConfig 60 0

/-- The daemon before its first cycle. -/
def freshDaemon : Daemon.State where
  sys := Daemon.raceSystem
  store := SignalStore.new 60 0
  clock := 0
  sample := none
  ops := []
  past := []
  queries := []
  cleared := none
  behind := []

/-- The first port is open, and its bridge has nothing to do. -/
structure Idle (s : State) : Prop where
  native : s.ext.nativePort = some 0
  port : s.ext.ports 0 = some { number := 0, bridge := .serving }
  pending : s.ext.pendingResolvers = []
  connection : s.connections 0 = {}

/-- A message waits for the bridge of the first port. -/
structure Posted (s : State) (id : Nat) (msg : Json) : Prop where
  native : s.ext.nativePort = some 0
  port : s.ext.ports 0 = some { number := 0, toBridge := [⟨id, msg⟩], bridge := .serving }
  pending : s.ext.pendingResolvers = [id]
  connection : s.connections 0 = {}

/-- The daemon has handled the message, and its answer has not been read yet. -/
structure Served (s s' : State) (id : Nat) (msg : Json) (request : HttpRequest) : Prop where
  native : s'.ext.nativePort = some 0
  port : s'.ext.ports 0 = some { number := 0, bridge := .handling ⟨id, msg⟩ }
  pending : s'.ext.pendingResolvers = [id]
  connection : s'.connections 0 =
    { phase := .waiting, response := some (serve (fun _ => 0) s.daemon 0 request).1 }
  sent : s'.ext.sent = s.ext.sent
  messages : s'.messages = s.messages
  settled : s'.ext.settled = s.ext.settled
  daemon : s'.daemon = (serve (fun _ => 0) s.daemon 0 request).2
  log : s'.log = s.log ++ [s.entry (fun _ => 0) 0 id request 0]

section Rounds

variable {s : State} {id : Nat} {msg body : Json} {request : HttpRequest}

/-- The first message opens the port. -/
theorem exists_posted (msg : Json) :
    ∃ s, raceMachine.Reachable s ∧ Posted s 0 msg ∧ s.ext.sent = 1 ∧ s.messages = [msg] ∧
      s.ext.settled = [] ∧ s.daemon = freshDaemon ∧ s.log = [] := by
  have h₀ : raceMachine.Reachable ⟨{}, [], fun _ => {}, freshDaemon, []⟩ :=
    .start ⟨rfl, rfl, rfl, ⟨⟨rfl, rfl, rfl, rfl⟩, rfl, rfl, rfl, rfl, rfl, rfl, rfl⟩, rfl⟩
  have h₁ := h₀.tail (Step.send _ msg true none)
  have h₂ := h₁.tail (Step.bridge _ 0 _ _ rfl (.connect _ rfl) (fun r h => by cases h))
  exact ⟨_, h₂, ⟨rfl, rfl, rfl, rfl⟩, rfl, rfl, rfl, rfl, rfl⟩

theorem Idle.post (hs : raceMachine.Reachable s) (h : Idle s) (msg : Json) :
    ∃ s', raceMachine.Reachable s' ∧ Posted s' s.ext.sent msg ∧ s'.ext.sent = s.ext.sent + 1 ∧
      s'.messages = s.messages ++ [msg] ∧ s'.ext.settled = s.ext.settled ∧
      s'.daemon = s.daemon ∧ s'.log = s.log := by
  refine ⟨_, hs.tail (Step.send s msg true none), ⟨?_, ?_, ?_, h.connection⟩, ?_, rfl, ?_, rfl, rfl⟩
  all_goals
    simp [NativePort.State.sendNative, NativePort.State.getNativePort, NativePort.State.sendOn,
      h.native, h.port, h.pending]

theorem Posted.served (hs : raceMachine.Reachable s) (h : Posted s id msg)
    (hrequest : httpRequest msg = some request) :
    ∃ s', raceMachine.Reachable s' ∧ Served s s' id msg request := by
  have h₁ := hs.tail (Step.bridge _ 0 _ _ h.port (.read _ ⟨id, msg⟩ [] rfl rfl)
    (fun r h => by cases h))
  have h₂ := h₁.tail (Step.post _ 0 _ ⟨id, msg⟩ request rfl rfl hrequest
    (by simp [State.move, h.connection]))
  have h₃ := h₂.tail (Step.serve _ 0 _ id request 0 rfl rfl)
  exact ⟨_, h₃, h.native, rfl, h.pending, rfl, rfl, rfl, rfl, rfl, rfl⟩

theorem Served.answered {s' : State} (hs : raceMachine.Reachable s')
    (h : Served s s' id msg request)
    (hreply : handleFrame msg (clientReturns (.ok (serve (fun _ => 0) s.daemon 0 request).1)) =
      some body) :
    ∃ s'', raceMachine.Reachable s'' ∧ Idle s'' ∧ s''.ext.sent = s.ext.sent ∧
      s''.messages = s.messages ∧
      s''.ext.settled = (id, .resolved ⟨some id, body, 0⟩) :: s.ext.settled ∧
      s''.daemon = s'.daemon ∧ s''.log = s'.log := by
  have h₁ := hs.tail (Step.reply _ 0 _ ⟨id, msg⟩ _ body h.port rfl
    (by rw [h.connection]) (by rw [h.connection]) hreply)
  have h₂ := h₁.tail (Step.deliver _ 0 _ ⟨some id, body, 0⟩ [] rfl rfl rfl)
  refine ⟨_, h₂, ⟨?_, ?_, ?_, ?_⟩, ?_, h.messages, ?_, ?_, ?_⟩
  all_goals
    simp [State.move, NativePort.State.setPort, NativePort.State.onMessage, replied, h.native,
      h.pending, h.sent, h.settled]

/-- The connection breaks before the bridge has read the answer. -/
theorem Served.broken {s' : State} (hs : raceMachine.Reachable s')
    (h : Served s s' id msg request) {err : String}
    (hbody : handleFrame msg (clientReturns (.error err)) = some body) :
    ∃ s'', raceMachine.Reachable s'' ∧ s''.messages = s.messages ∧
      s''.ext.settled = (id, .resolved ⟨some id, body, 0⟩) :: s.ext.settled ∧
      s''.daemon = s'.daemon ∧ s''.log = s'.log := by
  have h₁ := hs.tail (Step.drop _ 0 _ h.port)
  have h₂ := h₁.tail (Step.fails _ 0 _ ⟨id, msg⟩ err body rfl rfl rfl hbody)
  have h₃ := h₂.tail (Step.deliver _ 0 _ ⟨some id, body, 0⟩ [] rfl rfl rfl)
  refine ⟨_, h₃, h.messages, ?_, ?_, ?_⟩
  all_goals
    simp [State.move, NativePort.State.setPort, NativePort.State.onMessage, replied, h.pending,
      h.settled]

end Rounds

/-! ## Two reports of Firefox -/

/-- Firefox reports one tab. -/
def firefoxPayload (audible : Bool) : Json :=
  .object
    [(Utf16.encode "protocol_version", .number (.integer 1)),
      (Utf16.encode "browser",
        .object [(Utf16.encode "family", .string (Utf16.encode "firefox"))]),
      (Utf16.encode "tabs", .array [.object [(Utf16.encode "audible", .bool audible)]])]

def firefoxReport (audible : Bool) : BrowserSignalsReport where
  protocolVersion := 1
  browser := { family := "firefox" }
  tabs := [{ audible }]

theorem extractReport_firefoxPayload (audible : Bool) :
    extractReport (fun _ => 0) (firefoxPayload audible) = .ok (firefoxReport audible) := by
  have hbrowser : ReportCodec.decodeBrowser
      (.object [(Utf16.encode "family", .string (Utf16.encode "firefox"))]) =
        some { family := "firefox" } := by
    simp [ReportCodec.decodeBrowser, Json.fields?, Json.fieldOr, lookup_encode, Json.orDefault,
      Json.text, Utf16.decode_encode]
  have htab : ReportCodec.decodeTab (.object [(Utf16.encode "audible", .bool audible)]) =
      some { audible } := by
    simp [ReportCodec.decodeTab, Json.fields?, Json.fieldOr, lookup_encode, Json.orDefault,
      Json.boolean]
  have hdecode : decodeReport (firefoxPayload audible) = some (firefoxReport audible) := by
    rw [firefoxPayload, ReportCodec.decodeReport_object]
    simp [Json.fieldOr, lookup_encode, Json.orDefault, Json.u32, Json.integerIn, hbrowser,
      Json.sequence, htab, firefoxReport]
  simp [extractReport, hdecode]

theorem valid_firefoxReport (audible : Bool) : Valid 0 (bridgeRequest (firefoxReport audible)) where
  source := Or.inl rfl
  version := rfl
  onTime := by simp [bridgeRequest, firefoxReport]
  family := ⟨"firefox", canonicalFamily_eq_some_iff.mp canonicalFamily_firefox⟩

theorem serve_firefoxPayload (d : Daemon.State) (audible : Bool) :
    (serve (fun _ => 0) d 0 (.postReport (firefoxPayload audible))).1 = ⟨.noContent, .null⟩ ∧
      (serve (fun _ => 0) d 0 (.postReport (firefoxPayload audible))).2 =
        d.receive 0 (bridgeRequest (firefoxReport audible)) ∧
      (d.receive 0 (bridgeRequest (firefoxReport audible))).ops =
        d.ops ++ [.report d.clock 0 (firefoxReport audible)] := by
  have hstatus : (handle d.store d.clock 0 (bridgeRequest (firefoxReport audible))).1 =
      .noContent := by
    rcases handle_cases d.store d.clock 0 (bridgeRequest (firefoxReport audible)) with
      ⟨-, _, -, heq⟩ | ⟨hnot, -⟩
    · rw [heq]
    · exact absurd (valid_firefoxReport audible) hnot
  refine ⟨?_, ?_, ?_⟩
  · simp [serve, extractReport_firefoxPayload, hstatus, Status.ofHandler]
  · simp [serve, extractReport_firefoxPayload]
  · rw [Daemon.State.receive, if_pos hstatus]
    rfl

/-- The later report gives no reason for a veto, and the earlier one does not count any more. -/
theorem verdict_firefoxReports :
    Daemon.verdict 60 0 "firefox" 0 0
      [.report 0 0 (firefoxReport true), .report 0 0 (firefoxReport false)] = none := by
  decide +kernel

theorem handleFrame_accepted (payload : Json) :
    handleFrame (reportMessage payload) (clientReturns (.ok ⟨.noContent, .null⟩)) =
      some okBody := by
  simp only [handleFrame, kind_reportMessage, Option.bind_some, Json.text, Utf16.decode_encode,
    Option.getD_some]
  rfl

theorem handleFrame_lost (payload : Json) (err : String) :
    handleFrame (reportMessage payload) (clientReturns (.error err)) = some (errorBody err) := by
  simp only [handleFrame, kind_reportMessage, Option.bind_some, Json.text, Utf16.decode_encode,
    Option.getD_some]
  rfl

theorem postToDaemon_okBody (id port : Nat) :
    postToDaemon (.resolved ⟨some id, okBody, port⟩) = true := by
  simp [postToDaemon, getField, okBody, Json.fields?, truthy]

theorem postToDaemon_errorBody (id port : Nat) (err : String) :
    postToDaemon (.resolved ⟨some id, errorBody err, port⟩) = false := by
  simp [postToDaemon, getField, errorBody, Json.fields?, truthy]

/-- Both reports are handled, and the answer to the second one is lost with the connection. -/
theorem exists_superseded :
    ∃ s, raceMachine.Reachable s ∧
      s.messages = [reportMessage (firefoxPayload true), reportMessage (firefoxPayload false)] ∧
      s.ext.settled = [(1, .resolved ⟨some 1, errorBody "connection closed", 0⟩),
        (0, .resolved ⟨some 0, okBody, 0⟩)] ∧
      s.daemon = (freshDaemon.receive 0 (bridgeRequest (firefoxReport true))).receive 0
        (bridgeRequest (firefoxReport false)) ∧
      s.log.map (fun e => (e.id, e.now, e.before)) =
        [(0, 0, []), (1, 0, [.report 0 0 (firefoxReport true)])] := by
  obtain ⟨s₁, hs₁, hposted₁, hsent₁, hmessages₁, hsettled₁, hdaemon₁, hlog₁⟩ :=
    exists_posted (reportMessage (firefoxPayload true))
  obtain ⟨s₂, hs₂, hserved₂⟩ := hposted₁.served hs₁ (httpRequest_reportMessage _)
  obtain ⟨hstatus, hreceive, hops⟩ := serve_firefoxPayload s₁.daemon true
  obtain ⟨s₃, hs₃, hidle₃, hsent₃, hmessages₃, hsettled₃, hdaemon₃, hlog₃⟩ :=
    hserved₂.answered hs₂ (by rw [hstatus]; exact handleFrame_accepted _)
  obtain ⟨s₄, hs₄, hposted₄, -, hmessages₄, hsettled₄, hdaemon₄, hlog₄⟩ :=
    hidle₃.post hs₃ (reportMessage (firefoxPayload false))
  obtain ⟨s₅, hs₅, hserved₅⟩ := hposted₄.served hs₄ (httpRequest_reportMessage _)
  obtain ⟨s₆, hs₆, hmessages₆, hsettled₆, hdaemon₆, hlog₆⟩ :=
    hserved₅.broken hs₅ (handleFrame_lost _ "connection closed")
  have hd : s₄.daemon = freshDaemon.receive 0 (bridgeRequest (firefoxReport true)) := by
    rw [hdaemon₄, hdaemon₃, hserved₂.daemon, hreceive, hdaemon₁]
  refine ⟨s₆, hs₆, ?_, ?_, ?_, ?_⟩
  · rw [hmessages₆, hmessages₄, hmessages₃, hmessages₁]
    rfl
  · rw [hsettled₆, hsettled₄, hsettled₃, hsettled₁, hsent₃, hsent₁]
  · rw [hdaemon₆, hserved₅.daemon, (serve_firefoxPayload s₄.daemon false).2.1, hd]
  · rw [hlog₆, hserved₅.log, hlog₄, hlog₃, hserved₂.log, hlog₁, hsent₃, hsent₁]
    rw [hdaemon₁] at hops
    simp only [State.entry, hd, hdaemon₁, hops]
    rfl

theorem acknowledged_first {s : State}
    (hmessages : s.messages =
      [reportMessage (firefoxPayload true), reportMessage (firefoxPayload false)])
    (hsettled : s.ext.settled = [(1, .resolved ⟨some 1, errorBody "connection closed", 0⟩),
      (0, .resolved ⟨some 0, okBody, 0⟩)]) : Acknowledged s 0 (firefoxPayload true) := by
  refine ⟨by rw [hmessages]; rfl, .resolved ⟨some 0, okBody, 0⟩, ?_, postToDaemon_okBody 0 0⟩
  rw [hsettled]
  exact List.mem_cons_of_mem _ (List.mem_singleton.mpr rfl)

/-- Then the daemon pages PID 7 out. -/
theorem superseded_pages_out {s : State} (hs : raceMachine.Reachable s)
    (hdaemon : s.daemon = (freshDaemon.receive 0 (bridgeRequest (firefoxReport true))).receive 0
      (bridgeRequest (firefoxReport false))) :
    ∃ d, Relation.ReflTransGen (Daemon.Alone PageOut.raceConfig) s.daemon d ∧
      (∃ e ∈ d.sys.effects, e.pid = 7) ∧
      ∀ q ∈ d.queries, q.tab = PageOut.raceTab ∧ q.now = 0 ∧ q.before.length = 2 := by
  have hops : s.daemon.ops =
      [.report 0 0 (firefoxReport true), .report 0 0 (firefoxReport false)] := by
    rw [hdaemon, (serve_firefoxPayload _ false).2.2, (serve_firefoxPayload _ true).2.2]
    rfl
  have hclock : s.daemon.clock = 0 := by
    rw [hdaemon]
    rfl
  have hanswer : (s.daemon.store.profileVetoAt PageOut.raceTab.profile s.daemon.clock 0).1 =
      none := by
    rw [(Daemon.ordered_of_reachable (daemon_reachable hs)).store, hops, hclock]
    refine (Daemon.answer_eq_verdict 60 0 _ _ ?_ 0).trans verdict_firefoxReports
    intro op hop hquery
    rcases List.mem_pair.mp hop with rfl | rfl <;> cases hquery
  obtain ⟨d, hchain, -, heffect, q, hqueries, htab, hnow, hbefore⟩ :=
    Daemon.alone_pages_out (by rw [hdaemon]; rfl) (by rw [hdaemon]; rfl) hanswer
  refine ⟨d, hchain, heffect, fun q' hq' => ?_⟩
  have hnone : s.daemon.queries = [] := by
    rw [hdaemon]
    rfl
  rw [hqueries, hnone, List.nil_append, List.mem_singleton] at hq'
  rw [hq']
  exact ⟨htab, hnow.trans hclock, by rw [hbefore, hops]; rfl⟩

/-! ## What an answer says -/

/-- In every run of the extension, its bridges and the daemon, with ports that come and go
and connections that break at any point, a report for which `postToDaemon` returns `true`
was handled by the daemon exactly once, and accepted.  The store is what the operations make
of it.  Whatever becomes of the answers, no report is handled twice, and the daemon handles
the requests of one port in the order in which they were sent. -/
theorem acknowledged_once (size : Json → Nat) (config : Config) (ttl grace : Duration) (s : State)
    (hs : (machine size config ttl grace).Reachable s) :
    s.daemon.store = SignalStore.run ttl grace s.daemon.ops ∧
    (∀ id payload, Acknowledged s id payload → ∃ e report, e.id = id ∧
      Accepted size s e payload report ∧ ∀ e' ∈ s.log, e'.id = id → e' = e) ∧
    (s.log.map Entry.id).Nodup ∧
    s.log.Pairwise (fun e e' => e.port = e'.port → e.id < e'.id) := by
  have hinv := inv_of_reachable hs
  refine ⟨(Daemon.ordered_of_reachable (daemon_reachable hs)).store, ?_, hinv.handledOnce,
    hinv.inOrder⟩
  intro id payload hack
  obtain ⟨e, report, hid, haccepted⟩ := hinv.accepted_of_acknowledged hack
  refine ⟨e, report, hid, haccepted, fun e' he' hid' => ?_⟩
  exact List.inj_on_of_nodup_map hinv.handledOnce he' haccepted.mem (hid'.trans hid.symm)

/-- The daemon has handled both reports, and the extension knows about the first one only. -/
theorem acknowledged_once_lost_answer :
    ∃ s, raceMachine.Reachable s ∧ Acknowledged s 0 (firefoxPayload true) ∧
      ¬ Acknowledged s 1 (firefoxPayload false) ∧ s.log.map Entry.id = [0, 1] ∧
      ∃ e ∈ s.log, e.id = 0 ∧ e.request = .postReport (firefoxPayload true) ∧
        ∀ e' ∈ s.log, e'.id = 0 → e' = e := by
  obtain ⟨s, hs, hmessages, hsettled, -, hlog⟩ := exists_superseded
  have hack := acknowledged_first hmessages hsettled
  have hids : s.log.map Entry.id = [0, 1] := by
    have hfst := congrArg (List.map Prod.fst) hlog
    rwa [List.map_map] at hfst
  obtain ⟨-, honce, -⟩ := acknowledged_once (fun _ => 0) PageOut.raceConfig 60 0 s hs
  obtain ⟨e, report, hid, haccepted, hunique⟩ := honce 0 (firefoxPayload true) hack
  refine ⟨s, hs, hack, ?_, hids, e, haccepted.mem, hid, haccepted.request, hunique⟩
  rintro ⟨-, outcome, hmem, hok⟩
  rw [hsettled] at hmem
  have houtcome : outcome = .resolved ⟨some 1, errorBody "connection closed", 0⟩ := by
    simpa using hmem
  rw [houtcome, postToDaemon_errorBody] at hok
  cases hok

/-! ## What it is good for -/

section Protects

variable {family : String}

theorem latest_append_of_silent (ops : List StoreOp) {later : List StoreOp}
    (hsilent : ∀ op ∈ later, op.accepted family = none) :
    latest family (ops ++ later) = latest family ops := by
  induction later using List.reverseRecOn with
  | nil => rw [List.append_nil]
  | append_singleton later op ih =>
    rw [← List.append_assoc, latest_append,
      hsilent op (List.mem_append_right _ (List.mem_singleton.mpr rfl)), Option.none_or]
    exact ih (fun o ho => hsilent o (List.mem_append_left _ ho))

theorem accepted_of_valid {report : BrowserSignalsReport} {wall : UInt64} (now : Instant)
    (hvalid : Valid wall (bridgeRequest report)) :
    ∃ family, canonicalFamily report.browser.family = some family ∧
      (StoreOp.report now wall report).accepted family =
        some ⟨now, canonicalReport family report⟩ := by
  obtain ⟨family, hfamily⟩ := hvalid.family
  have hcanonical : canonicalFamily report.browser.family = some family :=
    canonicalFamily_eq_some_iff.mpr hfamily
  have hskew : ¬ SENT_AT_MAX_SKEW_MS < absDiff wall report.sentAtMs :=
    (SignalRequests.skew_iff wall _).mpr hvalid.onTime
  refine ⟨family, hcanonical, ?_⟩
  rw [StoreOp.accepted, if_neg hskew, if_pos hcanonical]
  rfl

/-- A fresh veto lets nothing through until another report is accepted. -/
theorem superseded_of_cleared {ttl grace : Duration} {profile : String} {now received : Instant}
    {wall receivedWall : UInt64} {before earlier : List StoreOp} {report : BrowserSignalsReport}
    (hanswer : Daemon.verdict ttl grace profile now wall before = none)
    (hfamily : canonicalFamily profile = some family)
    (haccepted : (StoreOp.report received receivedWall report).accepted family =
      some ⟨received, canonicalReport family report⟩)
    (hbefore : earlier ++ [.report received receivedWall report] <+: before)
    (hfresh : now - received ≤ ttl) (hveto : report.CountsAsVeto grace wall) :
    ∃ op ∈ before.drop (earlier.length + 1), (op.accepted family).isSome = true := by
  obtain ⟨later, rfl⟩ := hbefore
  have hdrop : (earlier ++ [StoreOp.report received receivedWall report] ++ later).drop
      (earlier.length + 1) = later := List.drop_left' (by simp)
  rw [hdrop]
  by_contra hnone
  push Not at hnone
  have hlatest : latest family (earlier ++ [.report received receivedWall report] ++ later) =
      some ⟨received, canonicalReport family report⟩ := by
    rw [latest_append_of_silent, latest_append, haccepted, Option.some_or]
    intro op hop
    exact Option.not_isSome_iff_eq_none.mp (hnone op hop)
  rcases Daemon.stale_or_silent hanswer hfamily hlatest with hold | hquiet
  · exact absurd hfresh (Nat.not_le.mpr hold)
  · exact hquiet hveto

end Protects

/-- An acknowledged report protects the tabs of its family.  Take a batch that the daemon
pages out in a process of that family, and the veto query behind it, of the same cycle and for
the same target.  If the report had the lock of the store before that query, was at most the
TTL old, and held a reason for a veto at that moment, then a later report of the family had
taken its place. -/
theorem acknowledged_protects (size : Json → Nat) (config : Config) (ttl grace : Duration)
    (s : State) (hs : (machine size config ttl grace).Reachable s) (id : Nat) (payload : Json)
    (hack : Acknowledged s id payload) :
    s.daemon.behind.map Daemon.Batch.effect = s.daemon.sys.effects ∧
    ∃ e report family, e.id = id ∧ Accepted size s e payload report ∧
      canonicalFamily report.browser.family = some family ∧
      ∀ b ∈ s.daemon.behind, ∃ tab q, b.target = some tab ∧ tab.pid = b.effect.pid ∧
        b.query = some q ∧ q ∈ s.daemon.queries ∧ q.cycle = b.cycle ∧ q.tab = tab ∧
        (canonicalFamily tab.profile = some family → e.before.length < q.before.length →
          q.now - e.now ≤ ttl → report.CountsAsVeto grace q.wall →
            ∃ op ∈ q.before.drop (e.before.length + 1), (op.accepted family).isSome = true) := by
  have hd := daemon_reachable hs
  have hnoted := Daemon.noted_of_reachable hd
  obtain ⟨e, report, hid, haccepted⟩ := (inv_of_reachable hs).accepted_of_acknowledged hack
  obtain ⟨family, hfamily, hentry⟩ := accepted_of_valid e.now haccepted.valid
  refine ⟨hnoted.effects, e, report, family, hid, haccepted, hfamily, ?_⟩
  intro b hmem
  obtain ⟨tab, q, htab, hpid, hnote, hq⟩ := hnoted.behind b hmem
  refine ⟨tab, q, htab, hpid, hnote, hq.mem, hq.cycle, hq.tab,
    fun hprofile hlength hfresh hveto => ?_⟩
  obtain ⟨hverdict, later, hops, -⟩ := (Daemon.ordered_of_reachable hd).justified q hq.mem
  have hbefore : e.before ++ [.report e.now e.wall report] <+: q.before := by
    refine List.prefix_of_prefix_length_le haccepted.applied ?_ ?_
    · rw [hops]
      exact List.prefix_append _ _
    · rw [List.length_append, List.length_singleton]
      omega
  rw [← hq.tab] at hprofile
  exact superseded_of_cleared (hverdict.symm.trans hq.answer) hprofile hentry hbefore hfresh hveto

/-- The report about the audible tab is acknowledged, and PID 7 is paged out all the same, as a
later report has taken its place. -/
theorem acknowledged_protects_superseded :
    ∃ s, raceMachine.Reachable s ∧ Acknowledged s 0 (firefoxPayload true) ∧
      ∃ b ∈ s.daemon.behind, b.effect.pid = 7 ∧ ∃ q, b.query = some q ∧
        ∃ op ∈ q.before.drop 1, (op.accepted "firefox").isSome = true := by
  obtain ⟨s, hs, hmessages, hsettled, hdaemon, hlog⟩ := exists_superseded
  obtain ⟨d, hchain, heffect, hqueries⟩ := superseded_pages_out hs hdaemon
  have hsd : raceMachine.Reachable { s with daemon := d } :=
    hs.lift (fun d => { s with daemon := d }) (fun d d' h => Step.daemon _ d' h.1) hchain
  have hack : Acknowledged { s with daemon := d } 0 (firefoxPayload true) :=
    acknowledged_first hmessages hsettled
  obtain ⟨heffects, e, report, family, hid, haccepted, hfamily, hbehind⟩ :=
    acknowledged_protects (fun _ => 0) PageOut.raceConfig 60 0 _ hsd 0 _ hack
  obtain ⟨hnow, hbefore⟩ : e.now = 0 ∧ e.before = [] := by
    have hmem := List.mem_map_of_mem (f := fun e : Entry => (e.id, e.now, e.before)) haccepted.mem
    rw [hlog] at hmem
    simpa [hid] using hmem
  have hreport : report = firefoxReport true := by
    have hextracted := haccepted.extracted
    rw [extractReport_firefoxPayload] at hextracted
    exact (Except.ok.inj hextracted).symm
  have hfirefox : family = "firefox" := by
    rw [hreport] at hfamily
    exact Option.some.inj (hfamily.symm.trans canonicalFamily_firefox)
  obtain ⟨batch, hbatch, hpid⟩ := heffect
  rw [← heffects] at hbatch
  obtain ⟨b, hb, rfl⟩ := List.mem_map.mp hbatch
  obtain ⟨tab, q, -, -, hnote, hq, -, rfl, hlater⟩ := hbehind b hb
  obtain ⟨htab, hasked, hlength⟩ := hqueries q hq
  rw [hfirefox, hbefore, hnow, hasked, htab, hlength, hreport] at hlater
  exact ⟨_, hsd, hack, b, hb, hpid, q, hnote,
    hlater canonicalFamily_firefox (by decide) (by decide)
      (Or.inl ⟨_, List.mem_singleton.mpr rfl, rfl⟩)⟩

/-! ## The handshake -/

/-- `Number(v)` of a JSON value, where it is finite.  An integer is left as it is. -/
structure ToNumber where
  convert : Json → Option ℚ
  convert_integer : ∀ i : ℤ, |i| < 2 ^ 53 → convert (.number (.integer i)) = some i

/-- The message of `pingDaemon`. -/
def pingMessage : Json := .object [(Utf16.encode "kind", .string (Utf16.encode "ping"))]

/-- The bridge says that something went wrong: `body.ok === false`. -/
def Failed (body : Json) : Prop := getField "ok" body = some (.bool false)

/-- `pingDaemon` warns that the daemon speaks another version of the protocol. -/
def Warns (number : ToNumber) : Outcome → Prop
  | .resolved frame =>
      truthy frame.body = true ∧
        (getField "protocol_version" frame.body).bind number.convert ≠ some 1 ∧
        ¬ Failed frame.body
  | .rejected _ => False

/-- The body of the daemon with the fields that the bridge adds. -/
def bridgedPing : Json :=
  .object (pingResponse.fields?.getD [] ++
    [(Utf16.encode "bridge_version", .string (Utf16.encode bridgeVersion)),
      (Utf16.encode "bridge_kind", .string (Utf16.encode "native-messaging-uds"))])

theorem kind_pingMessage : getField "kind" pingMessage = some (.string (Utf16.encode "ping")) := by
  simp [getField, pingMessage, Json.fields?]

theorem httpRequest_pingMessage : httpRequest pingMessage = some .getPing := by
  simp [httpRequest, kind_pingMessage, Json.text, Utf16.decode_encode]

theorem handleFrame_pingMessage :
    handleFrame pingMessage (clientReturns (.ok ⟨.ok, pingResponse⟩)) = some bridgedPing := by
  have hsuccess : Status.ok.isSuccess = true := by decide
  simp [handleFrame, kind_pingMessage, Json.text, Utf16.decode_encode, clientReturns, hsuccess,
    pingResponse, setField, Utf16.encode_inj, bridgedPing, Json.fields?]

theorem version_bridgedPing :
    getField "protocol_version" bridgedPing = some (.number (.integer 1)) := by
  simp [getField, bridgedPing, pingResponse, Json.fields?, PROTOCOL_VERSION]

/-- In every run, a ping that comes back tells of an error, or it is the answer of the daemon
with the fields of the bridge and the version that the extension expects, whatever else is
under way on its port.  So `pingDaemon` never warns. -/
theorem handshake_agrees (number : ToNumber) (size : Json → Nat) (config : Config)
    (ttl grace : Duration) (s : State) (hs : (machine size config ttl grace).Reachable s)
    (id : Nat) (hping : s.messages[id]? = some pingMessage) (outcome : Outcome)
    (hsettled : (id, outcome) ∈ s.ext.settled) :
    ¬ Warns number outcome ∧ ∀ frame, outcome = .resolved frame →
      (∃ reason, frame.body = errorBody reason) ∨
        frame.body = bridgedPing ∧
          getField "protocol_version" frame.body = some (.number (.integer 1)) := by
  have hinv := inv_of_reachable hs
  have hframe : ∀ frame, outcome = .resolved frame →
      (∃ reason, frame.body = errorBody reason) ∨ frame.body = bridgedPing := by
    intro frame houtcome
    rw [houtcome] at hsettled
    rcases hinv.settled id frame hsettled with
      herror | ⟨e, msg, ⟨hmem, -, msg', hmsg', hask⟩, hmsg, hbody⟩
    · exact Or.inl herror
    · right
      change s.messages[id]? = some msg' at hmsg'
      change s.messages[id]? = some msg at hmsg
      rw [hping] at hmsg hmsg'
      cases hmsg
      cases hmsg'
      rw [httpRequest_pingMessage] at hask
      have hanswered := hinv.answered e hmem
      rw [Answered, ← Option.some.inj hask] at hanswered
      change e.response = ⟨.ok, pingResponse⟩ at hanswered
      rw [hanswered, handleFrame_pingMessage] at hbody
      exact (Option.some.inj hbody).symm
  refine ⟨?_, fun frame houtcome => (hframe frame houtcome).imp_right (fun hbody => ⟨hbody, ?_⟩)⟩
  · cases outcome with
    | rejected reason => exact not_false
    | resolved frame =>
      rintro ⟨-, hversion, hok⟩
      rcases hframe frame rfl with ⟨reason, hbody⟩ | hbody
      · rw [hbody] at hok
        exact hok (by simp [Failed, getField, errorBody, Json.fields?])
      · rw [hbody, version_bridgedPing, Option.bind_some,
          number.convert_integer 1 (by norm_num)] at hversion
        exact hversion rfl
  · rw [hbody]
    exact version_bridgedPing

/-- A conversion that knows integers only. -/
def integersOnly : ToNumber where
  convert
    | .number (.integer i) => some i
    | _ => none
  convert_integer := fun _ _ => rfl

theorem handshake_agrees_first_ping :
    ∃ s frame, raceMachine.Reachable s ∧ (0, .resolved frame) ∈ s.ext.settled ∧
      frame.body = bridgedPing ∧ ¬ Warns integersOnly (.resolved frame) := by
  obtain ⟨s₁, hs₁, hposted, -, hmessages₁, -⟩ := exists_posted pingMessage
  obtain ⟨s₂, hs₂, hserved⟩ := hposted.served hs₁ httpRequest_pingMessage
  obtain ⟨s, hs, -, -, hmessages, hsettled, -⟩ := hserved.answered hs₂ handleFrame_pingMessage
  have hmem : (0, Outcome.resolved ⟨some 0, bridgedPing, 0⟩) ∈ s.ext.settled := by
    rw [hsettled]
    exact List.mem_cons_self
  have hping : s.messages[0]? = some pingMessage := by
    rw [hmessages, hmessages₁]
    rfl
  exact ⟨s, _, hs, hmem, rfl,
    (handshake_agrees integersOnly (fun _ => 0) PageOut.raceConfig 60 0 s hs 0 hping _ hmem).1⟩

end BsslRam.Delivery
