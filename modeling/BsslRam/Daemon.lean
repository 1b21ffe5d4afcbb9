import BsslRam.PageOut
import BsslRam.ScanHistory
import BsslRam.SignalEviction
import BsslRam.SignalRequests

/-!
# The daemon with its signal server

Two parts of the daemon run at the same time and share the signal store.  The main
thread scans; for a target that has passed the checks of the tracker and the RSS floor
it calls `profile_veto`, which reads two clocks and only then waits for the lock.  The
tasks of the server answer report requests; `apply_report_at` reads the clock while it
holds the lock.  So a report may be received after the moment for which a query
asks, and a query that comes second to the lock may carry the smaller instant.

`PageOut.System` is the main thread on a kernel that moves, `SignalStore` the store.
`State` puts them together with the clock.  The browser veto is an answer that
`PageOut` fixes with the cycle.  Here it is the answer of the store at the moment when
the query has the lock, and the step asks that the two agree.

* `answer_eq_verdict`: a query sees the last report of its family that had the lock
  before it, if that report is fresh.  The evictions of earlier queries make no
  difference, whatever the order of the instants.
* `scan_cases` says once what a step of the main thread can do.
* `scans_sequential`: the daemon ends each cycle where a sequential run of its
  cycles ends, and every call of `compress_pid` has a query without a veto behind it.
* `effects_cleared`: so has every batch that `process_madvise` took.
-/

namespace BsslRam.Daemon

open BsslRam.Lib BsslRam.Scanner BsslRam.State BsslRam.Compressor BsslRam.Signals
open BsslRam.ScanCycle BsslRam.ScanHistory BsslRam.PageOut BsslRam.SignalRequests

/-! ## The system -/

/-- The target that is behind the veto and in the hands of `compress_pid`. -/
def paging : Stage → Option TargetProcess
  | .smaps tab _ | .pidfd tab _ _ _ | .advise tab _ _ _ _ _ => some tab
  | _ => none

/-- A query of the scan that has come back.  `before` are the operations that had the
lock of the store before it, and `cycle` is the number of the scan. -/
structure Query where
  cycle : Nat
  tab : TargetProcess
  now : Instant
  wall : UInt64
  before : List StoreOp
  answer : Option ProfileVeto

/-- A batch that was paged out: the number of the scan, the target that was in hand, and the
query that had let it through. -/
structure Batch where
  effect : Effect
  cycle : Nat
  target : Option TargetProcess
  query : Option Query

/-- The main thread, the store and the clock.  `sample` are the clocks that a
`profile_veto` has read which has not got the lock yet.  The other fields are notes of
the model: the operations on the store in the order of the lock, the cycles that are
over, the queries, the last query, and the batches that were paged out. -/
structure State where
  sys : System
  store : SignalStore
  clock : Instant
  sample : Option (Instant × UInt64)
  ops : List StoreOp
  past : List RealCycle
  queries : List Query
  cleared : Option Query
  behind : List Batch

namespace State

/-- The daemon after a report request. -/
def receive (d : State) (wall : UInt64) (r : Request) : State :=
  { d with
    store := (handle d.store d.clock wall r).2
    ops := if (handle d.store d.clock wall r).1 = .noContent
      then d.ops ++ [.report d.clock wall r.report] else d.ops }

/-- The query that gets the lock now. -/
def query (d : State) (tab : TargetProcess) (now : Instant) (wall : UInt64) : Query where
  cycle := d.past.length
  tab := tab
  now := now
  wall := wall
  before := d.ops
  answer := (d.store.profileVetoAt tab.profile now wall).1

/-- The scan after the answer of the store. -/
def answered (d : State) (tab : TargetProcess) (judged : UInt64) : Option ProfileVeto → System
  | some veto => d.sys.finish tab (.skipBrowserSignals veto)
  | none => { d.sys with stage := .smaps tab judged }

/-- The notes after a step of the kernel or of the scan. -/
def follow (d : State) (sys : System) : State :=
  { d with
    sys
    past := match d.sys.stage, sys.stage with
      | .next, .sleep => d.past ++ [d.sys.cycle]
      | _, _ => d.past
    behind := d.behind ++ (sys.effects.drop d.sys.effects.length).map (fun effect =>
      { effect, cycle := d.past.length, target := paging d.sys.stage, query := d.cleared }) }

end State

/-- The main thread is in front of the RSS floor and the browser veto. -/
def atResources : Stage → Bool
  | .rss _ _ => true
  | _ => false

/-- One step of the kernel, of the main thread, of a task of the server or of the
clock.  The steps of the main thread at the RSS floor and the veto are spelled out; the
others are those of `PageOut`. -/
inductive Step (config : Config) : State → State → Prop where
  | tick (d : State) (elapsed : Duration) :
      Step config d { d with clock := d.clock + elapsed }
  | request (d : State) (wall : UInt64) (r : Request) : Step config d (d.receive wall r)
  | scan (d : State) (sys : System) (hstep : PageOut.Step config d.sys sys)
      (hwait : atResources d.sys.stage = true → sys.stage = d.sys.stage) :
      Step config d (d.follow sys)
  | lowRss (d : State) (tab : TargetProcess) (judged : UInt64)
      (hstage : d.sys.stage = .rss tab judged) (hsample : d.sample = none)
      (hrss : d.sys.cycle.env.rssMib tab.pid < config.minRssMib) :
      Step config d { d with sys := d.sys.finish tab .skipLowRss }
  | sample (d : State) (tab : TargetProcess) (judged : UInt64) (wall : UInt64)
      (hstage : d.sys.stage = .rss tab judged) (hsample : d.sample = none)
      (hrss : ¬ d.sys.cycle.env.rssMib tab.pid < config.minRssMib) :
      Step config d { d with sample := some (d.clock, wall) }
  | query (d : State) (tab : TargetProcess) (judged : UInt64) (now : Instant) (wall : UInt64)
      (hstage : d.sys.stage = .rss tab judged) (hsample : d.sample = some (now, wall))
      (hrss : ¬ d.sys.cycle.env.rssMib tab.pid < config.minRssMib)
      (hanswer : d.sys.cycle.env.profileVeto tab.pid tab.profile =
        (d.store.profileVetoAt tab.profile now wall).1) :
      Step config d
        { d with
          sys := d.answered tab judged (d.query tab now wall).answer
          store := (d.store.profileVetoAt tab.profile now wall).2
          sample := none
          ops := d.ops ++ [.query tab.profile now wall]
          queries := d.queries ++ [d.query tab now wall]
          cleared := some (d.query tab now wall) }

/-- The daemon when its server is up and its first cycle has not begun. -/
def daemon (config : Config) (ttl grace : Duration) : Machine State where
  init d := (system config).init d.sys ∧ d.sys.stats = {} ∧ d.store = SignalStore.new ttl grace ∧
    d.sample = none ∧ d.ops = [] ∧ d.past = [] ∧ d.queries = [] ∧ d.behind = []
  step := Step config

/-! ## What a query sees -/

def isQuery : StoreOp → Bool
  | .report _ _ _ => false
  | .query _ _ _ => true

/-- The answer to a query after the operations `before`: the last accepted report of the
family speaks, if it is fresh. -/
def verdict (ttl grace : Duration) (profile : String) (now : Instant) (wall : UInt64)
    (before : List StoreOp) : Option ProfileVeto :=
  (canonicalFamily profile).bind (fun family =>
    ((latest family before).filter (CachedReport.fresh ttl now)).bind
      (fun cached => reportVeto grace wall cached.report))

/-- For a query at `now`, the evictions of earlier queries made no difference.  Nothing is
asked of the reports, which may be received after `now`. -/
theorem filter_fresh_of_queries (ttl grace : Duration) (family : String) {now : Instant}
    (ops : List StoreOp) (hnow : ∀ op ∈ ops, isQuery op = true → op.instant ≤ now) :
    (SignalStore.run ttl grace ops).reports[family]?.filter (CachedReport.fresh ttl now) =
      (latest family ops).filter (CachedReport.fresh ttl now) := by
  induction ops using List.reverseRecOn with
  | nil => simp [SignalStore.run, SignalStore.new, latest, acceptedReports]
  | append_singleton ops op ih =>
    have hprev := ih (fun o ho => hnow o (List.mem_append_left _ ho))
    have hlast := hnow op (List.mem_append_right _ (List.mem_singleton.mpr rfl))
    have hstep : ((SignalStore.run ttl grace ops).step op).reports[family]?.filter
          (CachedReport.fresh ttl now) =
        ((op.accepted family).or (SignalStore.run ttl grace ops).reports[family]?).filter
          (CachedReport.fresh ttl now) := by
      cases op with
      | report received wall report => rw [getElem?_step_report]
      | query profile asked wall =>
        have hfilter := filter_fresh_step (SignalStore.run ttl grace ops)
          (.query profile asked wall) family (hlast rfl)
        rwa [(run_ttl ttl grace ops).1] at hfilter
    rw [run_append_singleton, hstep, latest_append]
    cases op.accepted family with
    | none => exact hprev
    | some cached => rfl

theorem answer_eq_verdict (ttl grace : Duration) (ops : List StoreOp) (profile : String)
    {now : Instant} (hnow : ∀ op ∈ ops, isQuery op = true → op.instant ≤ now) (wall : UInt64) :
    ((SignalStore.run ttl grace ops).profileVetoAt profile now wall).1 =
      verdict ttl grace profile now wall ops := by
  unfold SignalStore.profileVetoAt verdict
  cases canonicalFamily profile with
  | none => rfl
  | some family =>
    simp only [getElem?_evict, Option.bind_some]
    rw [(run_ttl ttl grace ops).1, filter_fresh_of_queries ttl grace family ops hnow]
    simp only [SignalStore.evict, (run_ttl ttl grace ops).2]

/-- A query without a veto has a last report that is too old or speaks against nothing. -/
theorem stale_or_silent {ttl grace : Duration} {profile family : String} {now : Instant}
    {wall : UInt64} {before : List StoreOp} {cached : CachedReport}
    (h : verdict ttl grace profile now wall before = none)
    (hfamily : canonicalFamily profile = some family)
    (hlatest : latest family before = some cached) :
    ttl < now - cached.receivedAt ∨ ¬ cached.report.CountsAsVeto grace wall := by
  rcases Nat.lt_or_ge ttl (now - cached.receivedAt) with hold | hfresh
  · exact Or.inl hold
  · right
    have hkeep : cached.fresh ttl now = true := decide_eq_true hfresh
    rw [verdict, hfamily, Option.bind_some, hlatest, Option.filter_some, if_pos hkeep,
      Option.bind_some] at h
    rw [← reportVeto_isSome_iff, h]
    decide

/-- A request that is answered with 204 is the report operation; any other leaves the
store alone. -/
theorem handle_store (store : SignalStore) (now : Instant) (wall : UInt64) (r : Request) :
    (handle store now wall r).2 =
      if (handle store now wall r).1 = .noContent then store.step (.report now wall r.report)
      else store := by
  rw [handle_eq]
  by_cases hsource : r.requiresSourceHeader = false ∨ r.sourceHeader = some "extension"
  · rw [if_neg (not_not.mpr hsource)]
    by_cases hversion : effectiveVersion r.report = PROTOCOL_VERSION
    · rw [if_neg (not_not.mpr hversion), SignalStore.step]
      cases store.applyReportAt now wall r.report with
      | ok stored => rfl
      | error err => rfl
    · rw [if_pos hversion]
      rfl
  · rw [if_pos hsource]
    rfl

/-! ## The order of the lock -/

/-- The query was answered from what had the lock before it, and whatever had the lock
later happened after the moment it asks for. -/
def Justified (ttl grace : Duration) (ops : List StoreOp) (q : Query) : Prop :=
  q.answer = verdict ttl grace q.tab.profile q.now q.wall q.before ∧
    ∃ later, ops = q.before ++ later ∧ ∀ op ∈ later, q.now ≤ op.instant

theorem Justified.append {ttl grace : Duration} {ops : List StoreOp} {q : Query}
    (h : Justified ttl grace ops q) {op : StoreOp} (hle : q.now ≤ op.instant) :
    Justified ttl grace (ops ++ [op]) q := by
  obtain ⟨hanswer, later, heq, hlater⟩ := h
  refine ⟨hanswer, later ++ [op], by rw [heq, List.append_assoc], ?_⟩
  exact List.forall_mem_append.mpr ⟨hlater, List.forall_mem_singleton.mpr hle⟩

/-- The main thread makes its queries one after the other, and the clock does not go
back. -/
structure Ordered (ttl grace : Duration) (d : State) : Prop where
  store : d.store = SignalStore.run ttl grace d.ops
  clock : ∀ op ∈ d.ops, op.instant ≤ d.clock
  asked : ∀ q ∈ d.queries, q.now ≤ d.clock
  sample : ∀ now wall, d.sample = some (now, wall) →
    now ≤ d.clock ∧ (∀ op ∈ d.ops, isQuery op = true → op.instant ≤ now) ∧
      ∀ q ∈ d.queries, q.now ≤ now
  justified : ∀ q ∈ d.queries, Justified ttl grace d.ops q

section Order

variable {config : Config} {ttl grace : Duration}

theorem ordered_init {d : State} (h : (daemon config ttl grace).init d) : Ordered ttl grace d := by
  obtain ⟨-, -, hstore, hsample, hops, -, hqueries, -⟩ := h
  refine ⟨?_, ?_, ?_, ?_, ?_⟩
  · rw [hstore, hops]
    rfl
  · simp [hops]
  · simp [hqueries]
  · simp [hsample]
  · simp [hqueries]

/-- One more operation, at the time of the clock. -/
theorem Ordered.request {d : State} (h : Ordered ttl grace d) (wall : UInt64) (r : Request) :
    Ordered ttl grace (d.receive wall r) := by
  rw [State.receive, handle_store]
  split
  · refine ⟨?_, ?_, h.asked, ?_, fun q hq => (h.justified q hq).append (h.asked q hq)⟩
    · rw [run_append_singleton, ← h.store]
    · exact List.forall_mem_append.mpr
        ⟨h.clock, List.forall_mem_singleton.mpr (Nat.le_refl d.clock)⟩
    · intro now wall' hsample
      obtain ⟨hnow, hqueries, hasked⟩ := h.sample now wall' hsample
      refine ⟨hnow, List.forall_mem_append.mpr ⟨hqueries, ?_⟩, hasked⟩
      exact List.forall_mem_singleton.mpr (fun hquery => Bool.noConfusion hquery)
  · exact ⟨h.store, h.clock, h.asked, h.sample, h.justified⟩

/-- The query that was waiting gets the lock. -/
theorem Ordered.query {d : State} (h : Ordered ttl grace d) {now : Instant} {wall : UInt64}
    (hsample : d.sample = some (now, wall)) (tab : TargetProcess) (sys : System) :
    Ordered ttl grace
      { d with
        sys
        store := (d.store.profileVetoAt tab.profile now wall).2
        sample := none
        ops := d.ops ++ [.query tab.profile now wall]
        queries := d.queries ++ [d.query tab now wall]
        cleared := some (d.query tab now wall) } := by
  obtain ⟨hnow, hqueries, hasked⟩ := h.sample now wall hsample
  refine ⟨?_, ?_, ?_, fun _ _ hnone => absurd hnone (by simp), ?_⟩
  · rw [run_append_singleton, ← h.store]
    rfl
  · exact List.forall_mem_append.mpr ⟨h.clock, List.forall_mem_singleton.mpr hnow⟩
  · exact List.forall_mem_append.mpr ⟨h.asked, List.forall_mem_singleton.mpr hnow⟩
  · refine List.forall_mem_append.mpr
      ⟨fun q hq => (h.justified q hq).append (hasked q hq), List.forall_mem_singleton.mpr ?_⟩
    refine ⟨?_, [.query tab.profile now wall], rfl,
      List.forall_mem_singleton.mpr (Nat.le_refl now)⟩
    show (d.store.profileVetoAt tab.profile now wall).1 = _
    rw [h.store]
    exact answer_eq_verdict ttl grace d.ops tab.profile hqueries wall

theorem ordered_step {d d' : State} (h : Ordered ttl grace d) (hstep : Step config d d') :
    Ordered ttl grace d' := by
  cases hstep with
  | tick elapsed =>
    have hle := Nat.le_add_right d.clock elapsed
    refine ⟨h.store, fun op hop => (h.clock op hop).trans hle,
      fun q hq => (h.asked q hq).trans hle, fun now wall hsample => ?_, h.justified⟩
    obtain ⟨hnow, hqueries, hasked⟩ := h.sample now wall hsample
    exact ⟨hnow.trans hle, hqueries, hasked⟩
  | request wall r => exact h.request wall r
  | scan sys hscan hwait => exact ⟨h.store, h.clock, h.asked, h.sample, h.justified⟩
  | lowRss tab judged hstage hsample hrss =>
    exact ⟨h.store, h.clock, h.asked, h.sample, h.justified⟩
  | sample tab judged wall hstage hsample hrss =>
    refine ⟨h.store, h.clock, h.asked, fun now wall' hsome => ?_, h.justified⟩
    cases hsome
    exact ⟨Nat.le_refl _, fun op hop _ => h.clock op hop, h.asked⟩
  | query tab judged now wall hstage hsample hrss hanswer => exact h.query hsample tab _

theorem ordered_of_reachable {d : State} (hd : (daemon config ttl grace).Reachable d) :
    Ordered ttl grace d :=
  hd.invariant (Ordered ttl grace) (fun _ h => ordered_init h)
    (fun _ _ _ h hstep => ordered_step h hstep)

end Order

/-! ## What a step of the scan can do -/

/-- Both states are in the middle of the same cycle. -/
structure SameCycle (s s' : System) : Prop where
  awake : s.stage ≠ .sleep
  awake' : s'.stage ≠ .sleep
  start : s'.start = s.start
  startStats : s'.startStats = s.startStats
  cycle : s'.cycle = s.cycle

/-- The steps of the kernel and of the scan, by what they do to the things that the notes
are about. -/
inductive Move (s s' : System) : Prop where
  | kernel (k : Kernel) (astray : Bool) (heq : s' = { s with kernel := k, astray })
  | wake (hstage : s.stage = .sleep) (hstage' : s'.stage = .next) (hstart : s'.start = s.tracker)
      (hstats : s'.startStats = s.stats) (hlog : s'.log = []) (heffects : s'.effects = s.effects)
  | sweep (hstage : s.stage = .next) (htodo : s.todo = [])
      (heq : s' = { s with
        tracker := s.tracker.retainOnly (s.cycle.targets.map TargetProcess.pid)
        stage := .sleep })
  | work (hcycle : SameCycle s s') (hlog : s'.log = s.log) (heffects : s'.effects = s.effects)
      (hpaging : ∀ tab, paging s'.stage = some tab → paging s.stage = some tab)
  | decide (hcycle : SameCycle s s') (tab : TargetProcess) (a : Action)
      (hlog : s'.log = s.log ++ [(tab, a)])
      (hcalls : a.callsCompressPid = true → paging s.stage = some tab)
      (hstage' : s'.stage = .next) (heffects : s'.effects = s.effects)
  | advise (hcycle : SameCycle s s') (hlog : s'.log = s.log) (tab : TargetProcess) (e : Effect)
      (hpaging : paging s.stage = some tab) (hpaging' : paging s'.stage = some tab)
      (heffects : s'.effects = s.effects ++ [e]) (hpid : e.pid = tab.pid)

/-- The checks of the tracker never end in a call. -/
theorem callsCompressPid_of_trackerCheck {config : Config} {isIdle : Bool} {cycles : UInt32}
    {isCompressed : Bool} {a : Action}
    (h : trackerCheck config isIdle cycles isCompressed = some a) : a.callsCompressPid = false := by
  unfold trackerCheck at h
  split at h
  · cases h
    rfl
  · split at h
    · cases h
      rfl
    · split at h
      · cases h
        rfl
      · cases h

theorem SameCycle.of_stage {s s' : System} {stage stage' : Stage} (hstage : s.stage = stage)
    (hstage' : s'.stage = stage') (hawake : stage ≠ .sleep) (hawake' : stage' ≠ .sleep)
    (hstart : s'.start = s.start) (hstats : s'.startStats = s.startStats)
    (hcycle : s'.cycle = s.cycle) : SameCycle s s' :=
  ⟨hstage ▸ hawake, hstage' ▸ hawake', hstart, hstats, hcycle⟩

/-- A step that is not one of the main thread at the RSS floor or the veto. -/
theorem scan_cases {config : Config} {s s' : System} (hstep : PageOut.Step config s s')
    (hwait : atResources s.stage = true → s'.stage = s.stage) : Move s s' := by
  cases hstep with
  | exit p => exact .kernel _ s.astray rfl
  | spawn p st hfree hfresh => exact .kernel _ _ rfl
  | clone p st hlive => exact .kernel _ s.astray rfl
  | cycleBegin c hstage => exact .wake hstage rfl rfl rfl rfl rfl
  | snapshotGone tab rest hstage htodo hsnap =>
    exact .decide (.of_stage hstage rfl Stage.noConfusion Stage.noConfusion rfl rfl rfl) tab
      .skipExited rfl (fun h => Bool.noConfusion h) rfl rfl
  | snapshot tab rest st cpuNs hstage htodo hsnap hused =>
    exact .work (.of_stage hstage rfl Stage.noConfusion Stage.noConfusion rfl rfl rfl) rfl rfl
      (fun tab h => absurd h (by simp [paging]))
  | updateSkip tab snap a hstage hcheck =>
    refine .decide (.of_stage hstage rfl Stage.noConfusion Stage.noConfusion rfl rfl rfl) tab a
      rfl (fun hcalls => ?_) rfl rfl
    rw [callsCompressPid_of_trackerCheck hcheck] at hcalls
    cases hcalls
  | updatePass tab snap hstage hcheck =>
    exact .work (.of_stage hstage rfl Stage.noConfusion Stage.noConfusion rfl rfl rfl) rfl rfl
      (fun tab h => absurd h (by simp [paging]))
  | rssSkip tab judged a hstage hcheck =>
    rw [hstage] at hwait
    exact absurd (hwait rfl) (by simp [System.finish])
  | rssPass tab judged hstage hcheck =>
    rw [hstage] at hwait
    exact absurd (hwait rfl) (by simp)
  | smapsError tab judged e hstage hread =>
    exact .decide (.of_stage hstage rfl Stage.noConfusion Stage.noConfusion rfl rfl rfl) tab _
      rfl (fun _ => by rw [hstage]; rfl) rfl rfl
  | smapsDryRun tab judged source regions hstage hread hlive hdry =>
    exact .decide (.of_stage hstage rfl Stage.noConfusion Stage.noConfusion rfl rfl rfl) tab _
      rfl (fun _ => by rw [hstage]; rfl) rfl rfl
  | smaps tab judged source regions hstage hread hlive hdry =>
    exact .work (.of_stage hstage rfl Stage.noConfusion Stage.noConfusion rfl rfl rfl) rfl rfl
      (fun tab h => by rw [hstage]; exact h)
  | pidfdError tab judged source regions e hstage hopen =>
    exact .decide (.of_stage hstage rfl Stage.noConfusion Stage.noConfusion rfl rfl rfl) tab _
      rfl (fun _ => by rw [hstage]; rfl) rfl rfl
  | pidfd tab judged source target regions hstage hopen hlive =>
    exact .work (.of_stage hstage rfl Stage.noConfusion Stage.noConfusion rfl rfl rfl) rfl rfl
      (fun tab h => by rw [hstage]; exact h)
  | madviseRejected tab judged source target regions sent hstage hmore hret =>
    exact .work (.of_stage hstage rfl Stage.noConfusion Stage.noConfusion rfl rfl rfl) rfl rfl
      (fun tab h => by rw [hstage]; exact h)
  | madvise tab judged source target regions batch sent hstage hbatch hret hlive =>
    exact .advise (.of_stage hstage rfl Stage.noConfusion Stage.noConfusion rfl rfl rfl) rfl tab _
      (by rw [hstage]; rfl) rfl rfl rfl
  | madviseDone tab judged source target regions sent hstage hdone =>
    exact .decide (.of_stage hstage rfl Stage.noConfusion Stage.noConfusion rfl rfl rfl) tab _
      rfl (fun _ => by rw [hstage]; rfl) rfl rfl
  | cycleEnd hstage htodo => exact .sweep hstage htodo rfl

/-! ## The scan of the daemon is the scan of `PageOut` -/

section Projection

variable {config : Config} {ttl grace : Duration}

theorem resourceCheck_of_answer {s : System} {tab : TargetProcess} {answer : Option ProfileVeto}
    (hrss : ¬ s.cycle.env.rssMib tab.pid < config.minRssMib)
    (hanswer : s.cycle.env.profileVeto tab.pid tab.profile = answer) :
    resourceCheck config s.cycle.env tab = answer.map Action.skipBrowserSignals := by
  rw [resourceCheck, if_neg hrss, hanswer]

/-- The main thread after a query is where `PageOut` takes it with the answer of the
cycle. -/
theorem step_answered {d : State} {tab : TargetProcess} {judged : UInt64}
    {answer : Option ProfileVeto} (hstage : d.sys.stage = .rss tab judged)
    (hrss : ¬ d.sys.cycle.env.rssMib tab.pid < config.minRssMib)
    (hanswer : d.sys.cycle.env.profileVeto tab.pid tab.profile = answer) :
    PageOut.Step config d.sys (d.answered tab judged answer) := by
  have hcheck := resourceCheck_of_answer hrss hanswer
  cases answer with
  | some veto => exact .rssSkip d.sys tab judged _ hstage hcheck
  | none => exact .rssPass d.sys tab judged hstage hcheck

theorem step_sys {d d' : State} (hstep : Step config d d') :
    d'.sys = d.sys ∨ PageOut.Step config d.sys d'.sys := by
  cases hstep with
  | tick elapsed => exact Or.inl rfl
  | request wall r => exact Or.inl rfl
  | scan sys hscan hwait => exact Or.inr hscan
  | lowRss tab judged hstage hsample hrss =>
    exact Or.inr (.rssSkip d.sys tab judged .skipLowRss hstage (if_pos hrss))
  | sample tab judged wall hstage hsample hrss => exact Or.inl rfl
  | query tab judged now wall hstage hsample hrss hanswer =>
    exact Or.inr (step_answered hstage hrss hanswer)

theorem sys_reachable {d : State} (hd : (daemon config ttl grace).Reachable d) :
    (system config).Reachable d.sys :=
  hd.refines State.sys (fun d (h : (daemon config ttl grace).init d) => h.1)
    (fun _ _ hstep => step_sys hstep)

end Projection

/-! ## Cycles that are over -/

section Past

variable {config : Config} {cycles : List Cycle} {c : Cycle}

theorem runCycles_append :
    runCycles config (cycles ++ [c]) = (runCycles config cycles).next config c := by
  unfold runCycles
  rw [List.foldl_append, List.foldl_cons, List.foldl_nil]

theorem cycleResult?_append_left {n : Nat} (hn : n < cycles.length) :
    cycleResult? config (cycles ++ [c]) n = cycleResult? config cycles n := by
  unfold cycleResult?
  rw [List.getElem?_append_left hn, List.take_append_of_le_length (Nat.le_of_lt hn)]

theorem cycleResult?_append_self :
    cycleResult? config (cycles ++ [c]) cycles.length =
      some ((runCycles config cycles).scan config c) := by
  unfold cycleResult?
  rw [List.getElem?_concat_length, List.take_left]
  rfl

/-- A call of the longer run is an old one, or a log entry of the last cycle. -/
theorem called_append {p : UInt32} {n : Nat} (h : Called config (cycles ++ [c]) p n) :
    n < cycles.length ∧ Called config cycles p n ∨
      n = cycles.length ∧ ∃ tab a, (tab, a) ∈ ((runCycles config cycles).scan config c).log ∧
        tab.pid = p ∧ a.callsCompressPid = true := by
  obtain ⟨c', hc'⟩ := exists_cycle_of_did h
  have hn := (List.getElem?_eq_some_iff.mp hc').1
  rw [List.length_append, List.length_singleton] at hn
  obtain ⟨r, hr, hmem⟩ := h
  rcases Nat.lt_or_ge n cycles.length with hlt | hge
  · rw [cycleResult?_append_left hlt] at hr
    exact Or.inl ⟨hlt, r, hr, hmem⟩
  · obtain rfl : n = cycles.length := by omega
    rw [cycleResult?_append_self] at hr
    cases hr
    exact Or.inr ⟨rfl, hmem⟩

end Past

def State.cycles (d : State) : List Cycle := d.past.map RealCycle.toCycle

/-- A query of cycle `n` let the target through. -/
structure Cleared (queries : List Query) (n : Nat) (tab : TargetProcess) (q : Query) : Prop where
  mem : q ∈ queries
  cycle : q.cycle = n
  tab : q.tab = tab
  answer : q.answer = none

theorem Cleared.append {queries : List Query} {n : Nat} {tab : TargetProcess} {q : Query}
    (h : Cleared queries n tab q) (q' : Query) : Cleared (queries ++ [q']) n tab q :=
  ⟨List.mem_append_left _ h.mem, h.cycle, h.tab, h.answer⟩

/-- The veto of the cycle is the answer that the query got. -/
def Agrees (c : RealCycle) (q : Query) : Prop :=
  c.env.profileVeto q.tab.pid q.tab.profile = q.answer

/-- The notes about cycles and queries against the scan. -/
structure Progress (config : Config) (d : State) : Prop where
  asleep : d.sys.stage = .sleep → d.sys.tracker = (runCycles config d.cycles).tracker ∧
    d.sys.stats = (runCycles config d.cycles).stats
  awake : d.sys.stage ≠ .sleep → d.sys.start = (runCycles config d.cycles).tracker ∧
    d.sys.startStats = (runCycles config d.cycles).stats
  inHand : ∀ tab, paging d.sys.stage = some tab →
    ∃ q, d.cleared = some q ∧ Cleared d.queries d.past.length tab q
  logged : d.sys.stage ≠ .sleep → ∀ tab a, (tab, a) ∈ d.sys.log → a.callsCompressPid = true →
    ∃ q, Cleared d.queries d.past.length tab q
  called : ∀ p n, Called config d.cycles p n →
    ∃ tab q, d.cycles[n]?.bind (fun c => c.target? p) = some tab ∧ Cleared d.queries n tab q
  recorded : ∀ q ∈ d.queries, (∃ c, d.past[q.cycle]? = some c ∧ Agrees c q) ∨
    q.cycle = d.past.length ∧ d.sys.stage ≠ .sleep ∧ Agrees d.sys.cycle q

/-- The notes about effects. -/
structure Noted (d : State) : Prop where
  effects : d.behind.map Batch.effect = d.sys.effects
  behind : ∀ b ∈ d.behind, ∃ tab q, b.target = some tab ∧ tab.pid = b.effect.pid ∧
    b.query = some q ∧ Cleared d.queries b.cycle tab q

section Follow

variable {config : Config} {d : State} {sys : System}

theorem follow_past (h : sys.stage = .sleep → d.sys.stage ≠ .next) :
    (d.follow sys).past = d.past := by
  unfold State.follow
  split
  · rename_i hnext hsleep
    exact absurd hnext (h hsleep)
  · rfl

theorem follow_behind (h : sys.effects = d.sys.effects) : (d.follow sys).behind = d.behind := by
  unfold State.follow
  rw [h, List.drop_length, List.map_nil, List.append_nil]

theorem follow_behind_append {e : Effect} (h : sys.effects = d.sys.effects ++ [e]) :
    (d.follow sys).behind = d.behind ++
      [{ effect := e, cycle := d.past.length, target := paging d.sys.stage,
         query := d.cleared }] := by
  unfold State.follow
  rw [h, List.drop_left]
  rfl

/-- A step inside a cycle logs calls of the target in hand only. -/
theorem Progress.follow_same (h : Progress config d) (hcycle : SameCycle d.sys sys)
    (hpaging : ∀ tab, paging sys.stage = some tab → paging d.sys.stage = some tab)
    (hlog : ∀ tab a, (tab, a) ∈ sys.log → a.callsCompressPid = true →
      (tab, a) ∈ d.sys.log ∨ paging d.sys.stage = some tab) :
    Progress config (d.follow sys) := by
  have hpast : (d.follow sys).past = d.past := follow_past (fun hs => absurd hs hcycle.awake')
  have hcycles : (d.follow sys).cycles = d.cycles := congrArg (List.map _) hpast
  refine ⟨fun hs => absurd hs hcycle.awake', fun _ => ?_, fun tab htab => ?_,
    fun _ tab a hmem hcalls => ?_, ?_, fun q hq => ?_⟩
  · rw [hcycles]
    obtain ⟨hstart, hstats⟩ := h.awake hcycle.awake
    exact ⟨hcycle.start.trans hstart, hcycle.startStats.trans hstats⟩
  · rw [hpast]
    exact h.inHand tab (hpaging tab htab)
  · rw [hpast]
    rcases hlog tab a hmem hcalls with hold | hhand
    · exact h.logged hcycle.awake tab a hold hcalls
    · obtain ⟨q, -, hq⟩ := h.inHand tab hhand
      exact ⟨q, hq⟩
  · rw [hcycles]
    exact h.called
  · rw [hpast]
    rcases h.recorded q hq with hover | ⟨hnow, -, hagrees⟩
    · exact Or.inl hover
    · exact Or.inr ⟨hnow, hcycle.awake', hcycle.cycle ▸ hagrees⟩

/-- The end of a cycle adds it to the sequential run. -/
theorem Progress.sweep (h : Progress config d) (hreach : (system config).Reachable d.sys)
    (hstage : d.sys.stage = .next) (htodo : d.sys.todo = []) :
    Progress config (d.follow { d.sys with
      tracker := d.sys.tracker.retainOnly (d.sys.cycle.targets.map TargetProcess.pid)
      stage := .sleep }) := by
  obtain ⟨htracker, hstats, hlog⟩ := cycleEnd_eq_scanCycle hreach hstage htodo
  have hawake : d.sys.stage ≠ .sleep := by
    rw [hstage]
    exact Stage.noConfusion
  obtain ⟨hstart, hstartStats⟩ := h.awake hawake
  rw [hstart, hstartStats] at htracker hstats hlog
  -- the cycle that ends is the next one of the sequential run
  have hpast : (d.follow { d.sys with
      tracker := d.sys.tracker.retainOnly (d.sys.cycle.targets.map TargetProcess.pid)
      stage := .sleep }).past = d.past ++ [d.sys.cycle] := by
    unfold State.follow
    rw [hstage]
  have hcycles := congrArg (List.map RealCycle.toCycle) hpast
  rw [List.map_append, List.map_singleton] at hcycles
  have hrun : runCycles config (d.follow { d.sys with
      tracker := d.sys.tracker.retainOnly (d.sys.cycle.targets.map TargetProcess.pid)
      stage := .sleep }).cycles =
      (runCycles config d.cycles).next config d.sys.cycle.toCycle := by
    unfold State.cycles
    rw [hcycles]
    exact runCycles_append
  refine ⟨fun _ => ?_, fun hs => absurd rfl hs,
    fun tab htab => absurd htab (by simp [State.follow, paging]), fun hs => absurd rfl hs,
    fun p n hcalled => ?_, fun q hq => ?_⟩
  · rw [hrun]
    exact ⟨htracker, hstats⟩
  · unfold State.cycles at hcalled ⊢
    rw [hcycles] at hcalled ⊢
    rcases called_append hcalled with ⟨hn, hold⟩ | ⟨hn, tab, a, hmem, hpid, hcalls⟩
    · obtain ⟨tab, q, htab, hq⟩ := h.called p n hold
      exact ⟨tab, q, by rw [List.getElem?_append_left hn]; exact htab, hq⟩
    · have hmem' : (tab, a) ∈ d.sys.log := hlog ▸ hmem
      obtain ⟨q, hq⟩ := h.logged hawake tab a hmem' hcalls
      refine ⟨tab, q, ?_, ?_⟩
      · rw [RunState.scan, scanCycle_log] at hmem
        obtain ⟨tab', htab', heq⟩ := List.mem_map.mp hmem
        cases heq
        rw [hn, List.getElem?_concat_length, Option.bind_some, ← hpid]
        exact Cycle.target?_of_mem htab'
      · rw [hn, List.length_map]
        exact hq
  · rw [hpast]
    rcases h.recorded q hq with ⟨c, hc, hagrees⟩ | ⟨hnow, -, hagrees⟩
    · refine Or.inl ⟨c, ?_, hagrees⟩
      rw [List.getElem?_append_left (List.getElem?_eq_some_iff.mp hc).1]
      exact hc
    · refine Or.inl ⟨d.sys.cycle, ?_, hagrees⟩
      rw [hnow]
      exact List.getElem?_concat_length

/-- The kernel moves nothing of what the daemon keeps. -/
theorem Progress.kernel (h : Progress config d) (k : Kernel) (astray : Bool) :
    Progress config (d.follow { d.sys with kernel := k, astray }) := by
  have hpast : (d.follow { d.sys with kernel := k, astray }).past = d.past :=
    follow_past (fun hs => by rw [show d.sys.stage = .sleep from hs]; exact Stage.noConfusion)
  have hcycles : (d.follow { d.sys with kernel := k, astray }).cycles = d.cycles :=
    congrArg (List.map _) hpast
  refine ⟨?_, ?_, ?_, ?_, ?_, ?_⟩
  · rw [hcycles]
    exact h.asleep
  · rw [hcycles]
    exact h.awake
  · rw [hpast]
    exact h.inHand
  · rw [hpast]
    exact h.logged
  · rw [hcycles]
    exact h.called
  · rw [hpast]
    exact h.recorded

/-- A cycle begins where the sequential run stands. -/
theorem Progress.wake (h : Progress config d) (hstage : d.sys.stage = .sleep)
    (hstage' : sys.stage = .next) (hstart : sys.start = d.sys.tracker)
    (hstats : sys.startStats = d.sys.stats) (hlog : sys.log = []) :
    Progress config (d.follow sys) := by
  have hpast : (d.follow sys).past = d.past :=
    follow_past (fun hs => by rw [hstage'] at hs; cases hs)
  have hcycles : (d.follow sys).cycles = d.cycles := congrArg (List.map _) hpast
  have hawake : sys.stage ≠ .sleep := by
    rw [hstage']
    exact Stage.noConfusion
  refine ⟨fun hs => absurd hs hawake, fun _ => ?_, fun tab htab => ?_, fun _ tab a hmem => ?_,
    ?_, fun q hq => ?_⟩
  · rw [hcycles]
    obtain ⟨htracker, hstats₀⟩ := h.asleep hstage
    exact ⟨hstart.trans htracker, hstats.trans hstats₀⟩
  · change paging sys.stage = some tab at htab
    rw [hstage'] at htab
    cases htab
  · change (tab, a) ∈ sys.log at hmem
    rw [hlog] at hmem
    cases hmem
  · rw [hcycles]
    exact h.called
  · rw [hpast]
    rcases h.recorded q hq with hover | ⟨-, hne, -⟩
    · exact Or.inl hover
    · exact absurd hstage hne

theorem Progress.scan (h : Progress config d) (hreach : (system config).Reachable d.sys)
    (hmove : Move d.sys sys) : Progress config (d.follow sys) := by
  cases hmove with
  | kernel k astray heq =>
    subst heq
    exact h.kernel k astray
  | wake hstage hstage' hstart hstats hlog heffects =>
    exact h.wake hstage hstage' hstart hstats hlog
  | sweep hstage htodo heq =>
    subst heq
    exact h.sweep hreach hstage htodo
  | work hcycle hlog heffects hpaging =>
    exact h.follow_same hcycle hpaging (fun tab a hmem _ => Or.inl (hlog ▸ hmem))
  | decide hcycle tab a hlog hcalls hstage' heffects =>
    refine h.follow_same hcycle (fun tab' htab => ?_) (fun tab' a' hmem hcalls' => ?_)
    · rw [hstage'] at htab
      cases htab
    · rw [hlog] at hmem
      rcases List.mem_append.mp hmem with hold | hnew
      · exact Or.inl hold
      · obtain ⟨rfl, rfl⟩ := Prod.mk.inj (List.mem_singleton.mp hnew)
        exact Or.inr (hcalls hcalls')
  | advise hcycle hlog tab e hpaging hpaging' heffects hpid =>
    refine h.follow_same hcycle (fun tab' htab => ?_) (fun tab a hmem _ => Or.inl (hlog ▸ hmem))
    rw [hpaging, ← htab, hpaging']

theorem Noted.scan (h : Noted d) (hprogress : Progress config d) (hmove : Move d.sys sys) :
    Noted (d.follow sys) := by
  have hkeep : sys.effects = d.sys.effects → Noted (d.follow sys) := by
    intro heffects
    refine ⟨?_, ?_⟩
    · rw [follow_behind heffects]
      exact h.effects.trans heffects.symm
    · rw [follow_behind heffects]
      exact h.behind
  cases hmove with
  | kernel k astray heq => exact hkeep (by rw [heq])
  | wake hstage hstage' hstart hstats hlog heffects => exact hkeep heffects
  | sweep hstage htodo heq => exact hkeep (by rw [heq])
  | work hcycle hlog heffects hpaging => exact hkeep heffects
  | decide hcycle tab a hlog hcalls hstage' heffects => exact hkeep heffects
  | advise hcycle hlog tab e hpaging hpaging' heffects hpid =>
    obtain ⟨q, hcleared, hq⟩ := hprogress.inHand tab hpaging
    refine ⟨?_, fun b hmem => ?_⟩
    · rw [follow_behind_append heffects, List.map_append, h.effects]
      exact heffects.symm
    · rw [follow_behind_append heffects] at hmem
      rcases List.mem_append.mp hmem with hold | hnew
      · exact h.behind b hold
      · rw [List.mem_singleton.mp hnew]
        exact ⟨tab, q, hpaging, hpid.symm, hcleared, hq⟩

/-- A step that ends no cycle and pages nothing out leaves the notes alone. -/
theorem follow_eq (hpast : sys.stage = .sleep → d.sys.stage ≠ .next)
    (heffects : sys.effects = d.sys.effects) : d.follow sys = { d with sys } := by
  have hp := follow_past hpast
  have hb := follow_behind heffects
  unfold State.follow at hp hb ⊢
  simp only at hp hb
  rw [hp, hb]

end Follow

section Steps

variable {config : Config} {ttl grace : Duration} {d d' : State}

/-- Where the answer of the store leaves the scan. -/
theorem answered_spec {tab : TargetProcess} {judged : UInt64}
    (hstage : d.sys.stage = .rss tab judged)
    (answer : Option ProfileVeto) :
    SameCycle d.sys (d.answered tab judged answer) ∧
      (d.answered tab judged answer).effects = d.sys.effects ∧
      (∀ tab', paging (d.answered tab judged answer).stage = some tab' →
        answer = none ∧ tab' = tab) ∧
      ∀ tab' a, (tab', a) ∈ (d.answered tab judged answer).log → a.callsCompressPid = true →
        (tab', a) ∈ d.sys.log := by
  cases answer with
  | none =>
    refine ⟨.of_stage hstage rfl Stage.noConfusion Stage.noConfusion rfl rfl rfl, rfl,
      fun tab' htab => ⟨rfl, (Option.some.inj htab).symm⟩, fun tab' a hmem _ => hmem⟩
  | some veto =>
    refine ⟨.of_stage hstage rfl Stage.noConfusion Stage.noConfusion rfl rfl rfl, rfl,
      fun tab' htab => ?_, fun tab' a hmem hcalls => ?_⟩
    · cases htab
    · rcases List.mem_append.mp hmem with hold | hnew
      · exact hold
      · obtain ⟨rfl, rfl⟩ := Prod.mk.inj (List.mem_singleton.mp hnew)
        cases hcalls

theorem Progress.lowRss (h : Progress config d) {tab : TargetProcess} {judged : UInt64}
    (hstage : d.sys.stage = .rss tab judged) :
    Progress config { d with sys := d.sys.finish tab .skipLowRss } := by
  have hpast : (d.sys.finish tab .skipLowRss).stage = .sleep → d.sys.stage ≠ .next :=
    fun hs => Stage.noConfusion hs
  have heq : d.follow (d.sys.finish tab .skipLowRss) =
      { d with sys := d.sys.finish tab .skipLowRss } := follow_eq hpast rfl
  rw [← heq]
  refine h.follow_same (.of_stage hstage rfl Stage.noConfusion Stage.noConfusion rfl rfl rfl)
    (fun tab' htab => by cases htab) (fun tab' a hmem hcalls => ?_)
  rcases List.mem_append.mp hmem with hold | hnew
  · exact Or.inl hold
  · obtain ⟨rfl, rfl⟩ := Prod.mk.inj (List.mem_singleton.mp hnew)
    cases hcalls

/-- The query that got the lock clears its target, or ends its turn. -/
theorem Progress.query (h : Progress config d) {tab : TargetProcess} {judged : UInt64}
    {now : Instant} {wall : UInt64} (hstage : d.sys.stage = .rss tab judged)
    (hanswer : d.sys.cycle.env.profileVeto tab.pid tab.profile =
      (d.store.profileVetoAt tab.profile now wall).1) (store : SignalStore)
    (ops : List StoreOp) :
    Progress config
      { d with
        sys := d.answered tab judged (d.query tab now wall).answer
        store
        sample := none
        ops
        queries := d.queries ++ [d.query tab now wall]
        cleared := some (d.query tab now wall) } := by
  obtain ⟨hcycle, -, hpaging, hlog⟩ := answered_spec hstage (d.query tab now wall).answer
  refine ⟨fun hs => absurd hs hcycle.awake', fun _ => ?_, fun tab' htab => ?_,
    fun _ tab' a hmem hcalls => ?_, fun p n hcalled => ?_, fun q hq => ?_⟩
  · obtain ⟨hstart, hstats⟩ := h.awake hcycle.awake
    exact ⟨hcycle.start.trans hstart, hcycle.startStats.trans hstats⟩
  · obtain ⟨hnone, rfl⟩ := hpaging tab' htab
    exact ⟨_, rfl, List.mem_append_right _ (List.mem_singleton.mpr rfl), rfl, rfl, hnone⟩
  · obtain ⟨q, hq⟩ := h.logged hcycle.awake tab' a (hlog tab' a hmem hcalls) hcalls
    exact ⟨q, hq.append _⟩
  · obtain ⟨tab', q, htab, hq⟩ := h.called p n hcalled
    exact ⟨tab', q, htab, hq.append _⟩
  · rcases List.mem_append.mp hq with hold | hnew
    · rcases h.recorded q hold with hover | ⟨hnow, -, hagrees⟩
      · exact Or.inl hover
      · exact Or.inr ⟨hnow, hcycle.awake', by rw [hcycle.cycle]; exact hagrees⟩
    · rw [List.mem_singleton.mp hnew]
      exact Or.inr ⟨rfl, hcycle.awake', by rw [Agrees, hcycle.cycle]; exact hanswer⟩

theorem progress_step (h : Progress config d) (hreach : (system config).Reachable d.sys)
    (hstep : Step config d d') : Progress config d' := by
  cases hstep with
  | tick elapsed => exact ⟨h.asleep, h.awake, h.inHand, h.logged, h.called, h.recorded⟩
  | request wall r => exact ⟨h.asleep, h.awake, h.inHand, h.logged, h.called, h.recorded⟩
  | scan sys hscan hwait => exact h.scan hreach (scan_cases hscan hwait)
  | lowRss tab judged hstage hsample hrss => exact h.lowRss hstage
  | sample tab judged wall hstage hsample hrss =>
    exact ⟨h.asleep, h.awake, h.inHand, h.logged, h.called, h.recorded⟩
  | query tab judged now wall hstage hsample hrss hanswer => exact h.query hstage hanswer _ _

theorem noted_step (h : Noted d) (hprogress : Progress config d) (hstep : Step config d d') :
    Noted d' := by
  cases hstep with
  | tick elapsed => exact ⟨h.effects, h.behind⟩
  | request wall r => exact ⟨h.effects, h.behind⟩
  | scan sys hscan hwait => exact h.scan hprogress (scan_cases hscan hwait)
  | lowRss tab judged hstage hsample hrss => exact ⟨h.effects, h.behind⟩
  | sample tab judged wall hstage hsample hrss => exact ⟨h.effects, h.behind⟩
  | query tab judged now wall hstage hsample hrss hanswer =>
    obtain ⟨-, heffects, -, -⟩ := answered_spec hstage (d.query tab now wall).answer
    refine ⟨h.effects.trans heffects.symm, fun b hmem => ?_⟩
    obtain ⟨tab', q, htab, hpid, hnote, hq⟩ := h.behind b hmem
    exact ⟨tab', q, htab, hpid, hnote, hq.append _⟩

theorem progress_init (h : (daemon config ttl grace).init d) : Progress config d := by
  obtain ⟨⟨htracker, hstage, -, -⟩, hstats, -, -, -, hpast, hqueries, -⟩ := h
  have hcycles : d.cycles = [] := by rw [State.cycles, hpast, List.map_nil]
  refine ⟨fun _ => ?_, fun hs => absurd hstage hs, fun tab htab => ?_, fun hs => absurd hstage hs,
    fun p n hcalled => ?_, fun q hq => ?_⟩
  · rw [hcycles]
    exact ⟨htracker, hstats⟩
  · rw [hstage] at htab
    cases htab
  · rw [hcycles] at hcalled
    obtain ⟨c, hc⟩ := exists_cycle_of_did hcalled
    cases hc
  · rw [hqueries] at hq
    cases hq

theorem progress_of_reachable (hd : (daemon config ttl grace).Reachable d) : Progress config d :=
  hd.invariant (Progress config) (fun _ h => progress_init h)
    (fun _ _ hreach h hstep => progress_step h (sys_reachable hreach) hstep)

theorem noted_of_reachable (hd : (daemon config ttl grace).Reachable d) : Noted d := by
  refine hd.invariant Noted ?_
    (fun _ _ hreach h hstep => noted_step h (progress_of_reachable hreach) hstep)
  intro d h
  obtain ⟨⟨-, -, heffects, -⟩, -, -, -, -, -, -, hbehind⟩ := h
  refine ⟨by rw [hbehind, heffects]; rfl, fun b hmem => ?_⟩
  rw [hbehind] at hmem
  cases hmem

end Steps

/-! ## A page-out after a report -/

/-- A step of the kernel or of the scan that `scan` allows. -/
def Allowed (config : Config) (s s' : System) : Prop :=
  PageOut.Step config s s' ∧ (atResources s.stage = true → s'.stage = s.stage)

/-- A step that takes no time and during which no report is accepted. -/
def Alone (config : Config) (d d' : State) : Prop :=
  Step config d d' ∧ d'.clock = d.clock ∧
    ∀ family, acceptedReports family d'.ops = acceptedReports family d.ops

/-- The daemon can follow the scan while the server is idle. -/
theorem alone_follow {config : Config} {d : State} {sys : System}
    (hchain : Relation.ReflTransGen (Allowed config) d.sys sys) :
    ∃ d', Relation.ReflTransGen (Alone config) d d' ∧ d'.sys = sys ∧ d'.store = d.store ∧
      d'.clock = d.clock ∧ d'.sample = d.sample ∧ d'.ops = d.ops ∧ d'.queries = d.queries := by
  induction hchain with
  | refl => exact ⟨d, .refl, rfl, rfl, rfl, rfl, rfl, rfl⟩
  | tail _ hstep ih =>
    obtain ⟨d', hd', rfl, hsame⟩ := ih
    exact ⟨_, hd'.tail ⟨.scan d' _ hstep.1 hstep.2, rfl, fun _ => rfl⟩, rfl, hsame⟩

/-- The daemon of `PageOut.raceKernel` before its first cycle. -/
def raceSystem : System where
  kernel := raceKernel
  tracker := CpuTracker.new
  stats := {}
  start := CpuTracker.new
  startStats := {}
  cycle := raceCycle
  todo := []
  log := []
  stage := .sleep
  astray := false
  effects := []

theorem raceSystem_seen :
    ∃ s, Relation.ReflTransGen (Allowed raceConfig) raceSystem s ∧ Seen s := by
  have h₁ : Relation.ReflTransGen (Allowed raceConfig) raceSystem _ :=
    .single ⟨.cycleBegin raceSystem raceCycle rfl, fun h => Bool.noConfusion h⟩
  have h₂ := h₁.tail ⟨.snapshot _ raceTab [] 1 0 rfl rfl rfl ⟨rfl, rfl⟩,
    fun h => Bool.noConfusion h⟩
  have h₃ := h₂.tail ⟨.updateSkip _ raceTab ⟨7, 1, 0⟩ .skipActive rfl (by decide),
    fun h => Bool.noConfusion h⟩
  have h₄ := h₃.tail ⟨.cycleEnd _ rfl rfl, fun h => Bool.noConfusion h⟩
  refine ⟨_, h₄, rfl, rfl, rfl, ?_⟩
  have hview := CpuTracker.view_update CpuTracker.new ⟨7, 1, 0⟩ raceConfig.cpuDeltaNs
    raceConfig.wakeupDeltaNs 7
  rw [if_pos rfl, CpuTracker.view_new] at hview
  change ((CpuTracker.new.update ⟨7, 1, 0⟩ raceConfig.cpuDeltaNs
    raceConfig.wakeupDeltaNs).2.retainOnly [7]).view 7 = _
  rw [CpuTracker.view_retainOnly, if_pos (List.mem_singleton.mpr rfl), hview]
  decide

/-- The second cycle brings PID 7 in front of the veto. -/
theorem seen_asks {s : System} (hseen : Seen s) :
    ∃ s', Relation.ReflTransGen (Allowed raceConfig) s s' ∧ s'.kernel = raceKernel ∧
      s'.stage = .rss raceTab 1 ∧ s'.cycle = raceCycle ∧ s'.todo = [] := by
  obtain ⟨hkernel, hstage, -, hview⟩ := hseen
  have h₁ : Relation.ReflTransGen (Allowed raceConfig) s _ :=
    .single ⟨.cycleBegin s raceCycle hstage, fun h => by rw [hstage] at h; cases h⟩
  have hlive : s.kernel.procs raceTab.pid = some 1 := by
    rw [hkernel]
    rfl
  have h₂ := h₁.tail ⟨.snapshot _ raceTab [] 1 0 rfl rfl rfl (s.kernel.used_of_live _ _ hlive),
    fun h => Bool.noConfusion h⟩
  have hpass := System.updateCheck_eq_view raceConfig
    { s with start := s.tracker, startStats := s.stats,
             stats := Stats.beginCycle s.stats raceCycle.targets, cycle := raceCycle,
             todo := [], log := [], astray := decide (s.kernel.procs raceTab.pid ≠ some 1),
             stage := .update raceTab ⟨7, 1, 0⟩ }
    raceTab ⟨7, 1, 0⟩ rfl
  rw [show raceTab.pid = 7 from rfl, hview] at hpass
  exact ⟨_, h₂.tail ⟨.updatePass _ raceTab ⟨7, 1, 0⟩ rfl (hpass.trans (by decide)),
    fun h => Bool.noConfusion h⟩, hkernel, rfl, rfl, rfl⟩

/-- Behind the veto the page of PID 7 is paged out, and the cycle ends. -/
theorem raceSystem_pages_out {s : System} (hkernel : s.kernel = raceKernel)
    (hstage : s.stage = .smaps raceTab 1) (hcycle : s.cycle = raceCycle) (htodo : s.todo = []) :
    ∃ s', Relation.ReflTransGen (Allowed raceConfig) s s' ∧ s'.stage = .sleep ∧
      ∃ e ∈ s'.effects, e.pid = 7 := by
  have hinputs : s.inputs raceTab = onePageInputs := by
    unfold System.inputs
    rw [hcycle]
    rfl
  have hread : readAnonymousRegions (s.inputs raceTab) 7 = .ok [(0x1000, 0x1000)] := by
    rw [hinputs]
    exact read_onePageInputs 7
  have hopen : openPidfd (s.inputs raceTab) 7 = .ok () := by
    rw [hinputs]
    rfl
  have hret : 0 ≤ (s.inputs raceTab).madvise 0 := by
    rw [hinputs]
    decide
  have hlive : s.kernel.procs 7 = some 1 := by
    rw [hkernel]
    rfl
  have h₁ : Relation.ReflTransGen (Allowed raceConfig) s _ :=
    .single ⟨.smaps s raceTab 1 1 _ hstage hread hlive rfl, fun h => by rw [hstage] at h; cases h⟩
  have h₂ := h₁.tail ⟨.pidfd _ raceTab 1 1 1 _ rfl hopen hlive, fun h => Bool.noConfusion h⟩
  have h₃ := h₂.tail ⟨.madvise _ raceTab 1 1 1 _ _ 0 rfl batches_onePageInputs hret hlive,
    fun h => Bool.noConfusion h⟩
  have h₄ := h₃.tail ⟨.madviseDone _ raceTab 1 1 1 _ 1 rfl rfl, fun h => Bool.noConfusion h⟩
  have h₅ := h₄.tail ⟨.cycleEnd _ rfl htodo, fun h => Bool.noConfusion h⟩
  exact ⟨_, h₅, rfl, _, List.mem_append_right _ (List.mem_singleton.mpr rfl), rfl⟩

/-- If the store has no veto, PID 7 is paged out in the second cycle. -/
theorem alone_pages_out {d : State} (hsys : d.sys = raceSystem) (hsample : d.sample = none)
    (hanswer : (d.store.profileVetoAt raceTab.profile d.clock 0).1 = none) :
    ∃ d', Relation.ReflTransGen (Alone raceConfig) d d' ∧ d'.sys.stage = .sleep ∧
      (∃ e ∈ d'.sys.effects, e.pid = 7) ∧
      ∃ q, d'.queries = d.queries ++ [q] ∧ q.tab = raceTab ∧ q.now = d.clock ∧
        q.before = d.ops := by
  obtain ⟨s₁, hseen, hs₁⟩ := raceSystem_seen
  obtain ⟨s₂, hasks, hkernel, hstage, hcycle, htodo⟩ := seen_asks hs₁
  obtain ⟨d₂, h₂, rfl, hstore, hclock, hsample₂, hops, hqueries⟩ := alone_follow (d := d)
    (hsys ▸ hseen.trans hasks : Relation.ReflTransGen (Allowed raceConfig) d.sys s₂)
  rw [← hstore, ← hclock] at hanswer
  have hrss : ¬ d₂.sys.cycle.env.rssMib raceTab.pid < raceConfig.minRssMib := by
    rw [hcycle]
    decide
  have hveto : d₂.sys.cycle.env.profileVeto raceTab.pid raceTab.profile = none := by
    rw [hcycle]
    rfl
  have h₃ := h₂.tail ⟨.sample d₂ raceTab 1 0 hstage (hsample₂.trans hsample) hrss, rfl,
    fun _ => rfl⟩
  have hnext : d₂.answered raceTab 1 (d₂.query raceTab d₂.clock 0).answer =
      { d₂.sys with stage := .smaps raceTab 1 } := by
    simp only [State.query, hanswer, State.answered]
  obtain ⟨d₄, h₄, hsys₄, hasked⟩ : ∃ d₄, Relation.ReflTransGen (Alone raceConfig) d d₄ ∧
      d₄.sys = { d₂.sys with stage := .smaps raceTab 1 } ∧
      d₄.queries = d.queries ++ [d₂.query raceTab d₂.clock 0] := by
    refine ⟨_, h₃.tail ⟨.query _ raceTab 1 d₂.clock 0 hstage rfl hrss (hveto.trans hanswer.symm),
      rfl, fun _ => ?_⟩, hnext, congrArg (· ++ _) hqueries⟩
    simp [acceptedReports, StoreOp.accepted]
  obtain ⟨s₅, hchain, hsleep, heffect⟩ := raceSystem_pages_out
    (s := { d₂.sys with stage := .smaps raceTab 1 }) hkernel rfl hcycle htodo
  rw [← hsys₄] at hchain
  obtain ⟨d₅, h₅, rfl, -, -, -, -, hsame⟩ := alone_follow hchain
  exact ⟨d₅, h₄.trans h₅, hsleep, heffect, d₂.query raceTab d₂.clock 0, hsame.trans hasked, rfl,
    hclock, hops⟩

/-- Firefox reports a tab that gives no reason for a veto. -/
def quietRequest : Request where
  requiresSourceHeader := false
  sourceHeader := none
  report := oneTabReport "a" {}

/-- The daemon after that report. -/
def reported : State where
  sys := raceSystem
  store := (handle (SignalStore.new 60 0) 0 0 quietRequest).2
  clock := 0
  sample := none
  ops := [.report 0 0 quietRequest.report]
  past := []
  queries := []
  cleared := none
  behind := []

end BsslRam.Daemon
