import BsslRam.ScanCycle
import BsslRam.Lib.Machine

/-!
# The scan against a kernel that moves

`scan_cycle` resolves the PID of a target again and again: for the snapshot,
for the RSS, for `smaps`, and for the pidfd.  Between any two of these the
process may exit and the kernel may give the PID to another one.  Here the loop
body is cut at its system calls, and the kernel takes steps of its own in
between.

A process identity is a PID with a start time.  The kernel never gives one
start time to the same PID twice.  The pidfd stays bound to the identity it was
opened on, so `process_madvise` fails once that process is gone, whatever the
PID means by then.

A snapshot has a start time that some task under the PID has had.  Read from
`/proc/PID/stat` it is the one of the live process.  The maps of the eBPF program
keep the first one that was seen under the PID, be it of a thread or of a process
that is gone.

The answers of the kernel that carry no identity (CPU time, RSS, the text of
`smaps`, return values) are fixed with the cycle, and each step asks that the
kernel can give its answer at that moment.  That is no restriction, since every
question is asked at most once in a cycle, and it makes the cut loop comparable
with `scanCycle`: `cycleEnd_eq_scanCycle` says that it computes the same
tracker and the same log under every interleaving.

Each effect records the identity that was judged, the one whose `smaps` was
read and the one the pidfd was bound to.  `effects_onJudged_iff` says that they
agree unless the snapshot was of another process than the one under the PID, or
the PID was reused between the snapshot and `pidfd_open`.
-/

namespace BsslRam.PageOut

open BsslRam.Lib BsslRam.Scanner BsslRam.State BsslRam.Compressor BsslRam.ScanCycle

/-! ## The kernel -/

/-- The live processes, by PID, with their start times; and the start times that the
tasks under each PID have had so far. -/
structure Kernel where
  procs : UInt32 → Option UInt64
  used : UInt32 → UInt64 → Prop
  used_of_live : ∀ p st, procs p = some st → used p st

def Kernel.exit (k : Kernel) (p : UInt32) : Kernel where
  procs := Function.update k.procs p none
  used := k.used
  used_of_live := by
    intro q st hlive
    by_cases hq : q = p
    · rw [hq, Function.update_self] at hlive
      cases hlive
    · rw [Function.update_of_ne hq] at hlive
      exact k.used_of_live q st hlive

def Kernel.spawn (k : Kernel) (p : UInt32) (st : UInt64) : Kernel where
  procs := Function.update k.procs p (some st)
  used := fun q t => k.used q t ∨ q = p ∧ t = st
  used_of_live := by
    intro q t hlive
    by_cases hq : q = p
    · rw [hq, Function.update_self] at hlive
      exact Or.inr ⟨hq, (Option.some.inj hlive).symm⟩
    · rw [Function.update_of_ne hq] at hlive
      exact Or.inl (k.used_of_live q t hlive)

/-- The process under `p` starts a thread. -/
def Kernel.clone (k : Kernel) (p : UInt32) (st : UInt64) : Kernel where
  procs := k.procs
  used := fun q t => k.used q t ∨ q = p ∧ t = st
  used_of_live := fun q t hlive => Or.inl (k.used_of_live q t hlive)

theorem Kernel.procs_exit (k : Kernel) (p q : UInt32) :
    (k.exit p).procs q = if q = p then none else k.procs q :=
  Function.update_apply k.procs p none q

theorem Kernel.procs_spawn (k : Kernel) (p : UInt32) (st : UInt64) (q : UInt32) :
    (k.spawn p st).procs q = if q = p then some st else k.procs q :=
  Function.update_apply k.procs p (some st) q

/-! ## The loop body, cut at its system calls -/

/-- The checks on the tracker's answers, up to the first read of the RSS. -/
def trackerCheck (config : Config) (isIdle : Bool) (cycles : UInt32) (isCompressed : Bool) :
    Option Action :=
  if !isIdle then some .skipActive
  else if cycles < config.idleCyclesThreshold then some .waitWarmup
  else if isCompressed then some .skipAlreadyCompressed
  else none

/-- The RSS floor and the browser veto. -/
def resourceCheck (config : Config) (env : CycleEnv) (tab : TargetProcess) : Option Action :=
  if env.rssMib tab.pid < config.minRssMib then some .skipLowRss
  else (env.profileVeto tab.pid tab.profile).map Action.skipBrowserSignals

/-- What the loop makes of the result of `compress_pid`. -/
def outcomeAction : Except Error CompressOutcome → Action
  | .ok outcome =>
      if outcome.isRealSuccess then .compress outcome
      else if outcome.wasDryRun then .wouldCompress outcome
      else .compressIncomplete outcome
  | .error err => .compressFailed err

/-- The three parts are the ladder of the loop body. -/
theorem judge_eq_parts (config : Config) (env : CycleEnv) (tab : TargetProcess)
    (isIdle : Bool) (cycles : UInt32) (isCompressed : Bool) :
    judge config env tab isIdle cycles isCompressed =
      (trackerCheck config isIdle cycles isCompressed).getD
        ((resourceCheck config env tab).getD
          (outcomeAction (env.compressPid tab.pid config.dryRun))) := by
  unfold judge trackerCheck resourceCheck
  split
  · rfl
  · split
    · rfl
    · split
      · rfl
      · rw [Option.getD_none]
        split
        · rfl
        · cases env.profileVeto tab.pid tab.profile with
          | some veto => rfl
          | none => rfl

theorem callsCompressPid_outcomeAction (result : Except Error CompressOutcome) :
    (outcomeAction result).callsCompressPid = true := by
  cases result with
  | error err => rfl
  | ok outcome =>
    cases hreal : outcome.isRealSuccess with
    | true => simp [outcomeAction, hreal, Action.callsCompressPid]
    | false =>
      cases hdry : outcome.wasDryRun <;>
        simp [outcomeAction, hreal, hdry, Action.callsCompressPid]

/-- Only an error is a failure. -/
theorem eq_error_of_compressFailed {result : Except Error CompressOutcome} {err : Error}
    (h : outcomeAction result = .compressFailed err) : result = .error err := by
  cases result with
  | error err' =>
    cases h
    rfl
  | ok outcome =>
    exfalso
    cases hreal : outcome.isRealSuccess with
    | true => simp [outcomeAction, hreal] at h
    | false => cases hdry : outcome.wasDryRun <;> simp [outcomeAction, hreal, hdry] at h

/-- The ladder stops at a check, or it goes by the result of `compress_pid`. -/
theorem judge_cases (config : Config) (env : CycleEnv) (tab : TargetProcess)
    (isIdle : Bool) (cycles : UInt32) (isCompressed : Bool) :
    (judge config env tab isIdle cycles isCompressed).callsCompressPid = false ∧
        judge config env tab isIdle cycles isCompressed ≠ .skipExited ∨
      judge config env tab isIdle cycles isCompressed =
        outcomeAction (env.compressPid tab.pid config.dryRun) := by
  unfold judge
  split
  · exact Or.inl ⟨rfl, by simp⟩
  split
  · exact Or.inl ⟨rfl, by simp⟩
  split
  · exact Or.inl ⟨rfl, by simp⟩
  split
  · exact Or.inl ⟨rfl, by simp⟩
  cases env.profileVeto tab.pid tab.profile with
  | some veto => exact Or.inl ⟨rfl, by simp⟩
  | none =>
    right
    cases env.compressPid tab.pid config.dryRun with
    | error err => rfl
    | ok outcome => rfl

/-- Where the daemon is.  In the middle of a target it holds the start time that
was in the snapshot (`judged`), and later the identities behind the `smaps` it
read (`source`) and behind the pidfd (`target`). -/
inductive Stage where
  | sleep
  | next
  | update (tab : TargetProcess) (snap : ProcSnapshot)
  | rss (tab : TargetProcess) (judged : UInt64)
  | smaps (tab : TargetProcess) (judged : UInt64)
  | pidfd (tab : TargetProcess) (judged source : UInt64) (regions : List Region)
  | advise (tab : TargetProcess) (judged source target : UInt64) (regions : List Region)
      (sent : Nat)

/-- The PID that is between its snapshot and its pidfd. -/
def Stage.window : Stage → Option UInt32
  | update tab _ | rss tab _ | smaps tab _ | pidfd tab _ _ _ => some tab.pid
  | _ => none

/-- A batch that `process_madvise` took. -/
structure Effect where
  pid : UInt32
  judged : UInt64
  source : UInt64
  target : UInt64
  batch : List Region
  -- the snapshot was of another process than the one under the PID, or the PID was given to
  -- another process between the snapshot and the pidfd
  astray : Bool

/-- The batch went to the process that was judged, with that process's ranges. -/
def Effect.OnJudged (e : Effect) : Prop := e.target = e.judged ∧ e.source = e.judged

/-- The daemon and the kernel.  `start` and `startStats` are what the current
cycle began with. -/
structure System where
  kernel : Kernel
  tracker : CpuTracker
  stats : Stats
  start : CpuTracker
  startStats : Stats
  cycle : RealCycle
  todo : List TargetProcess
  log : List (TargetProcess × Action)
  stage : Stage
  astray : Bool
  effects : List Effect

namespace System

def inputs (s : System) (tab : TargetProcess) : CompressInputs := s.cycle.inputs tab.pid

/-- The loop body ends for `tab`. -/
def finish (s : System) (tab : TargetProcess) (a : Action) : System :=
  { s with
    tracker := if a.isSuccess then s.tracker.markCompressed tab.pid else s.tracker
    stats := s.stats.record a
    log := s.log ++ [(tab, a)]
    stage := .next }

def update (config : Config) (s : System) (snap : ProcSnapshot) : Bool × CpuTracker :=
  s.tracker.update snap config.cpuDeltaNs config.wakeupDeltaNs

def updateCheck (config : Config) (s : System) (tab : TargetProcess) (snap : ProcSnapshot) :
    Option Action :=
  trackerCheck config (s.update config snap).1 ((s.update config snap).2.idleCycles tab.pid)
    ((s.update config snap).2.isCompressed tab.pid)

/-- The checks depend on the tracker entries of the target only. -/
theorem updateCheck_eq_view (config : Config) (s : System) (tab : TargetProcess)
    (snap : ProcSnapshot) (hpid : snap.pid = tab.pid) :
    s.updateCheck config tab snap =
      let u := (s.tracker.view tab.pid).update snap config.cpuDeltaNs config.wakeupDeltaNs
      trackerCheck config u.1 u.2.idleCycles u.2.isCompressed := by
  have hview := CpuTracker.view_update s.tracker snap config.cpuDeltaNs config.wakeupDeltaNs
    tab.pid
  rw [if_pos hpid] at hview
  simp only [updateCheck, System.update, CpuTracker.update_idle, CpuTracker.idleCycles_eq,
    CpuTracker.isCompressed_eq, hview, hpid]

/-- The checks of the tracker come first in the ladder. -/
theorem judge_eq_updateCheck (config : Config) (s : System) (tab : TargetProcess)
    (snap : ProcSnapshot) :
    judge config s.cycle.env tab (s.update config snap).1
        ((s.update config snap).2.idleCycles tab.pid)
        ((s.update config snap).2.isCompressed tab.pid) =
      (s.updateCheck config tab snap).getD
        ((resourceCheck config s.cycle.env tab).getD
          (outcomeAction (s.cycle.env.compressPid tab.pid config.dryRun))) :=
  judge_eq_parts config s.cycle.env tab _ _ _

end System

def Stats.beginCycle (stats : Stats) (targets : List TargetProcess) : Stats :=
  { stats with
    scans := stats.scans + 1
    targetsSeen := stats.targetsSeen + UInt64.ofNat targets.length }

/-- One step of the kernel or of the daemon.  A step of the daemon takes the answer
that the cycle has for its question.  Where the answer names or needs a process,
the kernel must have that process at this moment. -/
inductive Step (config : Config) : System → System → Prop where
  | exit (s : System) (p : UInt32) :
      Step config s { s with kernel := s.kernel.exit p }
  | spawn (s : System) (p : UInt32) (st : UInt64) (hfree : s.kernel.procs p = none)
      (hfresh : ¬ s.kernel.used p st) :
      Step config s
        { s with
          kernel := s.kernel.spawn p st
          astray := s.astray || s.stage.window == some p }
  | clone (s : System) (p : UInt32) (st : UInt64) (hlive : (s.kernel.procs p).isSome = true) :
      Step config s { s with kernel := s.kernel.clone p st }
  | cycleBegin (s : System) (c : RealCycle) (hstage : s.stage = .sleep) :
      Step config s
        { s with
          start := s.tracker
          startStats := s.stats
          stats := Stats.beginCycle s.stats c.targets
          cycle := c
          todo := c.targets
          log := []
          stage := .next }
  | snapshotGone (s : System) (tab : TargetProcess) (rest : List TargetProcess)
      (hstage : s.stage = .next) (htodo : s.todo = tab :: rest)
      (hsnap : s.cycle.env.snapshot tab.pid = none) :
      Step config s
        (System.finish { s with tracker := s.tracker.remove tab.pid, todo := rest } tab
          .skipExited)
  | snapshot (s : System) (tab : TargetProcess) (rest : List TargetProcess)
      (st cpuNs : UInt64) (hstage : s.stage = .next) (htodo : s.todo = tab :: rest)
      (hsnap : s.cycle.env.snapshot tab.pid = some (st, cpuNs))
      (hused : s.kernel.used tab.pid st) :
      Step config s
        { s with
          todo := rest
          astray := decide (s.kernel.procs tab.pid ≠ some st)
          stage := .update tab { pid := tab.pid, starttime := st, cpuNs } }
  | updateSkip (s : System) (tab : TargetProcess) (snap : ProcSnapshot) (a : Action)
      (hstage : s.stage = .update tab snap)
      (hcheck : s.updateCheck config tab snap = some a) :
      Step config s (System.finish { s with tracker := (s.update config snap).2 } tab a)
  | updatePass (s : System) (tab : TargetProcess) (snap : ProcSnapshot)
      (hstage : s.stage = .update tab snap)
      (hcheck : s.updateCheck config tab snap = none) :
      Step config s
        { s with tracker := (s.update config snap).2, stage := .rss tab snap.starttime }
  | rssSkip (s : System) (tab : TargetProcess) (judged : UInt64) (a : Action)
      (hstage : s.stage = .rss tab judged)
      (hcheck : resourceCheck config s.cycle.env tab = some a) :
      Step config s (s.finish tab a)
  | rssPass (s : System) (tab : TargetProcess) (judged : UInt64)
      (hstage : s.stage = .rss tab judged)
      (hcheck : resourceCheck config s.cycle.env tab = none) :
      Step config s { s with stage := .smaps tab judged }
  | smapsError (s : System) (tab : TargetProcess) (judged : UInt64) (e : Error)
      (hstage : s.stage = .smaps tab judged)
      (hread : readAnonymousRegions (s.inputs tab) tab.pid = .error e) :
      Step config s
        (s.finish tab (.compressFailed (s!"reading regions for pid {tab.pid}" :: e)))
  | smapsDryRun (s : System) (tab : TargetProcess) (judged source : UInt64)
      (regions : List Region) (hstage : s.stage = .smaps tab judged)
      (hread : readAnonymousRegions (s.inputs tab) tab.pid = .ok regions)
      (hlive : s.kernel.procs tab.pid = some source) (hdry : config.dryRun = true) :
      Step config s
        (s.finish tab (outcomeAction (.ok { regions := regions.length, wasDryRun := true })))
  | smaps (s : System) (tab : TargetProcess) (judged source : UInt64)
      (regions : List Region) (hstage : s.stage = .smaps tab judged)
      (hread : readAnonymousRegions (s.inputs tab) tab.pid = .ok regions)
      (hlive : s.kernel.procs tab.pid = some source) (hdry : config.dryRun = false) :
      Step config s { s with stage := .pidfd tab judged source regions }
  | pidfdError (s : System) (tab : TargetProcess) (judged source : UInt64)
      (regions : List Region) (e : Error) (hstage : s.stage = .pidfd tab judged source regions)
      (hopen : openPidfd (s.inputs tab) tab.pid = .error e) :
      Step config s (s.finish tab (.compressFailed e))
  | pidfd (s : System) (tab : TargetProcess) (judged source target : UInt64)
      (regions : List Region) (hstage : s.stage = .pidfd tab judged source regions)
      (hopen : openPidfd (s.inputs tab) tab.pid = .ok ())
      (hlive : s.kernel.procs tab.pid = some target) :
      Step config s { s with stage := .advise tab judged source target regions 0 }
  | madviseRejected (s : System) (tab : TargetProcess) (judged source target : UInt64)
      (regions : List Region) (sent : Nat)
      (hstage : s.stage = .advise tab judged source target regions sent)
      (hmore : sent < (batchesOf regions).length) (hret : (s.inputs tab).madvise sent < 0) :
      Step config s { s with stage := .advise tab judged source target regions (sent + 1) }
  | madvise (s : System) (tab : TargetProcess) (judged source target : UInt64)
      (regions batch : List Region) (sent : Nat)
      (hstage : s.stage = .advise tab judged source target regions sent)
      (hbatch : (batchesOf regions)[sent]? = some batch)
      (hret : 0 ≤ (s.inputs tab).madvise sent)
      (hlive : s.kernel.procs tab.pid = some target) :
      Step config s
        { s with
          effects := s.effects ++
            [{ pid := tab.pid, judged, source, target, batch, astray := s.astray }]
          stage := .advise tab judged source target regions (sent + 1) }
  | madviseDone (s : System) (tab : TargetProcess) (judged source target : UInt64)
      (regions : List Region) (sent : Nat)
      (hstage : s.stage = .advise tab judged source target regions sent)
      (hdone : sent = (batchesOf regions).length) :
      Step config s
        (s.finish tab (outcomeAction (.ok (adviseRegions (s.inputs tab).madvise regions))))
  | cycleEnd (s : System) (hstage : s.stage = .next) (htodo : s.todo = []) :
      Step config s
        { s with
          tracker := s.tracker.retainOnly (s.cycle.targets.map TargetProcess.pid)
          stage := .sleep }

/-- The daemon starts asleep, with a fresh tracker, on any kernel. -/
def system (config : Config) : Machine System where
  init s := s.tracker = CpuTracker.new ∧ s.stage = .sleep ∧ s.effects = [] ∧ s.astray = false
  step := Step config

/-! ## The cut loop computes the scan cycle -/

/-- How the loop body will end for the target in hand, and the tracker it ends
with before the flag is set. -/
def pending (config : Config) (s : System) : Option (TargetProcess × Action × CpuTracker) :=
  match s.stage with
  | .sleep | .next => none
  | .update tab snap =>
      let u := s.update config snap
      some (tab, judge config s.cycle.env tab u.1 (u.2.idleCycles tab.pid)
        (u.2.isCompressed tab.pid), u.2)
  | .rss tab _ =>
      some (tab, (resourceCheck config s.cycle.env tab).getD
        (outcomeAction (s.cycle.env.compressPid tab.pid config.dryRun)), s.tracker)
  | .smaps tab _ =>
      some (tab, outcomeAction (s.cycle.env.compressPid tab.pid config.dryRun), s.tracker)
  | .pidfd tab _ _ regions =>
      some (tab, outcomeAction ((openPidfd (s.inputs tab) tab.pid).bind
        (fun _ => .ok (adviseRegions (s.inputs tab).madvise regions))), s.tracker)
  | .advise tab _ _ _ regions _ =>
      some (tab, outcomeAction (.ok (adviseRegions (s.inputs tab).madvise regions)), s.tracker)

/-- The state when the daemon is done with the target in hand. -/
def settle (config : Config) (s : System) : System :=
  match pending config s with
  | none => s
  | some (tab, a, tracker) => System.finish { s with tracker } tab a

/-- The tracker, the targets to come, the log and the counters. -/
def progress (s : System) :
    CpuTracker × List TargetProcess × List (TargetProcess × Action) × Stats :=
  (s.tracker, s.todo, s.log, s.stats)

/-- Inside a cycle, the rest of the loop from here completes what `scanLoop`
computes from the start of the cycle. -/
def Resumes (config : Config) (s : System) : Prop :=
  s.stage ≠ .sleep →
    scanLoop config s.cycle.env s.cycle.targets s.start =
        ((settle config s).log ++
            (scanLoop config s.cycle.env (settle config s).todo (settle config s).tracker).1,
          (scanLoop config s.cycle.env (settle config s).todo (settle config s).tracker).2) ∧
      (settle config s).stats =
        (settle config s).log.foldl (fun stats entry => stats.record entry.2)
          (Stats.beginCycle s.startStats s.cycle.targets)

/-- `Resumes` looks at the progress and at the cycle only. -/
theorem Resumes.congr {config : Config} {s s' : System} (h : Resumes config s)
    {stage : Stage} (hstage : s.stage = stage) (hawake : stage ≠ .sleep)
    (hcycle : s'.cycle = s.cycle) (hstart : s'.start = s.start)
    (hstats : s'.startStats = s.startStats)
    (hprogress : progress (settle config s') = progress (settle config s)) :
    Resumes config s' := by
  intro _
  obtain ⟨htracker, htodo, hlog, hcount⟩ :
      (settle config s').tracker = (settle config s).tracker ∧
        (settle config s').todo = (settle config s).todo ∧
        (settle config s').log = (settle config s).log ∧
        (settle config s').stats = (settle config s).stats := by
    simpa only [progress, Prod.mk.injEq] using hprogress
  rw [htracker, htodo, hlog, hcount, hcycle, hstart, hstats]
  exact h (hstage ▸ hawake)

/-- What the kernel does is of no consequence for the progress. -/
theorem progress_settle_kernel (config : Config) (s : System) (k : Kernel) (astray : Bool) :
    progress (settle config { s with kernel := k, astray }) = progress (settle config s) := by
  unfold settle pending
  cases s.stage with
  | _ => rfl

/-- One target at the top of the loop: the tracker and the action of `scanTarget`
are those of the cut loop body. -/
theorem resumes_snapshot {config : Config} {s : System} {tab : TargetProcess}
    {rest : List TargetProcess} {a : Action} {t : CpuTracker} (h : Resumes config s)
    (hstage : s.stage = .next) (htodo : s.todo = tab :: rest)
    (hscan : scanTarget config s.cycle.env s.tracker tab = (a, t)) {s' : System}
    (hcycle : s'.cycle = s.cycle) (hstart : s'.start = s.start)
    (hstats : s'.startStats = s.startStats)
    (hprogress : progress (settle config s') =
      (t, rest, s.log ++ [(tab, a)], s.stats.record a)) :
    Resumes config s' := by
  have hsettle : settle config s = s := by
    unfold settle pending
    rw [hstage]
  intro _
  obtain ⟨hloop, hcount⟩ := h (by rw [hstage]; exact Stage.noConfusion)
  rw [hsettle, htodo] at hloop
  rw [hsettle] at hcount
  simp only [progress, Prod.mk.injEq] at hprogress
  obtain ⟨htracker', htodo', hlog', hcount'⟩ := hprogress
  rw [htracker', htodo', hlog', hcount', hcycle, hstart, hstats, hloop, hcount]
  simp only [scanLoop, hscan, List.foldl_append, List.foldl_cons, List.foldl_nil,
    List.append_assoc, List.singleton_append, and_self]

theorem resumes_step {config : Config} {s s' : System} (h : Resumes config s)
    (hstep : Step config s s') : Resumes config s' := by
  have hcall : ∀ tab : TargetProcess, s.cycle.env.compressPid tab.pid config.dryRun =
      compressPid (s.inputs tab) tab.pid config.dryRun :=
    fun tab => congrFun (congrFun s.cycle.real tab.pid) config.dryRun
  cases hstep with
  | exit p =>
    intro hawake
    exact h.congr rfl hawake rfl rfl rfl (progress_settle_kernel config s _ s.astray) hawake
  | spawn p st hfree hfresh =>
    intro hawake
    exact h.congr rfl hawake rfl rfl rfl (progress_settle_kernel config s _ _) hawake
  | clone p st hlive =>
    intro hawake
    exact h.congr rfl hawake rfl rfl rfl (progress_settle_kernel config s _ s.astray) hawake
  | cycleBegin c hstage => exact fun _ => ⟨rfl, rfl⟩
  | snapshotGone tab rest hstage htodo hsnap =>
    refine resumes_snapshot h hstage htodo (t := s.tracker.remove tab.pid) (a := .skipExited)
      ?_ rfl rfl rfl rfl
    rw [scanTarget, hsnap]
  | snapshot tab rest st cpuNs hstage htodo hsnap hused =>
    refine resumes_snapshot h hstage htodo rfl rfl rfl rfl ?_
    simp only [hsnap]
    rfl
  | updateSkip tab snap a hstage hcheck =>
    refine h.congr hstage Stage.noConfusion rfl rfl rfl ?_
    simp only [settle, pending, hstage, s.judge_eq_updateCheck, hcheck, Option.getD_some]
    rfl
  | updatePass tab snap hstage hcheck =>
    refine h.congr hstage Stage.noConfusion rfl rfl rfl ?_
    simp only [settle, pending, hstage, s.judge_eq_updateCheck, hcheck, Option.getD_none]
    rfl
  | rssSkip tab judged a hstage hcheck =>
    refine h.congr hstage Stage.noConfusion rfl rfl rfl ?_
    simp only [settle, pending, hstage, hcheck, Option.getD_some]
    rfl
  | rssPass tab judged hstage hcheck =>
    refine h.congr hstage Stage.noConfusion rfl rfl rfl ?_
    simp only [settle, pending, hstage, hcheck, Option.getD_none]
    rfl
  | smapsError tab judged e hstage hread =>
    refine h.congr hstage Stage.noConfusion rfl rfl rfl ?_
    have hresult : compressPid (s.inputs tab) tab.pid config.dryRun =
        .error (s!"reading regions for pid {tab.pid}" :: e) := by
      exact compressPid_of_read_error hread config.dryRun
    simp only [settle, pending, hstage, hcall, hresult, outcomeAction]
    rfl
  | smapsDryRun tab judged source regions hstage hread hlive hdry =>
    refine h.congr hstage Stage.noConfusion rfl rfl rfl ?_
    have hresult : compressPid (s.inputs tab) tab.pid config.dryRun =
        .ok { regions := regions.length, wasDryRun := true } := by
      rw [hdry]
      exact compressPid_eq_preview hread
    simp only [settle, pending, hstage, hcall, hresult]
    rfl
  | smaps tab judged source regions hstage hread hlive hdry =>
    refine h.congr hstage Stage.noConfusion rfl rfl rfl ?_
    have hresult := compressPid_eq_bind (s.inputs tab) tab.pid hread
    rw [← hdry] at hresult
    simp only [settle, pending, hstage, hcall, hresult]
    rfl
  | pidfdError tab judged source regions e hstage hopen =>
    refine h.congr hstage Stage.noConfusion rfl rfl rfl ?_
    simp only [settle, pending, hstage, hopen]
    rfl
  | pidfd tab judged source target regions hstage hopen hlive =>
    refine h.congr hstage Stage.noConfusion rfl rfl rfl ?_
    simp only [settle, pending, hstage, hopen]
    rfl
  | madviseRejected tab judged source target regions sent hstage hmore hret =>
    refine h.congr hstage Stage.noConfusion rfl rfl rfl ?_
    simp only [settle, pending, hstage]
    rfl
  | madvise tab judged source target regions batch sent hstage hbatch hret hlive =>
    refine h.congr hstage Stage.noConfusion rfl rfl rfl ?_
    simp only [settle, pending, hstage]
    rfl
  | madviseDone tab judged source target regions sent hstage hdone =>
    refine h.congr hstage Stage.noConfusion rfl rfl rfl ?_
    simp only [settle, pending, hstage]
    rfl
  | cycleEnd hstage htodo => exact fun hsleep => absurd rfl hsleep

theorem resumes_reachable {config : Config} {s : System} (hs : (system config).Reachable s) :
    Resumes config s :=
  hs.invariant (Resumes config)
    (fun s (h : (system config).init s) hawake => absurd h.2.1 hawake)
    (fun _ _ _ h hstep => resumes_step h hstep)

/-- Under every interleaving with the kernel, a cycle ends with the tracker, the
counters and the log of `scanCycle`. -/
theorem cycleEnd_eq_scanCycle {config : Config} {s : System}
    (hs : (system config).Reachable s) (hstage : s.stage = .next) (htodo : s.todo = []) :
    s.tracker.retainOnly (s.cycle.targets.map TargetProcess.pid) =
        (scanCycle config s.start s.startStats s.cycle.toCycle).tracker ∧
      s.stats = (scanCycle config s.start s.startStats s.cycle.toCycle).stats ∧
      s.log = (scanCycle config s.start s.startStats s.cycle.toCycle).log := by
  have hsettle : settle config s = s := by
    unfold settle pending
    rw [hstage]
  obtain ⟨hloop, hcount⟩ := resumes_reachable hs (by rw [hstage]; exact Stage.noConfusion)
  rw [hsettle, htodo, scanLoop, List.append_nil] at hloop
  rw [hsettle] at hcount
  simp only [scanCycle, scanPass, hloop, hcount, true_and, and_true]
  rfl

/-! ## Identities in the window -/

/-- Between the snapshot and the pidfd, the process under the PID is the judged one
exactly if the daemon has not gone astray. -/
def Tracks (k : Kernel) (p : UInt32) (judged : UInt64) (astray : Bool) : Prop :=
  k.used p judged ∧ ∀ st, k.procs p = some st → (st = judged ↔ astray = false)

theorem Tracks.exit {k : Kernel} {p q : UInt32} {judged : UInt64} {astray : Bool}
    (h : Tracks k p judged astray) : Tracks (k.exit q) p judged astray := by
  refine ⟨h.1, fun st hlive => ?_⟩
  by_cases hp : p = q
  · rw [Kernel.procs_exit, if_pos hp] at hlive
    cases hlive
  · rw [Kernel.procs_exit, if_neg hp] at hlive
    exact h.2 st hlive

theorem Tracks.spawn {k : Kernel} {p q : UInt32} {judged st : UInt64} {astray : Bool}
    (h : Tracks k p judged astray) (hfresh : ¬ k.used q st) :
    Tracks (k.spawn q st) p judged (astray || some p == some q) := by
  refine ⟨Or.inl h.1, fun st' hlive => ?_⟩
  by_cases hp : p = q
  · -- the new process has a start time that the PID never had
    subst hp
    rw [Kernel.procs_spawn, if_pos rfl] at hlive
    obtain rfl := Option.some.inj hlive
    have hne : st ≠ judged := fun heq => hfresh (heq ▸ h.1)
    simp [hne]
  · rw [Kernel.procs_spawn, if_neg hp] at hlive
    simpa [hp] using h.2 st' hlive

theorem Tracks.clone {k : Kernel} {p q : UInt32} {judged st : UInt64} {astray : Bool}
    (h : Tracks k p judged astray) : Tracks (k.clone q st) p judged astray :=
  ⟨Or.inl h.1, h.2⟩

/-- What the identities that the daemon holds have to do with the flag. -/
def StageOk (k : Kernel) (astray : Bool) : Stage → Prop
  | .sleep | .next => True
  | .update tab snap => Tracks k tab.pid snap.starttime astray
  | .rss tab judged => Tracks k tab.pid judged astray
  | .smaps tab judged => Tracks k tab.pid judged astray
  | .pidfd tab judged source _ =>
      Tracks k tab.pid judged astray ∧ (astray = false → source = judged)
  | .advise _ judged source target _ _ =>
      (target = judged ↔ astray = false) ∧ (astray = false → source = judged)

structure Inv (s : System) : Prop where
  stage : StageOk s.kernel s.astray s.stage
  effects : ∀ e ∈ s.effects, (e.OnJudged ↔ e.astray = false)

theorem StageOk.exit {k : Kernel} {q : UInt32} {astray : Bool} {stage : Stage}
    (h : StageOk k astray stage) : StageOk (k.exit q) astray stage := by
  cases stage with
  | sleep => trivial
  | next => trivial
  | update tab snap => exact Tracks.exit h
  | rss tab judged => exact Tracks.exit h
  | smaps tab judged => exact Tracks.exit h
  | pidfd tab judged source regions => exact ⟨Tracks.exit h.1, h.2⟩
  | advise tab judged source target regions sent => exact h

theorem StageOk.spawn {k : Kernel} {q : UInt32} {st : UInt64} {astray : Bool} {stage : Stage}
    (h : StageOk k astray stage) (hfresh : ¬ k.used q st) :
    StageOk (k.spawn q st) (astray || stage.window == some q) stage := by
  cases stage with
  | sleep => trivial
  | next => trivial
  | update tab snap => exact Tracks.spawn h hfresh
  | rss tab judged => exact Tracks.spawn h hfresh
  | smaps tab judged => exact Tracks.spawn h hfresh
  | pidfd tab judged source regions =>
    refine ⟨Tracks.spawn h.1 hfresh, fun hflag => h.2 ?_⟩
    exact (Bool.or_eq_false_iff.mp hflag).1
  | advise tab judged source target regions sent =>
    -- the pidfd is bound: what the PID means now is of no consequence
    rw [show (Stage.advise tab judged source target regions sent).window = none from rfl,
      show ((none : Option UInt32) == some q) = false from rfl, Bool.or_false]
    exact h

theorem StageOk.clone {k : Kernel} {q : UInt32} {st : UInt64} {astray : Bool} {stage : Stage}
    (h : StageOk k astray stage) : StageOk (k.clone q st) astray stage := by
  cases stage with
  | sleep => trivial
  | next => trivial
  | update tab snap => exact Tracks.clone h
  | rss tab judged => exact Tracks.clone h
  | smaps tab judged => exact Tracks.clone h
  | pidfd tab judged source regions => exact ⟨Tracks.clone h.1, h.2⟩
  | advise tab judged source target regions sent => exact h

theorem inv_init {config : Config} {s : System} (h : (system config).init s) : Inv s := by
  obtain ⟨-, hstage, heffects, -⟩ := h
  refine ⟨?_, ?_⟩
  · rw [hstage]
    trivial
  · intro e he
    rw [heffects] at he
    cases he

theorem inv_step {config : Config} {s s' : System} (h : Inv s) (hstep : Step config s s') :
    Inv s' := by
  have hok := h.stage
  cases hstep with
  | exit p => exact ⟨StageOk.exit hok, h.effects⟩
  | spawn p st hfree hfresh => exact ⟨StageOk.spawn hok hfresh, h.effects⟩
  | clone p st hlive => exact ⟨StageOk.clone hok, h.effects⟩
  | cycleBegin c hstage => exact ⟨trivial, h.effects⟩
  | snapshotGone tab rest hstage htodo hsnap => exact ⟨trivial, h.effects⟩
  | snapshot tab rest st cpuNs hstage htodo hsnap hused =>
    refine ⟨⟨hused, fun st' hlive' => ?_⟩, h.effects⟩
    rw [hlive', decide_eq_false_iff_not, not_not, Option.some.injEq]
  | updateSkip tab snap a hstage hcheck => exact ⟨trivial, h.effects⟩
  | updatePass tab snap hstage hcheck =>
    rw [hstage] at hok
    exact ⟨hok, h.effects⟩
  | rssSkip tab judged a hstage hcheck => exact ⟨trivial, h.effects⟩
  | rssPass tab judged hstage hcheck =>
    rw [hstage] at hok
    exact ⟨hok, h.effects⟩
  | smapsError tab judged e hstage hread => exact ⟨trivial, h.effects⟩
  | smapsDryRun tab judged source regions hstage hread hlive hdry => exact ⟨trivial, h.effects⟩
  | smaps tab judged source regions hstage hread hlive hdry =>
    rw [hstage] at hok
    exact ⟨⟨hok, (hok.2 source hlive).mpr⟩, h.effects⟩
  | pidfdError tab judged source regions e hstage hopen => exact ⟨trivial, h.effects⟩
  | pidfd tab judged source target regions hstage hopen hlive =>
    rw [hstage] at hok
    exact ⟨⟨hok.1.2 target hlive, hok.2⟩, h.effects⟩
  | madviseRejected tab judged source target regions sent hstage hmore hret =>
    rw [hstage] at hok
    exact ⟨hok, h.effects⟩
  | madvise tab judged source target regions batch sent hstage hbatch hret hlive =>
    rw [hstage] at hok
    refine ⟨hok, fun e he => ?_⟩
    rcases List.mem_append.mp he with hold | hnew
    · exact h.effects e hold
    · obtain rfl := List.mem_singleton.mp hnew
      constructor
      · intro hgood
        exact hok.1.mp hgood.1
      · intro hflag
        exact ⟨hok.1.mpr hflag, hok.2 hflag⟩
  | madviseDone tab judged source target regions sent hstage hdone => exact ⟨trivial, h.effects⟩
  | cycleEnd hstage htodo => exact ⟨trivial, h.effects⟩

theorem inv_reachable {config : Config} {s : System} (hs : (system config).Reachable s) :
    Inv s :=
  hs.invariant Inv (fun _ h => inv_init h) (fun _ _ _ h hstep => inv_step h hstep)

/-! ## Runs that stay with the process -/

/-- The step does not give the PID in the window to another process. -/
def NoReuse (s s' : System) : Prop :=
  ∀ p, s.stage.window = some p → s.kernel.procs p = none → s'.kernel.procs p = none

/-- A snapshot that the step takes has the start time of the process under the PID. -/
def SnapshotLive (s s' : System) : Prop :=
  ∀ tab snap, s.stage = .next → s'.stage = .update tab snap →
    s.kernel.procs tab.pid = some snap.starttime

/-- The step leaves the daemon with the process that it judges. -/
def StaysOn (s s' : System) : Prop := NoReuse s s' ∧ SnapshotLive s s'

/-- In such runs the flag is never set. -/
theorem astray_eq_false {config : Config} {s : System}
    (hs : ((system config).within StaysOn).Reachable s) :
    s.astray = false ∧ ∀ e ∈ s.effects, e.astray = false := by
  refine hs.invariant (fun s => s.astray = false ∧ ∀ e ∈ s.effects, e.astray = false) ?_ ?_
  · intro s hinit
    obtain ⟨-, -, heffects, hastray⟩ := hinit
    refine ⟨hastray, fun e he => ?_⟩
    rw [heffects] at he
    cases he
  · intro s s' _ h hstep
    obtain ⟨hstep, hno, hlive⟩ := hstep
    cases hstep with
    | spawn p st hfree hfresh =>
      refine ⟨?_, h.2⟩
      have hwindow : s.stage.window ≠ some p := by
        intro hp
        have hgone := hno p hp hfree
        simp only [Kernel.procs_spawn, if_pos] at hgone
        cases hgone
      simp [h.1, hwindow]
    | snapshot tab rest st cpuNs hstage htodo hsnap hused =>
      have hsame := hlive tab _ hstage rfl
      exact ⟨decide_eq_false (not_not.mpr hsame), h.2⟩
    | madvise tab judged source target regions batch sent hstage hbatch hret htarget =>
      refine ⟨h.1, fun e he => ?_⟩
      rcases List.mem_append.mp he with hold | hnew
      · exact h.2 e hold
      · obtain rfl := List.mem_singleton.mp hnew
        exact h.1
    | _ => exact h

/-- In every run in which each snapshot has the start time of the process under the
PID, and no PID is reused between its snapshot and its pidfd, each batch goes to the
judged process, with that process's ranges.  In any run, exactly the batches of the
other handlings do not. -/
theorem effects_onJudged_iff (config : Config) :
    (∀ s, ((system config).within StaysOn).Reachable s → ∀ e ∈ s.effects, e.OnJudged) ∧
      ∀ s, (system config).Reachable s → ∀ e ∈ s.effects, (e.OnJudged ↔ e.astray = false) := by
  constructor
  · intro s hs e he
    have hflag := (astray_eq_false hs).2 e he
    exact ((inv_reachable hs.of_within).effects e he).mpr hflag
  · intro s hs e he
    exact (inv_reachable hs).effects e he

/-! ## A reuse in the window -/

def raceConfig : Config := { idleCyclesThreshold := 1 }

def raceTab : TargetProcess := { pid := 7, profile := "firefox" }

/-- A cycle that sees PID 7 with start time 1 and no CPU time. -/
def raceCycle : RealCycle where
  targets := [raceTab]
  env :=
    { snapshot := fun _ => some (1, 0)
      rssMib := fun _ => 1024
      profileVeto := fun _ _ => none
      compressPid := fun pid dryRun => compressPid onePageInputs pid dryRun }
  nodup := List.nodup_singleton _
  inputs := fun _ => onePageInputs
  real := rfl

def raceKernel : Kernel where
  procs := fun p => if p = 7 then some 1 else none
  used := fun p st => p = 7 ∧ st = 1
  used_of_live := by
    intro p st hlive
    split at hlive
    · rename_i hp
      exact ⟨hp, (Option.some.inj hlive).symm⟩
    · cases hlive

/-- The state after one sight of PID 7. -/
def Seen (s : System) : Prop :=
  s.kernel = raceKernel ∧ s.stage = .sleep ∧ s.effects = [] ∧
    s.tracker.view 7 = ⟨some ⟨7, 1, 0⟩, some 0, none⟩

/-- A step of the daemon on a kernel that stands still. -/
theorem staysOn_of_kernel_eq {s s' : System} (h : s'.kernel = s.kernel)
    (hlive : SnapshotLive s s') : StaysOn s s' := by
  refine ⟨fun p _ hgone => ?_, hlive⟩
  rw [h]
  exact hgone

/-- A step that takes no snapshot. -/
theorem snapshotLive_of_stage {s s' : System} (h : ∀ tab snap, s'.stage ≠ .update tab snap) :
    SnapshotLive s s' :=
  fun tab snap _ hstage => absurd hstage (h tab snap)

theorem reachable_seen : ∃ s, ((system raceConfig).within StaysOn).Reachable s ∧ Seen s := by
  let s₀ : System :=
    { kernel := raceKernel, tracker := CpuTracker.new, stats := {}, start := CpuTracker.new
      startStats := {}, cycle := raceCycle, todo := [], log := [], stage := .sleep
      astray := false, effects := [] }
  have h₀ : ((system raceConfig).within StaysOn).Reachable s₀ := .start ⟨rfl, rfl, rfl, rfl⟩
  have h₁ := h₀.tail ⟨.cycleBegin s₀ raceCycle rfl, staysOn_of_kernel_eq rfl
    (snapshotLive_of_stage fun _ _ => Stage.noConfusion)⟩
  have h₂ := h₁.tail ⟨.snapshot _ raceTab [] 1 0 rfl rfl rfl ⟨rfl, rfl⟩,
    staysOn_of_kernel_eq rfl (fun _ _ _ hstage => by cases hstage; rfl)⟩
  -- the first sight has the sentinel delta, so the target counts as active
  have h₃ := h₂.tail ⟨.updateSkip _ raceTab ⟨7, 1, 0⟩ .skipActive rfl (by decide),
    staysOn_of_kernel_eq rfl (snapshotLive_of_stage fun _ _ => Stage.noConfusion)⟩
  have h₄ := h₃.tail ⟨.cycleEnd _ rfl rfl, staysOn_of_kernel_eq rfl
    (snapshotLive_of_stage fun _ _ => Stage.noConfusion)⟩
  refine ⟨_, h₄, rfl, rfl, rfl, ?_⟩
  have hview := CpuTracker.view_update CpuTracker.new ⟨7, 1, 0⟩ raceConfig.cpuDeltaNs
    raceConfig.wakeupDeltaNs 7
  rw [if_pos rfl, CpuTracker.view_new] at hview
  change ((CpuTracker.new.update ⟨7, 1, 0⟩ raceConfig.cpuDeltaNs
    raceConfig.wakeupDeltaNs).2.retainOnly [7]).view 7 = _
  rw [CpuTracker.view_retainOnly, if_pos (List.mem_singleton.mpr rfl), hview]
  decide

/-- A second cycle brings the daemon to the `smaps` of PID 7, judged idle. -/
theorem reachable_smaps :
    ∃ s, ((system raceConfig).within StaysOn).Reachable s ∧ s.kernel = raceKernel ∧
      s.stage = .smaps raceTab 1 ∧ s.cycle = raceCycle ∧ s.effects = [] := by
  obtain ⟨s, hs, hkernel, hstage, heffects, hview⟩ := reachable_seen
  have h₁ := hs.tail ⟨.cycleBegin s raceCycle hstage, staysOn_of_kernel_eq rfl
    (snapshotLive_of_stage fun _ _ => Stage.noConfusion)⟩
  have hlive : s.kernel.procs raceTab.pid = some 1 := by
    rw [hkernel]
    rfl
  have h₂ := h₁.tail ⟨.snapshot _ raceTab [] 1 0 rfl rfl rfl (s.kernel.used_of_live _ _ hlive),
    staysOn_of_kernel_eq rfl (fun _ _ _ hstage => by cases hstage; exact hlive)⟩
  have hpass := System.updateCheck_eq_view raceConfig
    { s with start := s.tracker, startStats := s.stats,
             stats := Stats.beginCycle s.stats raceCycle.targets, cycle := raceCycle,
             todo := [], log := [], astray := decide (s.kernel.procs raceTab.pid ≠ some 1),
             stage := .update raceTab ⟨7, 1, 0⟩ }
    raceTab ⟨7, 1, 0⟩ rfl
  rw [show raceTab.pid = 7 from rfl, hview] at hpass
  have h₃ := h₂.tail ⟨.updatePass _ raceTab ⟨7, 1, 0⟩ rfl (hpass.trans (by decide)),
    staysOn_of_kernel_eq rfl (snapshotLive_of_stage fun _ _ => Stage.noConfusion)⟩
  have hrss : resourceCheck raceConfig raceCycle.env raceTab = none := by decide
  have h₄ := h₃.tail ⟨.rssPass _ raceTab 1 rfl hrss, staysOn_of_kernel_eq rfl
    (snapshotLive_of_stage fun _ _ => Stage.noConfusion)⟩
  exact ⟨_, h₄, hkernel, rfl, rfl, heffects⟩

theorem batches_onePageInputs :
    (batchesOf [(0x1000, 0x1000)])[0]? = some [(0x1000, 0x1000)] := by
  decide

/-- From the `smaps` stage with some process under PID 7, the daemon pages that
process out. -/
theorem reachable_effect {m : Machine System}
    (hm : ∀ s s', Step raceConfig s s' → s'.kernel = s.kernel → SnapshotLive s s' → m.step s s')
    {s : System} {st : UInt64} (hs : m.Reachable s) (hstage : s.stage = .smaps raceTab 1)
    (hcycle : s.cycle = raceCycle) (hlive : s.kernel.procs 7 = some st) :
    ∃ s', m.Reachable s' ∧
      { pid := 7, judged := 1, source := st, target := st, batch := [(0x1000, 0x1000)],
        astray := s.astray } ∈ s'.effects := by
  have hinputs : s.inputs raceTab = onePageInputs := by
    unfold System.inputs
    rw [hcycle]
    rfl
  have hread : readAnonymousRegions (s.inputs raceTab) 7 = .ok [(0x1000, 0x1000)] := by
    rw [hinputs]
    exact read_onePageInputs 7
  have hopen : openPidfd (s.inputs raceTab) 7 = .ok () := by
    rw [hinputs]
    rfl
  have hret : 0 ≤ (s.inputs raceTab).madvise 0 := by
    rw [hinputs]
    decide
  have h₁ := hs.tail (hm _ _ (.smaps s raceTab 1 st _ hstage hread hlive rfl) rfl
    (snapshotLive_of_stage fun _ _ => Stage.noConfusion))
  have h₂ := h₁.tail (hm _ _ (.pidfd _ raceTab 1 st st _ rfl hopen hlive) rfl
    (snapshotLive_of_stage fun _ _ => Stage.noConfusion))
  have h₃ := h₂.tail
    (hm _ _ (.madvise _ raceTab 1 st st _ _ 0 rfl batches_onePageInputs hret hlive) rfl
      (snapshotLive_of_stage fun _ _ => Stage.noConfusion))
  exact ⟨_, h₃, List.mem_append_right _ (List.mem_singleton.mpr rfl)⟩

/-- Without a reuse, the page-out of the idle process reaches that process. -/
theorem effects_onJudged_iff_idle_page_out :
    ∃ s, ((system raceConfig).within StaysOn).Reachable s ∧ ∃ e ∈ s.effects, e.OnJudged := by
  obtain ⟨s, hs, hkernel, hstage, hcycle, -⟩ := reachable_smaps
  have hlive : s.kernel.procs 7 = some 1 := by
    rw [hkernel]
    rfl
  have hkeep : ∀ s s', Step raceConfig s s' → s'.kernel = s.kernel → SnapshotLive s s' →
      ((system raceConfig).within StaysOn).step s s' :=
    fun _ _ hstep hkernel hlive => ⟨hstep, staysOn_of_kernel_eq hkernel hlive⟩
  obtain ⟨s', hs', hmem⟩ := reachable_effect hkeep hs hstage hcycle hlive
  exact ⟨s', hs', _, hmem, (effects_onJudged_iff raceConfig).1 s' hs' _ hmem⟩

/-- The process exits after the snapshot was judged and another one gets its PID
before `smaps` is read: the newcomer is paged out, which nobody judged. -/
theorem reuse_in_window_not_onJudged :
    ¬ ∀ (config : Config) (s : System), (system config).Reachable s →
      ∀ e ∈ s.effects, e.OnJudged := by
  intro hclaim
  obtain ⟨s, hs, hkernel, hstage, hcycle, -⟩ := reachable_smaps
  have h₀ : (system raceConfig).Reachable s := hs.of_within
  have h₁ := h₀.tail (.exit s 7)
  have hfree : (s.kernel.exit 7).procs 7 = none := by
    rw [Kernel.procs_exit, if_pos rfl]
  have hfresh : ¬ (s.kernel.exit 7).used 7 2 := by
    rw [hkernel]
    exact fun h => absurd h.2 (by decide)
  have h₂ := h₁.tail (.spawn _ 7 2 hfree hfresh)
  have hlive : ((s.kernel.exit 7).spawn 7 2).procs 7 = some 2 := by
    rw [Kernel.procs_spawn, if_pos rfl]
  obtain ⟨s', hs', hmem⟩ := reachable_effect (fun _ _ hstep _ _ => hstep) h₂ hstage hcycle hlive
  have hjudged : (2 : UInt64) = 1 := (hclaim raceConfig s' hs' _ hmem).1
  exact absurd hjudged (by decide)

end BsslRam.PageOut
