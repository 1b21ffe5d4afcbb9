import BsslRam.State
import BsslRam.Compressor
import BsslRam.Signals

/-!
# One scan cycle

`scan_cycle` of `daemon/src/main.rs` with the counters of
`daemon/src/telemetry.rs`.  A cycle walks its targets in order, decides about
each of them, and ends with a sweep that forgets every PID it did not see.

What the rest of the machine answers during the cycle is the environment
`CycleEnv`: the CPU snapshot of each PID, its RSS, the browser veto and the
result of `compress_pid`.  Each turn of the loop takes one of ten ways out.
`Action` names them as the log line of the source does, and `Stats.record`
gives the counters that the way out increments.

A target only ever touches the tracker entries of its own PID, and a cycle sees
each PID at most once.  `scanCycle_view` and `scanCycle_log` use that to reduce
the cycle to one step for each PID (`PidView.scan`).
-/

namespace BsslRam.ScanCycle

open BsslRam.Scanner BsslRam.State BsslRam.Compressor BsslRam.Signals

/-- What the machine answers during one cycle. -/
structure CycleEnv where
  /-- `build_snapshot`: start time and CPU time, or nothing for a PID that is
  gone. -/
  snapshot : UInt32 → Option (UInt64 × UInt64)
  /-- `rss_mib`. -/
  rssMib : UInt32 → UInt64
  /-- `profile_veto` of the signal store when the PID is looked at; nothing
  without a store. -/
  profileVeto : UInt32 → String → Option ProfileVeto
  /-- `compress_pid`, given the dry-run flag. -/
  compressPid : UInt32 → Bool → Except Error CompressOutcome

/-- The targets of one cycle, and its environment. -/
structure Pass where
  targets : List TargetProcess
  env : CycleEnv

/-- One cycle: the targets that discovery found, and the environment.  The
targets come from a directory listing or from a map, so no PID is there
twice. -/
structure Cycle extends Pass where
  nodup : (targets.map TargetProcess.pid).Nodup

/-- A cycle in which `compress_pid` is the one of the compressor, on some answers
of the kernel to its system calls. -/
structure RealCycle extends Cycle where
  inputs : UInt32 → CompressInputs
  real : env.compressPid = fun pid dryRun => compressPid (inputs pid) pid dryRun

/-- How the loop body ends for one target. -/
inductive Action where
  | skipExited
  | skipActive
  | waitWarmup
  | skipAlreadyCompressed
  | skipLowRss
  | skipBrowserSignals (veto : ProfileVeto)
  | compress (outcome : CompressOutcome)
  | wouldCompress (outcome : CompressOutcome)
  | compressIncomplete (outcome : CompressOutcome)
  | compressFailed (err : Error)
  deriving DecidableEq

/-- The last four ways out are behind the call of `compress_pid`. -/
def Action.callsCompressPid : Action → Bool
  | compress _ | wouldCompress _ | compressIncomplete _ | compressFailed _ => true
  | _ => false

/-- The call was a real success, so the PID was marked compressed. -/
def Action.isSuccess : Action → Bool
  | compress _ => true
  | _ => false

/-! ## Telemetry -/

/-- The counters of `telemetry.rs`, all of them wrapping `u64` atomics. -/
structure Stats where
  scans : UInt64 := 0
  targetsSeen : UInt64 := 0
  compressions : UInt64 := 0
  bytesPagedOut : UInt64 := 0
  bytesSkippedByKernel : UInt64 := 0
  skipsWarmup : UInt64 := 0
  skipsActive : UInt64 := 0
  skipsAlreadyCompressed : UInt64 := 0
  skipsLowRss : UInt64 := 0
  skipsBrowserSignals : UInt64 := 0
  errors : UInt64 := 0
  psiEvents : UInt64 := 0
  deriving DecidableEq, Repr

/-- The increments that stand beside each way out. -/
def Stats.record (stats : Stats) : Action → Stats
  | .skipExited => stats
  | .skipActive => { stats with skipsActive := stats.skipsActive + 1 }
  | .waitWarmup => { stats with skipsWarmup := stats.skipsWarmup + 1 }
  | .skipAlreadyCompressed =>
      { stats with skipsAlreadyCompressed := stats.skipsAlreadyCompressed + 1 }
  | .skipLowRss => { stats with skipsLowRss := stats.skipsLowRss + 1 }
  | .skipBrowserSignals _ => { stats with skipsBrowserSignals := stats.skipsBrowserSignals + 1 }
  | .compress outcome =>
      { stats with
        compressions := stats.compressions + 1
        bytesPagedOut := stats.bytesPagedOut + outcome.bytesAdvised
        bytesSkippedByKernel := stats.bytesSkippedByKernel + outcome.bytesSkippedByKernel }
  | .wouldCompress _ => stats
  | .compressIncomplete _ => { stats with errors := stats.errors + 1 }
  | .compressFailed _ => { stats with errors := stats.errors + 1 }

/-! ## The cycle -/

/-- The ladder of checks behind `tracker.update`, given what the tracker
answers for the PID. -/
def judge (config : Config) (env : CycleEnv) (tab : TargetProcess)
    (isIdle : Bool) (cycles : UInt32) (isCompressed : Bool) : Action :=
  if !isIdle then .skipActive
  else if cycles < config.idleCyclesThreshold then .waitWarmup
  else if isCompressed then .skipAlreadyCompressed
  else if env.rssMib tab.pid < config.minRssMib then .skipLowRss
  else
    match env.profileVeto tab.pid tab.profile with
    | some veto => .skipBrowserSignals veto
    | none =>
        match env.compressPid tab.pid config.dryRun with
        | .ok outcome =>
            if outcome.isRealSuccess then .compress outcome
            else if outcome.wasDryRun then .wouldCompress outcome
            else .compressIncomplete outcome
        | .error err => .compressFailed err

/-- `compress_pid` is behind every other check. -/
theorem judge_callsCompressPid (config : Config) (env : CycleEnv) (tab : TargetProcess)
    (isIdle : Bool) (cycles : UInt32) (isCompressed : Bool) :
    (judge config env tab isIdle cycles isCompressed).callsCompressPid = true ↔
      isIdle = true ∧ config.idleCyclesThreshold ≤ cycles ∧ ¬ isCompressed = true ∧
        config.minRssMib ≤ env.rssMib tab.pid ∧ env.profileVeto tab.pid tab.profile = none := by
  unfold judge
  by_cases hidle : isIdle = true
  · by_cases hcycles : cycles < config.idleCyclesThreshold
    · simp [hidle, hcycles, Action.callsCompressPid]
    · by_cases hflag : isCompressed = true
      · simp [hidle, hcycles, hflag, Action.callsCompressPid]
      · by_cases hrss : env.rssMib tab.pid < config.minRssMib
        · simp [hidle, hcycles, hflag, hrss, Action.callsCompressPid]
        · have hcycles' := UInt32.not_lt.mp hcycles
          have hrss' := UInt64.not_lt.mp hrss
          cases hveto : env.profileVeto tab.pid tab.profile with
          | some veto => simp [hidle, hcycles, hflag, hrss, Action.callsCompressPid]
          | none =>
            -- every way out of the call counts as a call
            simp only [hidle, hcycles, hflag, hrss, hcycles', hrss']
            cases env.compressPid tab.pid config.dryRun with
            | error err => simp [Action.callsCompressPid]
            | ok outcome =>
              by_cases hreal : outcome.isRealSuccess = true
              · simp [hreal, Action.callsCompressPid]
              · by_cases hdry : outcome.wasDryRun = true
                · simp [hreal, hdry, Action.callsCompressPid]
                · simp [hreal, hdry, Action.callsCompressPid]
  · simp [hidle, Action.callsCompressPid]

/-- A success is a call that came back as a real success. -/
theorem judge_isSuccess (config : Config) (env : CycleEnv) (tab : TargetProcess)
    (isIdle : Bool) (cycles : UInt32) (isCompressed : Bool) :
    (judge config env tab isIdle cycles isCompressed).isSuccess = true ↔
      (judge config env tab isIdle cycles isCompressed).callsCompressPid = true ∧
        ∃ outcome, env.compressPid tab.pid config.dryRun = .ok outcome ∧
          outcome.isRealSuccess = true := by
  unfold judge
  split
  · simp [Action.isSuccess, Action.callsCompressPid]
  split
  · simp [Action.isSuccess, Action.callsCompressPid]
  split
  · simp [Action.isSuccess, Action.callsCompressPid]
  split
  · simp [Action.isSuccess, Action.callsCompressPid]
  cases env.profileVeto tab.pid tab.profile with
  | some veto => simp [Action.isSuccess, Action.callsCompressPid]
  | none =>
    cases env.compressPid tab.pid config.dryRun with
    | error err => simp [Action.isSuccess]
    | ok outcome =>
      by_cases hreal : outcome.isRealSuccess = true
      · simp [hreal, Action.isSuccess, Action.callsCompressPid]
      · by_cases hdry : outcome.wasDryRun = true
        · simp [hreal, hdry, Action.isSuccess]
        · simp [hreal, hdry, Action.isSuccess]

theorem Action.callsCompressPid_of_isSuccess {a : Action} (h : a.isSuccess = true) :
    a.callsCompressPid = true := by
  cases a with
  | compress outcome => rfl
  | _ => cases h

/-- The loop body of `scan_cycle` for one target. -/
def scanTarget (config : Config) (env : CycleEnv) (tracker : CpuTracker)
    (tab : TargetProcess) : Action × CpuTracker :=
  match env.snapshot tab.pid with
  | none => (.skipExited, tracker.remove tab.pid)
  | some (starttime, cpuNs) =>
      let (isIdle, tracker) :=
        tracker.update { pid := tab.pid, starttime, cpuNs } config.cpuDeltaNs
          config.wakeupDeltaNs
      let action := judge config env tab isIdle (tracker.idleCycles tab.pid)
        (tracker.isCompressed tab.pid)
      -- only a real success sets the anti-recompression flag
      (action, if action.isSuccess then tracker.markCompressed tab.pid else tracker)

/-- The loop over the targets, with one log entry for each. -/
def scanLoop (config : Config) (env : CycleEnv) :
    List TargetProcess → CpuTracker → List (TargetProcess × Action) × CpuTracker
  | [], tracker => ([], tracker)
  | tab :: rest, tracker =>
      let (action, tracker) := scanTarget config env tracker tab
      let (log, tracker) := scanLoop config env rest tracker
      ((tab, action) :: log, tracker)

/-- What a cycle leaves behind. -/
structure CycleResult where
  tracker : CpuTracker
  stats : Stats
  log : List (TargetProcess × Action)

/-- `scan_cycle`, on any targets. -/
def scanPass (config : Config) (tracker : CpuTracker) (stats : Stats) (c : Pass) :
    CycleResult :=
  let stats := { stats with
    scans := stats.scans + 1
    targetsSeen := stats.targetsSeen + UInt64.ofNat c.targets.length }
  let (log, tracker) := scanLoop config c.env c.targets tracker
  { -- end-of-cycle sweep: forget every PID that was not seen
    tracker := tracker.retainOnly (c.targets.map TargetProcess.pid)
    stats := log.foldl (fun stats entry => stats.record entry.2) stats
    log }

def scanCycle (config : Config) (tracker : CpuTracker) (stats : Stats) (c : Cycle) :
    CycleResult :=
  scanPass config tracker stats c.toPass

/-! ## One PID at a time -/

/-- The loop body on the tracker entries of the target's own PID. -/
def PidView.scan (config : Config) (env : CycleEnv) (tab : TargetProcess)
    (v : PidView) : Action × PidView :=
  match env.snapshot tab.pid with
  | none => (.skipExited, PidView.empty)
  | some (starttime, cpuNs) =>
      let (isIdle, v) :=
        v.update { pid := tab.pid, starttime, cpuNs } config.cpuDeltaNs config.wakeupDeltaNs
      let action := judge config env tab isIdle v.idleCycles v.isCompressed
      (action, if action.isSuccess then v.markCompressed else v)

section Frame

variable (config : Config) (env : CycleEnv)

/-- The loop body is `PidView.scan` on the entries of its own PID. -/
theorem scanTarget_self (tracker : CpuTracker) (tab : TargetProcess) :
    (scanTarget config env tracker tab).1 =
        (PidView.scan config env tab (tracker.view tab.pid)).1 ∧
      (scanTarget config env tracker tab).2.view tab.pid =
        (PidView.scan config env tab (tracker.view tab.pid)).2 := by
  unfold scanTarget PidView.scan
  cases env.snapshot tab.pid with
  | none => simp [CpuTracker.view_remove]
  | some reading =>
    obtain ⟨starttime, cpuNs⟩ := reading
    have hview := CpuTracker.view_update tracker ⟨tab.pid, starttime, cpuNs⟩
      config.cpuDeltaNs config.wakeupDeltaNs tab.pid
    rw [if_pos rfl] at hview
    simp only [CpuTracker.update_idle, CpuTracker.idleCycles_eq, CpuTracker.isCompressed_eq,
      hview, true_and]
    split
    · rw [CpuTracker.view_markCompressed, if_pos rfl, hview]
    · exact hview

/-- The loop body leaves the entries of every other PID alone. -/
theorem scanTarget_other (tracker : CpuTracker) {tab : TargetProcess} {p : UInt32}
    (hp : tab.pid ≠ p) : (scanTarget config env tracker tab).2.view p = tracker.view p := by
  unfold scanTarget
  cases env.snapshot tab.pid with
  | none => simp [CpuTracker.view_remove, hp]
  | some reading =>
    obtain ⟨starttime, cpuNs⟩ := reading
    have hview := CpuTracker.view_update tracker ⟨tab.pid, starttime, cpuNs⟩
      config.cpuDeltaNs config.wakeupDeltaNs p
    rw [if_neg hp] at hview
    simp only
    split
    · rw [CpuTracker.view_markCompressed, if_neg hp, hview]
    · exact hview

/-- The loop leaves the entries of a PID that is not a target alone. -/
theorem scanLoop_view_of_not_mem {targets : List TargetProcess} {p : UInt32}
    (hp : p ∉ targets.map TargetProcess.pid) (tracker : CpuTracker) :
    (scanLoop config env targets tracker).2.view p = tracker.view p := by
  induction targets generalizing tracker with
  | nil => rfl
  | cons tab rest ih =>
    rw [List.map_cons, List.mem_cons, not_or] at hp
    rw [scanLoop, ih hp.2, scanTarget_other config env tracker (Ne.symm hp.1)]

/-- The loop takes each of its targets through one step of its own, from the
entries the tracker held before the cycle. -/
theorem scanLoop_view_of_mem {targets : List TargetProcess}
    (hnodup : (targets.map TargetProcess.pid).Nodup) {tab : TargetProcess}
    (htab : tab ∈ targets) (tracker : CpuTracker) :
    (scanLoop config env targets tracker).2.view tab.pid =
      (PidView.scan config env tab (tracker.view tab.pid)).2 := by
  induction targets generalizing tracker with
  | nil => cases htab
  | cons head rest ih =>
    rw [List.map_cons, List.nodup_cons] at hnodup
    rw [scanLoop]
    rcases List.mem_cons.mp htab with rfl | hrest
    · rw [scanLoop_view_of_not_mem config env hnodup.1]
      exact (scanTarget_self config env tracker tab).2
    · have hne : head.pid ≠ tab.pid := fun h =>
        hnodup.1 (h ▸ List.mem_map_of_mem hrest)
      rw [ih hnodup.2 hrest, scanTarget_other config env tracker hne]

/-- The log of the loop, target by target. -/
theorem scanLoop_log {targets : List TargetProcess}
    (hnodup : (targets.map TargetProcess.pid).Nodup) (tracker : CpuTracker) :
    (scanLoop config env targets tracker).1 =
      targets.map (fun tab => (tab, (PidView.scan config env tab (tracker.view tab.pid)).1)) := by
  induction targets generalizing tracker with
  | nil => rfl
  | cons head rest ih =>
    rw [List.map_cons, List.nodup_cons] at hnodup
    simp only [scanLoop, List.map_cons]
    rw [ih hnodup.2, (scanTarget_self config env tracker head).1]
    refine congrArg (List.cons _) (List.map_congr_left fun tab htab => ?_)
    have hne : head.pid ≠ tab.pid := fun h => hnodup.1 (h ▸ List.mem_map_of_mem htab)
    rw [scanTarget_other config env tracker hne]

end Frame

/-! ## The cycle, one PID at a time -/

namespace Cycle

/-- The target with this PID, if the cycle has one. -/
def target? (c : Cycle) (p : UInt32) : Option TargetProcess :=
  c.targets.find? (fun tab => tab.pid == p)

/-- What the cycle does to the tracker entries of one PID. -/
def stepView (config : Config) (c : Cycle) (p : UInt32) (v : PidView) : PidView :=
  match c.target? p with
  | none => PidView.empty
  | some tab => (PidView.scan config c.env tab v).2

/-- How the cycle ends for one PID; nothing for a PID that is not a target. -/
def action? (config : Config) (c : Cycle) (p : UInt32) (v : PidView) : Option Action :=
  (c.target? p).map (fun tab => (PidView.scan config c.env tab v).1)

theorem target?_pid {c : Cycle} {p : UInt32} {tab : TargetProcess}
    (h : c.target? p = some tab) : tab ∈ c.targets ∧ tab.pid = p := by
  have hpid := List.find?_some h
  exact ⟨List.mem_of_find?_eq_some h, by simpa using hpid⟩

/-- The PID of a target finds that target. -/
theorem target?_of_mem {c : Cycle} {tab : TargetProcess} (h : tab ∈ c.targets) :
    c.target? tab.pid = some tab := by
  cases hfind : c.target? tab.pid with
  | none =>
    have hnone := List.find?_eq_none.mp hfind tab h
    simp at hnone
  | some found =>
    obtain ⟨hmem, hpid⟩ := target?_pid hfind
    rw [List.inj_on_of_nodup_map c.nodup hmem h hpid]

end Cycle

variable (config : Config) (tracker : CpuTracker) (stats : Stats)

/-- A cycle acts on each PID by itself. -/
theorem scanCycle_view (c : Cycle) (p : UInt32) :
    (scanCycle config tracker stats c).tracker.view p =
      c.stepView config p (tracker.view p) := by
  simp only [scanCycle, scanPass, CpuTracker.view_retainOnly, Cycle.stepView]
  cases hfind : c.target? p with
  | none =>
    have hnot : p ∉ c.targets.map TargetProcess.pid := by
      intro hmem
      obtain ⟨tab, htab, rfl⟩ := List.mem_map.mp hmem
      rw [Cycle.target?_of_mem htab] at hfind
      cases hfind
    rw [if_neg hnot]
  | some tab =>
    obtain ⟨hmem, rfl⟩ := Cycle.target?_pid hfind
    rw [if_pos (List.mem_map_of_mem hmem),
      scanLoop_view_of_mem config c.env c.nodup hmem tracker]

/-- A cycle decides about each PID by itself. -/
theorem scanCycle_log (c : Cycle) :
    (scanCycle config tracker stats c).log =
      c.targets.map
        (fun tab => (tab, (PidView.scan config c.env tab (tracker.view tab.pid)).1)) :=
  scanLoop_log config c.env c.nodup tracker

/-- The log of a cycle holds, for each PID, the action of its own step. -/
theorem mem_scanCycle_log (c : Cycle) (p : UInt32) (a : Action) :
    (∃ tab, tab.pid = p ∧ (tab, a) ∈ (scanCycle config tracker stats c).log) ↔
      c.action? config p (tracker.view p) = some a := by
  rw [scanCycle_log, Cycle.action?, Option.map_eq_some_iff]
  constructor
  · intro h
    rcases h with ⟨tab, rfl, hmem⟩
    obtain ⟨tab', htab', heq⟩ := List.mem_map.mp hmem
    cases heq
    exact ⟨tab, Cycle.target?_of_mem htab', rfl⟩
  · intro h
    rcases h with ⟨tab, hfind, rfl⟩
    obtain ⟨hmem, rfl⟩ := Cycle.target?_pid hfind
    exact ⟨tab, rfl, List.mem_map.mpr ⟨tab, hmem, rfl⟩⟩

/-- A test on the action that a log holds for a PID. -/
theorem exists_logged_iff {log : List (TargetProcess × Action)} {p : UInt32}
    {action : Option Action}
    (hlog : ∀ a, (∃ tab, tab.pid = p ∧ (tab, a) ∈ log) ↔ action = some a) (test : Action → Bool) :
    (∃ tab a, (tab, a) ∈ log ∧ tab.pid = p ∧ test a = true) ↔
      ∃ a, action = some a ∧ test a = true := by
  constructor
  · intro h
    obtain ⟨tab, a, hmem, hpid, htest⟩ := h
    exact ⟨a, (hlog a).mp ⟨tab, hpid, hmem⟩, htest⟩
  · intro h
    obtain ⟨a, ha, htest⟩ := h
    obtain ⟨tab, hpid, hmem⟩ := (hlog a).mpr ha
    exact ⟨tab, a, hmem, hpid, htest⟩

end BsslRam.ScanCycle
