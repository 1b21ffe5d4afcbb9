import BsslRam.TrackerInvariant
import BsslRam.PageOut

/-!
# The telemetry counters balance

`scan_cycle` of `daemon/src/main.rs` adds the number of targets to `targets_seen` before it
looks at the first of them.  After that each turn of the loop leaves by one of ten ways out.
Eight of them count themselves.  A target without a snapshot and a dry run do not.

`Balanced` is the invariant of the counters, against what the run has shown so far: how many
cycles there were, how many targets had no snapshot, and what `compress_pid` returned at each
call.  In the middle of a cycle the targets that are still to come are owed, and `pending` is
their number.  A turn pays for one target (`Balanced.turn`), a loop for all of its own
(`Balanced.loop`), and `telemetry_balances` is what is left after any number of cycles.

The targets need not be distinct here.
-/

namespace BsslRam.Telemetry

open BsslRam.Scanner BsslRam.State BsslRam.Compressor BsslRam.ScanCycle BsslRam.ScanHistory
open BsslRam.TrackerInvariant BsslRam.PageOut

/-! ## What a run shows -/

/-- The targets of a cycle that have no snapshot. -/
def exitedIn (c : Pass) : Nat := c.targets.countP (fun tab => (c.env.snapshot tab.pid).isNone)

/-- The result of the call of `compress_pid` behind a log entry, if there was one. -/
def callOf (config : Config) (env : CycleEnv) (entry : TargetProcess × Action) :
    Option (Except Error CompressOutcome) :=
  if entry.2.callsCompressPid then some (env.compressPid entry.1.pid config.dryRun) else none

/-- The results of `compress_pid` in one cycle, in order. -/
def callsIn (config : Config) (tracker : CpuTracker) (c : Pass) :
    List (Except Error CompressOutcome) :=
  (scanLoop config c.env c.targets tracker).1.filterMap (callOf config c.env)

/-- What a cycle hands to the next. -/
def nextPass (config : Config) (s : RunState) (c : Pass) : RunState :=
  let result := scanPass config s.tracker s.stats c
  { tracker := result.tracker, stats := result.stats }

/-- The results of `compress_pid` in a run of cycles. -/
def callsFrom (config : Config) : RunState → List Pass → List (Except Error CompressOutcome)
  | _, [] => []
  | s, c :: passes => callsIn config s.tracker c ++ callsFrom config (nextPass config s c) passes

/-- The call came back as a dry run. -/
def isDryRun : Except Error CompressOutcome → Bool
  | .ok outcome => outcome.wasDryRun
  | .error _ => false

/-- The outcome of a call that was a real success. -/
def success? : Except Error CompressOutcome → Option CompressOutcome
  | .ok outcome => if outcome.isRealSuccess then some outcome else none
  | .error _ => none

/-! ## The counters -/

/-- The counters that stand for one target each. -/
def accounted (stats : Stats) : UInt64 :=
  stats.skipsActive + stats.skipsWarmup + stats.skipsAlreadyCompressed + stats.skipsLowRss +
    stats.skipsBrowserSignals + stats.compressions + stats.errors

/-- The counters after `scans` cycles, `exited` targets without a snapshot and `calls` of
`compress_pid`, with `pending` targets of the current cycle still to come. -/
structure Balanced (stats : Stats) (scans exited pending : Nat)
    (calls : List (Except Error CompressOutcome)) : Prop where
  targets : stats.targetsSeen = accounted stats + UInt64.ofNat exited +
    UInt64.ofNat (calls.countP isDryRun) + UInt64.ofNat pending
  scans : stats.scans = UInt64.ofNat scans
  compressions : stats.compressions = UInt64.ofNat (calls.filterMap success?).length
  pagedOut : stats.bytesPagedOut =
    ((calls.filterMap success?).map CompressOutcome.bytesAdvised).sum
  skipped : stats.bytesSkippedByKernel =
    ((calls.filterMap success?).map CompressOutcome.bytesSkippedByKernel).sum

theorem Balanced.start : Balanced {} 0 0 0 [] := by
  constructor <;> rfl

section Turn

variable {stats : Stats} {scans exited pending : Nat}
  {calls : List (Except Error CompressOutcome)}

/-- One target is paid for: by a counter, as one without a snapshot, or as a dry run. -/
theorem Balanced.pay (h : Balanced stats scans exited (pending + 1) calls) {stats' : Stats}
    {exited' : Nat} {calls' : List (Except Error CompressOutcome)}
    (hseen : stats'.targetsSeen = stats.targetsSeen)
    (hpaid : accounted stats' + UInt64.ofNat exited' + UInt64.ofNat (calls'.countP isDryRun) =
      accounted stats + UInt64.ofNat exited + UInt64.ofNat (calls.countP isDryRun) + 1) :
    stats'.targetsSeen = accounted stats' + UInt64.ofNat exited' +
      UInt64.ofNat (calls'.countP isDryRun) + UInt64.ofNat pending := by
  have hone : UInt64.ofNat 1 = 1 := rfl
  rw [hseen, h.targets, hpaid, UInt64.ofNat_add, hone]
  ac_rfl

/-- A target without a snapshot is counted nowhere. -/
theorem Balanced.gone (h : Balanced stats scans exited (pending + 1) calls) :
    Balanced (stats.record .skipExited) scans (exited + 1) pending calls := by
  refine ⟨h.pay rfl ?_, h.scans, h.compressions, h.pagedOut, h.skipped⟩
  rw [UInt64.ofNat_add]
  simp only [Stats.record]
  ac_rfl

/-- A check that stops the ladder has a counter of its own. -/
theorem Balanced.check (h : Balanced stats scans exited (pending + 1) calls) {a : Action}
    (hcalls : a.callsCompressPid = false) (hsnap : a ≠ .skipExited) :
    Balanced (stats.record a) scans exited pending calls := by
  cases a with
  | skipExited => exact absurd rfl hsnap
  | skipActive | waitWarmup | skipAlreadyCompressed | skipLowRss | skipBrowserSignals =>
    refine ⟨h.pay rfl ?_, h.scans, h.compressions, h.pagedOut, h.skipped⟩
    simp only [Stats.record, accounted]
    ac_rfl
  | compress | wouldCompress | compressIncomplete | compressFailed => cases hcalls

/-- A call that is no compression leaves the sums over the compressions alone. -/
theorem filterMap_success?_append (calls : List (Except Error CompressOutcome))
    {result : Except Error CompressOutcome}
    (h : success? result = none) :
    (calls ++ [result]).filterMap success? = calls.filterMap success? := by
  simp [h]

theorem Balanced.error (h : Balanced stats scans exited (pending + 1) calls) {a : Action}
    (hrecord : stats.record a = { stats with errors := stats.errors + 1 })
    {result : Except Error CompressOutcome} (hdry : isDryRun result = false)
    (hsuccess : success? result = none) :
    Balanced (stats.record a) scans exited pending (calls ++ [result]) := by
  have hcount : (calls ++ [result]).countP isDryRun = calls.countP isDryRun := by
    simp [hdry]
  have hsame := filterMap_success?_append calls hsuccess
  rw [hrecord]
  refine ⟨h.pay rfl ?_, h.scans, hsame ▸ h.compressions, hsame ▸ h.pagedOut, hsame ▸ h.skipped⟩
  simp only [accounted, hcount]
  ac_rfl

theorem Balanced.dryRun (h : Balanced stats scans exited (pending + 1) calls)
    {outcome : CompressOutcome} (hdry : outcome.wasDryRun = true)
    (hsuccess : success? (.ok outcome) = none) :
    Balanced (stats.record (.wouldCompress outcome)) scans exited pending
      (calls ++ [.ok outcome]) := by
  have hcount : (calls ++ [Except.ok outcome]).countP isDryRun = calls.countP isDryRun + 1 := by
    simp [isDryRun, hdry]
  have hsame := filterMap_success?_append calls hsuccess
  refine ⟨h.pay rfl ?_, h.scans, hsame ▸ h.compressions, hsame ▸ h.pagedOut, hsame ▸ h.skipped⟩
  rw [hcount, UInt64.ofNat_add]
  simp only [Stats.record]
  ac_rfl

theorem Balanced.compressed (h : Balanced stats scans exited (pending + 1) calls)
    {outcome : CompressOutcome} (hreal : outcome.isRealSuccess = true) :
    Balanced (stats.record (.compress outcome)) scans exited pending
      (calls ++ [.ok outcome]) := by
  have hlive : outcome.wasDryRun = false := by
    simp only [CompressOutcome.isRealSuccess, Bool.and_eq_true, Bool.not_eq_true'] at hreal
    exact hreal.1.1
  have hcount : (calls ++ [Except.ok outcome]).countP isDryRun = calls.countP isDryRun := by
    simp [isDryRun, hlive]
  have hsome : (calls ++ [Except.ok outcome]).filterMap success? =
      calls.filterMap success? ++ [outcome] := by
    simp [success?, hreal]
  constructor
  · refine h.pay rfl ?_
    simp only [Stats.record, accounted, hcount]
    ac_rfl
  · exact h.scans
  · simp only [Stats.record, hsome, List.length_append, UInt64.ofNat_add, ← h.compressions]
    rfl
  · simp only [Stats.record, hsome, List.map_append, List.sum_append, ← h.pagedOut,
      List.map_singleton, List.sum_singleton]
  · simp only [Stats.record, hsome, List.map_append, List.sum_append, ← h.skipped,
      List.map_singleton, List.sum_singleton]

/-- A call is a compression, a dry run or an error, and only the first adds to the byte
counters. -/
theorem Balanced.call (h : Balanced stats scans exited (pending + 1) calls)
    (result : Except Error CompressOutcome) :
    Balanced (stats.record (outcomeAction result)) scans exited pending (calls ++ [result]) := by
  cases result with
  | error err => exact h.error rfl rfl rfl
  | ok outcome =>
    cases hreal : outcome.isRealSuccess with
    | true =>
      have haction : outcomeAction (.ok outcome) = .compress outcome := by
        simp [outcomeAction, hreal]
      rw [haction]
      exact h.compressed hreal
    | false =>
      have hsuccess : success? (.ok outcome) = none := by simp [success?, hreal]
      cases hdry : outcome.wasDryRun with
      | true =>
        have haction : outcomeAction (.ok outcome) = .wouldCompress outcome := by
          simp [outcomeAction, hreal, hdry]
        rw [haction]
        exact h.dryRun hdry hsuccess
      | false =>
        have haction : outcomeAction (.ok outcome) = .compressIncomplete outcome := by
          simp [outcomeAction, hreal, hdry]
        rw [haction]
        exact h.error rfl hdry hsuccess

end Turn

/-! ## Cycles and runs -/

/-- The ways out of a turn of the loop. -/
theorem scanTarget_cases (config : Config) (env : CycleEnv) (tracker : CpuTracker)
    (tab : TargetProcess) :
    env.snapshot tab.pid = none ∧ (scanTarget config env tracker tab).1 = .skipExited ∨
      (env.snapshot tab.pid).isNone = false ∧
        ((scanTarget config env tracker tab).1.callsCompressPid = false ∧
            (scanTarget config env tracker tab).1 ≠ .skipExited ∨
          (scanTarget config env tracker tab).1 =
            outcomeAction (env.compressPid tab.pid config.dryRun)) := by
  unfold scanTarget
  cases env.snapshot tab.pid with
  | none => exact Or.inl ⟨rfl, rfl⟩
  | some reading => exact Or.inr ⟨rfl, judge_cases config env tab _ _ _⟩

section Run

variable (config : Config) {stats : Stats} {scans exited pending : Nat}
  {calls : List (Except Error CompressOutcome)}

/-- A turn of the loop pays for its target. -/
theorem Balanced.turn (env : CycleEnv) (tracker : CpuTracker) (tab : TargetProcess)
    (h : Balanced stats scans exited (pending + 1) calls) :
    let action := (scanTarget config env tracker tab).1
    Balanced (stats.record action) scans
      (exited + if (env.snapshot tab.pid).isNone then 1 else 0) pending
      (calls ++ (callOf config env (tab, action)).toList) := by
  intro action
  rcases scanTarget_cases config env tracker tab with
    ⟨hgone, hskip⟩ | ⟨hsnap, ⟨hcalls, hnot⟩ | hcall⟩
  · have haction : action = .skipExited := hskip
    have hcallOf : callOf config env (tab, action) = none := by rw [haction]; rfl
    rw [hcallOf, hgone, haction]
    simpa using h.gone
  · have hcallOf : callOf config env (tab, action) = none := by simp [callOf, action, hcalls]
    rw [hcallOf, hsnap]
    simpa using h.check hcalls hnot
  · have haction : action = outcomeAction (env.compressPid tab.pid config.dryRun) := hcall
    have hcallOf : callOf config env (tab, action) =
        some (env.compressPid tab.pid config.dryRun) := by
      simp [callOf, haction, callsCompressPid_outcomeAction]
    rw [hcallOf, hsnap, haction]
    exact h.call _

/-- The loop pays for all of its targets. -/
theorem Balanced.loop (env : CycleEnv) {targets : List TargetProcess} (tracker : CpuTracker)
    (h : Balanced stats scans exited targets.length calls) :
    let log := (scanLoop config env targets tracker).1
    Balanced (log.foldl (fun stats entry => stats.record entry.2) stats) scans
      (exited + targets.countP (fun tab => (env.snapshot tab.pid).isNone)) 0
      (calls ++ log.filterMap (callOf config env)) := by
  induction targets generalizing tracker stats exited calls with
  | nil => simpa [scanLoop] using h
  | cons tab rest ih =>
    have hrest := ih (scanTarget config env tracker tab).2 (h.turn config env tracker tab)
    have hcount : exited + (tab :: rest).countP (fun tab => (env.snapshot tab.pid).isNone) =
        exited + (if (env.snapshot tab.pid).isNone then 1 else 0) +
          rest.countP (fun tab => (env.snapshot tab.pid).isNone) := by
      rw [List.countP_cons]
      omega
    simp only [scanLoop, List.foldl_cons, hcount]
    rw [List.filterMap_eq_flatMap_toList, List.flatMap_cons, ← List.append_assoc,
      ← List.filterMap_eq_flatMap_toList]
    exact hrest

/-- A cycle. -/
theorem Balanced.pass {s : RunState} (h : Balanced s.stats scans exited 0 calls) (c : Pass) :
    Balanced (nextPass config s c).stats (scans + 1) (exited + exitedIn c) 0
      (calls ++ callsIn config s.tracker c) := by
  have hstart : Balanced
      { s.stats with
        scans := s.stats.scans + 1
        targetsSeen := s.stats.targetsSeen + UInt64.ofNat c.targets.length }
      (scans + 1) exited c.targets.length calls := by
    refine ⟨?_, ?_, h.compressions, h.pagedOut, h.skipped⟩
    · have htargets := h.targets
      simp only [accounted] at htargets ⊢
      rw [htargets]
      simp
    · rw [UInt64.ofNat_add, ← h.scans]
      rfl
  exact hstart.loop config c.env s.tracker

/-- Any number of cycles. -/
theorem Balanced.run {s : RunState} (h : Balanced s.stats scans exited 0 calls)
    (passes : List Pass) :
    Balanced (passes.foldl (nextPass config) s).stats (scans + passes.length)
      (exited + (passes.map exitedIn).sum) 0 (calls ++ callsFrom config s passes) := by
  induction passes generalizing s scans exited calls with
  | nil => simpa [callsFrom] using h
  | cons c passes ih =>
    have hrest := ih (h.pass config c)
    rw [List.foldl_cons, List.length_cons, List.map_cons, List.sum_cons, callsFrom,
      ← List.append_assoc, ← Nat.add_assoc exited, Nat.add_comm passes.length, ← Nat.add_assoc]
    exact hrest

end Run

/-- After any number of cycles, with any targets and any answers: every target is counted
once, the scans are the cycles, and the byte counters are sums over the compressions that
were counted. -/
theorem telemetry_balances (config : Config) (passes : List Pass) :
    let stats := (runPasses config passes).stats
    let calls := callsFrom config {} passes
    let compressed := calls.filterMap success?
    stats.targetsSeen = stats.skipsActive + stats.skipsWarmup + stats.skipsAlreadyCompressed +
      stats.skipsLowRss + stats.skipsBrowserSignals + stats.compressions + stats.errors +
      UInt64.ofNat (passes.map exitedIn).sum + UInt64.ofNat (calls.countP isDryRun) ∧
    stats.scans = UInt64.ofNat passes.length ∧
    stats.compressions = UInt64.ofNat compressed.length ∧
    stats.bytesPagedOut = (compressed.map CompressOutcome.bytesAdvised).sum ∧
    stats.bytesSkippedByKernel = (compressed.map CompressOutcome.bytesSkippedByKernel).sum := by
  intro stats calls compressed
  have hrun := Balanced.start.run config (s := {}) passes
  rw [List.nil_append, Nat.zero_add, Nat.zero_add] at hrun
  refine ⟨?_, hrun.scans, hrun.compressions, hrun.pagedOut, hrun.skipped⟩
  have htargets := hrun.targets
  rw [show UInt64.ofNat 0 = 0 from rfl, UInt64.add_zero] at htargets
  exact htargets

end BsslRam.Telemetry
