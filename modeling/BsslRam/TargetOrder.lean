import BsslRam.ScanHistory
import BsslRam.ProcessTable

/-!
# The order of the targets

The targets of a cycle come in the order in which `live_targets` goes through a hash
map, or `read_dir` through `/proc`.  Nothing depends on it.

* The tracker is determined by its views, and the view of a PID after a cycle is a
  function of the target with that PID, not of its place (`scanCycle_view`).
* A turn adds a fixed increment to the counters (`increment`), and adding
  increments commutes.
* The log is the list of targets with an action for each, so it is permuted with them.

`order_irrelevant` says it for one cycle from any tracker, for runs, and for runs whose
targets are listed by the two discovery functions in any order.
-/

namespace BsslRam.TargetOrder

open BsslRam.Lib BsslRam.Scanner BsslRam.State BsslRam.ScanCycle BsslRam.ScanHistory
open BsslRam.ProcessTable

/-! ## The same cycle in another order -/

/-- The same targets in another order, and the same environment. -/
structure Reordered (c c' : Cycle) : Prop where
  targets : c.targets.Perm c'.targets
  env : c.env = c'.env

/-- The arguments of the calls of `compress_pid`. -/
def callsOf (r : CycleResult) : Set UInt32 :=
  {p | ∃ tab a, (tab, a) ∈ r.log ∧ tab.pid = p ∧ a.callsCompressPid = true}

structure SameResult (r r' : CycleResult) : Prop where
  tracker : r.tracker = r'.tracker
  stats : r.stats = r'.stats
  calls : callsOf r = callsOf r'

/-- After every number of cycles, and in every cycle. -/
structure SameRun (config : Config) (cycles cycles' : List Cycle) : Prop where
  state : ∀ n, runCycles config (cycles.take n) = runCycles config (cycles'.take n)
  calls : ∀ p n, Called config cycles p n ↔ Called config cycles' p n

/-! ## Discovery in any order -/

/-- What `live_targets` makes of an entry of the table. -/
def listedTarget (entry : UInt32 × ProcessRecord) : Option TargetProcess :=
  entry.2.profileName.map (fun profile => { pid := entry.1, profile })

/-- What `scan_targets` makes of an entry of `/proc`. -/
def walkedTarget (profiles : List BrowserProfile) (entry : UInt32 × List UInt8) :
    Option TargetProcess :=
  (profiles.find? (fun p => matchProfile (parseCmdline entry.2) p)).map
    (fun p => { pid := entry.1, profile := p.name })

/-- What discovery goes through. -/
inductive Source where
  | table (t : Table)
  | proc (fs : ProcFs)

/-- The targets that discovery finds. -/
def Source.targets (profiles : List BrowserProfile) : Source → List TargetProcess
  | .table t => liveTargets t
  | .proc fs => scanTargets profiles fs

/-- A list of the targets in some order of the hash map or of the directory. -/
def Lists (profiles : List BrowserProfile) (targets : List TargetProcess) : Source → Prop
  | .table t => ∃ entries : List (UInt32 × ProcessRecord), entries.Perm t.toList ∧
      targets = entries.filterMap listedTarget
  | .proc fs => ∃ entries : List (UInt32 × List UInt8), entries.Perm fs.toList ∧
      targets = entries.filterMap (walkedTarget profiles)

/-- Both cycles list the same source, and have the same environment. -/
structure Relisted (profiles : List BrowserProfile) (c c' : Cycle) : Prop where
  targets : ∃ source, Lists profiles c.targets source ∧ Lists profiles c'.targets source
  env : c.env = c'.env

theorem perm_of_lists {profiles : List BrowserProfile} {targets : List TargetProcess}
    {source : Source} (h : Lists profiles targets source) :
    targets.Perm (source.targets profiles) := by
  cases source with
  | table t =>
    obtain ⟨entries, hperm, rfl⟩ := h
    exact hperm.filterMap listedTarget
  | proc fs =>
    obtain ⟨entries, hperm, rfl⟩ := h
    exact hperm.filterMap (walkedTarget profiles)

theorem Relisted.reordered {profiles : List BrowserProfile} {c c' : Cycle}
    (h : Relisted profiles c c') : Reordered c c' := by
  obtain ⟨source, hlists, hlists'⟩ := h.targets
  exact ⟨(perm_of_lists hlists).trans (perm_of_lists hlists').symm, h.env⟩

/-! ## The counters -/

/-- Adding up two sets of counters. -/
def plus (a b : Stats) : Stats where
  scans := a.scans + b.scans
  targetsSeen := a.targetsSeen + b.targetsSeen
  compressions := a.compressions + b.compressions
  bytesPagedOut := a.bytesPagedOut + b.bytesPagedOut
  bytesSkippedByKernel := a.bytesSkippedByKernel + b.bytesSkippedByKernel
  skipsWarmup := a.skipsWarmup + b.skipsWarmup
  skipsActive := a.skipsActive + b.skipsActive
  skipsAlreadyCompressed := a.skipsAlreadyCompressed + b.skipsAlreadyCompressed
  skipsLowRss := a.skipsLowRss + b.skipsLowRss
  skipsBrowserSignals := a.skipsBrowserSignals + b.skipsBrowserSignals
  errors := a.errors + b.errors
  psiEvents := a.psiEvents + b.psiEvents

/-- What a way out of the loop body adds. -/
def increment (a : Action) : Stats := Stats.record {} a

theorem record_eq_plus (stats : Stats) (a : Action) :
    stats.record a = plus stats (increment a) := by
  cases a <;> simp [Stats.record, plus, increment]

theorem plus_right_comm (a b c : Stats) :
    plus (plus a b) c = plus (plus a c) b := by
  unfold plus
  congr 1 <;> exact add_right_comm _ _ _

instance : RightCommutative (fun (stats : Stats) (entry : TargetProcess × Action) =>
    stats.record entry.2) where
  right_comm stats entry entry' := by
    simp only [record_eq_plus]
    exact plus_right_comm _ _ _

/-! ## One cycle -/

section Cycle

variable {c c' : Cycle}

theorem target?_of_reordered (h : Reordered c c') (p : UInt32) : c.target? p = c'.target? p := by
  cases hfind : c.target? p with
  | some tab =>
    obtain ⟨hmem, rfl⟩ := Cycle.target?_pid hfind
    exact (Cycle.target?_of_mem (h.targets.subset hmem)).symm
  | none =>
    cases hfind' : c'.target? p with
    | none => rfl
    | some tab =>
      obtain ⟨hmem, rfl⟩ := Cycle.target?_pid hfind'
      rw [Cycle.target?_of_mem (h.targets.symm.subset hmem)] at hfind
      cases hfind

variable (config : Config) (tracker : CpuTracker) (stats : Stats)

theorem tracker_of_reordered (h : Reordered c c') :
    (scanCycle config tracker stats c).tracker = (scanCycle config tracker stats c').tracker := by
  apply CpuTracker.ext_view
  intro p
  rw [scanCycle_view, scanCycle_view, Cycle.stepView, Cycle.stepView, target?_of_reordered h,
    h.env]

theorem log_of_reordered (h : Reordered c c') :
    (scanCycle config tracker stats c).log.Perm (scanCycle config tracker stats c').log := by
  rw [scanCycle_log, scanCycle_log, h.env]
  exact h.targets.map _

theorem stats_of_reordered (h : Reordered c c') :
    (scanCycle config tracker stats c).stats = (scanCycle config tracker stats c').stats := by
  have hstats : ∀ c : Cycle, (scanCycle config tracker stats c).stats =
      (scanCycle config tracker stats c).log.foldl (fun stats entry => stats.record entry.2)
        { stats with
          scans := stats.scans + 1
          targetsSeen := stats.targetsSeen + UInt64.ofNat c.targets.length } := fun _ => rfl
  rw [hstats, hstats, h.targets.length_eq]
  exact (log_of_reordered config tracker stats h).foldl_eq _

theorem calls_of_reordered (h : Reordered c c') :
    callsOf (scanCycle config tracker stats c) =
      callsOf (scanCycle config tracker stats c') := by
  have hlog := log_of_reordered config tracker stats h
  unfold callsOf
  simp only [hlog.mem_iff]

theorem sameResult_of_reordered (h : Reordered c c') :
    SameResult (scanCycle config tracker stats c) (scanCycle config tracker stats c') :=
  ⟨tracker_of_reordered config tracker stats h, stats_of_reordered config tracker stats h,
    calls_of_reordered config tracker stats h⟩

end Cycle

/-! ## Runs -/

section Runs

variable (config : Config) {cycles cycles' : List Cycle}

theorem next_of_reordered (s : RunState) {c c' : Cycle} (h : Reordered c c') :
    s.next config c = s.next config c' := by
  have hsame := sameResult_of_reordered config s.tracker s.stats h
  unfold RunState.next RunState.scan
  rw [hsame.tracker, hsame.stats]

/-- Cycle by cycle, from any state. -/
theorem foldl_next_of_reordered (h : List.Forall₂ Reordered cycles cycles') (s : RunState) :
    cycles.foldl (RunState.next config) s = cycles'.foldl (RunState.next config) s := by
  induction h generalizing s with
  | nil => rfl
  | cons hcycle _ ih => rw [List.foldl_cons, List.foldl_cons, next_of_reordered config s hcycle, ih]

theorem runCycles_of_reordered (h : List.Forall₂ Reordered cycles cycles') (n : Nat) :
    runCycles config (cycles.take n) = runCycles config (cycles'.take n) :=
  foldl_next_of_reordered config (List.forall₂_take n h) {}

theorem called_of_reordered (h : List.Forall₂ Reordered cycles cycles') {p : UInt32} {n : Nat}
    (hcalled : Called config cycles p n) : Called config cycles' p n := by
  obtain ⟨r, hr, hp⟩ := hcalled
  obtain ⟨c, hc, rfl⟩ := Option.map_eq_some_iff.mp hr
  obtain ⟨hn, rfl⟩ := List.getElem?_eq_some_iff.mp hc
  have hn' : n < cycles'.length := h.length_eq ▸ hn
  have hcycle : Reordered cycles[n] cycles'[n] := h.get hn hn'
  have hresult : cycleResult? config cycles' n =
      some ((runCycles config (cycles'.take n)).scan config cycles'[n]) := by
    unfold cycleResult?
    rw [List.getElem?_eq_getElem hn']
    rfl
  have hcalls := (sameResult_of_reordered config (runCycles config (cycles.take n)).tracker
    (runCycles config (cycles.take n)).stats hcycle).calls
  refine ⟨_, hresult, ?_⟩
  rw [← runCycles_of_reordered config h n]
  exact (Set.ext_iff.mp hcalls p).mp hp

theorem sameRun_of_reordered (h : List.Forall₂ Reordered cycles cycles') :
    SameRun config cycles cycles' := by
  have hback : List.Forall₂ Reordered cycles' cycles := by
    refine h.flip.imp ?_
    intro c c' hcycle
    exact ⟨hcycle.targets.symm, hcycle.env.symm⟩
  refine ⟨runCycles_of_reordered config h, fun p n => ⟨?_, ?_⟩⟩
  · exact called_of_reordered config h
  · exact called_of_reordered config hback

end Runs

theorem order_irrelevant (config : Config) :
    (∀ tracker stats c c', Reordered c c' →
      SameResult (scanCycle config tracker stats c) (scanCycle config tracker stats c')) ∧
    (∀ cycles cycles', List.Forall₂ Reordered cycles cycles' → SameRun config cycles cycles') ∧
    ∀ cycles cycles', List.Forall₂ (Relisted config.profiles) cycles cycles' →
      SameRun config cycles cycles' := by
  refine ⟨?_, ?_, ?_⟩
  · intro tracker stats c c' h
    exact sameResult_of_reordered config tracker stats h
  · intro cycles cycles' h
    exact sameRun_of_reordered config h
  · intro cycles cycles' h
    exact sameRun_of_reordered config (h.imp fun _ _ hcycle => hcycle.reordered)

/-- Two idle tabs, in either order. -/
def twoTabs (first second : UInt32) (hne : first ≠ second) : Cycle where
  targets := [{ pid := first, profile := "firefox" }, { pid := second, profile := "firefox" }]
  env :=
    { snapshot := fun _ => some (1, 0)
      rssMib := fun _ => 100
      profileVeto := fun _ _ => none
      compressPid := fun _ _ => .error [] }
  nodup := by simp [hne]

theorem order_irrelevant_two_tabs :
    Reordered (twoTabs 7 8 (by decide)) (twoTabs 8 7 (by decide)) ∧
      SameRun {} [twoTabs 7 8 (by decide), twoTabs 7 8 (by decide)]
        [twoTabs 8 7 (by decide), twoTabs 7 8 (by decide)] := by
  have hswap : Reordered (twoTabs 7 8 (by decide)) (twoTabs 8 7 (by decide)) :=
    ⟨List.Perm.swap _ _ _, rfl⟩
  have hsame : Reordered (twoTabs 7 8 (by decide)) (twoTabs 7 8 (by decide)) :=
    ⟨List.Perm.refl _, rfl⟩
  exact ⟨hswap, (order_irrelevant {}).2.1 _ _ (.cons hswap (.cons hsame .nil))⟩

end BsslRam.TargetOrder
