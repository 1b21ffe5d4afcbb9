import BsslRam.ScanHistory

/-!
# What the tracker holds after a cycle

`CpuTracker` has three maps, and only one of them is counted.  The paths that write
them are the reuse guard, `update`, `mark_compressed`, `remove` and the sweep at the
end of the cycle.  After a complete cycle the maps are aligned all the same:
`snapshots` and `idle_cycles` have the same keys, which are the targets of this cycle
that had a snapshot, and `compressed` has no others (`tracker_represents_cycle`).

The list of targets is arbitrary here, and a PID may be in it twice.  So a cycle is a
`Pass`, without the distinct PIDs of a `Cycle`.  The turns of one PID read the same
snapshot, and a turn leaves the entries of its PID aligned whatever they were before
(`Settled`).  The last turn of a PID decides, and the sweep drops the PIDs that had
none.
-/

namespace BsslRam.TrackerInvariant

open BsslRam.Lib BsslRam.Scanner BsslRam.State BsslRam.ScanCycle BsslRam.ScanHistory

/-! ## Cycles with any targets -/

/-- The state after a list of cycles, from a fresh tracker. -/
def runPasses (config : Config) (passes : List Pass) : RunState :=
  passes.foldl (fun s c =>
    let result := scanPass config s.tracker s.stats c
    { tracker := result.tracker, stats := result.stats }) {}

/-- The runs of `ScanHistory` are among them. -/
theorem runCycles_eq_runPasses (config : Config) (cycles : List Cycle) :
    runCycles config cycles = runPasses config (cycles.map Cycle.toPass) := by
  unfold runCycles runPasses
  rw [List.foldl_map]
  rfl

theorem runPasses_append (config : Config) (passes : List Pass) (c : Pass) :
    (runPasses config (passes ++ [c])).tracker =
      (scanPass config (runPasses config passes).tracker
        (runPasses config passes).stats c).tracker := by
  unfold runPasses
  rw [List.foldl_append]
  rfl

/-! ## One PID -/

/-- The entries of `p` after its last turn in a cycle. -/
def Settled (env : CycleEnv) (p : UInt32) (v : PidView) : Prop :=
  match env.snapshot p with
  | none => v = PidView.empty
  | some reading => v.snapshot = some ⟨p, reading.1, reading.2⟩ ∧ v.idle.isSome = true

/-- A turn settles the entries of its PID, whatever they were. -/
theorem settled_scan (config : Config) (env : CycleEnv) (tab : TargetProcess) (v : PidView) :
    Settled env tab.pid (PidView.scan config env tab v).2 := by
  unfold Settled PidView.scan
  cases env.snapshot tab.pid with
  | none => rfl
  | some reading =>
    dsimp only
    split
    · exact ⟨rfl, rfl⟩
    · exact ⟨rfl, rfl⟩

/-- The loop settles the entries of every target. -/
theorem settled_scanLoop (config : Config) (env : CycleEnv) {targets : List TargetProcess}
    {p : UInt32} (hp : p ∈ targets.map TargetProcess.pid) (tracker : CpuTracker) :
    Settled env p ((scanLoop config env targets tracker).2.view p) := by
  induction targets generalizing tracker with
  | nil => cases hp
  | cons tab rest ih =>
    rw [scanLoop]
    by_cases hrest : p ∈ rest.map TargetProcess.pid
    · exact ih hrest _
    · -- this is the last turn of the PID
      rcases List.mem_cons.mp hp with hhead | htail
      · rw [scanLoop_view_of_not_mem config env hrest, hhead,
          (scanTarget_self config env tracker tab).2]
        exact settled_scan config env tab _
      · exact absurd htail hrest

theorem view_scanPass (config : Config) (tracker : CpuTracker) (stats : Stats) (c : Pass)
    (p : UInt32) :
    (p ∈ c.targets.map TargetProcess.pid ∧
        Settled c.env p ((scanPass config tracker stats c).tracker.view p)) ∨
      (p ∉ c.targets.map TargetProcess.pid ∧
        (scanPass config tracker stats c).tracker.view p = PidView.empty) := by
  have hview : (scanPass config tracker stats c).tracker.view p =
      if p ∈ c.targets.map TargetProcess.pid then
        (scanLoop config c.env c.targets tracker).2.view p
      else PidView.empty := CpuTracker.view_retainOnly _ _ p
  rw [hview]
  by_cases hp : p ∈ c.targets.map TargetProcess.pid
  · rw [if_pos hp]
    exact Or.inl ⟨hp, settled_scanLoop config c.env hp tracker⟩
  · rw [if_neg hp]
    exact Or.inr ⟨hp, rfl⟩

/-! ## The maps -/

/-- The tracker holds what this cycle observed, and nothing else. -/
structure Represents (t : CpuTracker) (c : Pass) : Prop where
  sameKeys : ∀ p, p ∈ t.snapshots ↔ p ∈ t.idleCyclesMap
  keys : ∀ p, p ∈ t.snapshots ↔
    p ∈ c.targets.map TargetProcess.pid ∧ (c.env.snapshot p).isSome = true
  flagged : ∀ p, p ∈ t.compressed → p ∈ t.snapshots
  stored : ∀ p snap, t.snapshots[p]? = some snap →
    snap.pid = p ∧ c.env.snapshot p = some (snap.starttime, snap.cpuNs)
  bounded : t.snapshots.size ≤ c.targets.length ∧ t.idleCyclesMap.size ≤ c.targets.length ∧
    t.compressed.size ≤ c.targets.length
  counted : t.trackedPids = {p | t.view p ≠ PidView.empty}.ncard

/-- What the three maps hold for one PID. -/
structure Holds (c : Pass) (p : UInt32) (v : PidView) : Prop where
  sameKeys : v.snapshot.isSome = true ↔ v.idle.isSome = true
  keys : v.snapshot.isSome = true ↔
    p ∈ c.targets.map TargetProcess.pid ∧ (c.env.snapshot p).isSome = true
  flagged : v.compressed.isSome = true → v.snapshot.isSome = true
  stored : ∀ snap, v.snapshot = some snap →
    snap.pid = p ∧ c.env.snapshot p = some (snap.starttime, snap.cpuNs)

/-- Without a snapshot there is no entry at all. -/
theorem Holds.eq_empty {c : Pass} {p : UInt32} {v : PidView} (h : Holds c p v)
    (hnone : ¬ v.snapshot.isSome = true) : v = PidView.empty := by
  have hidle : ¬ v.idle.isSome = true := fun hsome => hnone (h.sameKeys.mpr hsome)
  have hflag : ¬ v.compressed.isSome = true := fun hsome => hnone (h.flagged hsome)
  rw [Option.not_isSome_iff_eq_none] at hnone hidle hflag
  cases v with
  | mk snapshot idle compressed =>
    cases hnone
    cases hidle
    cases hflag
    rfl

theorem holds_of_settled {c : Pass} {p : UInt32} {v : PidView}
    (hp : p ∈ c.targets.map TargetProcess.pid) (hv : Settled c.env p v) : Holds c p v := by
  unfold Settled at hv
  cases hsnap : c.env.snapshot p with
  | none =>
    rw [hsnap] at hv
    rw [hv]
    exact ⟨Iff.rfl, iff_of_false (by simp [PidView.empty]) (by simp [hsnap]), fun h => h,
      fun snap h => by cases h⟩
  | some reading =>
    rw [hsnap] at hv
    have hstored : v.snapshot.isSome = true := by rw [hv.1]; rfl
    refine ⟨iff_of_true hstored hv.2, iff_of_true hstored ⟨hp, by simp [hsnap]⟩,
      fun _ => hstored, ?_⟩
    intro snap hsnap'
    rw [hv.1] at hsnap'
    cases hsnap'
    exact ⟨rfl, hsnap⟩

theorem holds_scanPass (config : Config) (tracker : CpuTracker) (stats : Stats) (c : Pass)
    (p : UInt32) : Holds c p ((scanPass config tracker stats c).tracker.view p) := by
  rcases view_scanPass config tracker stats c p with hseen | hunseen
  · exact holds_of_settled hseen.1 hseen.2
  · rw [hunseen.2]
    exact ⟨Iff.rfl, iff_of_false (by simp [PidView.empty]) (fun h => hunseen.1 h.1), fun h => h,
      fun snap h => by cases h⟩

theorem represents_of_holds {t : CpuTracker} {c : Pass} (h : ∀ p, Holds c p (t.view p)) :
    Represents t c := by
  have hsnapshots : ∀ p, p ∈ t.snapshots ↔ (t.view p).snapshot.isSome = true :=
    fun p => Std.ExtTreeMap.mem_iff_isSome_getElem?
  have hidle : ∀ p, p ∈ t.idleCyclesMap ↔ (t.view p).idle.isSome = true :=
    fun p => Std.ExtTreeMap.mem_iff_isSome_getElem?
  have hcompressed : ∀ p, p ∈ t.compressed ↔ (t.view p).compressed.isSome = true :=
    fun p => Std.ExtTreeMap.mem_iff_isSome_getElem?
  have hsame : ∀ p, p ∈ t.snapshots ↔ p ∈ t.idleCyclesMap := by
    intro p
    rw [hsnapshots, hidle]
    exact (h p).sameKeys
  have hkeys : ∀ p, p ∈ t.snapshots ↔
      p ∈ c.targets.map TargetProcess.pid ∧ (c.env.snapshot p).isSome = true := by
    intro p
    rw [hsnapshots]
    exact (h p).keys
  have hflagged : ∀ p, p ∈ t.compressed → p ∈ t.snapshots := by
    intro p
    rw [hcompressed, hsnapshots]
    exact (h p).flagged
  refine ⟨hsame, hkeys, hflagged, fun p => (h p).stored, ?_, ?_⟩
  · rw [← List.length_map TargetProcess.pid]
    refine ⟨Map.size_le_length ?_, Map.size_le_length ?_, Map.size_le_length ?_⟩
    · intro p hp
      exact ((hkeys p).mp hp).1
    · intro p hp
      exact ((hkeys p).mp ((hsame p).mpr hp)).1
    · intro p hp
      exact ((hkeys p).mp (hflagged p hp)).1
  · -- a PID with an entry anywhere has a snapshot
    have hany : {p | t.view p ≠ PidView.empty} = {p | p ∈ t.snapshots} := by
      ext p
      show t.view p ≠ PidView.empty ↔ p ∈ t.snapshots
      rw [hsnapshots]
      constructor
      · intro hne
        by_contra hnone
        exact hne ((h p).eq_empty hnone)
      · intro hsome heq
        rw [heq] at hsome
        cases hsome
    rw [hany]
    exact Map.size_eq_ncard t.snapshots

theorem represents_runPasses (config : Config) (passes : List Pass) (c : Pass) :
    Represents (runPasses config (passes ++ [c])).tracker c := by
  rw [runPasses_append]
  apply represents_of_holds
  intro p
  exact holds_scanPass config _ _ c p

/-- After every cycle of every run, with any targets, and so with those that discovery
finds. -/
theorem tracker_represents_cycle (config : Config) :
    (∀ (passes : List Pass) (c : Pass),
      Represents (runPasses config (passes ++ [c])).tracker c) ∧
    ∀ (cycles : List Cycle) (c : Cycle),
      Represents (runCycles config (cycles ++ [c])).tracker c.toPass := by
  refine ⟨represents_runPasses config, fun cycles c => ?_⟩
  rw [runCycles_eq_runPasses, List.map_append]
  exact represents_runPasses config _ c.toPass

end BsslRam.TrackerInvariant
