import BsslRam.Config
import BsslRam.Lib.Word

/-!
# The CPU tracker

`daemon/src/state.rs`.  `CpuTracker` keeps, for each PID, the last snapshot, the
number of consecutive idle cycles and the anti-recompression flag, in three
maps that six different paths write.

No operation on one PID reads or writes the entries of another.  `PidView` is
what the three maps hold for one PID, and `view` is the projection.  The
lemmas below state each tracker operation as an operation on the view of its
own PID that leaves every other view alone, and `ext_view` recovers the whole
tracker from its views.  Everything later argues about views.
-/

namespace BsslRam.State

open BsslRam.Lib

/-- The sentinel is above every idle bar, so a first observation is never idle. -/
theorem not_u64Max_le_cpuDeltaNs (config : Config) : ¬ u64Max ≤ config.cpuDeltaNs := by
  intro hle
  have hne := mul_TICK_NS_ne_max config.cpuDeltaThreshold
  have hlt := UInt64.toNat_lt config.cpuDeltaNs
  have hval : u64Max.toNat = 2 ^ 64 - 1 := by decide
  rw [UInt64.le_iff_toNat_le, hval] at hle
  apply hne
  apply UInt64.toNat.inj
  have heq : config.cpuDeltaNs.toNat = u64Max.toNat := by omega
  exact heq

/-- One CPU reading of a process. -/
structure ProcSnapshot where
  pid : UInt32
  starttime : UInt64
  cpuNs : UInt64
  deriving DecidableEq, Repr

/-- CPU usage history per PID. -/
structure CpuTracker where
  snapshots : Map UInt32 ProcSnapshot
  idleCyclesMap : Map UInt32 UInt32
  compressed : Map UInt32 Bool

/-! ## What the maps hold for one PID -/

/-- The entries of the three maps under one PID. -/
structure PidView where
  snapshot : Option ProcSnapshot
  idle : Option UInt32
  compressed : Option Bool
  deriving DecidableEq, Repr

namespace PidView

/-- No entry in any map. -/
def empty : PidView := ⟨none, none, none⟩

/-- The PID-reuse guard: a snapshot of another process wipes everything. -/
def guardReuse (v : PidView) (snap : ProcSnapshot) : PidView :=
  match v.snapshot with
  | some prev => if prev.starttime ≠ snap.starttime then empty else v
  | none => v

/-- The CPU time since the stored snapshot, or the sentinel `u64::MAX` without one. -/
def delta (v : PidView) (snap : ProcSnapshot) : UInt64 :=
  match v.snapshot with
  | some prev => saturatingSub snap.cpuNs prev.cpuNs
  | none => u64Max

/-- `CpuTracker::update` on the entries of the PID of `snap`. -/
def update (v : PidView) (snap : ProcSnapshot)
    (cpuDeltaThresholdNs wakeupDeltaThresholdNs : UInt64) : Bool × PidView :=
  let v := v.guardReuse snap
  let delta := v.delta snap
  let idle := decide (delta ≤ cpuDeltaThresholdNs)
  let wokeUp := decide (wakeupDeltaThresholdNs < delta) && delta != u64Max
  (idle,
    { snapshot := some snap
      idle := some (if idle then v.idle.getD 0 + 1 else 0)
      compressed := if wokeUp then none else v.compressed })

/-- `CpuTracker::idle_cycles`. -/
def idleCycles (v : PidView) : UInt32 := v.idle.getD 0

/-- `CpuTracker::is_compressed`. -/
def isCompressed (v : PidView) : Bool := v.compressed.getD false

/-- `CpuTracker::mark_compressed`. -/
def markCompressed (v : PidView) : PidView := { v with compressed := some true }

@[simp] theorem idleCycles_empty : empty.idleCycles = 0 := rfl

@[simp] theorem isCompressed_empty : empty.isCompressed = false := rfl

@[simp] theorem snapshot_markCompressed (v : PidView) :
    v.markCompressed.snapshot = v.snapshot := rfl

@[simp] theorem idleCycles_markCompressed (v : PidView) :
    v.markCompressed.idleCycles = v.idleCycles := rfl

@[simp] theorem isCompressed_markCompressed (v : PidView) :
    v.markCompressed.isCompressed = true := rfl

section Update

variable (v : PidView) (snap : ProcSnapshot) (cpuNs wakeupNs : UInt64)

@[simp] theorem update_snapshot :
    (v.update snap cpuNs wakeupNs).2.snapshot = some snap := rfl

theorem update_isIdle :
    (v.update snap cpuNs wakeupNs).1 = decide ((v.guardReuse snap).delta snap ≤ cpuNs) := rfl

theorem update_idleCycles :
    (v.update snap cpuNs wakeupNs).2.idleCycles =
      if (v.guardReuse snap).delta snap ≤ cpuNs then (v.guardReuse snap).idleCycles + 1
      else 0 := by
  simp [update, idleCycles]

theorem update_isCompressed :
    (v.update snap cpuNs wakeupNs).2.isCompressed = true ↔
      ¬ (wakeupNs < (v.guardReuse snap).delta snap ∧ (v.guardReuse snap).delta snap ≠ u64Max) ∧
        (v.guardReuse snap).isCompressed = true := by
  simp only [update, isCompressed]
  by_cases hwoke : wakeupNs < (v.guardReuse snap).delta snap ∧
      (v.guardReuse snap).delta snap ≠ u64Max
  · simp [hwoke]
  · simp [hwoke]

end Update

end PidView

/-! ## The tracker -/

namespace CpuTracker

/-- `CpuTracker::new`. -/
def new : CpuTracker := ⟨∅, ∅, ∅⟩

/-- `CpuTracker::remove`: forget an exited process. -/
def remove (t : CpuTracker) (pid : UInt32) : CpuTracker :=
  { snapshots := t.snapshots.erase pid
    idleCyclesMap := t.idleCyclesMap.erase pid
    compressed := t.compressed.erase pid }

/-- The PID-reuse guard of `update`.  With another `starttime` under the same
PID, the state we hold belongs to a process that is gone. -/
def guardReuse (t : CpuTracker) (snap : ProcSnapshot) : CpuTracker :=
  match t.snapshots[snap.pid]? with
  | some prev => if prev.starttime ≠ snap.starttime then t.remove snap.pid else t
  | none => t

/-- `CpuTracker::update`: store the snapshot and say whether the process is
idle.  The idle counter is a `u32`, and `+= 1` wraps in a release build. -/
def update (t : CpuTracker) (snap : ProcSnapshot)
    (cpuDeltaThresholdNs wakeupDeltaThresholdNs : UInt64) : Bool × CpuTracker :=
  let pid := snap.pid
  let t := t.guardReuse snap
  let delta := match t.snapshots[pid]? with
    | some prev => saturatingSub snap.cpuNs prev.cpuNs
    | none => u64Max
  let idle := decide (delta ≤ cpuDeltaThresholdNs)
  let wokeUp := decide (wakeupDeltaThresholdNs < delta) && delta != u64Max
  let snapshots := t.snapshots.insert pid snap
  let idleCyclesMap :=
    if idle then t.idleCyclesMap.insert pid (t.idleCyclesMap[pid]?.getD 0 + 1)
    else t.idleCyclesMap.insert pid 0
  let compressed := if wokeUp then t.compressed.erase pid else t.compressed
  (idle, { snapshots, idleCyclesMap, compressed })

/-- `CpuTracker::idle_cycles`. -/
def idleCycles (t : CpuTracker) (pid : UInt32) : UInt32 := t.idleCyclesMap[pid]?.getD 0

/-- `CpuTracker::is_compressed`. -/
def isCompressed (t : CpuTracker) (pid : UInt32) : Bool := t.compressed[pid]?.getD false

/-- `CpuTracker::mark_compressed`. -/
def markCompressed (t : CpuTracker) (pid : UInt32) : CpuTracker :=
  { t with compressed := t.compressed.insert pid true }

/-- `CpuTracker::retain_only`: drop every PID that is not in `livePids`. -/
def retainOnly (t : CpuTracker) (livePids : List UInt32) : CpuTracker :=
  { snapshots := t.snapshots.retainKeys livePids.contains
    idleCyclesMap := t.idleCyclesMap.retainKeys livePids.contains
    compressed := t.compressed.retainKeys livePids.contains }

/-- `CpuTracker::tracked_pids`. -/
def trackedPids (t : CpuTracker) : Nat := t.snapshots.size

/-- The entries of the tracker under `pid`. -/
def view (t : CpuTracker) (pid : UInt32) : PidView :=
  ⟨t.snapshots[pid]?, t.idleCyclesMap[pid]?, t.compressed[pid]?⟩

/-- A tracker is determined by its views. -/
theorem ext_view {t t' : CpuTracker} (h : ∀ pid, t.view pid = t'.view pid) : t = t' := by
  cases t with
  | mk s i c =>
    cases t' with
    | mk s' i' c' =>
      simp only [view, PidView.mk.injEq] at h
      have hs : s = s' := Std.ExtTreeMap.ext_getElem? (fun k => (h k).1)
      have hi : i = i' := Std.ExtTreeMap.ext_getElem? (fun k => (h k).2.1)
      have hc : c = c' := Std.ExtTreeMap.ext_getElem? (fun k => (h k).2.2)
      rw [hs, hi, hc]

@[simp] theorem view_new (pid : UInt32) : new.view pid = PidView.empty := by
  simp [new, view, PidView.empty]

theorem idleCycles_eq (t : CpuTracker) (pid : UInt32) :
    t.idleCycles pid = (t.view pid).idleCycles := rfl

theorem isCompressed_eq (t : CpuTracker) (pid : UInt32) :
    t.isCompressed pid = (t.view pid).isCompressed := rfl

theorem view_remove (t : CpuTracker) (pid p : UInt32) :
    (t.remove pid).view p = if pid = p then PidView.empty else t.view p := by
  simp only [remove, view, Map.getElem?_erase]
  split <;> rfl

theorem view_markCompressed (t : CpuTracker) (pid p : UInt32) :
    (t.markCompressed pid).view p =
      if pid = p then (t.view p).markCompressed else t.view p := by
  simp only [markCompressed, view, Map.getElem?_insert, PidView.markCompressed]
  split <;> rfl

theorem view_retainOnly (t : CpuTracker) (livePids : List UInt32) (p : UInt32) :
    (t.retainOnly livePids).view p = if p ∈ livePids then t.view p else PidView.empty := by
  simp only [retainOnly, view, Map.getElem?_retainKeys, List.contains_iff_mem]
  split <;> rfl

/-- The reuse guard, as an operation on views. -/
theorem view_guardReuse (t : CpuTracker) (snap : ProcSnapshot) (p : UInt32) :
    (t.guardReuse snap).view p =
      if snap.pid = p then (t.view p).guardReuse snap else t.view p := by
  unfold guardReuse PidView.guardReuse
  by_cases hp : snap.pid = p
  · subst hp
    rw [if_pos rfl]
    change _ = match t.snapshots[snap.pid]? with
      | some prev => if prev.starttime ≠ snap.starttime then PidView.empty else t.view snap.pid
      | none => t.view snap.pid
    split
    · rw [apply_ite (fun u => CpuTracker.view u snap.pid), view_remove, if_pos rfl]
    · rfl
  · rw [if_neg hp]
    split
    · rw [apply_ite (fun u => CpuTracker.view u p), view_remove, if_neg hp, ite_self]
    · rfl

/-- The verdict of `update` depends on the entries of its own PID only. -/
theorem update_idle (t : CpuTracker) (snap : ProcSnapshot) (cpuNs wakeupNs : UInt64) :
    (t.update snap cpuNs wakeupNs).1 = ((t.view snap.pid).update snap cpuNs wakeupNs).1 := by
  have hguard := view_guardReuse t snap snap.pid
  rw [if_pos rfl] at hguard
  simp only [update, PidView.update, PidView.delta, ← hguard]
  rfl

/-- `update` acts on the view of its own PID and on nothing else. -/
theorem view_update (t : CpuTracker) (snap : ProcSnapshot) (cpuNs wakeupNs : UInt64)
    (p : UInt32) :
    (t.update snap cpuNs wakeupNs).2.view p =
      if snap.pid = p then ((t.view p).update snap cpuNs wakeupNs).2 else t.view p := by
  have hguard := view_guardReuse t snap p
  by_cases hp : snap.pid = p
  · subst hp
    rw [if_pos rfl] at hguard ⊢
    simp only [PidView.update, ← hguard]
    simp only [update, PidView.delta, view, Map.getElem?_insert, if_true,
      apply_ite (fun m : Map UInt32 UInt32 => m[snap.pid]?),
      apply_ite (fun m : Map UInt32 Bool => m[snap.pid]?), Map.getElem?_erase]
    congr 1
    exact (apply_ite some _ _ _).symm
  · rw [if_neg hp] at hguard ⊢
    rw [← hguard]
    simp only [update, view, Map.getElem?_insert, if_neg hp, ite_self,
      apply_ite (fun m : Map UInt32 UInt32 => m[p]?),
      apply_ite (fun m : Map UInt32 Bool => m[p]?), Map.getElem?_erase]

end CpuTracker

end BsslRam.State
