import BsslRam.ScanHistory
import BsslRam.Lib.Schedule

/-!
# Wakeups, and how often one looks

The flag that keeps a compressed process from being compressed again is cleared by a
wakeup: the CPU time has grown by more than `wakeup_delta_ns` since the scan before.  A
memory pressure event runs a scan between two scans of the timer, and the CPU time that
one scan would have seen is then split between two.

`Process` is a process of one start time, with its CPU time as a function of time.
`scanAll` runs the tracker over a list of instants.  `cleared_iff` says when the flag is
gone: some two consecutive instants are a `Burst` apart.  `run_scanAll` finds the same in
scan cycles that see the process and do not compress it again.

A burst can be split such that neither half is one, unless the bar is zero
(`burst_of_zero`) or so high that there are no bursts (`not_burst_of_high`).
`splitProcess` is the process that splits.
-/

namespace BsslRam.WakeupSampling

open BsslRam.Lib BsslRam.Lib.Schedule BsslRam.State BsslRam.ScanCycle BsslRam.ScanHistory

/-! ## Processes and scans -/

/-- A process with its cumulative CPU time, which never falls. -/
structure Process (T : Type) [LinearOrder T] where
  pid : UInt32
  starttime : UInt64
  cpuNs : T → UInt64
  monotone : ∀ a b, a ≤ b → (cpuNs a).toNat ≤ (cpuNs b).toNat

/-- The two bars of `CpuTracker::update`. -/
structure Thresholds where
  cpuDeltaNs : UInt64
  wakeupDeltaNs : UInt64

section Scans

variable {T : Type} [LinearOrder T] (bars : Thresholds) (proc : Process T)

def Process.snapshotAt (t : T) : ProcSnapshot :=
  { pid := proc.pid, starttime := proc.starttime, cpuNs := proc.cpuNs t }

/-- The scan at one instant. -/
def scanAt (tracker : CpuTracker) (t : T) : CpuTracker :=
  (tracker.update (proc.snapshotAt t) bars.cpuDeltaNs bars.wakeupDeltaNs).2

def scanAll (tracker : CpuTracker) (instants : List T) : CpuTracker :=
  instants.foldl (scanAt bars proc) tracker

/-- The tracker when the process has been scanned and marked compressed. -/
def markedAt (tracker : CpuTracker) (start : T) : CpuTracker :=
  (scanAt bars proc tracker start).markCompressed proc.pid

/-- Marked at the first instant, the process is no longer marked after the others. -/
def Cleared (tracker : CpuTracker) (start : T) (instants : List T) : Prop :=
  (scanAll bars proc (markedAt bars proc tracker start) instants).isCompressed proc.pid = false

/-- Between two instants the process has used more than the bar.  The largest `u64` does
not count, it stands for a first observation. -/
def Burst (a b : T) : Prop :=
  bars.wakeupDeltaNs.toNat < (proc.cpuNs b).toNat - (proc.cpuNs a).toNat ∧
    (proc.cpuNs b).toNat - (proc.cpuNs a).toNat ≠ 2 ^ 64 - 1

/-- Some two consecutive scans are a burst apart. -/
def SeesBurst (instants : List T) : Prop := ∃ a b, [a, b] <:+: instants ∧ Burst bars proc a b

/-! ## What the flag says -/

theorem burst_iff (a b : T) :
    bars.wakeupDeltaNs < saturatingSub (proc.cpuNs b) (proc.cpuNs a) ∧
        saturatingSub (proc.cpuNs b) (proc.cpuNs a) ≠ u64Max ↔
      Burst bars proc a b := by
  unfold Burst
  rw [UInt64.lt_iff_toNat_lt, ← UInt64.toNat_inj.ne, toNat_saturatingSub]
  exact Iff.rfl

theorem view_scanAt (tracker : CpuTracker) (t : T) :
    (scanAt bars proc tracker t).view proc.pid =
      ((tracker.view proc.pid).update (proc.snapshotAt t) bars.cpuDeltaNs bars.wakeupDeltaNs).2 :=
  (CpuTracker.view_update _ _ _ _ _).trans (if_pos rfl)

/-- One scan of a process that the tracker has seen. -/
theorem isCompressed_scanAt {tracker : CpuTracker} {a : T}
    (h : (tracker.view proc.pid).snapshot = some (proc.snapshotAt a)) (b : T) :
    (scanAt bars proc tracker b).isCompressed proc.pid = true ↔
      ¬ Burst bars proc a b ∧ tracker.isCompressed proc.pid = true := by
  have hsame : (tracker.view proc.pid).guardReuse (proc.snapshotAt b) = tracker.view proc.pid := by
    simp [PidView.guardReuse, h, Process.snapshotAt]
  have hdelta : (tracker.view proc.pid).delta (proc.snapshotAt b) =
      saturatingSub (proc.cpuNs b) (proc.cpuNs a) := by
    simp [PidView.delta, h, Process.snapshotAt]
  rw [CpuTracker.isCompressed_eq, view_scanAt, PidView.update_isCompressed, hsame, hdelta,
    burst_iff, CpuTracker.isCompressed_eq]

theorem snapshot_scanAt (tracker : CpuTracker) (t : T) :
    ((scanAt bars proc tracker t).view proc.pid).snapshot = some (proc.snapshotAt t) := by
  rw [view_scanAt, PidView.update_snapshot]

/-- Any number of scans. -/
theorem isCompressed_scanAll {tracker : CpuTracker} {start : T}
    (h : (tracker.view proc.pid).snapshot = some (proc.snapshotAt start)) (instants : List T) :
    (scanAll bars proc tracker instants).isCompressed proc.pid = true ↔
      ¬ SeesBurst bars proc (start :: instants) ∧ tracker.isCompressed proc.pid = true := by
  induction instants generalizing tracker start with
  | nil =>
    have hnone : ¬ SeesBurst bars proc [start] := by
      intro ⟨a, b, hab, _⟩
      have hlength := hab.length_le
      simp at hlength
    exact (and_iff_right hnone).symm
  | cons t instants ih =>
    have hsplit : SeesBurst bars proc (start :: t :: instants) ↔
        Burst bars proc start t ∨ SeesBurst bars proc (t :: instants) := by
      unfold SeesBurst
      simp [List.infix_cons_iff, or_and_right, exists_or]
    have hstep := ih (snapshot_scanAt bars proc tracker t)
    rw [isCompressed_scanAt bars proc h] at hstep
    rw [hsplit, not_or]
    exact hstep.trans (by tauto)

/-- The flag is cleared exactly when two consecutive scans are a burst apart. -/
theorem cleared_iff (tracker : CpuTracker) (start : T) (instants : List T) :
    Cleared bars proc tracker start instants ↔ SeesBurst bars proc (start :: instants) := by
  have hmarked : (markedAt bars proc tracker start).isCompressed proc.pid = true := by
    rw [markedAt, CpuTracker.isCompressed_eq, CpuTracker.view_markCompressed, if_pos rfl]
    rfl
  have hsnap : ((markedAt bars proc tracker start).view proc.pid).snapshot =
      some (proc.snapshotAt start) := by
    rw [markedAt, CpuTracker.view_markCompressed, if_pos rfl, PidView.snapshot_markCompressed,
      snapshot_scanAt]
  have hflag := isCompressed_scanAll bars proc hsnap instants
  rw [and_iff_left hmarked] at hflag
  unfold Cleared
  rw [← Bool.not_eq_true, hflag, not_not]

end Scans

/-! ## Scan cycles -/

section Cycles

variable {T : Type} [LinearOrder T] (config : Config) (proc : Process T)

/-- The bars that the daemon is configured with. -/
def thresholdsOf : Thresholds := ⟨config.cpuDeltaNs, config.wakeupDeltaNs⟩

/-- The cycle runs at this instant, and has the process among its targets. -/
def Samples (c : Cycle) (t : T) : Prop :=
  ∃ tab, c.target? proc.pid = some tab ∧
    c.env.snapshot proc.pid = some (proc.starttime, proc.cpuNs t)

/-- No cycle of the run marks the process compressed. -/
def Unmarked : RunState → List Cycle → Prop
  | _, [] => True
  | s, c :: cs =>
      (∀ a, c.action? config proc.pid (s.tracker.view proc.pid) = some a → a.isSuccess = false) ∧
        Unmarked (s.next config c) cs

theorem view_next {s : RunState} {c : Cycle} {t : T} (hsample : Samples proc c t)
    (hmark : ∀ a, c.action? config proc.pid (s.tracker.view proc.pid) = some a →
      a.isSuccess = false) :
    (s.next config c).tracker.view proc.pid =
      (scanAt (thresholdsOf config) proc s.tracker t).view proc.pid := by
  obtain ⟨tab, htab, hsnap⟩ := hsample
  have hpid := (Cycle.target?_pid htab).2
  have hstep : (s.next config c).tracker.view proc.pid =
      c.stepView config proc.pid (s.tracker.view proc.pid) :=
    scanCycle_view config s.tracker s.stats c proc.pid
  rw [Cycle.action?, htab, Option.map_some] at hmark
  have hfail := hmark _ rfl
  rw [hstep, Cycle.stepView, htab, view_scanAt]
  rw [← hpid] at hsnap
  simp only [PidView.scan, hsnap] at hfail ⊢
  rw [hfail, if_neg Bool.false_ne_true, hpid]
  rfl

/-- Cycles that see the process and do not mark it are scans of the tracker. -/
theorem run_scanAll {s : RunState} {cs : List Cycle} {instants : List T}
    (hsamples : List.Forall₂ (Samples proc) cs instants) (hmark : Unmarked config proc s cs)
    {tracker : CpuTracker} (hview : s.tracker.view proc.pid = tracker.view proc.pid) :
    (cs.foldl (RunState.next config) s).tracker.isCompressed proc.pid =
      (scanAll (thresholdsOf config) proc tracker instants).isCompressed proc.pid := by
  induction hsamples generalizing s tracker with
  | nil => exact congrArg PidView.isCompressed hview
  | @cons c t cs instants hsample _ ih =>
    refine ih hmark.2 ?_
    rw [view_next config proc hsample hmark.1, view_scanAt, view_scanAt, hview]

/-- So `Cleared` is what such cycles do to the flag. -/
theorem cleared_iff_cycles {bars : Thresholds} (hbars : bars = thresholdsOf config)
    {s : RunState} {cs : List Cycle} {instants : List T} {tracker : CpuTracker} {start : T}
    (hstart : s.tracker.view proc.pid = (markedAt bars proc tracker start).view proc.pid)
    (hsamples : List.Forall₂ (Samples proc) cs instants) (hmark : Unmarked config proc s cs) :
    (cs.foldl (RunState.next config) s).tracker.isCompressed proc.pid = false ↔
      Cleared bars proc tracker start instants := by
  subst hbars
  rw [run_scanAll config proc hsamples hmark hstart]
  exact Iff.rfl

end Cycles

/-! ## Additional scans -/

section Refined

variable {T : Type} [LinearOrder T] (bars : Thresholds)

/-- With the bar at zero, every growth is a burst, and no split hides it. -/
theorem burst_of_zero (hzero : bars.wakeupDeltaNs = 0) (r : Refinement T) (proc : Process T)
    (h : SeesBurst bars proc (r.start :: r.coarse)) : SeesBurst bars proc (r.start :: r.fine) := by
  obtain ⟨a, b, hab, hburst⟩ := h
  unfold Burst at hburst
  rw [hzero, UInt64.toNat_zero] at hburst
  have hlt := lt_of_consecutive r.ordered_coarse hab
  have ha : a ∈ r.start :: r.fine := r.mem_fine (hab.subset List.mem_cons_self)
  have hb : b ∈ r.start :: r.fine :=
    r.mem_fine (hab.subset (List.mem_cons_of_mem a List.mem_cons_self))
  obtain ⟨x, y, hxy, hax, hyb, hgrow⟩ :=
    exists_step_of_mem (fun t => (proc.cpuNs t).toNat) r.ordered ha hb hlt (by omega)
  have hlow := proc.monotone a x hax
  have hhigh := proc.monotone y b hyb
  have htop := (proc.cpuNs b).toNat_lt
  refine ⟨x, y, hxy, ?_⟩
  unfold Burst
  rw [hzero, UInt64.toNat_zero]
  omega

/-- With the bar at the top, nothing is a burst. -/
theorem not_burst_of_high (hhigh : 2 ^ 64 - 2 ≤ bars.wakeupDeltaNs.toNat) (proc : Process T)
    (a b : T) : ¬ Burst bars proc a b := by
  have htop := (proc.cpuNs b).toNat_lt
  unfold Burst
  omega

section Split

variable (x b : T) (htop : bars.wakeupDeltaNs.toNat < 2 ^ 64 - 2)

include htop in
theorem toNat_bar_succ : (bars.wakeupDeltaNs + 1).toNat = bars.wakeupDeltaNs.toNat + 1 := by
  rw [UInt64.toNat_add, UInt64.toNat_one]
  omega

/-- Up to the bar by the instant `x`, and one more nanosecond at the instant `b`. -/
def splitProcess : Process T where
  pid := 1
  starttime := 0
  cpuNs := fun t =>
    if t < x then 0 else if t < b then bars.wakeupDeltaNs else bars.wakeupDeltaNs + 1
  monotone := by
    intro s t hst
    have hsucc := toNat_bar_succ bars htop
    by_cases htx : t < x
    · rw [if_pos (lt_of_le_of_lt hst htx), if_pos htx]
    · by_cases hsx : s < x
      · rw [if_pos hsx, UInt64.toNat_zero]
        exact Nat.zero_le _
      · by_cases htb : t < b
        · rw [if_neg hsx, if_neg htx, if_pos (lt_of_le_of_lt hst htb), if_pos htb]
        · rw [if_neg hsx, if_neg htx, if_neg htb, hsucc]
          split
          · omega
          · omega

variable {x b}

theorem splitProcess_before {t : T} (h : t < x) :
    ((splitProcess bars x b htop).cpuNs t).toNat = 0 := by
  simp [splitProcess, h]

theorem splitProcess_between {t : T} (hxt : x ≤ t) (htb : t < b) :
    ((splitProcess bars x b htop).cpuNs t).toNat = bars.wakeupDeltaNs.toNat := by
  simp [splitProcess, not_lt.mpr hxt, htb]

theorem splitProcess_after {t : T} (hxt : x ≤ t) (hbt : b ≤ t) :
    ((splitProcess bars x b htop).cpuNs t).toNat = bars.wakeupDeltaNs.toNat + 1 := by
  rw [← toNat_bar_succ bars htop]
  simp [splitProcess, not_lt.mpr hxt, not_lt.mpr hbt]

/-- From before `x` to `b` it is a burst. -/
theorem splitProcess_burst {a : T} (hax : a < x) (hxb : x < b) :
    Burst bars (splitProcess bars x b htop) a b := by
  unfold Burst
  rw [splitProcess_before bars htop hax, splitProcess_after bars htop (le_of_lt hxb) (le_refl b)]
  omega

/-- A schedule that has both `x` and `b` never sees one. -/
theorem splitProcess_hidden {l : List T} (hl : l.Pairwise (· < ·)) (hx : x ∈ l) (hb : b ∈ l)
    (hxb : x < b) (hpos : 0 < bars.wakeupDeltaNs.toNat) :
    ¬ SeesBurst bars (splitProcess bars x b htop) l := by
  intro ⟨u, v, huv, hburst, _⟩
  have hlt := lt_of_consecutive hl huv
  rcases lt_or_ge u x with hux | hxu
  · -- the scan after `u` comes no later than `x`, before the last nanosecond
    have hvx := le_of_consecutive hl huv hx hux
    have hle := (splitProcess bars x b htop).monotone v x hvx
    rw [splitProcess_between bars htop (le_refl x) hxb] at hle
    omega
  · rcases lt_or_ge u b with hub | hbu
    · -- from `x` on there is one nanosecond left
      have hvb := le_of_consecutive hl huv hb hub
      have hle := (splitProcess bars x b htop).monotone v b hvb
      rw [splitProcess_after bars htop (le_of_lt hxb) (le_refl b)] at hle
      rw [splitProcess_between bars htop hxu hub] at hburst
      omega
    · have hxv := le_trans hxu (le_of_lt hlt)
      have hbv := le_trans hbu (le_of_lt hlt)
      rw [splitProcess_after bars htop hxu hbu, splitProcess_after bars htop hxv hbv] at hburst
      omega

end Split

end Refined

/-- Additional scans hide no wakeup of a process exactly when the finer schedule sees a burst
of it if the coarser one does.  They hide none of any process exactly when there are none, or
when the wakeup bar is zero, or when it is so high that nothing is a wakeup.  And `Cleared` is
about `scan_cycle`: it is what happens to the flag in cycles that see the process at these
instants and do not mark it again. -/
theorem no_hidden_wakeup_iff {T : Type} [LinearOrder T] (bars : Thresholds) (r : Refinement T) :
    (∀ (proc : Process T) (tracker tracker' : CpuTracker),
      (Cleared bars proc tracker r.start r.coarse → Cleared bars proc tracker' r.start r.fine) ↔
        (SeesBurst bars proc (r.start :: r.coarse) → SeesBurst bars proc (r.start :: r.fine))) ∧
    ((∀ (proc : Process T) (tracker tracker' : CpuTracker),
      Cleared bars proc tracker r.start r.coarse → Cleared bars proc tracker' r.start r.fine) ↔
        r.coarse = r.fine ∨ bars.wakeupDeltaNs = 0 ∨
          2 ^ 64 - 2 ≤ bars.wakeupDeltaNs.toNat) ∧
    (∀ (config : Config) (proc : Process T) (s : RunState) (cs : List Cycle) (instants : List T)
      (tracker : CpuTracker), bars = thresholdsOf config →
      s.tracker.view proc.pid = (markedAt bars proc tracker r.start).view proc.pid →
      List.Forall₂ (Samples proc) cs instants → Unmarked config proc s cs →
        ((cs.foldl (RunState.next config) s).tracker.isCompressed proc.pid = false ↔
          Cleared bars proc tracker r.start instants)) := by
  refine ⟨?_, ?_, fun config proc s cs instants tracker hbars hstart hsamples hmark =>
    cleared_iff_cycles config proc hbars hstart hsamples hmark⟩
  · intro proc tracker tracker'
    rw [cleared_iff, cleared_iff]
  simp only [cleared_iff]
  constructor
  · intro hall
    by_contra hcond
    push Not at hcond
    obtain ⟨hne, hbar, htop⟩ := hcond
    have hpos : 0 < bars.wakeupDeltaNs.toNat :=
      Nat.pos_of_ne_zero (fun h => hbar (UInt64.toNat.inj h))
    obtain ⟨x, hx, a, b, hab, hax, hxb⟩ := r.exists_between hne
    have hb : b ∈ r.start :: r.fine :=
      r.mem_fine (hab.subset (List.mem_cons_of_mem a List.mem_cons_self))
    exact splitProcess_hidden bars htop r.ordered (List.mem_cons_of_mem _ hx) hb hxb hpos
      (hall (splitProcess bars x b htop) CpuTracker.new CpuTracker.new
        ⟨a, b, hab, splitProcess_burst bars htop hax hxb⟩)
  · rintro (hsame | hzero | hhigh) proc _ _ hburst
    · rwa [← hsame]
    · exact burst_of_zero bars hzero r proc hburst
    · obtain ⟨a, b, -, hab⟩ := hburst
      exact absurd hab (not_burst_of_high bars hhigh proc a b)

/-- 300 ms of CPU time by the instant 1, and 600 ms by the instant 2. -/
def busyProcess : Process Nat where
  pid := 1
  starttime := 0
  cpuNs := fun t => UInt64.ofNat (300000000 * min t 2)
  monotone := by
    intro a b hab
    have hsmall : ∀ t : Nat, 300000000 * min t 2 < 2 ^ 64 := fun t => by omega
    rw [UInt64.toNat_ofNat_of_lt' (hsmall a), UInt64.toNat_ofNat_of_lt' (hsmall b)]
    omega

/-- The timer scans at 0 and 2, and memory pressure adds a scan at 1. -/
def oneMore : Refinement Nat where
  start := 0
  coarse := [2]
  fine := [1, 2]
  ordered := by decide
  sublist := by decide
  sameEnd := rfl

/-- The scan of the process at an instant; a call would fail. -/
def busyCycle (t : Nat) : Cycle where
  targets := [{ pid := 1, profile := "firefox" }]
  env :=
    { snapshot := fun _ => some (0, busyProcess.cpuNs t)
      rssMib := fun _ => 100
      profileVeto := fun _ _ => none
      compressPid := fun _ _ => .error [] }
  nodup := List.nodup_singleton _

/-- The cycle at the instant 2 clears the flag. -/
theorem no_hidden_wakeup_iff_one_cycle :
    ([busyCycle 2].foldl (RunState.next {})
      { tracker := markedAt (thresholdsOf {}) busyProcess CpuTracker.new 0 }).tracker.isCompressed
        busyProcess.pid = false := by
  have hsamples : List.Forall₂ (Samples busyProcess) [busyCycle 2] [2] :=
    .cons ⟨_, rfl, rfl⟩ .nil
  refine ((no_hidden_wakeup_iff (thresholdsOf {}) oneMore).2.2 {} busyProcess _ _ _ CpuTracker.new
    rfl rfl hsamples ⟨?_, trivial⟩).mpr ?_
  · have hactive : (busyCycle 2).action? {} busyProcess.pid
        ((markedAt (thresholdsOf {}) busyProcess CpuTracker.new 0).view busyProcess.pid) =
        some .skipActive := by decide +kernel
    intro a ha
    cases hactive.symm.trans ha
    rfl
  · rw [cleared_iff]
    exact ⟨0, 2, List.infix_refl _, by decide, by decide⟩

/-- With the bar at its default of 500 ms.  The scans at 0 and 2 see a wakeup; with one more
at 1, neither does, and the process stays marked. -/
theorem split_burst_hidden :
    Cleared (thresholdsOf {}) busyProcess CpuTracker.new 0 [2] ∧
      ¬ Cleared (thresholdsOf {}) busyProcess CpuTracker.new 0 [1, 2] := by
  rw [cleared_iff, cleared_iff]
  constructor
  · exact ⟨0, 2, List.infix_refl _, by decide, by decide⟩
  · intro ⟨a, b, hab, hburst, _⟩
    simp [List.infix_cons_iff] at hab
    rcases hab with ⟨rfl, rfl⟩ | ⟨rfl, rfl⟩
    · revert hburst
      decide
    · revert hburst
      decide

end BsslRam.WakeupSampling
