import BsslRam.BpfTracker

/-!
# The runtime of a process with several threads

`task_runtime` is meant to hold the CPU time of a process, as the sum over its
threads.  `task_start` has one slot for the whole thread group, and every
switch-in of any of its threads overwrites it.  A switch-out then accounts the
time since the latest switch-in of the group, not the time since the thread's
own.

Here the scheduler runs any number of threads on any number of CPUs.  The
intervals that threads spend on a CPU are recorded beside the maps, each with
the latest switch-in of its group before its end.  `Inv.runtime` is the sum
that the program computes, and `runtime_eq_cpuTime_iff` compares it with the
CPU time.  The two differ by the time between each switch-in and the latest one
of the group.  They agree when no thread of the process is switched in while
another one is on a CPU.
-/

namespace BsslRam.BpfRuntime

open BsslRam.Lib BsslRam.BpfTracker

/-- A completed stay of a thread on a CPU. -/
structure Interval (τ : Type) where
  thread : τ
  start : UInt64
  stop : UInt64
  /-- The latest switch-in of a thread of the same group before `stop`. -/
  latest : UInt64

/-- The time on the CPU. -/
def Interval.length {τ : Type} (i : Interval τ) : Nat := i.stop.toNat - i.start.toNat

/-- How much later than its own switch-in the latest one of its group was. -/
def Interval.lateness {τ : Type} (i : Interval τ) : Nat := i.latest.toNat - i.start.toNat

/-- What the program accounts for it. -/
def Interval.accounted {τ : Type} (i : Interval τ) : Nat := i.stop.toNat - i.latest.toNat

/-- CPUs, threads and the maps of the program. -/
structure Sched (ι τ : Type) where
  current : ι → τ
  /-- When the current thread was switched in; nothing if it was on the CPU
  before the program was loaded. -/
  since : ι → Option UInt64
  /-- The latest switch-in of a thread of each group. -/
  latestIn : UInt32 → Option UInt64
  intervals : List (Interval τ)
  now : UInt64
  maps : Maps

/-- One `sched_switch` event. -/
structure Switch (ι τ : Type) where
  cpu : ι
  now : UInt64
  next : τ

namespace Sched

variable {ι τ : Type} [DecidableEq ι] (task : τ → Task)

/-- The thread that an event takes off its CPU. -/
def prev (s : Sched ι τ) (e : Switch ι τ) : τ := s.current e.cpu

/-- The thread of `e.cpu` gives way to `e.next`, and the program runs. -/
def switch (s : Sched ι τ) (e : Switch ι τ) : Sched ι τ where
  current := Function.update s.current e.cpu e.next
  since := Function.update s.since e.cpu (some e.now)
  latestIn := Function.update s.latestIn (task e.next).tgid (some e.now)
  intervals :=
    match s.since e.cpu with
    | some start =>
        { thread := s.prev e
          start
          stop := e.now
          latest := (s.latestIn (task (s.prev e)).tgid).getD start } :: s.intervals
    | none => s.intervals
  now := e.now
  maps := s.maps.handleSchedSwitch e.now (task (s.prev e)) (task e.next)

/-- Time does not go back, a thread is on one CPU at a time, and no map is full. -/
structure Step (s : Sched ι τ) (e : Switch ι τ) (s' : Sched ι τ) : Prop where
  later : s.now ≤ e.now
  offCpu : ∀ c, c ≠ e.cpu → s.current c ≠ e.next
  fits : s.maps.Fits (task (s.prev e)) (task e.next)
  eq : s' = s.switch task e

/-- All threads of the group are off CPU. -/
def OffCpu (tgid : UInt32) (s : Sched ι τ) : Prop :=
  ∀ c, (task (s.current c)).tgid ≠ tgid

/-- The program has just been loaded, with all threads of the group off CPU. -/
structure Initial (tgid : UInt32) (s : Sched ι τ) : Prop where
  maps : s.maps = Maps.loaded
  since : s.since = fun _ => none
  latestIn : s.latestIn = fun _ => none
  intervals : s.intervals = []
  offCpu : s.OffCpu task tgid

/-- The scheduler, restricted to events with property `ok`. -/
def machine (tgid : UInt32) (ok : Sched ι τ → Switch ι τ → Prop) : Machine (Sched ι τ) :=
  Machine.labelled (Initial task tgid) (Step task) ok

/-- A sum over the intervals of the threads of a group. -/
def total (f : Interval τ → Nat) (tgid : UInt32) (intervals : List (Interval τ)) : Nat :=
  ((intervals.filter (fun i => (task i.thread).tgid == tgid)).map f).sum

/-- The CPU time of a process since the program was loaded. -/
def cpuTime (tgid : UInt32) (s : Sched ι τ) : Nat :=
  total task Interval.length tgid s.intervals

/-- `task_runtime[tgid]`, which is `0` as long as there is no entry. -/
def runtime (tgid : UInt32) (s : Sched ι τ) : UInt64 := (s.maps.runtimeNs tgid).getD 0

/-- A thread of the group leaves its CPU only while its own switch-in is the
latest of the group. -/
def OwnStart (tgid : UInt32) (s : Sched ι τ) (e : Switch ι τ) : Prop :=
  (task (s.prev e)).tgid = tgid → s.latestIn tgid = s.since e.cpu

/-! ## What the program computes -/

omit [DecidableEq ι] in
theorem total_cons (f : Interval τ → Nat) (tgid : UInt32) (i : Interval τ)
    (intervals : List (Interval τ)) :
    total task f tgid (i :: intervals) =
      (if (task i.thread).tgid = tgid then f i else 0) + total task f tgid intervals := by
  by_cases hi : (task i.thread).tgid = tgid
  · simp [total, hi]
  · simp [total, hi]

/-- The invariant for one thread group. -/
structure Inv (tgid : UInt32) (s : Sched ι τ) : Prop where
  start : s.maps.taskStart.lookup tgid = s.latestIn tgid
  latest_le : ∀ latest, s.latestIn tgid = some latest → latest ≤ s.now
  running : ∀ c, (task (s.current c)).tgid = tgid →
    ∃ start latest, s.since c = some start ∧ s.latestIn tgid = some latest ∧ start ≤ latest
  ordered : ∀ i ∈ s.intervals, (task i.thread).tgid = tgid →
    i.start ≤ i.latest ∧ i.latest ≤ i.stop
  runtime : (s.runtime tgid).toNat = total task Interval.accounted tgid s.intervals % 2 ^ 64

omit [DecidableEq ι] in
theorem inv_initial {tgid : UInt32} {s : Sched ι τ} (h : Initial task tgid s) :
    Inv task tgid s := by
  refine ⟨?_, ?_, ?_, ?_, ?_⟩
  · rw [h.maps, h.latestIn]
    exact CappedMap.lookup_empty tgid
  · intro latest hlatest
    rw [h.latestIn] at hlatest
    cases hlatest
  · intro c hc
    exact absurd hc (h.offCpu c)
  · intro i hi
    rw [h.intervals] at hi
    cases hi
  · rw [h.intervals, Sched.runtime, h.maps, Maps.runtimeNs, Maps.loaded, CappedMap.lookup_empty]
    rfl

section Step

variable {tgid : UInt32} {s : Sched ι τ} {e : Switch ι τ}

theorem switch_latestIn :
    (s.switch task e).latestIn tgid =
      if (task e.next).tgid = tgid then some e.now else s.latestIn tgid := by
  show Function.update _ _ _ _ = _
  rw [Function.update_apply]
  simp only [eq_comm]

theorem switch_intervals_of_some {start : UInt64} (hsince : s.since e.cpu = some start) :
    (s.switch task e).intervals =
      { thread := s.prev e
        start
        stop := e.now
        latest := (s.latestIn (task (s.prev e)).tgid).getD start } :: s.intervals := by
  simp [switch, hsince]

theorem switch_intervals_of_none (hsince : s.since e.cpu = none) :
    (s.switch task e).intervals = s.intervals := by
  simp [switch, hsince]

theorem switch_taskStart (htgid : tgid ≠ 0) (h : Inv task tgid s)
    (hfits : s.maps.Fits (task (s.prev e)) (task e.next)) :
    (s.switch task e).maps.taskStart.lookup tgid = (s.switch task e).latestIn tgid := by
  rw [switch_latestIn]
  show (s.maps.handleSchedSwitch _ _ _).taskStart.lookup tgid = _
  rw [Maps.handleSchedSwitch_taskStart]
  by_cases hnext : (task e.next).tgid = tgid
  · have hroom := hfits.start (hnext ▸ htgid)
    rw [hnext] at hroom
    rw [if_pos ⟨hnext, htgid, hroom⟩, if_pos hnext]
  · rw [if_neg (fun hand => hnext hand.1), if_neg hnext, h.start]

/-- A thread of another group leaves: nothing is accounted to this one. -/
theorem inv_runtime_other (hprev : (task (s.prev e)).tgid ≠ tgid) (h : Inv task tgid s) :
    ((s.switch task e).runtime tgid).toNat =
      total task Interval.accounted tgid (s.switch task e).intervals % 2 ^ 64 := by
  have hsame : (s.switch task e).runtime tgid = s.runtime tgid := by
    unfold Sched.runtime Maps.runtimeNs
    show ((s.maps.handleSchedSwitch _ _ _).taskRuntime.lookup tgid).getD 0 = _
    rw [Maps.handleSchedSwitch_taskRuntime, if_neg (fun hand => hprev hand.1)]
  have htotal : total task Interval.accounted tgid (s.switch task e).intervals =
      total task Interval.accounted tgid s.intervals := by
    cases hsince : s.since e.cpu with
    | none => rw [switch_intervals_of_none task hsince]
    | some start =>
      rw [switch_intervals_of_some task hsince, total_cons, if_neg hprev, Nat.zero_add]
  rw [hsame, htotal, h.runtime]

/-- A thread of the group leaves: the time since the latest switch-in is added. -/
theorem inv_runtime_self (htgid : tgid ≠ 0) (hprev : (task (s.prev e)).tgid = tgid)
    (h : Inv task tgid s) (hlater : s.now ≤ e.now)
    (hfits : s.maps.Fits (task (s.prev e)) (task e.next)) :
    ((s.switch task e).runtime tgid).toNat =
      total task Interval.accounted tgid (s.switch task e).intervals % 2 ^ 64 := by
  obtain ⟨start, latest, hsince, hlatest, _⟩ := h.running e.cpu hprev
  have hle : latest ≤ e.now := UInt64.le_trans (h.latest_le latest hlatest) hlater
  have hstarted : (s.maps.taskStart.lookup (task (s.prev e)).tgid).isSome = true := by
    rw [hprev, h.start, hlatest]
    rfl
  have hroom := hfits.runtime (hprev ▸ htgid) hstarted
  rw [hprev] at hroom
  have hnew : (s.switch task e).runtime tgid = s.runtime tgid + (e.now - latest) := by
    unfold Sched.runtime Maps.runtimeNs
    show ((s.maps.handleSchedSwitch _ _ _).taskRuntime.lookup tgid).getD 0 = _
    rw [Maps.handleSchedSwitch_taskRuntime, if_pos ⟨hprev, htgid, hroom⟩, h.start, hlatest]
    rfl
  have htotal : total task Interval.accounted tgid (s.switch task e).intervals =
      (e.now.toNat - latest.toNat) + total task Interval.accounted tgid s.intervals := by
    rw [switch_intervals_of_some task hsince, total_cons, if_pos hprev, hprev, hlatest]
    rfl
  rw [hnew, htotal, UInt64.toNat_add, UInt64.toNat_sub_of_le _ _ hle, h.runtime]
  omega

/-- Every thread that runs was switched in no later than the latest one. -/
theorem inv_running (h : Inv task tgid s) (hlater : s.now ≤ e.now) {c : ι}
    (hc : (task ((s.switch task e).current c)).tgid = tgid) :
    ∃ start latest, (s.switch task e).since c = some start ∧
      (s.switch task e).latestIn tgid = some latest ∧ start ≤ latest := by
  rw [switch_latestIn]
  by_cases hcpu : c = e.cpu
  · -- the thread that was just switched in
    subst hcpu
    have hnext : (task e.next).tgid = tgid := by
      simpa [switch] using hc
    refine ⟨e.now, e.now, ?_, if_pos hnext, UInt64.le_refl _⟩
    exact Function.update_self _ _ _
  · have hcurrent : (s.switch task e).current c = s.current c :=
      Function.update_of_ne hcpu _ _
    rw [hcurrent] at hc
    obtain ⟨start, latest, hsince, hlatest, hle⟩ := h.running c hc
    have hsince' : (s.switch task e).since c = some start := by
      rw [← hsince]
      exact Function.update_of_ne hcpu _ _
    by_cases hnext : (task e.next).tgid = tgid
    · have hle' := UInt64.le_trans (h.latest_le latest hlatest) hlater
      exact ⟨start, e.now, hsince', if_pos hnext, UInt64.le_trans hle hle'⟩
    · exact ⟨start, latest, hsince', by rw [if_neg hnext, hlatest], hle⟩

/-- The latest switch-in lies within every completed interval. -/
theorem inv_ordered (h : Inv task tgid s) (hlater : s.now ≤ e.now) {i : Interval τ}
    (hi : i ∈ (s.switch task e).intervals) (htask : (task i.thread).tgid = tgid) :
    i.start ≤ i.latest ∧ i.latest ≤ i.stop := by
  cases hsince : s.since e.cpu with
  | none =>
    rw [switch_intervals_of_none task hsince] at hi
    exact h.ordered i hi htask
  | some start =>
    rw [switch_intervals_of_some task hsince] at hi
    rcases List.mem_cons.mp hi with heq | hi
    · -- the interval that ends here
      subst heq
      change (task (s.prev e)).tgid = tgid at htask
      obtain ⟨start', latest, hsince', hlatest, hle⟩ := h.running e.cpu htask
      rw [hsince'] at hsince
      cases hsince
      show start ≤ (s.latestIn (task (s.prev e)).tgid).getD start ∧
        (s.latestIn (task (s.prev e)).tgid).getD start ≤ e.now
      rw [htask, hlatest]
      exact ⟨hle, UInt64.le_trans (h.latest_le latest hlatest) hlater⟩
    · exact h.ordered i hi htask

theorem inv_switch (htgid : tgid ≠ 0) (h : Inv task tgid s) {s' : Sched ι τ}
    (hstep : Step task s e s') : Inv task tgid s' := by
  obtain ⟨hlater, _, hfits, rfl⟩ := hstep
  refine ⟨switch_taskStart task htgid h hfits, ?_, fun c hc => inv_running task h hlater hc,
    fun i hi htask => inv_ordered task h hlater hi htask, ?_⟩
  · intro latest hlatest
    show latest ≤ e.now
    rw [switch_latestIn] at hlatest
    split at hlatest
    · cases hlatest
      exact UInt64.le_refl _
    · exact UInt64.le_trans (h.latest_le latest hlatest) hlater
  · by_cases hprev : (task (s.prev e)).tgid = tgid
    · exact inv_runtime_self task htgid hprev h hlater hfits
    · exact inv_runtime_other task hprev h

end Step

theorem inv_reachable {tgid : UInt32} (htgid : tgid ≠ 0) {ok : Sched ι τ → Switch ι τ → Prop}
    {s : Sched ι τ} (hs : (machine task tgid ok).Reachable s) : Inv task tgid s := by
  refine Machine.Reachable.invariant (Inv task tgid) (fun s h => inv_initial task h) ?_ hs
  intro s s' _ hinv hstep
  obtain ⟨e, _, hstep⟩ := hstep
  exact inv_switch task htgid hinv hstep

/-! ## Against the CPU time -/

omit [DecidableEq ι] in
/-- The length of an interval is what is accounted and what is not. -/
theorem total_length {tgid : UInt32} {intervals : List (Interval τ)}
    (hordered : ∀ i ∈ intervals, (task i.thread).tgid = tgid →
      i.start ≤ i.latest ∧ i.latest ≤ i.stop) :
    total task Interval.length tgid intervals =
      total task Interval.accounted tgid intervals +
        total task Interval.lateness tgid intervals := by
  induction intervals with
  | nil => rfl
  | cons i rest ih =>
    rw [total_cons, total_cons, total_cons,
      ih (fun j hj => hordered j (List.mem_cons_of_mem i hj))]
    split
    · rename_i hi
      obtain ⟨hlatest, hstop⟩ := hordered i List.mem_cons_self hi
      rw [UInt64.le_iff_toNat_le] at hlatest hstop
      unfold Interval.length Interval.accounted Interval.lateness
      omega
    · omega

omit [DecidableEq ι] in
theorem runtime_eq_iff_of_inv {tgid : UInt32} {s : Sched ι τ} (h : Inv task tgid s) :
    (s.runtime tgid).toNat = s.cpuTime task tgid % 2 ^ 64 ↔
      2 ^ 64 ∣ total task Interval.lateness tgid s.intervals := by
  rw [h.runtime, cpuTime, total_length task h.ordered]
  omega

/-- An interval that ends with its own switch-in is not late. -/
theorem lateness_switch {tgid : UInt32} {s : Sched ι τ} {e : Switch ι τ}
    (hown : OwnStart task tgid s e) :
    total task Interval.lateness tgid (s.switch task e).intervals =
      total task Interval.lateness tgid s.intervals := by
  cases hsince : s.since e.cpu with
  | none => rw [switch_intervals_of_none task hsince]
  | some start =>
    rw [switch_intervals_of_some task hsince, total_cons]
    split
    · rename_i hprev
      change (task (s.prev e)).tgid = tgid at hprev
      have hlatest : s.latestIn tgid = some start := by rw [hown hprev, hsince]
      unfold Interval.lateness
      simp only [hprev, hlatest, Option.getD_some]
      omega
    · exact Nat.zero_add _

/-- Without an overtaking switch-in no interval is late. -/
theorem lateness_eq_zero {tgid : UInt32} {s : Sched ι τ}
    (hs : (machine task tgid (OwnStart task tgid)).Reachable s) :
    total task Interval.lateness tgid s.intervals = 0 := by
  refine Machine.Reachable.invariant
    (fun s => total task Interval.lateness tgid s.intervals = 0) ?_ ?_ hs
  · intro s h
    rw [h.intervals]
    rfl
  · intro s s' _ hzero hstep
    obtain ⟨e, hown, hstep⟩ := hstep
    rw [hstep.eq, lateness_switch task hown]
    exact hzero

/-- In every run in which a thread of the process leaves its CPU only while its
own switch-in is the latest of the process, the runtime in the map is the CPU
time of the process modulo `2 ^ 64`.  In any run it is exactly when `2 ^ 64`
divides the sum of the delays between the switch-ins and the latest ones. -/
theorem runtime_eq_cpuTime_iff (tgid : UInt32) (htgid : tgid ≠ 0) :
    (∀ s : Sched ι τ, (machine task tgid (OwnStart task tgid)).Reachable s →
        s.OffCpu task tgid → (s.runtime tgid).toNat = s.cpuTime task tgid % 2 ^ 64) ∧
      ∀ s : Sched ι τ, (machine task tgid (fun _ _ => True)).Reachable s →
        s.OffCpu task tgid →
          ((s.runtime tgid).toNat = s.cpuTime task tgid % 2 ^ 64 ↔
            2 ^ 64 ∣ total task Interval.lateness tgid s.intervals) := by
  constructor
  · intro s hs _
    rw [runtime_eq_iff_of_inv task (inv_reachable task htgid hs), lateness_eq_zero task hs]
    exact Nat.dvd_zero _
  · intro s hs _
    exact runtime_eq_iff_of_inv task (inv_reachable task htgid hs)

/-! ### Two threads of one process

Threads 2 and 3 belong to process 7; 0 and 1 are the idle tasks of two CPUs. -/

def pairTask : Fin 4 → Task
  | 0 | 1 => Task.idle
  | 2 | 3 => ⟨7, 100⟩

/-- Both CPUs idle. -/
def pairStart : Sched (Fin 2) (Fin 4) where
  current c := if c = 0 then 0 else 1
  since _ := none
  latestIn _ := none
  intervals := []
  now := 0
  maps := Maps.loaded

theorem pairStart_initial : Initial pairTask 7 pairStart := by
  refine ⟨rfl, rfl, rfl, rfl, ?_⟩
  unfold OffCpu
  decide

/-- Thread 2 on CPU 0 from 0 to 20. -/
def pairSolo : Sched (Fin 2) (Fin 4) :=
  (pairStart.switch pairTask ⟨0, 0, 2⟩).switch pairTask ⟨0, 20, 0⟩

theorem pairSolo_reachable :
    (machine pairTask 7 (OwnStart pairTask 7)).Reachable pairSolo := by
  have hstart : (machine pairTask 7 (OwnStart pairTask 7)).Reachable pairStart :=
    .start pairStart_initial
  have hin := hstart.tail ⟨⟨0, 0, 2⟩, by unfold OwnStart; decide +kernel, by decide +kernel,
    by decide +kernel, by decide +kernel, rfl⟩
  exact hin.tail ⟨⟨0, 20, 0⟩, by unfold OwnStart; decide +kernel, by decide +kernel,
    by decide +kernel, by decide +kernel, rfl⟩

/-- One thread at a time: the map has the 20 ns that thread 2 was on the CPU. -/
theorem runtime_eq_cpuTime_iff_one_thread :
    ((7 : UInt32) ≠ 0 ∧ (machine pairTask 7 (OwnStart pairTask 7)).Reachable pairSolo) ∧
      (pairSolo.runtime 7).toNat = pairSolo.cpuTime pairTask 7 % 2 ^ 64 ∧
      pairSolo.cpuTime pairTask 7 = 20 := by
  have hoff : pairSolo.OffCpu pairTask 7 := by
    unfold OffCpu
    decide
  exact ⟨⟨by decide, pairSolo_reachable⟩,
    (runtime_eq_cpuTime_iff pairTask 7 (by decide)).1 pairSolo pairSolo_reachable hoff,
    by decide +kernel⟩

/-- Thread 2 on CPU 0 from 0 to 20, and thread 3 on CPU 1 from 10 to 30. -/
def pairOverlap : Sched (Fin 2) (Fin 4) :=
  (((pairStart.switch pairTask ⟨0, 0, 2⟩).switch pairTask ⟨1, 10, 3⟩).switch pairTask
    ⟨0, 20, 0⟩).switch pairTask ⟨1, 30, 1⟩

theorem pairOverlap_reachable :
    (machine pairTask 7 (fun _ _ => True)).Reachable pairOverlap := by
  have hstart : (machine pairTask 7 (fun _ _ => True)).Reachable pairStart :=
    .start pairStart_initial
  have hin := hstart.tail ⟨⟨0, 0, 2⟩, trivial, by decide +kernel, by decide +kernel,
    by decide +kernel, rfl⟩
  have hboth := hin.tail ⟨⟨1, 10, 3⟩, trivial, by decide +kernel, by decide +kernel,
    by decide +kernel, rfl⟩
  have hout := hboth.tail ⟨⟨0, 20, 0⟩, trivial, by decide +kernel, by decide +kernel,
    by decide +kernel, rfl⟩
  exact hout.tail ⟨⟨1, 30, 1⟩, trivial, by decide +kernel, by decide +kernel,
    by decide +kernel, rfl⟩

/-- Each thread was on a CPU for 20 ns, and the map has 30 ns. -/
theorem overlapping_threads_lose_runtime :
    (machine pairTask 7 (fun _ _ => True)).Reachable pairOverlap ∧
      pairOverlap.OffCpu pairTask 7 ∧ pairOverlap.cpuTime pairTask 7 = 40 ∧
      pairOverlap.runtime 7 = 30 := by
  refine ⟨pairOverlap_reachable, ?_, by decide +kernel, by decide +kernel⟩
  unfold OffCpu
  decide

end Sched

end BsslRam.BpfRuntime
