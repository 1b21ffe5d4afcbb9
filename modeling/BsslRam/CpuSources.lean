import BsslRam.BpfRuntime
import BsslRam.ScanHistory

/-!
# The two sources of CPU time

`build_snapshot` takes the CPU time of a process from the maps of the BPF program if it is
loaded, and from `/proc/PID/stat` otherwise.  The maps hold nanoseconds since the program
began to count.  They count right as long as no thread of the process is switched in while
another one is on a CPU (`BpfRuntime`), also when the daemon deletes entries in between
(`runtime_eq_cpuTime`).  The file holds whole ticks since the process was born, for user and
for system time, and each of the two is cut off by itself.  The maps carry another number as
the identity of the process.

The tracker reads differences only.  What the maps leave out cancels.  The ticks do not:
with a use of `d` nanoseconds between two scans, the difference of the files is anything
from the ticks of `d` with both fractions lost to those with both gained (`ticks_bounds`).
So the two sources may put `d` on different sides of a bar when it is in a band around the
bar, and only then (`same_side_iff`).

`sources_agree` is the result for whole runs.  If the maps count right and no use falls into
the band of either bar, the daemon decides the same with both sources, target by target and
cycle by cycle.
-/

namespace BsslRam.CpuSources

open BsslRam.Lib BsslRam.Scanner BsslRam.State BsslRam.Compressor BsslRam.Signals
open BsslRam.ScanCycle BsslRam.ScanHistory BsslRam.BpfTracker BsslRam.BpfRuntime

/-! ## One process -/

/-- The nanoseconds of a tick. -/
def tick : Nat := 10000000

/-- What the kernel knows about a process: the field 22 of its stat file, the start time of
its task, its user and system time in nanoseconds, and what it had used of them when the BPF
program began to count for it. -/
structure Usage where
  starttime : UInt64
  taskStart : UInt64
  user : Nat
  system : Nat
  before : Nat
  loaded : before ≤ user + system
  fits : user + system < 2 ^ 63

namespace Usage

def total (u : Usage) : Nat := u.user + u.system

/-- The fields 14 and 15 of the stat file, which are whole ticks. -/
def utime (u : Usage) : UInt64 := UInt64.ofNat (u.user / tick)

def stime (u : Usage) : UInt64 := UInt64.ofNat (u.system / tick)

/-- `build_snapshot` on `/proc/PID/stat`. -/
def statReading (u : Usage) : UInt64 × UInt64 := (u.starttime, (u.utime + u.stime) * TICK_NS)

/-- What the maps of the BPF program are to show. -/
def mapReading (u : Usage) : UInt64 × UInt64 := (u.taskStart, UInt64.ofNat (u.total - u.before))

end Usage

/-- The same process, later. -/
structure Continues (u u' : Usage) : Prop where
  starttime : u.starttime = u'.starttime
  taskStart : u.taskStart = u'.taskStart
  before : u.before = u'.before
  user : u.user ≤ u'.user
  system : u.system ≤ u'.system

/-- What the process used in between. -/
def used (u u' : Usage) : Nat := u'.total - u.total

/-- The differences that the tracker forms. -/
def mapDelta (u u' : Usage) : UInt64 := saturatingSub u'.mapReading.2 u.mapReading.2

def statDelta (u u' : Usage) : UInt64 := saturatingSub u'.statReading.2 u.statReading.2

section Deltas

variable {u u' : Usage}

theorem toNat_mapReading (u : Usage) : u.mapReading.2.toNat = u.total - u.before := by
  have hfits := u.fits
  rw [Usage.mapReading, UInt64.toNat_ofNat_of_lt']
  simp only [Usage.total, UInt64.size]
  omega

theorem toNat_statReading (u : Usage) :
    u.statReading.2.toNat = (u.user / tick + u.system / tick) * tick := by
  have hfits := u.fits
  have htick : TICK_NS.toNat = tick := by decide
  have hutime : u.utime.toNat = u.user / tick := by
    rw [Usage.utime, UInt64.toNat_ofNat_of_lt']
    simp only [tick, UInt64.size]
    omega
  have hstime : u.stime.toNat = u.system / tick := by
    rw [Usage.stime, UInt64.toNat_ofNat_of_lt']
    simp only [tick, UInt64.size]
    omega
  rw [Usage.statReading, UInt64.toNat_mul, UInt64.toNat_add, hutime, hstime, htick]
  simp only [tick]
  omega

theorem toNat_mapDelta (h : Continues u u') : (mapDelta u u').toNat = used u u' := by
  have hbefore := h.before
  have hloaded := u.loaded
  rw [mapDelta, toNat_saturatingSub, toNat_mapReading, toNat_mapReading, used]
  simp only [Usage.total]
  omega

theorem toNat_statDelta (u u' : Usage) :
    (statDelta u u').toNat =
      (u'.user / tick + u'.system / tick - (u.user / tick + u.system / tick)) * tick := by
  rw [statDelta, toNat_saturatingSub, toNat_statReading, toNat_statReading, Nat.sub_mul]

/-- Neither difference is the sentinel of a first observation. -/
theorem delta_ne_max {d : UInt64} (hd : d.toNat < 2 ^ 63) : d ≠ u64Max := by
  intro heq
  have hmax : u64Max.toNat = 2 ^ 64 - 1 := by decide
  rw [heq, hmax] at hd
  omega

theorem mapDelta_ne_max (h : Continues u u') : mapDelta u u' ≠ u64Max := by
  apply delta_ne_max
  have hfits := u'.fits
  rw [toNat_mapDelta h, used]
  simp only [Usage.total]
  omega

theorem statDelta_ne_max : statDelta u u' ≠ u64Max := by
  apply delta_ne_max
  have hfits := u'.fits
  rw [toNat_statDelta]
  simp only [tick]
  omega

/-- The ticks in between: both fractions may be lost, or both gained. -/
theorem ticks_bounds (h : Continues u u') :
    used u u' + 2 ≤ (statDelta u u').toNat + 2 * tick ∧
      (statDelta u u').toNat + 2 ≤ used u u' + 2 * tick ∧
      (used u u' = 0 → (statDelta u u').toNat = 0) := by
  have huser := h.user
  have hsystem := h.system
  rw [toNat_statDelta, used]
  simp only [Usage.total, tick]
  refine ⟨by omega, by omega, ?_⟩
  intro hzero
  have hu : u'.user = u.user := by omega
  have hs : u'.system = u.system := by omega
  rw [hu, hs, Nat.sub_self, Nat.zero_mul]

end Deltas

/-! ## The band around a bar -/

/-- The use `d` is not in the band around the bar. -/
def Clear (bar d : Nat) : Prop := d = 0 ∨ d + tick ≤ bar + 1 ∨ bar + 2 * tick < d + 2

instance (bar d : Nat) : Decidable (Clear bar d) := inferInstanceAs (Decidable (_ ∨ _))

/-- Outside the band the two sources are on the same side of a bar of whole ticks. -/
theorem same_side {u u' : Usage} (h : Continues u u') {ticks : Nat}
    (hclear : Clear (ticks * tick) (used u u')) :
    (mapDelta u u').toNat ≤ ticks * tick ↔ (statDelta u u').toNat ≤ ticks * tick := by
  obtain ⟨hlost, hgained, hzero⟩ := ticks_bounds h
  rw [toNat_mapDelta h]
  have hwhole := toNat_statDelta u u'
  generalize u'.user / tick + u'.system / tick - (u.user / tick + u.system / tick) = n at hwhole
  rw [hwhole] at hlost hgained hzero ⊢
  simp only [Clear, tick] at hclear hlost hgained hzero ⊢
  rcases hclear with hnone | hbelow | habove
  · have hn := hzero hnone
    omega
  · omega
  · omega

/-! ## What the maps show -/

/-- What happens to the maps: the scheduler switches, or the daemon forgets a PID. -/
inductive Move (ι τ : Type) where
  | switch (e : Switch ι τ)
  | forget (p : UInt32)

section Maps

variable {ι τ : Type}

/-- `forget` deletes the entries of the process, and the program counts for it from zero.  So
do the notes. -/
def forgetProcess (task : τ → Task) (s : Sched ι τ) (p : UInt32) : Sched ι τ :=
  { s with
    maps := s.maps.forget p
    latestIn := Function.update s.latestIn p none
    intervals := s.intervals.filter (fun i => (task i.thread).tgid != p) }

variable [DecidableEq ι]

inductive MoveStep (task : τ → Task) : Sched ι τ → Move ι τ → Sched ι τ → Prop where
  | switch {s s' : Sched ι τ} {e : Switch ι τ} (hstep : s.Step task e s') :
      MoveStep task s (.switch e) s'
  | forget (s : Sched ι τ) (p : UInt32) : MoveStep task s (.forget p) (forgetProcess task s p)

/-- A thread of the process leaves its CPU only while its own switch-in is the latest of the
process, and the daemon forgets the process only while it is off CPU. -/
def Undisturbed (task : τ → Task) (p : UInt32) (s : Sched ι τ) : Move ι τ → Prop
  | .switch e => s.OwnStart task p e
  | .forget q => q = p → s.OffCpu task p

/-- The runs in which the program counts right for the process. -/
def counting (task : τ → Task) (p : UInt32) : Machine (Sched ι τ) :=
  Machine.labelled (Sched.Initial task p) (MoveStep task) (Undisturbed task p)

/-- The maps show a process: its CPU time is what it had used before the program began to
count and its stays on a CPU since then, none of which is still going on. -/
structure Counted (task : τ → Task) (s : Sched ι τ) (p : UInt32) (u : Usage) : Prop where
  pid : p ≠ 0
  reachable : (counting task p).Reachable s
  runtime : (s.maps.runtimeNs p).isSome = true
  birth : s.maps.starttimeNs p = some u.taskStart
  total : u.total = u.before + s.cpuTime task p

variable {task : τ → Task} {s : Sched ι τ}

omit [DecidableEq ι] in
theorem total_forgetProcess (f : Interval τ → Nat) (p q : UInt32) :
    Sched.total task f p (forgetProcess task s q).intervals =
      if q = p then 0 else Sched.total task f p s.intervals := by
  simp only [Sched.total, forgetProcess, List.filter_filter]
  split
  · rename_i hq
    rw [hq, List.filter_eq_nil_iff.mpr (fun i _ => by simp)]
    rfl
  · rename_i hq
    refine congrArg (fun intervals => (List.map f intervals).sum)
      (List.filter_congr (fun i _ => ?_))
    by_cases hi : (task i.thread).tgid = p
    · simp [hi, Ne.symm hq]
    · simp [hi]

omit [DecidableEq ι] in
theorem inv_forgetProcess {p q : UInt32} (h : s.Inv task p) (hoff : q = p → s.OffCpu task p) :
    (forgetProcess task s q).Inv task p := by
  have hlatest : (forgetProcess task s q).latestIn p = if q = p then none else s.latestIn p := by
    show Function.update _ _ _ _ = _
    rw [Function.update_apply]
    simp only [eq_comm]
  refine ⟨?_, fun latest hin => ?_, fun c hc => ?_, fun i hi => ?_, ?_⟩
  · rw [hlatest, ← h.start]
    exact CappedMap.lookup_delete s.maps.taskStart q p
  · rw [hlatest] at hin
    split at hin
    · cases hin
    · exact h.latest_le latest hin
  · rw [hlatest]
    split
    · rename_i hq
      exact absurd hc (hoff hq c)
    · exact h.running c hc
  · exact h.ordered i (List.mem_of_mem_filter hi)
  · rw [total_forgetProcess]
    show (((s.maps.forget q).runtimeNs p).getD 0).toNat = _
    rw [Maps.runtimeNs_forget]
    split
    · rfl
    · exact h.runtime

/-- `BpfRuntime` for runs in which the daemon deletes entries. -/
theorem runtime_eq_cpuTime {p : UInt32} (hp : p ≠ 0) (hs : (counting task p).Reachable s) :
    (s.runtime p).toNat = s.cpuTime task p % 2 ^ 64 := by
  have hexact : s.Inv task p ∧ Sched.total task Interval.lateness p s.intervals = 0 := by
    refine Machine.Reachable.invariant (m := counting task p)
      (fun s => s.Inv task p ∧ Sched.total task Interval.lateness p s.intervals = 0) ?_ ?_ hs
    · intro s hinit
      exact ⟨Sched.inv_initial task hinit, by rw [hinit.intervals]; rfl⟩
    · rintro s s' - ⟨hinv, hzero⟩ ⟨move, hok, hstep⟩
      cases hstep with
      | switch hstep =>
        refine ⟨Sched.inv_switch task hp hinv hstep, ?_⟩
        rw [hstep.eq, Sched.lateness_switch task hok]
        exact hzero
      | forget q =>
        refine ⟨inv_forgetProcess hinv hok, ?_⟩
        rw [total_forgetProcess, hzero, ite_self]
  rw [Sched.runtime_eq_iff_of_inv task hexact.1, hexact.2]
  exact Nat.dvd_zero _

theorem Counted.runtime_eq {p : UInt32} {u : Usage} (h : Counted task s p u) :
    s.runtime p = u.mapReading.2 := by
  have hfits := u.fits
  have htotal := h.total
  apply UInt64.toNat_inj.mp
  rw [runtime_eq_cpuTime h.pid h.reachable, toNat_mapReading]
  simp only [Usage.total] at htotal ⊢
  omega

theorem Counted.delta_eq {s' : Sched ι τ} {p : UInt32} {u u' : Usage} (h : Counted task s p u)
    (h' : Counted task s' p u') : saturatingSub (s'.runtime p) (s.runtime p) = mapDelta u u' := by
  rw [mapDelta, h.runtime_eq, h'.runtime_eq]

/-- What `build_snapshot` finds in the maps. -/
theorem Counted.snapshot_eq {p : UInt32} {u : Usage} (h : Counted task s p u) :
    (s.maps.buildSnapshot p).map (fun snap => (snap.starttime, snap.cpuNs)) =
      some u.mapReading := by
  obtain ⟨runtime, hruntime⟩ := Option.isSome_iff_exists.mp h.runtime
  have heq := h.runtime_eq
  rw [Sched.runtime, hruntime, Option.getD_some] at heq
  rw [Maps.buildSnapshot, hruntime, h.birth, heq]
  rfl

end Maps

/-! ## The band is exact -/

/-- Process 7 has one thread; the other task is the idle task of the only CPU. -/
def soloTask : Bool → Task
  | true => ⟨7, 100⟩
  | false => Task.idle

def soloStart : Sched Unit Bool where
  current _ := false
  since _ := none
  latestIn _ := none
  intervals := []
  now := 0
  maps := Maps.loaded

/-- The thread is on the CPU for `n` nanoseconds. -/
def solo (n : UInt64) : Sched Unit Bool :=
  (soloStart.switch soloTask ⟨(), 0, true⟩).switch soloTask ⟨(), n, false⟩

/-- And for another `d` nanoseconds. -/
def soloLater (n d : UInt64) : Sched Unit Bool :=
  ((solo n).switch soloTask ⟨(), n, true⟩).switch soloTask ⟨(), n + d, false⟩

theorem soloFirst_step :
    soloStart.Step soloTask ⟨(), 0, true⟩ (soloStart.switch soloTask ⟨(), 0, true⟩) :=
  ⟨UInt64.le_refl 0, fun _ hc => absurd rfl hc, by decide +kernel, rfl⟩

theorem solo_step (n : UInt64) :
    (soloStart.switch soloTask ⟨(), 0, true⟩).Step soloTask ⟨(), n, false⟩ (solo n) := by
  have hfits : (soloStart.switch soloTask ⟨(), 0, true⟩).maps.Fits (soloTask true)
      (soloTask false) := by decide +kernel
  exact ⟨UInt64.zero_le, fun _ hc => absurd rfl hc, hfits, rfl⟩

/-- The entries of process 7 after its first stay. -/
theorem solo_maps (n : UInt64) :
    (solo n).maps.taskRuntime.lookup 7 = some n ∧ (solo n).maps.taskStart.lookup 7 = some 0 ∧
      (solo n).maps.taskBirth.lookup 7 = some 100 := by
  obtain ⟨m, hm⟩ : ∃ m, m = (soloStart.switch soloTask ⟨(), 0, true⟩).maps := ⟨_, rfl⟩
  have hroom : m.taskRuntime.HasRoom 7 := by rw [hm]; decide +kernel
  have hruntime : m.taskRuntime.lookup 7 = none := by rw [hm]; decide +kernel
  have hstart : m.taskStart.lookup 7 = some 0 := by rw [hm]; decide +kernel
  have hbirth : m.taskBirth.lookup 7 = some 100 := by rw [hm]; decide +kernel
  have hmaps : (solo n).maps = m.handleSchedSwitch n (soloTask true) (soloTask false) := by
    rw [hm]
    rfl
  rw [hmaps]
  refine ⟨?_, ?_, ?_⟩
  · rw [Maps.handleSchedSwitch_taskRuntime, if_pos ⟨rfl, by decide, hroom⟩, hstart, hruntime]
    simp
  · rw [Maps.handleSchedSwitch_taskStart, if_neg (fun h => absurd h.1 (by decide)), hstart]
  · rw [Maps.handleSchedSwitch_taskBirth, if_neg (fun h => absurd h.1 (by decide)), hbirth]

theorem solo_reachable (n : UInt64) : (counting soloTask 7).Reachable (solo n) := by
  have hidle : (soloTask false).tgid ≠ 7 := by decide
  have hstart : (counting soloTask 7).Reachable soloStart :=
    .start ⟨rfl, rfl, rfl, rfl, fun _ => hidle⟩
  have hin := hstart.tail ⟨.switch ⟨(), 0, true⟩, fun h => absurd h hidle, .switch soloFirst_step⟩
  exact hin.tail ⟨.switch ⟨(), n, false⟩, fun _ => rfl, .switch (solo_step n)⟩

theorem solo_cpuTime (n : UInt64) : (solo n).cpuTime soloTask 7 = n.toNat := by
  have hintervals : (solo n).intervals = [⟨true, 0, n, 0⟩] := rfl
  simp [Sched.cpuTime, hintervals, Sched.total, soloTask, BpfRuntime.Interval.length]

/-- The second stay. -/
theorem soloLater_steps {n d : UInt64} (hd : n ≤ n + d) :
    (solo n).Step soloTask ⟨(), n, true⟩ ((solo n).switch soloTask ⟨(), n, true⟩) ∧
      ((solo n).switch soloTask ⟨(), n, true⟩).Step soloTask ⟨(), n + d, false⟩
        (soloLater n d) := by
  obtain ⟨hruntime, hstart, hbirth⟩ := solo_maps n
  have hidle : ¬ (soloTask false).tgid ≠ 0 := by decide
  refine ⟨⟨UInt64.le_refl n, fun _ hc => absurd rfl hc, ⟨fun h => absurd h hidle, fun _ => ?_,
    fun _ => ?_⟩, rfl⟩, ⟨hd, fun _ hc => absurd rfl hc, ⟨fun _ _ => ?_, fun h => absurd h hidle,
    fun h => absurd h hidle⟩, rfl⟩⟩
  · exact Or.inl (Option.isSome_of_eq_some hstart)
  · exact Or.inl (Option.isSome_of_eq_some hbirth)
  · left
    show ((Maps.handleSchedSwitch (solo n).maps n (soloTask false)
      (soloTask true)).taskRuntime.lookup 7).isSome = true
    rw [Maps.handleSchedSwitch_taskRuntime, if_neg (fun h => absurd h.1 (by decide)), hruntime]
    rfl

theorem soloLater_reachable {n d : UInt64} (hd : n ≤ n + d) :
    (counting soloTask 7).Reachable (soloLater n d) := by
  have hidle : (soloTask false).tgid ≠ 7 := by decide
  obtain ⟨hin, hout⟩ := soloLater_steps hd
  have hon := (solo_reachable n).tail
    ⟨.switch ⟨(), n, true⟩, fun h => absurd h hidle, .switch hin⟩
  exact hon.tail ⟨.switch ⟨(), n + d, false⟩, fun _ => rfl, .switch hout⟩

theorem soloLater_maps (n d : UInt64) :
    ((soloLater n d).maps.taskRuntime.lookup 7).isSome = true ∧
      (soloLater n d).maps.taskBirth.lookup 7 = some 100 := by
  obtain ⟨hruntime, -, hbirth⟩ := solo_maps n
  have hmaps : (soloLater n d).maps = ((solo n).maps.handleSchedSwitch n (soloTask false)
    (soloTask true)).handleSchedSwitch (n + d) (soloTask true) (soloTask false) := rfl
  have hkept : ((solo n).maps.handleSchedSwitch n (soloTask false)
      (soloTask true)).taskRuntime.lookup 7 = some n := by
    rw [Maps.handleSchedSwitch_taskRuntime, if_neg (fun h => absurd h.1 (by decide)), hruntime]
  rw [hmaps]
  refine ⟨?_, ?_⟩
  · rw [Maps.handleSchedSwitch_taskRuntime, hkept]
    split
    · split <;> rfl
    · rfl
  · rw [Maps.handleSchedSwitch_taskBirth, if_neg (fun h => absurd h.1 (by decide)),
      Maps.handleSchedSwitch_taskBirth, hbirth]
    split <;> rfl

theorem soloLater_cpuTime {n d : UInt64} (hd : n ≤ n + d) :
    (soloLater n d).cpuTime soloTask 7 = (n + d).toNat := by
  have hintervals : (soloLater n d).intervals =
      [⟨true, n, n + d, n⟩, ⟨false, n, n, n⟩, ⟨true, 0, n, 0⟩] := rfl
  rw [UInt64.le_iff_toNat_le] at hd
  have hsum : (soloLater n d).cpuTime soloTask 7 = (n + d).toNat - n.toNat + n.toNat := by
    simp [Sched.cpuTime, hintervals, Sched.total, soloTask, Task.idle, BpfRuntime.Interval.length]
  rw [hsum, Nat.sub_add_cancel hd]

/-- A process that was born with the BPF program. -/
def newborn (user system : Nat) (fits : user + system < 2 ^ 63) : Usage where
  starttime := 0
  taskStart := 100
  user := user
  system := system
  before := 0
  loaded := Nat.zero_le _
  fits := fits

theorem counted_solo {n user system : Nat} (fits : user + system < 2 ^ 63)
    (htotal : user + system = n) :
    Counted soloTask (solo (UInt64.ofNat n)) 7 (newborn user system fits) where
  pid := by decide
  reachable := solo_reachable _
  runtime := Option.isSome_of_eq_some (solo_maps _).1
  birth := (solo_maps _).2.2
  total := by
    subst htotal
    rw [solo_cpuTime, UInt64.toNat_ofNat_of_lt' (Nat.lt_trans fits (by decide))]
    exact (Nat.zero_add _).symm

theorem counted_soloLater {n d user system : Nat} (fits : user + system < 2 ^ 63)
    (htotal : user + system = n + d) :
    Counted soloTask (soloLater (UInt64.ofNat n) (UInt64.ofNat d)) 7
      (newborn user system fits) := by
  have hsum : (UInt64.ofNat n + UInt64.ofNat d).toNat = user + system := by
    rw [UInt64.toNat_add, UInt64.toNat_ofNat', UInt64.toNat_ofNat']
    omega
  have hd : UInt64.ofNat n ≤ UInt64.ofNat n + UInt64.ofNat d := by
    rw [UInt64.le_iff_toNat_le, hsum, UInt64.toNat_ofNat']
    omega
  refine ⟨by decide, soloLater_reachable hd, (soloLater_maps _ _).1, (soloLater_maps _ _).2, ?_⟩
  rw [soloLater_cpuTime hd, hsum]
  exact (Nat.zero_add _).symm

/-- Some switches later. -/
def Later {ι τ : Type} [DecidableEq ι] (task : τ → Task) : Sched ι τ → Sched ι τ → Prop :=
  Relation.ReflTransGen (fun s s' => ∃ e, s.Step task e s')

/-- Process 7 can have any two usages at two scans, and the maps then show the difference to the
nanosecond. -/
theorem sides_solo {user system user' system' d : Nat} (fits : user + system < 2 ^ 63)
    (fits' : user' + system' < 2 ^ 63) (huser : user ≤ user') (hsystem : system ≤ system')
    (htotal : user' + system' = user + system + d) :
    ∃ s s' : Sched Unit Bool, Counted soloTask s 7 (newborn user system fits) ∧
      Counted soloTask s' 7 (newborn user' system' fits') ∧ Later soloTask s s' ∧
      Continues (newborn user system fits) (newborn user' system' fits') ∧
      used (newborn user system fits) (newborn user' system' fits') = d ∧
      (saturatingSub (s'.runtime 7) (s.runtime 7)).toNat = d := by
  have hd : UInt64.ofNat (user + system) ≤ UInt64.ofNat (user + system) + UInt64.ofNat d := by
    rw [UInt64.le_iff_toNat_le, UInt64.toNat_add, UInt64.toNat_ofNat', UInt64.toNat_ofNat']
    omega
  obtain ⟨hin, hout⟩ := soloLater_steps hd
  have hs := counted_solo fits rfl
  have hs' := counted_soloLater fits' htotal
  have hcont : Continues (newborn user system fits) (newborn user' system' fits') :=
    ⟨rfl, rfl, rfl, huser, hsystem⟩
  have hused : used (newborn user system fits) (newborn user' system' fits') = d := by
    simp only [used, Usage.total, newborn]
    omega
  refine ⟨_, _, hs, hs', .tail (.single ⟨_, hin⟩) ⟨_, hout⟩, hcont, hused, ?_⟩
  rw [hs.delta_eq hs', toNat_mapDelta hcont, hused]

/-- Outside the band the sources are on the same side of the bar, and inside it there are two
scans between which they are not. -/
theorem same_side_iff {ticks d : Nat} (hd : d + 2 * tick < 2 ^ 63) :
    (∀ (s s' : Sched Unit Bool) (u u' : Usage), Counted soloTask s 7 u →
      Counted soloTask s' 7 u' → Later soloTask s s' → Continues u u' → used u u' = d →
        ((saturatingSub (s'.runtime 7) (s.runtime 7)).toNat ≤ ticks * tick ↔
          (statDelta u u').toNat ≤ ticks * tick)) ↔
    Clear (ticks * tick) d := by
  constructor
  · intro h
    by_contra hband
    simp only [Clear, not_or, tick] at hband hd
    obtain ⟨hpos, hlow, hhigh⟩ := hband
    rcases Nat.lt_or_ge (ticks * tick) d with habove | hbelow
    · -- both fractions are lost: start at whole ticks and stop short of one
      simp only [tick] at habove
      obtain ⟨s, s', hs, hs', hlater, hcont, hused, hmap⟩ := sides_solo (d := d)
        (by decide : 0 + 0 < 2 ^ 63)
        (by simp only [tick]; omega : min d (tick - 1) + (d - min d (tick - 1)) < 2 ^ 63)
        (Nat.zero_le _) (Nat.zero_le _) (by omega)
      have hsides := h s s' _ _ hs hs' hlater hcont hused
      rw [hmap, toNat_statDelta] at hsides
      simp only [newborn, tick] at hsides
      omega
    · -- both fractions are gained: start one nanosecond short of a tick
      simp only [tick] at hbelow
      obtain ⟨s, s', hs, hs', hlater, hcont, hused, hmap⟩ := sides_solo (d := d)
        (by decide : tick - 1 + (tick - 1) < 2 ^ 63)
        (by simp only [tick]; omega : tick + (tick + d - 2) < 2 ^ 63)
        (Nat.sub_le _ _) (by omega) (by simp only [tick]; omega)
      have hsides := h s s' _ _ hs hs' hlater hcont hused
      rw [hmap, toNat_statDelta] at hsides
      simp only [newborn, tick] at hsides
      omega
  · intro hclear s s' u u' hs hs' _ hcont hused
    rw [hs.delta_eq hs']
    rw [← hused] at hclear
    exact same_side hcont hclear

/-! ## Two runs -/

/-- A cycle, up to the source of the CPU times.  `sched` is the scheduler with the maps at the
time of the scan, and `usage` is what the stat files are made of. -/
structure SharedCycle (ι τ : Type) where
  targets : List TargetProcess
  nodup : (targets.map TargetProcess.pid).Nodup
  sched : Sched ι τ
  usage : UInt32 → Option Usage
  rssMib : UInt32 → UInt64
  profileVeto : UInt32 → String → Option ProfileVeto
  compressPid : UInt32 → Bool → Except Error CompressOutcome

namespace SharedCycle

variable {ι τ : Type}

/-- The cycle with one of the sources. -/
def reading (c : SharedCycle ι τ) (snapshot : UInt32 → Option (UInt64 × UInt64)) : Cycle where
  targets := c.targets
  env :=
    { snapshot
      rssMib := c.rssMib
      profileVeto := c.profileVeto
      compressPid := c.compressPid }
  nodup := c.nodup

/-- `build_snapshot` reads the maps. -/
def mapCycle (c : SharedCycle ι τ) : Cycle :=
  c.reading (fun p =>
    (c.sched.maps.buildSnapshot p).map (fun snap => (snap.starttime, snap.cpuNs)))

/-- `build_snapshot` reads the stat files. -/
def statCycle (c : SharedCycle ι τ) : Cycle :=
  c.reading (fun p => (c.usage p).map Usage.statReading)

/-- What there is to see of a PID if it is a target. -/
def seen (c : SharedCycle ι τ) (p : UInt32) : Option Usage :=
  (c.targets.find? (fun tab => tab.pid == p)).bind (fun _ => c.usage p)

/-- Both sources know the same targets, and the maps count right for them. -/
structure Known [DecidableEq ι] (task : τ → Task) (c : SharedCycle ι τ) : Prop where
  gone : ∀ tab ∈ c.targets, c.usage tab.pid = none → c.sched.maps.buildSnapshot tab.pid = none
  counted : ∀ tab ∈ c.targets, ∀ u, c.usage tab.pid = some u → Counted task c.sched tab.pid u

theorem Known.snapshot_eq [DecidableEq ι] {task : τ → Task} {c : SharedCycle ι τ}
    (h : Known task c) {tab : TargetProcess} (hmem : tab ∈ c.targets) :
    c.mapCycle.env.snapshot tab.pid = (c.usage tab.pid).map Usage.mapReading := by
  show (c.sched.maps.buildSnapshot tab.pid).map _ = _
  cases husage : c.usage tab.pid with
  | none =>
    rw [h.gone tab hmem husage]
    rfl
  | some u => exact (h.counted tab hmem u husage).snapshot_eq

end SharedCycle

section Runs

variable {ι τ : Type}

def mapRun (cycles : List (SharedCycle ι τ)) : List Cycle := cycles.map SharedCycle.mapCycle

def statRun (cycles : List (SharedCycle ι τ)) : List Cycle := cycles.map SharedCycle.statCycle

/-- Both sources tell processes apart alike, and what one process used between two scans
is in the band of neither bar. -/
structure Follows (config : Config) (u u' : Usage) : Prop where
  identity : u.taskStart = u'.taskStart ↔ u.starttime = u'.starttime
  continues : u.starttime = u'.starttime → Continues u u'
  idle : u.starttime = u'.starttime → Clear config.cpuDeltaNs.toNat (used u u')
  wakeup : u.starttime = u'.starttime → Clear config.wakeupDeltaNs.toNat (used u u')

/-- Every PID that two cycles in a row see goes on like that. -/
def Steady (config : Config) (cycles : List (SharedCycle ι τ)) : Prop :=
  cycles.IsChain (fun c c' => ∀ p u u', c.seen p = some u → c'.seen p = some u' →
    Follows config u u')

end Runs

/-- The bars are whole ticks; the product does not wrap. -/
structure WholeTicks (config : Config) : Prop where
  idle : config.cpuDeltaThreshold.toNat * tick < 2 ^ 64
  wakeup : config.wakeupDeltaThreshold.toNat * tick < 2 ^ 64

/-! ## One PID in both runs -/

def snapshot (source : Usage → UInt64 × UInt64) (p : UInt32) (u : Usage) : ProcSnapshot where
  pid := p
  starttime := (source u).1
  cpuNs := (source u).2

/-- The entries of one PID in the two trackers.  Only the snapshots differ, and they come
from one usage. -/
structure Twins (p : UInt32) (last : Option Usage) (v v' : PidView) : Prop where
  map : v.snapshot = last.map (snapshot Usage.mapReading p)
  stat : v'.snapshot = last.map (snapshot Usage.statReading p)
  idle : v.idle = v'.idle
  compressed : v.compressed = v'.compressed

theorem twins_empty (p : UInt32) : Twins p none PidView.empty PidView.empty := ⟨rfl, rfl, rfl, rfl⟩

section Twins

variable {ι τ : Type} {config : Config} {p : UInt32} {u u' : Usage} {v v' : PidView}

theorem le_bar_iff {ticks : UInt64} (hwhole : ticks.toNat * tick < 2 ^ 64) (h : Continues u u')
    (hclear : Clear (ticks * TICK_NS).toNat (used u u')) :
    mapDelta u u' ≤ ticks * TICK_NS ↔ statDelta u u' ≤ ticks * TICK_NS := by
  have hbar : (ticks * TICK_NS).toNat = ticks.toNat * tick := by
    rw [UInt64.toNat_mul, show TICK_NS.toNat = tick from rfl, Nat.mod_eq_of_lt hwhole]
  rw [hbar] at hclear
  rw [UInt64.le_iff_toNat_le, UInt64.le_iff_toNat_le, hbar]
  exact same_side h hclear

/-- Both trackers make the same of the next usage. -/
def AgreeOn (config : Config) (p : UInt32) (u' : Usage) (v v' : PidView) : Prop :=
  let r := v.update (snapshot Usage.mapReading p u') config.cpuDeltaNs config.wakeupDeltaNs
  let r' := v'.update (snapshot Usage.statReading p u') config.cpuDeltaNs config.wakeupDeltaNs
  r.1 = r'.1 ∧ Twins p (some u') r.2 r'.2

/-- `update` with the same verdicts.  `w` and `w'` are the entries behind the reuse guard. -/
theorem agreeOn_of_verdicts (w w' : PidView)
    (hguard : v.guardReuse (snapshot Usage.mapReading p u') = w)
    (hguard' : v'.guardReuse (snapshot Usage.statReading p u') = w')
    (hidle : w.idle = w'.idle) (hflag : w.compressed = w'.compressed)
    (hverdict : w.delta (snapshot Usage.mapReading p u') ≤ config.cpuDeltaNs ↔
      w'.delta (snapshot Usage.statReading p u') ≤ config.cpuDeltaNs)
    (hwoke : (config.wakeupDeltaNs < w.delta (snapshot Usage.mapReading p u') ∧
        w.delta (snapshot Usage.mapReading p u') ≠ u64Max) ↔
      (config.wakeupDeltaNs < w'.delta (snapshot Usage.statReading p u') ∧
        w'.delta (snapshot Usage.statReading p u') ≠ u64Max)) :
    AgreeOn config p u' v v' := by
  have hdecide : decide (w.delta (snapshot Usage.mapReading p u') ≤ config.cpuDeltaNs) =
      decide (w'.delta (snapshot Usage.statReading p u') ≤ config.cpuDeltaNs) :=
    decide_eq_decide.mpr hverdict
  have hbool : (decide (config.wakeupDeltaNs < w.delta (snapshot Usage.mapReading p u')) &&
        w.delta (snapshot Usage.mapReading p u') != u64Max) =
      (decide (config.wakeupDeltaNs < w'.delta (snapshot Usage.statReading p u')) &&
        w'.delta (snapshot Usage.statReading p u') != u64Max) := by
    rw [Bool.eq_iff_iff]
    simpa using hwoke
  refine ⟨?_, rfl, rfl, ?_, ?_⟩
  · simp only [PidView.update, hguard, hguard', hdecide]
  · simp only [PidView.update, hguard, hguard', hdecide, hidle]
  · simp only [PidView.update, hguard, hguard', hbool, hflag]

/-- Without an earlier snapshot both differences are the largest number, whatever the source. -/
theorem agreeOn_of_new (w w' : PidView)
    (hguard : v.guardReuse (snapshot Usage.mapReading p u') = w)
    (hguard' : v'.guardReuse (snapshot Usage.statReading p u') = w')
    (hnew : w.snapshot = none) (hnew' : w'.snapshot = none)
    (hidle : w.idle = w'.idle) (hflag : w.compressed = w'.compressed) :
    AgreeOn config p u' v v' := by
  have hdelta : w.delta (snapshot Usage.mapReading p u') = u64Max := by
    simp only [PidView.delta, hnew]
  have hdelta' : w'.delta (snapshot Usage.statReading p u') = u64Max := by
    simp only [PidView.delta, hnew']
  refine agreeOn_of_verdicts w w' hguard hguard' hidle hflag ?_ ?_
  · rw [hdelta, hdelta']
  · rw [hdelta, hdelta']

/-- The entries of a process that goes on: what is left is on which sides of the two bars its
use lies. -/
theorem Twins.agreeOn_continues (hwhole : WholeTicks config) (h : Twins p (some u) v v')
    (hfollows : Follows config u u') (hsame : u.starttime = u'.starttime) :
    AgreeOn config p u' v v' := by
  have hmap : v.snapshot = some (snapshot Usage.mapReading p u) := h.map
  have hstat : v'.snapshot = some (snapshot Usage.statReading p u) := h.stat
  have hcont := hfollows.continues hsame
  have hdelta : v.delta (snapshot Usage.mapReading p u') = mapDelta u u' := by
    simp only [PidView.delta, hmap]
    rfl
  have hdelta' : v'.delta (snapshot Usage.statReading p u') = statDelta u u' := by
    simp only [PidView.delta, hstat]
    rfl
  refine agreeOn_of_verdicts v v' ?_ ?_ h.idle h.compressed ?_ ?_
  · simp only [PidView.guardReuse, hmap]
    exact if_neg (not_not.mpr hcont.taskStart)
  · simp only [PidView.guardReuse, hstat]
    exact if_neg (not_not.mpr hsame)
  · rw [hdelta, hdelta']
    exact le_bar_iff hwhole.idle hcont (hfollows.idle hsame)
  · rw [hdelta, hdelta', and_iff_left (mapDelta_ne_max hcont), and_iff_left statDelta_ne_max,
      ← UInt64.not_le, ← UInt64.not_le]
    exact not_congr (le_bar_iff hwhole.wakeup hcont (hfollows.wakeup hsame))

/-- Both trackers get the new snapshot and make the same of it. -/
theorem Twins.update (hwhole : WholeTicks config) {last : Option Usage}
    (h : Twins p last v v') (hfollows : ∀ u, last = some u → Follows config u u') :
    AgreeOn config p u' v v' := by
  cases last with
  | none =>
    have hmap : v.snapshot = none := h.map
    have hstat : v'.snapshot = none := h.stat
    refine agreeOn_of_new v v' ?_ ?_ hmap hstat h.idle h.compressed
    · simp only [PidView.guardReuse, hmap]
    · simp only [PidView.guardReuse, hstat]
  | some u =>
    have hfollows := hfollows u rfl
    by_cases hsame : u.starttime = u'.starttime
    · exact h.agreeOn_continues hwhole hfollows hsame
    · -- another process: both trackers start again
      have hmap : v.snapshot = some (snapshot Usage.mapReading p u) := h.map
      have hstat : v'.snapshot = some (snapshot Usage.statReading p u) := h.stat
      refine agreeOn_of_new PidView.empty PidView.empty ?_ ?_ rfl rfl rfl rfl
      · simp only [PidView.guardReuse, hmap]
        exact if_pos (fun heq => hsame (hfollows.identity.mp heq))
      · simp only [PidView.guardReuse, hstat]
        exact if_pos hsame

theorem Twins.markCompressed {last : Option Usage} (h : Twins p last v v') :
    Twins p last v.markCompressed v'.markCompressed := ⟨h.map, h.stat, h.idle, rfl⟩

/-- What the loop body does with the result of `update`.  The checks behind it do not read
the CPU times. -/
def finish (config : Config) (c : SharedCycle ι τ) (tab : TargetProcess) (r : Bool × PidView) :
    Action × PidView :=
  let action := judge config c.statCycle.env tab r.1 r.2.idleCycles r.2.isCompressed
  (action, if action.isSuccess then r.2.markCompressed else r.2)

theorem scan_of_usage (config : Config) (c : SharedCycle ι τ) {tab : TargetProcess}
    {snapshots : UInt32 → Option (UInt64 × UInt64)} {source : Usage → UInt64 × UInt64}
    (hsnapshot : (c.reading snapshots).env.snapshot tab.pid = some (source u')) (v : PidView) :
    PidView.scan config (c.reading snapshots).env tab v =
      finish config c tab
        (v.update (snapshot source tab.pid u') config.cpuDeltaNs config.wakeupDeltaNs) := by
  unfold PidView.scan
  rw [hsnapshot]
  rfl

/-- The loop body of `scan_cycle`. -/
theorem Twins.scan (hwhole : WholeTicks config) (c : SharedCycle ι τ) (tab : TargetProcess)
    (hmap : c.mapCycle.env.snapshot tab.pid = (c.usage tab.pid).map Usage.mapReading)
    {last : Option Usage} (h : Twins tab.pid last v v')
    (hfollows : ∀ u u', last = some u → c.usage tab.pid = some u' → Follows config u u') :
    (PidView.scan config c.mapCycle.env tab v).1 =
        (PidView.scan config c.statCycle.env tab v').1 ∧
      Twins tab.pid (c.usage tab.pid) (PidView.scan config c.mapCycle.env tab v).2
        (PidView.scan config c.statCycle.env tab v').2 := by
  have hstat : c.statCycle.env.snapshot tab.pid = (c.usage tab.pid).map Usage.statReading := rfl
  cases husage : c.usage tab.pid with
  | none =>
    rw [husage] at hmap hstat
    have hnone : ∀ (env : CycleEnv) v, env.snapshot tab.pid = none →
        PidView.scan config env tab v = (.skipExited, PidView.empty) := by
      intro env v henv
      simp only [PidView.scan, henv]
    rw [hnone _ v hmap, hnone _ v' hstat]
    exact ⟨rfl, twins_empty tab.pid⟩
  | some u' =>
    rw [husage] at hmap hstat
    obtain ⟨hverdict, htwins⟩ := h.update hwhole (fun u hu => hfollows u u' hu husage)
    rw [SharedCycle.mapCycle] at hmap ⊢
    rw [SharedCycle.statCycle] at hstat ⊢
    rw [scan_of_usage config c hmap, scan_of_usage config c hstat]
    generalize v.update (snapshot Usage.mapReading tab.pid u') _ _ = r at hverdict htwins ⊢
    generalize v'.update (snapshot Usage.statReading tab.pid u') _ _ = r' at hverdict htwins ⊢
    have hcycles : r.2.idleCycles = r'.2.idleCycles := congrArg (Option.getD · 0) htwins.idle
    have hflag : r.2.isCompressed = r'.2.isCompressed :=
      congrArg (Option.getD · false) htwins.compressed
    simp only [finish, hverdict, hcycles, hflag, true_and]
    split
    · exact htwins.markCompressed
    · exact htwins

end Twins

/-! ## Whole runs -/

/-- What the last of the cycles saw of a PID. -/
def lastSeen {ι τ : Type} (cycles : List (SharedCycle ι τ)) (p : UInt32) : Option Usage :=
  cycles.getLast?.bind (fun c => c.seen p)

section Runs

variable {ι τ : Type} {config : Config} {c : SharedCycle ι τ}

/-- One cycle keeps the trackers in step. -/
theorem twins_cycle [DecidableEq ι] {task : τ → Task} (hwhole : WholeTicks config)
    (hknown : c.Known task) {t t' : CpuTracker} (stats stats' : Stats)
    {last : UInt32 → Option Usage} (h : ∀ p, Twins p (last p) (t.view p) (t'.view p))
    (hfollows : ∀ p u u', last p = some u → c.seen p = some u' → Follows config u u') :
    (scanCycle config t stats c.mapCycle).log =
        (scanCycle config t' stats' c.statCycle).log ∧
      ∀ p, Twins p (c.seen p)
        ((scanCycle config t stats c.mapCycle).tracker.view p)
        ((scanCycle config t' stats' c.statCycle).tracker.view p) := by
  have hmap : ∀ p, c.mapCycle.target? p = c.targets.find? (fun tab => tab.pid == p) :=
    fun _ => rfl
  have hstat : ∀ p, c.statCycle.target? p = c.targets.find? (fun tab => tab.pid == p) :=
    fun _ => rfl
  have hstep : ∀ p tab, c.targets.find? (fun tab => tab.pid == p) = some tab →
      ∀ u u', last p = some u → c.usage p = some u' → Follows config u u' := by
    intro p tab htab u u' hu hu'
    refine hfollows p u u' hu ?_
    rw [SharedCycle.seen, htab]
    exact hu'
  constructor
  · rw [scanCycle_log, scanCycle_log]
    refine List.map_congr_left (fun tab hmem => ?_)
    have htab := Cycle.target?_of_mem (c := c.mapCycle) hmem
    rw [((h tab.pid).scan hwhole c tab (hknown.snapshot_eq hmem) (hstep tab.pid tab htab)).1]
  · intro p
    rw [scanCycle_view, scanCycle_view, Cycle.stepView, Cycle.stepView, hmap, hstat,
      SharedCycle.seen]
    cases hfind : c.targets.find? (fun tab => tab.pid == p) with
    | none => exact twins_empty p
    | some tab =>
      obtain ⟨hmem, rfl⟩ := Cycle.target?_pid (c := c.mapCycle) hfind
      exact ((h tab.pid).scan hwhole c tab (hknown.snapshot_eq hmem) (hstep tab.pid tab hfind)).2

theorem log_stats_eq {t t' : CpuTracker} {stats : Stats}
    (hlog : (scanCycle config t stats c.mapCycle).log =
      (scanCycle config t' stats c.statCycle).log) :
    (scanCycle config t stats c.mapCycle).stats =
      (scanCycle config t' stats c.statCycle).stats := by
  change List.foldl _ _ (scanCycle config t stats c.mapCycle).log =
    List.foldl _ _ (scanCycle config t' stats c.statCycle).log
  rw [hlog]
  rfl

theorem steady_append {cycles : List (SharedCycle ι τ)} (h : Steady config (cycles ++ [c])) :
    Steady config cycles ∧ ∀ p u u', lastSeen cycles p = some u → c.seen p = some u' →
      Follows config u u' := by
  obtain ⟨hbefore, -, hlast⟩ := List.isChain_append.mp h
  refine ⟨hbefore, fun p u u' hu hu' => ?_⟩
  obtain ⟨prev, hprev, hseen⟩ := Option.bind_eq_some_iff.mp hu
  exact hlast prev hprev c rfl p u u' hseen hu'

variable [DecidableEq ι] {task : τ → Task}

/-- The two runs after any number of cycles. -/
theorem twins_run (hwhole : WholeTicks config) (cycles : List (SharedCycle ι τ))
    (hknown : ∀ c ∈ cycles, c.Known task) (hsteady : Steady config cycles) :
    (runCycles config (mapRun cycles)).stats = (runCycles config (statRun cycles)).stats ∧
      ∀ p, Twins p (lastSeen cycles p) ((runCycles config (mapRun cycles)).tracker.view p)
        ((runCycles config (statRun cycles)).tracker.view p) := by
  induction cycles using List.reverseRecOn with
  | nil =>
    refine ⟨rfl, fun p => ?_⟩
    show Twins p none (CpuTracker.new.view p) (CpuTracker.new.view p)
    rw [CpuTracker.view_new]
    exact twins_empty p
  | append_singleton cycles c ih =>
    obtain ⟨hbefore, hlast⟩ := steady_append hsteady
    obtain ⟨hearlier, hnow⟩ := List.forall_mem_append.mp hknown
    obtain ⟨hstats, htwins⟩ := ih hearlier hbefore
    obtain ⟨hlog, hnext⟩ := twins_cycle hwhole (hnow c (List.mem_singleton.mpr rfl))
      (runCycles config (mapRun cycles)).stats (runCycles config (statRun cycles)).stats htwins
      hlast
    have hmap : runCycles config (mapRun (cycles ++ [c])) =
        (runCycles config (mapRun cycles)).next config c.mapCycle := by
      rw [mapRun, List.map_append, runCycles, List.foldl_append]
      rfl
    have hstat : runCycles config (statRun (cycles ++ [c])) =
        (runCycles config (statRun cycles)).next config c.statCycle := by
      rw [statRun, List.map_append, runCycles, List.foldl_append]
      rfl
    rw [hmap, hstat]
    refine ⟨?_, fun p => ?_⟩
    · change (scanCycle config _ (runCycles config (mapRun cycles)).stats _).stats =
        (scanCycle config _ (runCycles config (statRun cycles)).stats _).stats
      rw [hstats] at hlog ⊢
      exact log_stats_eq hlog
    · rw [lastSeen, List.getLast?_concat]
      exact hnext p

theorem log_eq (hwhole : WholeTicks config) {cycles : List (SharedCycle ι τ)}
    (hknown : ∀ c ∈ cycles, c.Known task) (hsteady : Steady config cycles) (n : Nat) :
    (cycleResult? config (mapRun cycles) n).map CycleResult.log =
      (cycleResult? config (statRun cycles) n).map CycleResult.log := by
  unfold cycleResult? mapRun statRun
  rw [List.getElem?_map, List.getElem?_map, ← List.map_take, ← List.map_take]
  cases hc : cycles[n]? with
  | none => rfl
  | some c =>
    have htake : cycles.take (n + 1) = cycles.take n ++ [c] := by
      rw [List.take_add_one, hc]
      rfl
    have hsteady' : Steady config (cycles.take n ++ [c]) := htake ▸ hsteady.take (n + 1)
    obtain ⟨hbefore, hlast⟩ := steady_append hsteady'
    obtain ⟨-, htwins⟩ := twins_run hwhole (cycles.take n)
      (fun c hc => hknown c (List.mem_of_mem_take hc)) hbefore
    have hnow := hknown c (List.mem_of_getElem? hc)
    exact congrArg some (twins_cycle hwhole hnow _ _ htwins hlast).1

end Runs

/-- Take any run of scan cycles in which the maps count right for the targets (`Counted`) and
no process uses, between two scans, an amount of CPU time in the band around the idle bar or
the wakeup bar.  Then `scan_cycle` decides the same with the maps of the BPF program and with
the stat files: the actions of every cycle, the counters, the idle cycles and the flags.  The
band cannot be made smaller: for every use inside it there are two scans of a process with
one thread, between which the maps are on one side of the bar and the files on the other. -/
theorem sources_agree {ι τ : Type} [DecidableEq ι] (task : τ → Task) (config : Config)
    (hwhole : WholeTicks config) (cycles : List (SharedCycle ι τ))
    (hknown : ∀ c ∈ cycles, c.Known task) (hsteady : Steady config cycles) :
    (∀ n, (cycleResult? config (mapRun cycles) n).map CycleResult.log =
      (cycleResult? config (statRun cycles) n).map CycleResult.log) ∧
    (runCycles config (mapRun cycles)).stats = (runCycles config (statRun cycles)).stats ∧
    (∀ p, (runCycles config (mapRun cycles)).tracker.idleCycles p =
        (runCycles config (statRun cycles)).tracker.idleCycles p ∧
      (runCycles config (mapRun cycles)).tracker.isCompressed p =
        (runCycles config (statRun cycles)).tracker.isCompressed p) ∧
    ∀ ticks d, d + 2 * tick < 2 ^ 63 →
      ((∀ (s s' : Sched Unit Bool) (u u' : Usage), Counted soloTask s 7 u →
          Counted soloTask s' 7 u' → Later soloTask s s' → Continues u u' → used u u' = d →
            ((saturatingSub (s'.runtime 7) (s.runtime 7)).toNat ≤ ticks * tick ↔
              (statDelta u u').toNat ≤ ticks * tick)) ↔
        Clear (ticks * tick) d) := by
  obtain ⟨hstats, htwins⟩ := twins_run hwhole cycles hknown hsteady
  refine ⟨log_eq hwhole hknown hsteady, hstats, fun p => ⟨?_, ?_⟩,
    fun ticks d hd => same_side_iff hd⟩
  · exact congrArg (Option.getD · 0) (htwins p).idle
  · exact congrArg (Option.getD · false) (htwins p).compressed

def soloTab : TargetProcess := { pid := 7, profile := "firefox" }

/-- A tab with one thread, which has used so many nanoseconds of user time. -/
def tabCycle (sched : Sched Unit Bool) (user : Nat) (fits : user + 0 < 2 ^ 63) :
    SharedCycle Unit Bool where
  targets := [soloTab]
  nodup := List.nodup_singleton soloTab.pid
  sched
  usage := fun _ => some (newborn user 0 fits)
  rssMib := fun _ => 100
  profileVeto := fun _ _ => none
  compressPid := fun _ _ => .error []

/-- A steady run: half a tick, which the stat file shows as a whole one. -/
def halfTick : List (SharedCycle Unit Bool) :=
  [tabCycle (solo (.ofNat 7000000)) 7000000 (by decide),
    tabCycle (soloLater (.ofNat 7000000) (.ofNat 5000000)) 12000000 (by decide)]

theorem tabCycle_known {sched : Sched Unit Bool} {user : Nat} {fits : user + 0 < 2 ^ 63}
    (h : Counted soloTask sched 7 (newborn user 0 fits)) :
    (tabCycle sched user fits).Known soloTask := by
  refine ⟨fun _ _ hgone => (by cases hgone), fun tab hmem u husage => ?_⟩
  obtain rfl := List.mem_singleton.mp hmem
  cases husage
  exact h

theorem halfTick_known : ∀ c ∈ halfTick, c.Known soloTask := by
  refine List.forall_mem_cons.mpr ⟨tabCycle_known (counted_solo _ rfl), ?_⟩
  exact List.forall_mem_singleton.mpr (tabCycle_known (counted_soloLater _ rfl))

theorem halfTick_steady : Steady {} halfTick := by
  refine List.IsChain.cons_cons ?_ (.singleton _)
  intro p u u' hu hu'
  obtain ⟨-, -, hu⟩ := Option.bind_eq_some_iff.mp hu
  obtain ⟨-, -, hu'⟩ := Option.bind_eq_some_iff.mp hu'
  cases hu
  cases hu'
  exact ⟨iff_of_true rfl rfl, fun _ => ⟨rfl, rfl, rfl, by decide, by decide⟩, fun _ => by decide,
    fun _ => by decide⟩

theorem sources_agree_half_tick :
    WholeTicks {} ∧ (∀ c ∈ halfTick, c.Known soloTask) ∧ Steady {} halfTick ∧
      (runCycles {} (mapRun halfTick)).tracker.idleCycles 7 =
        (runCycles {} (statRun halfTick)).tracker.idleCycles 7 := by
  have hwhole : WholeTicks {} := ⟨by decide, by decide⟩
  exact ⟨hwhole, halfTick_known, halfTick_steady,
    ((sources_agree soloTask {} hwhole halfTick halfTick_known halfTick_steady).2.2.1 7).1⟩

end BsslRam.CpuSources
