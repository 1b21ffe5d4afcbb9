import BsslRam.BpfTracker

/-!
# The maps of the eBPF tracker when they fill up

The program makes entries for every thread group that the scheduler runs, and
the daemon deletes them only for a target whose lookup has failed.  The maps
hold `maxEntries` keys each.  From the first time a map is full, a process that
is new to it leaves no trace there, and the daemon takes it for exited.

`SwitchedIn` and `SwitchedInOut` say of a PID that a thread of its process got
the CPU, and that one gave it up after that, with no `forget` of the PID since.
The main result is `served_iff_room`.  As long as every insertion finds room,
each such process has its entries; and one time slice of a process leaves its
entries exactly when it finds room in all three maps.
-/

namespace BsslRam.BpfCapacity

open BsslRam.Lib BsslRam.Scanner BsslRam.State BsslRam.ScanCycle BsslRam.PageOut
open BsslRam.BpfTracker

/-- A thread of the process under `p` was switched in, and the PID was not
forgotten since. -/
def SwitchedIn (p : UInt32) : List Occurrence → Prop
  | [] => False
  | .switched _ next :: older => next.tgid = p ∨ SwitchedIn p older
  | .spawned q _ :: older => q ≠ p ∧ SwitchedIn p older
  | .forgotten q :: older => q ≠ p ∧ SwitchedIn p older
  | .exited _ :: older => SwitchedIn p older
  | .snapshot _ :: older => SwitchedIn p older

/-- A thread of the process under `p` was switched in and then out, and the PID
was not forgotten since. -/
def SwitchedInOut (p : UInt32) : List Occurrence → Prop
  | [] => False
  | .switched prev _ :: older => (prev.tgid = p ∧ SwitchedIn p older) ∨ SwitchedInOut p older
  | .spawned q _ :: older => q ≠ p ∧ SwitchedInOut p older
  | .forgotten q :: older => q ≠ p ∧ SwitchedInOut p older
  | .exited _ :: older => SwitchedInOut p older
  | .snapshot _ :: older => SwitchedInOut p older

/-- Every live process that was switched in and out has its entries, so that its
snapshot succeeds.  PID 0 is the idle task and no process. -/
def Served (s : Sys) : Prop :=
  ∀ p, p ≠ 0 → (s.kernel.procs p).isSome = true → SwitchedInOut p s.history →
    (s.maps.runtimeNs p).isSome = true ∧ (s.maps.starttimeNs p).isSome = true ∧
      (s.maps.buildSnapshot p).isSome = true

/-- No map is full when the program has a new key for it. -/
def FindsRoom (s : Sys) : Event → Prop
  | .switch _ prev next => s.maps.Fits prev next
  | _ => True

/-! ## As long as there is room -/

/-- What the maps hold for the PIDs that were switched. -/
structure Inv (s : Sys) : Prop where
  entered : ∀ p, p ≠ 0 → SwitchedIn p s.history →
    (s.maps.taskStart.lookup p).isSome = true ∧ (s.maps.taskBirth.lookup p).isSome = true
  left : ∀ p, p ≠ 0 → SwitchedInOut p s.history →
    (s.maps.taskRuntime.lookup p).isSome = true ∧ (s.maps.taskBirth.lookup p).isSome = true

section Handler

variable {m : Maps} {now : UInt64} {prev next : Task} {p : UInt32}

/-- The program drops no entry. -/
theorem taskStart_stays (h : (m.taskStart.lookup p).isSome = true) :
    ((m.handleSchedSwitch now prev next).taskStart.lookup p).isSome = true := by
  rw [Maps.handleSchedSwitch_taskStart]
  split
  · rfl
  · exact h

theorem taskBirth_stays (h : (m.taskBirth.lookup p).isSome = true) :
    ((m.handleSchedSwitch now prev next).taskBirth.lookup p).isSome = true := by
  rw [Maps.handleSchedSwitch_taskBirth]
  split
  · rfl
  · exact h

theorem taskRuntime_stays (h : (m.taskRuntime.lookup p).isSome = true) :
    ((m.handleSchedSwitch now prev next).taskRuntime.lookup p).isSome = true := by
  rw [Maps.handleSchedSwitch_taskRuntime]
  split
  · split
    · rfl
    · exact h
  · exact h

/-- A switch-in leaves a start exactly when there is room for it. -/
theorem taskStart_enters_iff (hp : p ≠ 0) (hnext : next.tgid = p) :
    ((m.handleSchedSwitch now prev next).taskStart.lookup p).isSome = true ↔
      m.taskStart.HasRoom p := by
  rw [Maps.handleSchedSwitch_taskStart]
  by_cases hroom : m.taskStart.HasRoom p
  · simp [hnext, hp, hroom]
  · rw [if_neg (fun h => hroom h.2.2)]
    exact iff_of_false (fun h => hroom (Or.inl h)) hroom

theorem taskBirth_enters_iff (hp : p ≠ 0) (hnext : next.tgid = p) :
    ((m.handleSchedSwitch now prev next).taskBirth.lookup p).isSome = true ↔
      m.taskBirth.HasRoom p := by
  rw [Maps.handleSchedSwitch_taskBirth]
  by_cases hroom : m.taskBirth.HasRoom p
  · simp [hnext, hp, hroom]
  · rw [if_neg (fun h => hroom h.2.2)]
    exact iff_of_false (fun h => hroom (Or.inl h)) hroom

/-- A switch-out leaves a runtime when there is room for it and a start. -/
theorem taskRuntime_enters (hp : p ≠ 0) (hprev : prev.tgid = p)
    (hstart : (m.taskStart.lookup p).isSome = true) (hroom : m.taskRuntime.HasRoom p) :
    ((m.handleSchedSwitch now prev next).taskRuntime.lookup p).isSome = true := by
  obtain ⟨start, hstart⟩ := Option.isSome_iff_exists.mp hstart
  rw [Maps.handleSchedSwitch_taskRuntime, if_pos ⟨hprev, hp, hroom⟩, hstart]
  rfl

end Handler

section Steps

variable {s : Sys}

theorem inv_initial (h : s.Initial) : Inv s := by
  obtain ⟨_, _, _, hhistory⟩ := h
  refine ⟨?_, ?_⟩
  · intro p _ hin
    rw [hhistory] at hin
    exact hin.elim
  · intro p _ hout
    rw [hhistory] at hout
    exact hout.elim

theorem inv_switch (h : Inv s) {now : UInt64} {prev next : Task} (hfits : s.maps.Fits prev next) :
    Inv { s with
      maps := s.maps.handleSchedSwitch now prev next
      history := .switched prev next :: s.history } := by
  refine ⟨?_, ?_⟩
  · intro p hp hin
    rcases hin with hnext | hin
    · subst hnext
      exact ⟨(taskStart_enters_iff hp rfl).mpr (hfits.start hp),
        (taskBirth_enters_iff hp rfl).mpr (hfits.birth hp)⟩
    · obtain ⟨hstart, hbirth⟩ := h.entered p hp hin
      exact ⟨taskStart_stays hstart, taskBirth_stays hbirth⟩
  · intro p hp hout
    rcases hout with hnow | hout
    · obtain ⟨hprev, hin⟩ := hnow
      subst hprev
      obtain ⟨hstart, hbirth⟩ := h.entered _ hp hin
      exact ⟨taskRuntime_enters hp rfl hstart (hfits.runtime hp hstart), taskBirth_stays hbirth⟩
    · obtain ⟨hruntime, hbirth⟩ := h.left p hp hout
      exact ⟨taskRuntime_stays hruntime, taskBirth_stays hbirth⟩

theorem inv_forget (h : Inv s) (q : UInt32) {tracker : CpuTracker} {seen : List UInt32} :
    Inv { s with
      tracker, seen
      maps := s.maps.forget q
      history := .forgotten q :: s.history } := by
  refine ⟨?_, ?_⟩
  · intro p hp hin
    obtain ⟨hne, hin⟩ := hin
    have hkept := h.entered p hp hin
    show ((s.maps.taskStart.delete q).lookup p).isSome = true ∧
      ((s.maps.taskBirth.delete q).lookup p).isSome = true
    rw [CappedMap.lookup_delete, CappedMap.lookup_delete, if_neg hne, if_neg hne]
    exact hkept
  · intro p hp hout
    obtain ⟨hne, hout⟩ := hout
    have hkept := h.left p hp hout
    show ((s.maps.taskRuntime.delete q).lookup p).isSome = true ∧
      ((s.maps.taskBirth.delete q).lookup p).isSome = true
    rw [CappedMap.lookup_delete, CappedMap.lookup_delete, if_neg hne, if_neg hne]
    exact hkept

theorem inv_step {config : Config} (h : Inv s) {e : Event} {s' : Sys} (hroom : FindsRoom s e)
    (hstep : Sys.Step config s e s') : Inv s' := by
  cases hstep with
  | spawn hfree hnew =>
    exact ⟨fun p hp hin => h.entered p hp hin.2, fun p hp hout => h.left p hp hout.2⟩
  | exit hlive => exact ⟨h.entered, h.left⟩
  | switch hnext => exact inv_switch h hroom
  | @scan tab env =>
    unfold Sys.scan
    cases s.maps.buildSnapshot tab.pid with
    | none => exact inv_forget h tab.pid
    | some snap => exact ⟨h.entered, h.left⟩
  | endCycle => exact ⟨h.entered, h.left⟩

end Steps

/-- Every run that finds room serves its processes. -/
theorem served_of_room {config : Config} {s : Sys}
    (hs : (Sys.machine config FindsRoom).Reachable s) : Served s := by
  have hinv : Inv s := by
    refine Machine.Reachable.invariant Inv (fun s h => inv_initial h) ?_ hs
    intro s s' _ h hstep
    obtain ⟨e, hroom, hstep⟩ := hstep
    exact inv_step h hroom hstep
  intro p hp _ hout
  obtain ⟨hruntime, hbirth⟩ := hinv.left p hp hout
  exact ⟨hruntime, hbirth, (Maps.buildSnapshot_isSome_iff _ _).mpr ⟨hruntime, hbirth⟩⟩

/-! ## One time slice -/

/-- No runtime without a start. -/
def StartedIfRun (m : Maps) : Prop :=
  ∀ p, (m.taskRuntime.lookup p).isSome = true → (m.taskStart.lookup p).isSome = true

/-- A runtime is made from a start. -/
theorem startedIfRun_handleSchedSwitch {m : Maps} (h : StartedIfRun m) (now : UInt64)
    (prev next : Task) : StartedIfRun (m.handleSchedSwitch now prev next) := by
  intro p hp
  apply taskStart_stays
  rw [Maps.handleSchedSwitch_taskRuntime] at hp
  split at hp
  · split at hp
    · rename_i hstart
      rw [hstart]
      rfl
    · exact h p hp
  · exact h p hp

/-- Both are deleted together. -/
theorem startedIfRun_forget {m : Maps} (h : StartedIfRun m) (pid : UInt32) :
    StartedIfRun (m.forget pid) := by
  intro p hp
  change ((m.taskRuntime.delete pid).lookup p).isSome = true at hp
  show ((m.taskStart.delete pid).lookup p).isSome = true
  rw [CappedMap.lookup_delete] at hp ⊢
  split
  · rename_i heq
    rw [if_pos heq] at hp
    cases hp
  · rename_i hne
    rw [if_neg hne] at hp
    exact h p hp

theorem taskStart_of_taskRuntime {config : Config} {ok : Sys → Event → Prop} {s : Sys}
    (hs : (Sys.machine config ok).Reachable s) : StartedIfRun s.maps := by
  refine Machine.Reachable.invariant (fun s => StartedIfRun s.maps) ?_ ?_ hs
  · intro s h p hp
    rw [h.1] at hp
    cases hp
  · intro s s' _ h hstep
    obtain ⟨e, _, hstep⟩ := hstep
    cases hstep with
    | spawn hfree hnew => exact h
    | exit hlive => exact h
    | endCycle => exact h
    | switch hnext => exact startedIfRun_handleSchedSwitch h _ _ _
    | @scan tab env =>
      unfold Sys.scan
      cases s.maps.buildSnapshot tab.pid with
      | some snap => exact h
      | none => exact startedIfRun_forget h tab.pid

/-- A time slice leaves a snapshot exactly when it finds room in all the maps. -/
theorem snapshot_after_slice_iff {config : Config} {ok : Sys → Event → Prop} {s s₁ s₂ : Sys}
    {now now' : UInt64} {prev task next : Task} (hs : (Sys.machine config ok).Reachable s)
    (hin : Sys.Step config s (.switch now prev task) s₁)
    (hout : Sys.Step config s₁ (.switch now' task next) s₂) (htask : task.tgid ≠ 0)
    (hnext : next.tgid ≠ task.tgid) :
    (s₂.maps.buildSnapshot task.tgid).isSome = true ↔
      s.maps.taskStart.HasRoom task.tgid ∧ s.maps.taskBirth.HasRoom task.tgid ∧
        s₁.maps.taskRuntime.HasRoom task.tgid := by
  have hreach₁ : (Sys.machine config (fun _ _ => True)).Reachable s₁ :=
    (Machine.Reachable.of_labelled hs).tail ⟨_, trivial, hin⟩
  have hruntime₁ := taskStart_of_taskRuntime hreach₁ task.tgid
  cases hin with
  | switch _ =>
    cases hout with
    | switch _ =>
      rw [Maps.buildSnapshot_isSome_iff, ← @taskStart_enters_iff _ now prev _ _ htask rfl,
        ← @taskBirth_enters_iff _ now prev _ _ htask rfl]
      show ((Maps.handleSchedSwitch _ _ _ _).taskRuntime.lookup task.tgid).isSome = true ∧
        ((Maps.handleSchedSwitch _ _ _ _).taskBirth.lookup task.tgid).isSome = true ↔ _
      rw [Maps.handleSchedSwitch_taskBirth _ now', if_neg (fun h => hnext h.1)]
      constructor
      · intro hboth
        obtain ⟨hruntime, hbirth⟩ := hboth
        rw [Maps.handleSchedSwitch_taskRuntime] at hruntime
        split at hruntime
        · rename_i hroom
          refine ⟨?_, hbirth, hroom.2.2⟩
          split at hruntime
          · rename_i hstart
            rw [hstart]
            rfl
          · exact hruntime₁ hruntime
        · rename_i hroom
          exact absurd ⟨rfl, htask, Or.inl hruntime⟩ hroom
      · intro hroom
        obtain ⟨hstart, hbirth, hroom⟩ := hroom
        exact ⟨taskRuntime_enters htask rfl hstart hroom, hbirth⟩

/-- In every run in which no map is full when the program has a new key for it,
each live process that was switched in and out has its entries and a snapshot.
And in any run, a time slice of a process leaves a snapshot exactly when it finds
room in `task_start` and `task_birth` at its begin and in `task_runtime` at its
end. -/
theorem served_iff_room (config : Config) :
    (∀ s, (Sys.machine config FindsRoom).Reachable s → Served s) ∧
      ∀ (s s₁ s₂ : Sys) (now now' : UInt64) (prev task next : Task),
        (Sys.machine config (fun _ _ => True)).Reachable s →
        Sys.Step config s (.switch now prev task) s₁ →
        Sys.Step config s₁ (.switch now' task next) s₂ →
        task.tgid ≠ 0 → next.tgid ≠ task.tgid →
          ((s₂.maps.buildSnapshot task.tgid).isSome = true ↔
            s.maps.taskStart.HasRoom task.tgid ∧ s.maps.taskBirth.HasRoom task.tgid ∧
              s₁.maps.taskRuntime.HasRoom task.tgid) :=
  ⟨fun _ hs => served_of_room hs,
    fun _ _ _ _ _ _ _ _ hs hin hout htask hnext =>
      snapshot_after_slice_iff hs hin hout htask hnext⟩

/-! ### The process after the last free entry

The processes 1, 2, 3 and so on start, get the CPU for one time slice and exit,
one after the other.  None of them is a target, so nothing is ever forgotten,
and process 16385 finds the maps full. -/

/-- The main thread of process `n`. -/
def crowdTask (n : Nat) : Task := ⟨UInt32.ofNat n, 1⟩

/-- No process yet. -/
def crowdKernel : Kernel where
  procs _ := none
  used _ _ := False
  used_of_live := by
    intro p st hlive
    cases hlive

/-- Process `n` starts. -/
def crowdSpawn (s : Sys) (n : Nat) : Sys :=
  { s with
    kernel := s.kernel.spawn (crowdTask n).tgid 1
    history := .spawned (crowdTask n).tgid 1 :: s.history }

/-- Process `n` gets the CPU. -/
def crowdIn (s : Sys) (n : Nat) : Sys :=
  { s with
    maps := s.maps.handleSchedSwitch 0 Task.idle (crowdTask n)
    history := .switched Task.idle (crowdTask n) :: s.history }

/-- Process `n` gives up the CPU. -/
def crowdOut (s : Sys) (n : Nat) : Sys :=
  { s with
    maps := s.maps.handleSchedSwitch 1 (crowdTask n) Task.idle
    history := .switched (crowdTask n) Task.idle :: s.history }

/-- The first `n` processes have come and gone. -/
def crowd : Nat → Sys
  | 0 => ⟨crowdKernel, Maps.loaded, CpuTracker.new, [], []⟩
  | n + 1 =>
      let s := crowdOut (crowdIn (crowdSpawn (crowd n) (n + 1)) (n + 1)) (n + 1)
      { s with
        kernel := s.kernel.exit (crowdTask (n + 1)).tgid
        history := .exited (crowdTask (n + 1)).tgid :: s.history }

theorem crowdTask_tgid {n : Nat} (h : n < 2 ^ 32) : (crowdTask n).tgid.toNat = n := by
  show (UInt32.ofNat n).toNat = n
  rw [UInt32.toNat_ofNat']
  omega

theorem crowdTask_tgid_ne {m n : Nat} (hm : m < 2 ^ 32) (hn : n < 2 ^ 32) (hne : m ≠ n) :
    (crowdTask m).tgid ≠ (crowdTask n).tgid := by
  intro h
  have hnat := congrArg UInt32.toNat h
  rw [crowdTask_tgid hm, crowdTask_tgid hn] at hnat
  exact hne hnat

/-- All of them are gone, and the later PIDs were never used. -/
theorem crowd_kernel {n : Nat} (hn : n ≤ maxEntries) :
    (∀ p, (crowd n).kernel.procs p = none) ∧
      ∀ k st, n < k → k < 2 ^ 32 → ¬ (crowd n).kernel.used (crowdTask k).tgid st := by
  have hmax : maxEntries = 16384 := rfl
  induction n with
  | zero => exact ⟨fun _ => rfl, fun _ _ _ _ h => h⟩
  | succ n ih =>
    obtain ⟨hprocs, hused⟩ := ih (by omega)
    constructor
    · intro p
      show (((crowd n).kernel.spawn _ _).exit _).procs p = none
      rw [Kernel.procs_exit, Kernel.procs_spawn]
      split
      · rfl
      · exact hprocs p
    · intro k st hk hlt h
      rcases h with h | h
      · exact hused k st (by omega) hlt h
      · exact crowdTask_tgid_ne hlt (show n + 1 < 2 ^ 32 by omega) (by omega) h.1

/-- The next process starts and has its time slice. -/
theorem crowd_steps {n : Nat} (hn : n ≤ maxEntries) :
    let s := crowdSpawn (crowd n) (n + 1)
    Sys.Step {} (crowd n) (.spawn (crowdTask (n + 1)).tgid 1) s ∧
      Sys.Step {} s (.switch 0 Task.idle (crowdTask (n + 1))) (crowdIn s (n + 1)) ∧
      Sys.Step {} (crowdIn s (n + 1)) (.switch 1 (crowdTask (n + 1)) Task.idle)
        (crowdOut (crowdIn s (n + 1)) (n + 1)) := by
  have hmax : maxEntries = 16384 := rfl
  obtain ⟨hprocs, hused⟩ := crowd_kernel hn
  have hlive : ((crowd n).kernel.spawn (crowdTask (n + 1)).tgid 1).procs (crowdTask (n + 1)).tgid =
      some 1 := by
    rw [Kernel.procs_spawn, if_pos rfl]
  refine ⟨.spawn (hprocs _) (hused (n + 1) 1 (by omega) (by omega)), .switch ?_, .switch ?_⟩
  · exact Or.inr ⟨1, hlive, UInt64.le_refl _⟩
  · exact Or.inl rfl

/-- The first process finds room and has a snapshot after its time slice. -/
theorem served_iff_room_first_process :
    ∃ s, (Sys.machine {} FindsRoom).Reachable s ∧ SwitchedInOut 1 s.history ∧
      (s.maps.buildSnapshot 1).isSome = true := by
  obtain ⟨hspawn, hin, hout⟩ := crowd_steps (Nat.zero_le maxEntries)
  have hstart : (Sys.machine {} FindsRoom).Reachable (crowd 0) := .start ⟨rfl, rfl, rfl, rfl⟩
  have hroomIn : FindsRoom (crowdSpawn (crowd 0) 1) (.switch 0 Task.idle (crowdTask 1)) := by
    show Maps.Fits _ _ _
    decide +kernel
  have hroomOut : FindsRoom (crowdIn (crowdSpawn (crowd 0) 1) 1)
      (.switch 1 (crowdTask 1) Task.idle) := by
    show Maps.Fits _ _ _
    decide +kernel
  have hslice := ((hstart.tail ⟨.spawn _ _, trivial, hspawn⟩).tail ⟨_, hroomIn, hin⟩).tail
    ⟨_, hroomOut, hout⟩
  have hran : SwitchedInOut 1
      (crowdOut (crowdIn (crowdSpawn (crowd 0) 1) 1) 1).history := Or.inl ⟨rfl, Or.inl rfl⟩
  exact ⟨_, hslice, hran, ((served_iff_room {}).1 _ hslice 1 (by decide) rfl hran).2.2⟩

theorem crowd_reachable {n : Nat} (hn : n ≤ maxEntries) :
    (Sys.machine {} (fun _ _ => True)).Reachable (crowd n) := by
  induction n with
  | zero => exact .start ⟨rfl, rfl, rfl, rfl⟩
  | succ n ih =>
    obtain ⟨hspawn, hin, hout⟩ := crowd_steps (show n ≤ maxEntries by omega)
    have hlast := (((ih (by omega)).tail ⟨_, trivial, hspawn⟩).tail ⟨_, trivial, hin⟩).tail
      ⟨_, trivial, hout⟩
    refine hlast.tail ⟨.exit (crowdTask (n + 1)).tgid, trivial, .exit ?_⟩
    show (((crowd n).kernel.spawn _ _).procs _).isSome = true
    rw [Kernel.procs_spawn, if_pos rfl]
    rfl

/-- The map of the starts has an entry for each of them, and none for a later
process. -/
theorem crowd_taskStart {n : Nat} (hn : n ≤ maxEntries) :
    (crowd n).maps.taskStart.entries.size = n ∧
      ∀ k, n < k → k < 2 ^ 32 → (crowd n).maps.taskStart.lookup (crowdTask k).tgid = none := by
  have hmax : maxEntries = 16384 := rfl
  induction n with
  | zero => exact ⟨rfl, fun _ _ _ => rfl⟩
  | succ n ih =>
    obtain ⟨hsize, hnone⟩ := ih (by omega)
    have hzero : (crowdTask (n + 1)).tgid ≠ 0 := by
      intro h
      have hnat := congrArg UInt32.toNat h
      rw [crowdTask_tgid (by omega)] at hnat
      exact absurd hnat (by simp)
    -- the switch to the idle task leaves the map alone
    have hstart : (crowd (n + 1)).maps.taskStart =
        (crowd n).maps.taskStart.update (crowdTask (n + 1)).tgid 0 := by
      show (((crowd n).maps.handleSchedSwitch 0 _ _).handleSchedSwitch 1 _ _).taskStart = _
      rw [Maps.handleSchedSwitch, Maps.switchIn_taskStart, Maps.switchOut_taskStart,
        if_neg (by simp [Task.idle]), Maps.handleSchedSwitch, Maps.switchIn_taskStart,
        Maps.switchOut_taskStart, if_pos hzero]
    rw [hstart]
    constructor
    · rw [CappedMap.size_update_of_new (hnone (n + 1) (by omega) (by omega)), hsize]
      omega
    · intro k hk hlt
      have hne := crowdTask_tgid_ne (show n + 1 < 2 ^ 32 by omega) hlt (by omega)
      rw [CappedMap.lookup_update, if_neg (fun h => hne h.1)]
      exact hnone k (by omega) hlt

theorem crowd_full :
    ¬ (crowd maxEntries).maps.taskStart.HasRoom (crowdTask (maxEntries + 1)).tgid := by
  obtain ⟨hsize, hnone⟩ := crowd_taskStart (Nat.le_refl maxEntries)
  have hlookup := hnone (maxEntries + 1) (by omega) (by decide)
  intro hroom
  rcases hroom with hsome | hlt
  · rw [hlookup] at hsome
    cases hsome
  · omega

/-- Process 16385 is alive and was switched in and out, and has no snapshot. -/
theorem full_maps_starve_process :
    ∃ s, (Sys.machine {} (fun _ _ => True)).Reachable s ∧
      (s.kernel.procs 16385).isSome = true ∧ SwitchedInOut 16385 s.history ∧
      s.maps.buildSnapshot 16385 = none := by
  obtain ⟨hspawn, hin, hout⟩ := crowd_steps (Nat.le_refl maxEntries)
  have hreach := (crowd_reachable (Nat.le_refl maxEntries)).tail ⟨_, trivial, hspawn⟩
  have hslice := snapshot_after_slice_iff hreach hin hout (by decide) (by decide)
  refine ⟨_, (hreach.tail ⟨_, trivial, hin⟩).tail ⟨_, trivial, hout⟩, ?_, ?_, ?_⟩
  · show (((crowd maxEntries).kernel.spawn 16385 1).procs 16385).isSome = true
    rw [Kernel.procs_spawn, if_pos rfl]
    rfl
  · exact Or.inl ⟨rfl, Or.inl rfl⟩
  · rw [← Option.not_isSome_iff_eq_none]
    intro hsome
    exact crowd_full (hslice.mp hsome).1

end BsslRam.BpfCapacity
