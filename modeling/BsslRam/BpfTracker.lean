import BsslRam.PageOut
import BsslRam.Lib.CappedMap

/-!
# The eBPF CPU tracker

`daemon/src/bpf/cpu_tracker.bpf.c` and `daemon/src/bpf_cpu_tracker.rs`.  A
program on `raw_tp/sched_switch` keeps three hash maps keyed by thread group:
the accumulated CPU time, the time of the last switch-in, and the start time of
the first task that was seen.  With the program loaded, `build_snapshot` reads
two of them instead of `/proc/PID/stat`, and the scan deletes the entries of a
PID whose lookup failed.

`handleSchedSwitch_taskRuntime`, `_taskStart` and `_taskBirth` say what one
invocation of the program leaves under each key.  The proofs about runs use
these three and never unfold the program.

The second half puts the program into the machine it runs on.  Processes are
created and exit, the scheduler switches tasks, and the daemon scans targets,
in any interleaving.  `history` records what happened, newest first; nothing in
the code reads it.
-/

namespace BsslRam.BpfTracker

open BsslRam.Lib BsslRam.Scanner BsslRam.State BsslRam.ScanCycle BsslRam.PageOut

/-! ## The program and its maps -/

/-- The fields of a `task_struct` that the program reads. -/
structure Task where
  tgid : UInt32
  startTime : UInt64
  deriving DecidableEq, Repr

/-- The idle task of a CPU. -/
def Task.idle : Task := ⟨0, 0⟩

/-- `max_entries` of each map. -/
def maxEntries : Nat := 16384

/-- A `BPF_MAP_TYPE_HASH` from a `u32` to a `u64`. -/
abbrev BpfMap := CappedMap UInt32 UInt64 maxEntries

/-- The three maps of the program. -/
structure Maps where
  taskRuntime : BpfMap
  taskStart : BpfMap
  taskBirth : BpfMap

namespace Maps

/-- The maps when the program is loaded. -/
def loaded : Maps := ⟨.empty, .empty, .empty⟩

/-- Account the elapsed time to the task that leaves the CPU. -/
def switchOut (m : Maps) (now : UInt64) (prev : Task) : Maps :=
  if prev.tgid ≠ 0 then
    match m.taskStart.lookup prev.tgid with
    | some start =>
        let delta := now - start
        match m.taskRuntime.lookup prev.tgid with
        | some runtime =>
            { m with taskRuntime := m.taskRuntime.update prev.tgid (runtime + delta) }
        | none => { m with taskRuntime := m.taskRuntime.update prev.tgid delta }
    | none => m
  else m

/-- Mark the task that gets the CPU, and capture its birth once. -/
def switchIn (m : Maps) (now : UInt64) (next : Task) : Maps :=
  if next.tgid ≠ 0 then
    let taskStart := m.taskStart.update next.tgid now
    match m.taskBirth.lookup next.tgid with
    | some _ => { m with taskStart }
    | none =>
        { m with taskStart, taskBirth := m.taskBirth.update next.tgid next.startTime }
  else m

/-- `handle_sched_switch`. -/
def handleSchedSwitch (m : Maps) (now : UInt64) (prev next : Task) : Maps :=
  (m.switchOut now prev).switchIn now next

/-- `BpfCpuTracker::runtime_ns`. -/
def runtimeNs (m : Maps) (pid : UInt32) : Option UInt64 := m.taskRuntime.lookup pid

/-- `BpfCpuTracker::starttime_ns`. -/
def starttimeNs (m : Maps) (pid : UInt32) : Option UInt64 := m.taskBirth.lookup pid

/-- `BpfCpuTracker::forget`. -/
def forget (m : Maps) (pid : UInt32) : Maps where
  taskRuntime := m.taskRuntime.delete pid
  taskStart := m.taskStart.delete pid
  taskBirth := m.taskBirth.delete pid

/-- `build_snapshot` with the BPF tracker. -/
def buildSnapshot (m : Maps) (pid : UInt32) : Option ProcSnapshot := do
  let cpuNs ← m.runtimeNs pid
  let starttime ← m.starttimeNs pid
  return { pid, starttime, cpuNs }

/-! ## What one invocation leaves under each key -/

section Handler

variable (m : Maps) (now : UInt64) (prev next : Task) (p : UInt32)

theorem switchOut_taskStart : (m.switchOut now prev).taskStart = m.taskStart := by
  unfold switchOut
  split
  · split
    · split <;> rfl
    · rfl
  · rfl

theorem switchOut_taskBirth : (m.switchOut now prev).taskBirth = m.taskBirth := by
  unfold switchOut
  split
  · split
    · split <;> rfl
    · rfl
  · rfl

theorem switchOut_taskRuntime :
    (m.switchOut now prev).taskRuntime.lookup p =
      if prev.tgid = p ∧ p ≠ 0 ∧ m.taskRuntime.HasRoom p then
        match m.taskStart.lookup p with
        | some start => some ((m.taskRuntime.lookup p).getD 0 + (now - start))
        | none => m.taskRuntime.lookup p
      else m.taskRuntime.lookup p := by
  unfold switchOut
  by_cases hzero : prev.tgid = 0
  · have hnot : ¬ (prev.tgid = p ∧ p ≠ 0 ∧ m.taskRuntime.HasRoom p) :=
      fun h => h.2.1 (h.1 ▸ hzero)
    rw [if_neg (not_not.mpr hzero), if_neg hnot]
  · rw [if_pos hzero]
    by_cases hp : prev.tgid = p
    · subst hp
      cases hstart : m.taskStart.lookup prev.tgid with
      | none => simp
      | some start =>
        cases hruntime : m.taskRuntime.lookup prev.tgid with
        | none => simp [hzero, CappedMap.lookup_update, hruntime]
        | some runtime => simp [hzero, CappedMap.lookup_update, hruntime]
    · rw [if_neg (fun h => hp h.1)]
      cases m.taskStart.lookup prev.tgid with
      | none => rfl
      | some start =>
        cases m.taskRuntime.lookup prev.tgid with
        | none => simp [CappedMap.lookup_update, hp]
        | some runtime => simp [CappedMap.lookup_update, hp]

theorem switchIn_taskRuntime : (m.switchIn now next).taskRuntime = m.taskRuntime := by
  unfold switchIn
  split
  · cases m.taskBirth.lookup next.tgid <;> rfl
  · rfl

theorem switchIn_taskStart :
    (m.switchIn now next).taskStart =
      if next.tgid ≠ 0 then m.taskStart.update next.tgid now else m.taskStart := by
  unfold switchIn
  split
  · cases m.taskBirth.lookup next.tgid <;> rfl
  · rfl

theorem switchIn_taskBirth :
    (m.switchIn now next).taskBirth =
      if next.tgid ≠ 0 ∧ m.taskBirth.lookup next.tgid = none then
        m.taskBirth.update next.tgid next.startTime
      else m.taskBirth := by
  unfold switchIn
  by_cases hzero : next.tgid = 0
  · simp [hzero]
  · cases m.taskBirth.lookup next.tgid with
    | none => simp [hzero]
    | some birth => simp [hzero]

/-- The runtime grows at a switch-out by the time since the last switch-in of
the thread group, if the map can take it. -/
theorem handleSchedSwitch_taskRuntime :
    (m.handleSchedSwitch now prev next).taskRuntime.lookup p =
      if prev.tgid = p ∧ p ≠ 0 ∧ m.taskRuntime.HasRoom p then
        match m.taskStart.lookup p with
        | some start => some ((m.taskRuntime.lookup p).getD 0 + (now - start))
        | none => m.taskRuntime.lookup p
      else m.taskRuntime.lookup p := by
  rw [handleSchedSwitch, switchIn_taskRuntime, switchOut_taskRuntime]

/-- The start is overwritten at every switch-in, whichever thread it is. -/
theorem handleSchedSwitch_taskStart :
    (m.handleSchedSwitch now prev next).taskStart.lookup p =
      if next.tgid = p ∧ p ≠ 0 ∧ m.taskStart.HasRoom p then some now
      else m.taskStart.lookup p := by
  rw [handleSchedSwitch, switchIn_taskStart, switchOut_taskStart]
  by_cases hp : next.tgid = p
  · subst hp
    by_cases hzero : next.tgid = 0
    · simp [hzero]
    · simp [hzero, CappedMap.lookup_update]
  · have hnot : ¬ (next.tgid = p ∧ p ≠ 0 ∧ m.taskStart.HasRoom p) := fun h => hp h.1
    rw [if_neg hnot]
    split
    · rw [CappedMap.lookup_update, if_neg (fun h => hp h.1)]
    · rfl

/-- The birth is written at the first switch-in that finds none, and stays. -/
theorem handleSchedSwitch_taskBirth :
    (m.handleSchedSwitch now prev next).taskBirth.lookup p =
      if next.tgid = p ∧ p ≠ 0 ∧ m.taskBirth.HasRoom p then
        some ((m.taskBirth.lookup p).getD next.startTime)
      else m.taskBirth.lookup p := by
  rw [handleSchedSwitch, switchIn_taskBirth, switchOut_taskBirth]
  by_cases hp : next.tgid = p
  · subst hp
    by_cases hzero : next.tgid = 0
    · simp [hzero]
    · cases hbirth : m.taskBirth.lookup next.tgid with
      | none => simp [hzero, CappedMap.lookup_update, hbirth]
      | some birth => simp [hbirth]
  · have hnot : ¬ (next.tgid = p ∧ p ≠ 0 ∧ m.taskBirth.HasRoom p) := fun h => hp h.1
    rw [if_neg hnot]
    split
    · rw [CappedMap.lookup_update, if_neg (fun h => hp h.1)]
    · rfl

end Handler

/-- No map is full when the program has a new key for it.  Without a start there is nothing to
account, and the map of the runtimes is left alone. -/
structure Fits (m : Maps) (prev next : Task) : Prop where
  runtime : prev.tgid ≠ 0 → (m.taskStart.lookup prev.tgid).isSome = true →
    m.taskRuntime.HasRoom prev.tgid
  start : next.tgid ≠ 0 → m.taskStart.HasRoom next.tgid
  birth : next.tgid ≠ 0 → m.taskBirth.HasRoom next.tgid

instance (m : Maps) (prev next : Task) : Decidable (m.Fits prev next) :=
  decidable_of_iff
    ((prev.tgid ≠ 0 → (m.taskStart.lookup prev.tgid).isSome = true →
        m.taskRuntime.HasRoom prev.tgid) ∧
      (next.tgid ≠ 0 → m.taskStart.HasRoom next.tgid) ∧
      (next.tgid ≠ 0 → m.taskBirth.HasRoom next.tgid))
    ⟨fun h => ⟨h.1, h.2.1, h.2.2⟩, fun h => ⟨h.runtime, h.start, h.birth⟩⟩

@[simp] theorem runtimeNs_forget (m : Maps) (pid p : UInt32) :
    (m.forget pid).runtimeNs p = if pid = p then none else m.runtimeNs p :=
  CappedMap.lookup_delete m.taskRuntime pid p

@[simp] theorem starttimeNs_forget (m : Maps) (pid p : UInt32) :
    (m.forget pid).starttimeNs p = if pid = p then none else m.starttimeNs p :=
  CappedMap.lookup_delete m.taskBirth pid p

theorem buildSnapshot_eq_some_iff (m : Maps) (pid : UInt32) (snap : ProcSnapshot) :
    m.buildSnapshot pid = some snap ↔
      snap.pid = pid ∧ m.runtimeNs pid = some snap.cpuNs ∧
        m.starttimeNs pid = some snap.starttime := by
  cases snap with
  | mk pid' starttime cpuNs =>
    unfold buildSnapshot
    cases m.runtimeNs pid with
    | none => simp
    | some runtime =>
      cases m.starttimeNs pid with
      | none => simp
      | some birth =>
        simp only [Option.bind_eq_bind, Option.bind_some, Option.pure_def, Option.some.injEq,
          ProcSnapshot.mk.injEq]
        grind

theorem buildSnapshot_isSome_iff (m : Maps) (pid : UInt32) :
    (m.buildSnapshot pid).isSome = true ↔
      (m.runtimeNs pid).isSome = true ∧ (m.starttimeNs pid).isSome = true := by
  unfold buildSnapshot
  cases m.runtimeNs pid with
  | none => simp
  | some runtime =>
    cases m.starttimeNs pid with
    | none => simp
    | some birth => simp

end Maps

/-! ## The machine around it -/

/-- One successful `build_snapshot`, with the process that had the PID then and
the tracker entries that the PID-reuse guard let through. -/
structure Taken where
  pid : UInt32
  starttime : UInt64
  /-- The start time of the live process under the PID; nothing for a free PID. -/
  owner : Option UInt64
  carried : PidView
  deriving DecidableEq

/-- What happened, as the history of a run records it. -/
inductive Occurrence where
  | spawned (p : UInt32) (startTime : UInt64)
  | exited (p : UInt32)
  | switched (prev next : Task)
  | snapshot (t : Taken)
  | forgotten (p : UInt32)
  deriving DecidableEq

/-- The kernel, the maps of the program and the daemon's tracker.  `seen` are the
targets of the running cycle. -/
structure Sys where
  kernel : Kernel
  maps : Maps
  tracker : CpuTracker
  seen : List UInt32
  history : List Occurrence

/-- What can happen next. -/
inductive Event where
  | spawn (p : UInt32) (startTime : UInt64)
  | exit (p : UInt32)
  | switch (now : UInt64) (prev next : Task)
  | scan (tab : TargetProcess) (env : CycleEnv)
  | endCycle

namespace Sys

/-- A task that the scheduler may pick: the idle task, or a thread of a live
process.  A thread does not start before its process. -/
def Runnable (s : Sys) (next : Task) : Prop :=
  next.tgid = 0 ∨ ∃ st, s.kernel.procs next.tgid = some st ∧ st ≤ next.startTime

/-- One turn of the scan loop with the BPF tracker.  The rest of the
environment is arbitrary. -/
def scan (config : Config) (s : Sys) (tab : TargetProcess) (env : CycleEnv) : Sys :=
  let env := { env with
    snapshot := fun pid =>
      (s.maps.buildSnapshot pid).map (fun snap => (snap.starttime, snap.cpuNs)) }
  let tracker := (scanTarget config env s.tracker tab).2
  let seen := tab.pid :: s.seen
  match s.maps.buildSnapshot tab.pid with
  | none =>
      { s with
        tracker, seen
        maps := s.maps.forget tab.pid
        history := .forgotten tab.pid :: s.history }
  | some snap =>
      let taken : Taken :=
        { pid := tab.pid
          starttime := snap.starttime
          owner := s.kernel.procs tab.pid
          carried := (s.tracker.view tab.pid).guardReuse snap }
      { s with tracker, seen, history := .snapshot taken :: s.history }

/-- The steps of the machine.  A PID is free before a process gets it, and no
process has the start time of an earlier one under the same PID.  The task that
leaves the CPU may be any, since a process that has exited still has its last
switch-out before it. -/
inductive Step (config : Config) : Sys → Event → Sys → Prop where
  | spawn {s : Sys} {p : UInt32} {st : UInt64} (hfree : s.kernel.procs p = none)
      (hnew : ¬ s.kernel.used p st) :
      Step config s (.spawn p st)
        { s with kernel := s.kernel.spawn p st, history := .spawned p st :: s.history }
  | exit {s : Sys} {p : UInt32} (hlive : (s.kernel.procs p).isSome = true) :
      Step config s (.exit p)
        { s with kernel := s.kernel.exit p, history := .exited p :: s.history }
  | switch {s : Sys} {now : UInt64} {prev next : Task} (hnext : s.Runnable next) :
      Step config s (.switch now prev next)
        { s with
          maps := s.maps.handleSchedSwitch now prev next
          history := .switched prev next :: s.history }
  | scan {s : Sys} {tab : TargetProcess} {env : CycleEnv} :
      Step config s (.scan tab env) (s.scan config tab env)
  | endCycle {s : Sys} :
      Step config s .endCycle { s with tracker := s.tracker.retainOnly s.seen, seen := [] }

/-- Some processes run, the program has just been loaded and the daemon starts. -/
def Initial (s : Sys) : Prop :=
  s.maps = Maps.loaded ∧ s.tracker = CpuTracker.new ∧ s.seen = [] ∧ s.history = []

/-- The machine, restricted to events with property `ok`. -/
def machine (config : Config) (ok : Sys → Event → Prop) : Machine Sys :=
  Machine.labelled Initial (Step config) ok

end Sys

end BsslRam.BpfTracker
