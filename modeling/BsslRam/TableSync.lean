import BsslRam.ProcessTable
import BsslRam.Lib.Machine
import BsslRam.Lib.Mirror

/-!
# The process table and its threads

`ProcessTable::spawn` opens the connector, walks `/proc` and only then starts
the reader thread.  From then on the reader applies events, each in two steps
(classify, then write under the lock), while the main thread may run
`reseed_drift_correction`.  Processes fork, exec and exit between any two of
these steps, and their events queue up in order.

Command lines change at `exec` only, and a forked child matches no profile
before it execs.  So `classify_pid` is the source of a mirror in the sense of
`Lib.Mirror`: `exec` changes it under a notice, `exit` clears it under a notice,
and the reader works off the notices.

* Without a reseed, the table is exact whenever the queue is empty and no event
  is half-applied (`quiescent_exact`).
* The steps of a reseed are here as well.  What they do to the table is the
  subject of `DriftCorrection`.
-/

namespace BsslRam.TableSync

open BsslRam.Lib BsslRam.Lib.Mirror BsslRam.Scanner BsslRam.ProcessTable

/-! ## The system -/

/-- Where `reseed_drift_correction` is. -/
inductive Reseed where
  | idle
  | listed (livePids : List UInt32)
  | classifying (phantoms candidates : List UInt32) (newRecords : List (UInt32 × ProcessRecord))

/-- An event between `classify_pid` and the write.  An exit writes without a look
at `/proc`. -/
abbrev Inflight := Option (UInt32 × Option ProcessRecord)

inductive Phase where
  -- the connector is subscribed
  | opened
  -- `seed_from_proc`; `throughout` are the PIDs that have not exited since it began
  | walking (visited : List UInt32) (throughout : UInt32 → Prop) (table : Table)
  -- the reader thread is up and the table is published
  | running (table : Table) (inflight : Inflight) (reseed : Reseed)

structure Sync where
  proc : ProcFs
  queue : List ProcEvent
  phase : Phase

def Phase.forget (p : UInt32) : Phase → Phase
  | walking visited throughout table => walking visited (fun q => throughout q ∧ q ≠ p) table
  | phase => phase

/-- The commit of a reseed under the write lock, with the numbers that
`reseed_drift_correction` returns. -/
def commitReseed (table : Table) (phantoms : List UInt32)
    (newRecords : List (UInt32 × ProcessRecord)) : Table × Nat × Nat :=
  let dropped := phantoms.countP (fun pid => table.contains pid)
  let table := phantoms.foldl (fun table pid => table.erase pid) table
  let added := newRecords.length
  (newRecords.foldl (fun table entry => table.insert entry.1 entry.2) table, added, dropped)

section Steps

variable (profiles : List BrowserProfile)

inductive ProcStep : Sync → Sync → Prop where
  | fork (s : Sync) (parent child : UInt32) (raw : List UInt8)
      (hparent : s.proc[parent]?.isSome) (hfree : s.proc[child]? = none)
      (hclass : classifyCmdline profiles raw = none) :
      ProcStep s
        { s with proc := s.proc.insert child raw, queue := s.queue ++ [.fork parent child] }
  | exec (s : Sync) (pid : UInt32) (raw : List UInt8) (hlive : s.proc[pid]?.isSome) :
      ProcStep s { s with proc := s.proc.insert pid raw, queue := s.queue ++ [.exec pid] }
  | exit (s : Sync) (pid : UInt32) (hlive : s.proc[pid]?.isSome) :
      ProcStep s
        { proc := s.proc.erase pid
          queue := s.queue ++ [.exit pid]
          phase := s.phase.forget pid }

/-- The walk reads each listed PID at some moment, and every PID that is alive all
through the walk is listed. -/
inductive WalkStep : Sync → Sync → Prop where
  | start (s : Sync) (hphase : s.phase = .opened) :
      WalkStep s { s with phase := .walking [] (fun p => s.proc[p]?.isSome) ∅ }
  | read (s : Sync) (pid : UInt32) (visited : List UInt32) (throughout : UInt32 → Prop)
      (table : Table) (hphase : s.phase = .walking visited throughout table)
      (hnew : pid ∉ visited) :
      WalkStep s
        { s with
          phase := .walking (pid :: visited) throughout (seedEntry profiles s.proc table pid) }
  | done (s : Sync) (visited : List UInt32) (throughout : UInt32 → Prop) (table : Table)
      (hphase : s.phase = .walking visited throughout table)
      (hall : ∀ p, throughout p → p ∈ visited) :
      WalkStep s { s with phase := .running table none .idle }

/-- `run_event_loop` and `apply_event`. -/
inductive ReaderStep : Sync → Sync → Prop where
  | fork (s : Sync) (parent child : UInt32) (rest : List ProcEvent) (table : Table)
      (reseed : Reseed) (hphase : s.phase = .running table none reseed)
      (hqueue : s.queue = .fork parent child :: rest) :
      ReaderStep s { s with queue := rest }
  | exec (s : Sync) (pid : UInt32) (rest : List ProcEvent) (table : Table) (reseed : Reseed)
      (hphase : s.phase = .running table none reseed)
      (hqueue : s.queue = .exec pid :: rest) :
      ReaderStep s
        { s with
          queue := rest
          phase := .running table (some (pid, classifyPid profiles s.proc pid)) reseed }
  | exit (s : Sync) (pid : UInt32) (rest : List ProcEvent) (table : Table) (reseed : Reseed)
      (hphase : s.phase = .running table none reseed)
      (hqueue : s.queue = .exit pid :: rest) :
      ReaderStep s
        { s with queue := rest, phase := .running table (some (pid, none)) reseed }
  | write (s : Sync) (pid : UInt32) (record : Option ProcessRecord) (table : Table)
      (reseed : Reseed) (hphase : s.phase = .running table (some (pid, record)) reseed) :
      ReaderStep s { s with phase := .running (writeEvent table pid record) none reseed }

/-- `reseed_drift_correction`, up to its commit.  The candidates come out of a hash
set, so they are read in any order. -/
inductive ReseedStep : Sync → Sync → Prop where
  | list (s : Sync) (table : Table) (inflight : Inflight)
      (hphase : s.phase = .running table inflight .idle) :
      ReseedStep s { s with phase := .running table inflight (.listed s.proc.keys) }
  | copyKeys (s : Sync) (table : Table) (inflight : Inflight) (livePids : List UInt32)
      (hphase : s.phase = .running table inflight (.listed livePids)) :
      ReseedStep s
        { s with
          phase := .running table inflight
            (.classifying (table.keys.filter (fun p => !livePids.contains p))
              (livePids.filter (fun p => !table.contains p)) []) }
  | classify (s : Sync) (table : Table) (inflight : Inflight)
      (phantoms candidates : List UInt32) (newRecords : List (UInt32 × ProcessRecord))
      (pid : UInt32)
      (hphase : s.phase =
        .running table inflight (.classifying phantoms candidates newRecords))
      (hmem : pid ∈ candidates) :
      ReseedStep s
        { s with
          phase := .running table inflight
            (.classifying phantoms (candidates.erase pid)
              (newRecords ++ ((classifyPid profiles s.proc pid).map (fun r => (pid, r))).toList)) }

inductive CommitStep : Sync → Sync → Prop where
  | commit (s : Sync) (table : Table) (inflight : Inflight) (phantoms : List UInt32)
      (newRecords : List (UInt32 × ProcessRecord))
      (hphase : s.phase = .running table inflight (.classifying phantoms [] newRecords)) :
      CommitStep s
        { s with
          phase := .running (commitReseed table phantoms newRecords).1 inflight .idle }

/-- The system without a reseed. -/
def convergence : Machine Sync where
  init s := s.queue = [] ∧ s.phase = .opened
  step s s' := ProcStep profiles s s' ∨ WalkStep profiles s s' ∨ ReaderStep profiles s s'

/-- The system with reseeds. -/
def withReseed : Machine Sync where
  init := (convergence profiles).init
  step s s' := (convergence profiles).step s s' ∨ ReseedStep profiles s s' ∨ CommitStep s s'

end Steps

/-- The reader has nothing left to do. -/
def Quiescent (s : Sync) (table : Table) : Prop :=
  s.queue = [] ∧ ∃ reseed, s.phase = .running table none reseed

/-! ## The table is a mirror of `classify_pid` -/

/-- The event, as a notice about the class of a PID.  A fork changes no class. -/
def notice : ProcEvent → Option (Notice UInt32)
  | .fork _ _ => none
  | .exec pid => some (.changed pid)
  | .exit pid => some (.cleared pid)

def notices (s : Sync) : List (Notice UInt32) := s.queue.filterMap notice

def mirrorOf (table : Table) (p : UInt32) : Option ProcessRecord := table[p]?

section Invariant

variable {profiles : List BrowserProfile}

/-- What the walk has got done.  A PID that matches and has no event under way has
been alive since the walk began. -/
structure Walked (source : UInt32 → Option ProcessRecord) (queue : List (Notice UInt32))
    (visited : List UInt32) (throughout : UInt32 → Prop) (table : Table) : Prop where
  cleared : ClearedBlank none source queue
  unread : ∀ p, p ∉ visited → table[p]? = none
  read : ∀ p, p ∈ visited → Quiet queue p → table[p]? = source p
  early : ∀ p, Quiet queue p → source p ≠ none → throughout p

def InSync (profiles : List BrowserProfile) (s : Sync) : Prop :=
  match s.phase with
  | .opened => ClearedBlank none (classifyPid profiles s.proc) (notices s)
  | .walking visited throughout table =>
      Walked (classifyPid profiles s.proc) (notices s) visited throughout table
  | .running table inflight _ =>
      Synced none (classifyPid profiles s.proc) (notices s) (mirrorOf table) inflight

/-- What a process step does to the classes and to the notices: nothing, or a
change at one PID with a notice about it. -/
theorem procStep_cases {s s' : Sync} (h : ProcStep profiles s s') :
    (classifyPid profiles s'.proc = classifyPid profiles s.proc ∧ notices s' = notices s ∧
        s'.phase = s.phase) ∨
      ∃ n : Notice UInt32, notices s' = notices s ++ [n] ∧
        (∀ p, n.key ≠ p → classifyPid profiles s'.proc p = classifyPid profiles s.proc p) ∧
        (∀ p, n = .cleared p → classifyPid profiles s'.proc p = none) ∧
        (s'.phase = s.phase ∨ s'.phase = s.phase.forget n.key) := by
  cases h with
  | fork parent child raw hparent hfree hclass =>
    left
    refine ⟨funext fun p => ?_, ?_, rfl⟩
    · simp only [classifyPid, Map.getElem?_insert]
      by_cases hp : child = p
      · -- the child had no process before, and matches nothing now
        rw [if_pos hp, ← hp, hfree]
        exact hclass
      · rw [if_neg hp]
    · simp [notices, notice]
  | exec pid raw hlive =>
    right
    refine ⟨.changed pid, by simp [notices, notice], fun p hp => ?_, fun p hp => ?_, Or.inl rfl⟩
    · have hne : pid ≠ p := hp
      simp only [classifyPid, Map.getElem?_insert, if_neg hne]
    · cases hp
  | exit pid hlive =>
    right
    refine ⟨.cleared pid, by simp [notices, notice], fun p hp => ?_, fun p hp => ?_, Or.inr rfl⟩
    · have hne : pid ≠ p := hp
      simp only [classifyPid, Map.getElem?_erase, if_neg hne]
    · cases hp
      simp [classifyPid]

theorem Walked.push {source source' : UInt32 → Option ProcessRecord}
    {queue : List (Notice UInt32)} {visited : List UInt32} {throughout throughout' : UInt32 → Prop}
    {table : Table} (h : Walked source queue visited throughout table) (n : Notice UInt32)
    (hsame : ∀ p, n.key ≠ p → source' p = source p)
    (hblank : ∀ p, n = .cleared p → source' p = none)
    (halive : ∀ p, n.key ≠ p → throughout p → throughout' p) :
    Walked source' (queue ++ [n]) visited throughout' table where
  cleared := h.cleared.push n hsame hblank
  unread := h.unread
  read := by
    intro p hp hquiet
    rw [quiet_append] at hquiet
    rw [hsame p (hquiet.2 n (List.mem_singleton.mpr rfl))]
    exact h.read p hp hquiet.1
  early := by
    intro p hquiet hclass
    rw [quiet_append] at hquiet
    have hne := hquiet.2 n (List.mem_singleton.mpr rfl)
    rw [hsame p hne] at hclass
    exact halive p hne (h.early p hquiet.1 hclass)

theorem inv_procStep {s s' : Sync} (h : InSync profiles s) (hstep : ProcStep profiles s s') :
    InSync profiles s' := by
  rcases procStep_cases hstep with ⟨hclass, hnotices, hphase⟩ |
      ⟨n, hnotices, hsame, hblank, hphase⟩
  · unfold InSync at h ⊢
    rwa [hphase, hclass, hnotices]
  · unfold InSync at h ⊢
    cases hp : s.phase with
    | opened =>
      have hphase' : s'.phase = .opened := by
        rcases hphase with heq | heq <;> rw [heq, hp]
        rfl
      rw [hp] at h
      rw [hphase', hnotices]
      exact ClearedBlank.push h n hsame hblank
    | walking visited throughout table =>
      rw [hp] at h
      rw [hnotices]
      rcases hphase with heq | heq
      · rw [heq, hp]
        exact Walked.push h n hsame hblank (fun _ _ halive => halive)
      · rw [heq, hp]
        exact Walked.push h n hsame hblank (fun p hne halive => ⟨halive, Ne.symm hne⟩)
    | running table inflight reseed =>
      have hphase' : s'.phase = .running table inflight reseed := by
        rcases hphase with heq | heq <;> rw [heq, hp]
        rfl
      rw [hp] at h
      rw [hphase', hnotices]
      exact Synced.push h n hsame hblank

theorem inv_walkStep {s s' : Sync} (h : InSync profiles s) (hstep : WalkStep profiles s s') :
    InSync profiles s' := by
  cases hstep with
  | start hphase =>
    unfold InSync at h ⊢
    rw [hphase] at h
    refine ⟨h, fun p _ => (by simp), fun p hp => (by cases hp), fun p _ hclass => ?_⟩
    -- a process that matches has a command line to read
    cases hraw : s.proc[p]? with
    | none => simp [classifyPid, hraw] at hclass
    | some raw => rfl
  | read pid visited throughout table hphase hnew =>
    unfold InSync at h ⊢
    rw [hphase] at h
    refine ⟨h.cleared, fun p hp => ?_, fun p hp hquiet => ?_, h.early⟩
    · rw [List.mem_cons, not_or] at hp
      rw [getElem?_seedEntry, if_neg (Ne.symm hp.1)]
      exact h.unread p hp.2
    · rw [getElem?_seedEntry]
      by_cases heq : pid = p
      · subst heq
        rw [if_pos rfl, h.unread pid hnew, Option.or_none]
      · rw [if_neg heq]
        exact h.read p ((List.mem_cons.mp hp).resolve_left (Ne.symm heq)) hquiet
  | done visited throughout table hphase hall =>
    unfold InSync at h ⊢
    rw [hphase] at h
    refine ⟨h.cleared, fun p v hhand => (by cases hhand), fun p _ hquiet => ?_⟩
    by_cases hp : p ∈ visited
    · exact h.read p hp hquiet
    · -- not listed, so not alive all through the walk, so not a match
      have hnone : classifyPid profiles s.proc p = none := by
        by_contra hclass
        exact hp (hall p (h.early p hquiet hclass))
      rw [hnone]
      exact h.unread p hp

theorem inv_readerStep {s s' : Sync} (h : InSync profiles s) (hstep : ReaderStep profiles s s') :
    InSync profiles s' := by
  cases hstep with
  | fork parent child rest table reseed hphase hqueue =>
    unfold InSync at h ⊢
    rw [hphase] at h ⊢
    unfold notices at h ⊢
    rw [hqueue] at h
    exact h
  | exec pid rest table reseed hphase hqueue =>
    unfold InSync at h ⊢
    rw [hphase] at h
    unfold notices at h ⊢
    rw [hqueue] at h
    exact Synced.take h rfl
  | exit pid rest table reseed hphase hqueue =>
    unfold InSync at h ⊢
    rw [hphase] at h
    unfold notices at h ⊢
    rw [hqueue] at h
    exact Synced.take h rfl
  | write pid record table reseed hphase =>
    unfold InSync at h ⊢
    rw [hphase] at h
    refine Synced.store h ?_ (fun q hq => ?_)
    · exact (getElem?_writeEvent table pid pid record).trans (if_pos rfl)
    · exact (getElem?_writeEvent table pid q record).trans (if_neg hq)

theorem inv_step {s s' : Sync} (h : InSync profiles s) (hstep : (convergence profiles).step s s') :
    InSync profiles s' := by
  rcases hstep with hproc | hwalk | hreader
  · exact inv_procStep h hproc
  · exact inv_walkStep h hwalk
  · exact inv_readerStep h hreader

theorem inv_init {s : Sync} (h : (convergence profiles).init s) : InSync profiles s := by
  obtain ⟨hqueue, hphase⟩ := h
  unfold InSync notices
  rw [hphase, hqueue]
  exact clearedBlank_nil none _

theorem InSync.exact {s : Sync} {table : Table} (h : InSync profiles s) (hq : Quiescent s table)
    (p : UInt32) : table[p]? = classifyPid profiles s.proc p := by
  obtain ⟨hqueue, reseed, hphase⟩ := hq
  unfold InSync notices at h
  rw [hphase, hqueue] at h
  exact Synced.mirror_eq h p

end Invariant

/-- Startup and asynchronous events converge: whenever the queue is empty and no
event is half-applied, the published table maps exactly the matching processes
to what `classify_pid` gives for them. -/
theorem quiescent_exact (profiles : List BrowserProfile) (s : Sync) (table : Table)
    (hs : (convergence profiles).Reachable s) (hq : Quiescent s table) (p : UInt32) :
    table[p]? = classifyPid profiles s.proc p :=
  InSync.exact (hs.invariant (InSync profiles) (fun _ h => inv_init h)
    (fun _ _ _ h hstep => inv_step h hstep)) hq p

theorem soloProc_keys (raw : List UInt8) : (soloProc raw).keys = [1] := by
  rfl

/-- The walk misses nothing of a renderer that is forked and execs while it runs. -/
theorem quiescent_exact_fork_during_walk :
    ∃ s table, (convergence defaultProfiles).Reachable s ∧ Quiescent s table ∧
      table[(2 : UInt32)]? = some ⟨some "chromium"⟩ := by
  let s₀ : Sync := { proc := soloProc shellCmdline, queue := [], phase := .opened }
  have h₀ : (convergence defaultProfiles).Reachable s₀ := .start ⟨rfl, rfl⟩
  have h₁ := h₀.tail (.inr (.inl (.start s₀ rfl)))
  have h₂ := h₁.tail (.inr (.inl (.read _ 1 [] _ ∅ rfl (by simp))))
  have hlive : (soloProc shellCmdline)[(1 : UInt32)]?.isSome :=
    Option.isSome_of_eq_some (soloProc_one shellCmdline)
  have h₃ := h₂.tail (.inl (.fork _ 1 2 shellCmdline hlive (soloProc_two shellCmdline)
    classify_shellCmdline))
  have h₄ := h₃.tail (.inl (.exec _ 2 rendererCmdline (by simp)))
  have hlisted : ∀ p, (soloProc shellCmdline)[p]?.isSome → p ∈ [(1 : UInt32)] := by
    intro p hp
    rw [← soloProc_keys shellCmdline, Std.ExtTreeMap.mem_keys,
      ← Std.ExtTreeMap.isSome_getElem?_iff_mem]
    exact hp
  have h₅ := h₄.tail (.inr (.inl (.done _ [1] _ _ rfl hlisted)))
  have h₆ := h₅.tail (.inr (.inr (.fork _ 1 2 _ _ _ rfl rfl)))
  have h₇ := h₆.tail (.inr (.inr (.exec _ 2 _ _ _ rfl rfl)))
  have h₈ := h₇.tail (.inr (.inr (.write _ 2 _ _ _ rfl)))
  refine ⟨_, _, h₈, ⟨rfl, _, rfl⟩, ?_⟩
  rw [quiescent_exact defaultProfiles _ _ h₈ ⟨rfl, _, rfl⟩ 2]
  simp [classifyPid, classify_rendererCmdline]

end BsslRam.TableSync
