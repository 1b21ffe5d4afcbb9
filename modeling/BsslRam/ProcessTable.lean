import BsslRam.Scanner

/-!
# The process table

`daemon/src/process_table.rs`.  The table replaces the walk of `/proc` in every
cycle: it is seeded once, and the events of the process connector keep it up to
date.  It holds the processes that match a profile, with the name of the first
profile that matches.

The second half compares the table with the walk over whole traces of process
lifecycles, with each event applied right after its step.  The table acts on
`exec` and `exit` only.  `agree_iff_harmless` says which steps that misses: a
fork of a process that matches, whose child matches from the start, and an
argv that a process rewrites into one with another class.
-/

namespace BsslRam.ProcessTable

open BsslRam.Lib BsslRam.Scanner

structure ProcessRecord where
  profileName : Option String
  deriving DecidableEq, Repr

abbrev Table := Map UInt32 ProcessRecord

/-- What `classify_pid` makes of the bytes of `cmdline`. -/
def classifyCmdline (profiles : List BrowserProfile) (raw : List UInt8) :
    Option ProcessRecord :=
  if raw.isEmpty then none
  else
    let args := parseCmdline raw
    (profiles.find? (fun profile => matchProfile args profile)).map
      (fun profile => { profileName := some profile.name })

/-- `classify_pid`: read the command line of `pid` and run it through the
profiles.  A PID without a process has no command line to read. -/
def classifyPid (profiles : List BrowserProfile) (proc : ProcFs) (pid : UInt32) :
    Option ProcessRecord :=
  proc[pid]?.bind (classifyCmdline profiles)

/-- One entry of the directory, in `seed_from_proc`. -/
def seedEntry (profiles : List BrowserProfile) (proc : ProcFs) (table : Table)
    (pid : UInt32) : Table :=
  match classifyPid profiles proc pid with
  | some record => table.insert pid record
  | none => table

/-- `seed_from_proc` on a `/proc` that stands still. -/
def seedFromProc (profiles : List BrowserProfile) (proc : ProcFs) (table : Table) : Table :=
  proc.keys.foldl (seedEntry profiles proc) table

inductive ProcEvent where
  | fork (parent child : UInt32)
  | exec (pid : UInt32)
  | exit (pid : UInt32)
  deriving DecidableEq, Repr

/-- The write of an event, given what `classify_pid` found. -/
def writeEvent (table : Table) (pid : UInt32) : Option ProcessRecord → Table
  | some record => table.insert pid record
  | none => table.erase pid

/-- `apply_event`. -/
def applyEvent (profiles : List BrowserProfile) (proc : ProcFs) (table : Table) :
    ProcEvent → Table
  | .fork _ _ => table
  | .exec pid => writeEvent table pid (classifyPid profiles proc pid)
  | .exit pid => table.erase pid

/-- `live_targets`: the matched targets that the table knows of. -/
def liveTargets (table : Table) : List TargetProcess :=
  table.toList.filterMap (fun (pid, record) =>
    record.profileName.map (fun profile => { pid, profile }))

/-- `tracked`. -/
def tracked (table : Table) : Nat := table.size

/-! ## Reading the table back -/

theorem getElem?_writeEvent (table : Table) (pid p : UInt32) (r : Option ProcessRecord) :
    (writeEvent table pid r)[p]? = if pid = p then r else table[p]? := by
  cases r with
  | none => exact Map.getElem?_erase table pid p
  | some record => exact Map.getElem?_insert table pid p record

theorem getElem?_seedEntry (profiles : List BrowserProfile) (proc : ProcFs) (table : Table)
    (pid p : UInt32) :
    (seedEntry profiles proc table pid)[p]? =
      if pid = p then (classifyPid profiles proc p).or table[p]? else table[p]? := by
  unfold seedEntry
  by_cases hp : pid = p
  · subst hp
    rw [if_pos rfl]
    cases hclass : classifyPid profiles proc pid with
    | none => simp
    | some record => simp
  · rw [if_neg hp]
    cases hclass : classifyPid profiles proc pid with
    | none => rfl
    | some record => simp [Map.getElem?_insert, hp]

private theorem getElem?_foldl_seedEntry (profiles : List BrowserProfile) (proc : ProcFs)
    (pids : List UInt32) (table : Table) (p : UInt32) :
    (pids.foldl (seedEntry profiles proc) table)[p]? =
      if p ∈ pids then (classifyPid profiles proc p).or table[p]? else table[p]? := by
  induction pids generalizing table with
  | nil => rfl
  | cons pid pids ih =>
    rw [List.foldl_cons, ih, getElem?_seedEntry]
    by_cases hp : pid = p
    · subst hp
      by_cases hrest : pid ∈ pids
      · simp only [hrest, if_true, List.mem_cons, true_or]
        cases classifyPid profiles proc pid <;> rfl
      · simp [hrest]
    · have hmem : p ∈ pid :: pids ↔ p ∈ pids := by
        simp [Ne.symm hp]
      simp only [hp, if_false, hmem]

/-- The seed puts exactly the matching processes into an empty table. -/
theorem getElem?_seedFromProc (profiles : List BrowserProfile) (proc : ProcFs) (p : UInt32) :
    (seedFromProc profiles proc ∅)[p]? = classifyPid profiles proc p := by
  unfold seedFromProc
  rw [getElem?_foldl_seedEntry]
  by_cases hp : p ∈ proc.keys
  · rw [if_pos hp]
    simp
  · rw [if_neg hp]
    have hgone : proc[p]? = none := by
      simpa [Std.ExtTreeMap.mem_keys] using hp
    simp [classifyPid, hgone]

theorem mem_liveTargets (table : Table) (t : TargetProcess) :
    t ∈ liveTargets table ↔ table[t.pid]?.bind ProcessRecord.profileName = some t.profile := by
  simp only [liveTargets, List.mem_filterMap, Prod.exists,
    Std.ExtTreeMap.mem_toList_iff_getElem?_eq_some, Option.map_eq_some_iff,
    Option.bind_eq_some_iff]
  constructor
  · intro ⟨pid, record, hrecord, profile, hprofile, ht⟩
    rw [← ht]
    exact ⟨record, hrecord, hprofile⟩
  · intro ⟨record, hrecord, hprofile⟩
    exact ⟨t.pid, record, hrecord, t.profile, hprofile, rfl⟩

/-- The walk and `classify_pid` agree on every command line, the empty one
included. -/
theorem mem_scanTargets_iff_classify (profiles : List BrowserProfile) (proc : ProcFs)
    (t : TargetProcess) :
    t ∈ scanTargets profiles proc ↔
      (classifyPid profiles proc t.pid).bind ProcessRecord.profileName = some t.profile := by
  have hname : ∀ raw, (classifyCmdline profiles raw).bind ProcessRecord.profileName =
      (profiles.find? (fun p => matchProfile (parseCmdline raw) p)).map
        BrowserProfile.name := by
    intro raw
    unfold classifyCmdline
    cases raw with
    | nil =>
      have hnil : parseCmdline [] = [] := rfl
      have hnone : profiles.find? (fun p => matchProfile (parseCmdline []) p) = none := by
        rw [hnil]
        exact List.find?_eq_none.mpr (fun p _ => by simp [matchProfile])
      rw [hnone]
      rfl
    | cons b raw =>
      simp only [List.isEmpty_cons, Bool.false_eq_true, if_false, Option.bind_map]
      cases profiles.find? (fun p => matchProfile (parseCmdline (b :: raw)) p) <;> rfl
  rw [mem_scanTargets]
  unfold classifyPid
  cases hraw : proc[t.pid]? with
  | none => simp
  | some raw => simp [hname]

/-! ## Process lifecycles -/

/-- A step in the life of a process.  A child starts with a copy of its parent's
command line; `rewrite` is a process that changes its own argv in place. -/
inductive Life where
  | fork (parent child : UInt32)
  | exec (pid : UInt32) (raw : List UInt8)
  | rewrite (pid : UInt32) (raw : List UInt8)
  | exit (pid : UInt32)
  deriving DecidableEq

namespace Life

def apply (proc : ProcFs) : Life → ProcFs
  | fork parent child =>
      match proc[parent]? with
      | some raw => proc.insert child raw
      | none => proc
  | exec pid raw => proc.insert pid raw
  | rewrite pid raw => proc.insert pid raw
  | exit pid => proc.erase pid

/-- Only a live process acts, and a child gets a PID that is free. -/
def Valid (proc : ProcFs) : Life → Prop
  | fork parent child => proc[parent]?.isSome ∧ proc[child]? = none
  | exec pid _ => proc[pid]?.isSome
  | rewrite pid _ => proc[pid]?.isSome
  | exit pid => proc[pid]?.isSome

/-- The event that the connector sends for the step. -/
def event : Life → Option ProcEvent
  | fork parent child => some (.fork parent child)
  | exec pid _ => some (.exec pid)
  | rewrite _ _ => none
  | exit pid => some (.exit pid)

/-- The step does not change the class of a process behind the table's back. -/
def Harmless (profiles : List BrowserProfile) (proc : ProcFs) : Life → Prop
  | fork parent _ => classifyPid profiles proc parent = none
  | rewrite pid raw => classifyCmdline profiles raw = classifyPid profiles proc pid
  | exec _ _ => True
  | exit _ => True

end Life

/-- `/proc` and the table side by side. -/
structure Tracked where
  proc : ProcFs
  table : Table

/-- A lifecycle step, and its event right after it. -/
def Tracked.step (profiles : List BrowserProfile) (s : Tracked) (step : Life) : Tracked :=
  let proc := step.apply s.proc
  { proc
    table := match step.event with
      | some event => applyEvent profiles proc s.table event
      | none => s.table }

/-- A trace from a table that was just seeded. -/
def Tracked.run (profiles : List BrowserProfile) (proc : ProcFs) (steps : List Life) : Tracked :=
  steps.foldl (Tracked.step profiles) { proc, table := seedFromProc profiles proc ∅ }

/-- `/proc` after the steps. -/
def procAfter (proc : ProcFs) (steps : List Life) : ProcFs := steps.foldl Life.apply proc

/-- Every step is one that its `/proc` allows. -/
def ValidTrace (proc : ProcFs) (steps : List Life) : Prop :=
  ∀ (k : Nat) (step : Life), steps[k]? = some step → step.Valid (procAfter proc (steps.take k))

/-- Every step is harmless in its `/proc`. -/
def HarmlessTrace (profiles : List BrowserProfile) (proc : ProcFs) (steps : List Life) : Prop :=
  ∀ (k : Nat) (step : Life), steps[k]? = some step →
    step.Harmless profiles (procAfter proc (steps.take k))

/-- The table and the walk report the same targets. -/
def Agree (profiles : List BrowserProfile) (s : Tracked) : Prop :=
  ∀ t, t ∈ liveTargets s.table ↔ t ∈ scanTargets profiles s.proc

/-! ## Where the table and the walk part -/

section Agreement

variable {profiles : List BrowserProfile}

/-- The table maps every PID to what `classify_pid` gives for it now. -/
def Exact (profiles : List BrowserProfile) (s : Tracked) : Prop :=
  ∀ p, s.table[p]? = classifyPid profiles s.proc p

/-- Every record carries the name of a profile. -/
def Named (table : Table) : Prop :=
  ∀ (p : UInt32) (record : ProcessRecord), table[p]? = some record →
    ∃ name, record.profileName = some name

theorem named_of_classify {proc : ProcFs} {p : UInt32} {record : ProcessRecord}
    (h : classifyPid profiles proc p = some record) :
    ∃ name, record.profileName = some name := by
  obtain ⟨raw, -, hclass⟩ := Option.bind_eq_some_iff.mp h
  unfold classifyCmdline at hclass
  split at hclass
  · cases hclass
  · obtain ⟨profile, -, rfl⟩ := Option.map_eq_some_iff.mp hclass
    exact ⟨profile.name, rfl⟩

theorem named_step {s : Tracked} (h : Named s.table) (step : Life) :
    Named (s.step profiles step).table := by
  intro p record hrecord
  cases step with
  | fork parent child => exact h p record hrecord
  | rewrite pid raw => exact h p record hrecord
  | exec pid raw =>
    simp only [Tracked.step, Life.event, applyEvent, getElem?_writeEvent] at hrecord
    split at hrecord
    · exact named_of_classify hrecord
    · exact h p record hrecord
  | exit pid =>
    simp only [Tracked.step, Life.event, applyEvent, Map.getElem?_erase] at hrecord
    split at hrecord
    · cases hrecord
    · exact h p record hrecord

/-- With named records, the same targets mean the same records. -/
theorem agree_iff_exact {s : Tracked} (hnamed : Named s.table) :
    Agree profiles s ↔ Exact profiles s := by
  have hinj : ∀ {a b : ProcessRecord}, a.profileName = b.profileName → a = b := by
    intro a b hab
    cases a
    cases b
    exact congrArg ProcessRecord.mk hab
  constructor
  · intro hagree p
    have hsame : ∀ name, s.table[p]?.bind ProcessRecord.profileName = some name ↔
        (classifyPid profiles s.proc p).bind ProcessRecord.profileName = some name := by
      intro name
      have ht := hagree { pid := p, profile := name }
      rwa [mem_liveTargets, mem_scanTargets_iff_classify] at ht
    cases htable : s.table[p]? with
    | none =>
      cases hclass : classifyPid profiles s.proc p with
      | none => rfl
      | some record =>
        obtain ⟨name, hname⟩ := named_of_classify hclass
        have hfound := (hsame name).mpr (by rw [hclass]; exact hname)
        rw [htable] at hfound
        cases hfound
    | some record =>
      obtain ⟨name, hname⟩ := hnamed p record htable
      have hfound := (hsame name).mp (by rw [htable]; exact hname)
      obtain ⟨other, hother, hname'⟩ := Option.bind_eq_some_iff.mp hfound
      rw [hother, hinj (hname.trans hname'.symm)]
  · intro hexact t
    rw [mem_liveTargets, mem_scanTargets_iff_classify, hexact t.pid]

section Steps

variable {s : Tracked} (hexact : Exact profiles s)

include hexact

/-- The child has its parent's command line and no entry. -/
theorem exact_fork_iff {parent child : UInt32} (hvalid : (Life.fork parent child).Valid s.proc) :
    Exact profiles (s.step profiles (.fork parent child)) ↔
      (Life.fork parent child).Harmless profiles s.proc := by
  obtain ⟨hlive, hfree⟩ := hvalid
  obtain ⟨raw, hraw⟩ := Option.isSome_iff_exists.mp hlive
  have hchild : s.table[child]? = none := by
    rw [hexact child, classifyPid, hfree, Option.bind_none]
  simp only [Exact, Life.Harmless, Tracked.step, Life.event, applyEvent, Life.apply, hraw,
    classifyPid, Map.getElem?_insert, Option.bind_some]
  constructor
  · intro h
    have hnew := h child
    rw [if_pos rfl, Option.bind_some, hchild] at hnew
    exact hnew.symm
  · intro h p
    by_cases hp : child = p
    · subst hp
      rw [if_pos rfl, Option.bind_some, hchild, h]
    · rw [if_neg hp]
      exact hexact p

/-- An exec is read when its event is applied. -/
theorem exact_exec (pid : UInt32) (raw : List UInt8) :
    Exact profiles (s.step profiles (.exec pid raw)) := by
  intro p
  simp only [Tracked.step, Life.event, applyEvent, getElem?_writeEvent]
  by_cases hp : pid = p
  · rw [if_pos hp, hp]
  · rw [if_neg hp, hexact p]
    simp only [classifyPid, Life.apply, Map.getElem?_insert, if_neg hp]

/-- A rewrite of the command line has no event. -/
theorem exact_rewrite_iff (pid : UInt32) (raw : List UInt8) :
    Exact profiles (s.step profiles (.rewrite pid raw)) ↔
      (Life.rewrite pid raw).Harmless profiles s.proc := by
  simp only [Exact, Life.Harmless, Tracked.step, Life.event, Life.apply, classifyPid,
    Map.getElem?_insert]
  constructor
  · intro h
    have hnew := h pid
    rw [if_pos rfl, Option.bind_some] at hnew
    rw [← hnew]
    exact hexact pid
  · intro h p
    by_cases hp : pid = p
    · subst hp
      rw [if_pos rfl, Option.bind_some, h]
      exact hexact pid
    · rw [if_neg hp]
      exact hexact p

theorem exact_exit (pid : UInt32) : Exact profiles (s.step profiles (.exit pid)) := by
  intro p
  simp only [Tracked.step, Life.event, applyEvent, Life.apply, classifyPid, Map.getElem?_erase]
  by_cases hp : pid = p
  · rw [if_pos hp, if_pos hp, Option.bind_none]
  · rw [if_neg hp, if_neg hp]
    exact hexact p

/-- One step keeps an exact table exact when it is harmless, and only then. -/
theorem exact_step_iff {step : Life} (hvalid : step.Valid s.proc) :
    Exact profiles (s.step profiles step) ↔ step.Harmless profiles s.proc := by
  cases step with
  | fork parent child => exact exact_fork_iff hexact hvalid
  | exec pid raw => exact iff_of_true (exact_exec hexact pid raw) trivial
  | rewrite pid raw => exact exact_rewrite_iff hexact pid raw
  | exit pid => exact iff_of_true (exact_exit hexact pid) trivial

end Steps

theorem run_take_succ (profiles : List BrowserProfile) (proc : ProcFs) {steps : List Life}
    {k : Nat} {step : Life} (hstep : steps[k]? = some step) :
    Tracked.run profiles proc (steps.take (k + 1)) =
      (Tracked.run profiles proc (steps.take k)).step profiles step := by
  unfold Tracked.run
  rw [List.take_add_one, hstep, Option.toList_some, List.foldl_append, List.foldl_cons,
    List.foldl_nil]

theorem proc_run (profiles : List BrowserProfile) (proc : ProcFs) (steps : List Life) :
    (Tracked.run profiles proc steps).proc = procAfter proc steps := by
  induction steps using List.reverseRecOn with
  | nil => rfl
  | append_singleton steps step ih =>
    unfold Tracked.run procAfter at ih ⊢
    rw [List.foldl_append, List.foldl_append, ← ih]
    rfl

theorem exact_seed (profiles : List BrowserProfile) (proc : ProcFs) :
    Exact profiles { proc, table := seedFromProc profiles proc ∅ } :=
  fun p => getElem?_seedFromProc profiles proc p

theorem named_run (profiles : List BrowserProfile) (proc : ProcFs) (steps : List Life) :
    Named (Tracked.run profiles proc steps).table := by
  induction steps using List.reverseRecOn with
  | nil =>
    intro p record hrecord
    rw [Tracked.run, List.foldl_nil, getElem?_seedFromProc] at hrecord
    exact named_of_classify hrecord
  | append_singleton steps step ih =>
    unfold Tracked.run at ih ⊢
    rw [List.foldl_append, List.foldl_cons, List.foldl_nil]
    exact named_step ih step

/-- Over a whole trace, the table agrees with the walk after every step exactly
when no step forks a matching process or rewrites an argv into another class. -/
theorem agree_iff_harmless (profiles : List BrowserProfile) (proc : ProcFs)
    (steps : List Life) (hvalid : ValidTrace proc steps) :
    (∀ k, Agree profiles (Tracked.run profiles proc (steps.take k))) ↔
      HarmlessTrace profiles proc steps := by
  have hstepIff : ∀ {k : Nat} {step : Life}, steps[k]? = some step →
      Exact profiles (Tracked.run profiles proc (steps.take k)) →
      (Exact profiles (Tracked.run profiles proc (steps.take (k + 1))) ↔
        step.Harmless profiles (procAfter proc (steps.take k))) := by
    intro k step hstep hexact
    have hvalidStep := hvalid k step hstep
    rw [← proc_run profiles] at hvalidStep ⊢
    rw [run_take_succ profiles proc hstep]
    exact exact_step_iff hexact hvalidStep
  simp only [agree_iff_exact (named_run profiles proc _)]
  constructor
  · intro hexact k step hstep
    exact (hstepIff hstep (hexact k)).mp (hexact (k + 1))
  · intro hharmless k
    induction k with
    | zero => exact exact_seed profiles proc
    | succ k ih =>
      cases hstep : steps[k]? with
      | none =>
        -- past the end of the trace nothing happens any more
        rwa [List.take_add_one, hstep, Option.toList_none, List.append_nil]
      | some step => exact (hstepIff hstep ih).mpr (hharmless k step hstep)

end Agreement

/-- The bytes of a `cmdline` file. -/
def cmdlineOf (text : String) : List UInt8 := text.toList.map (fun c => UInt8.ofNat c.toNat)

def shellCmdline : List UInt8 := cmdlineOf "sh\x00"

def rendererCmdline : List UInt8 := cmdlineOf "chrome\x00--type=renderer\x00"

theorem classify_shellCmdline : classifyCmdline defaultProfiles shellCmdline = none := by
  decide +kernel

theorem classify_rendererCmdline :
    classifyCmdline defaultProfiles rendererCmdline = some ⟨some "chromium"⟩ := by
  decide +kernel

/-- One process under PID 1. -/
def soloProc (raw : List UInt8) : ProcFs := (∅ : ProcFs).insert 1 raw

theorem soloProc_one (raw : List UInt8) : (soloProc raw)[(1 : UInt32)]? = some raw := by
  simp [soloProc]

theorem soloProc_two (raw : List UInt8) : (soloProc raw)[(2 : UInt32)]? = none := by
  simp [soloProc]

theorem fork_soloProc (raw : List UInt8) :
    (Life.fork 1 2).apply (soloProc raw) = (soloProc raw).insert 2 raw := by
  simp only [Life.apply, soloProc_one]

/-- A shell forks and the child becomes a renderer: the table follows. -/
theorem agree_iff_harmless_fork_exec :
    ValidTrace (soloProc shellCmdline) [.fork 1 2, .exec 2 rendererCmdline] ∧
      ∀ k, Agree defaultProfiles (Tracked.run defaultProfiles (soloProc shellCmdline)
        ([Life.fork 1 2, .exec 2 rendererCmdline].take k)) := by
  have hvalid : ValidTrace (soloProc shellCmdline) [.fork 1 2, .exec 2 rendererCmdline] := by
    intro k step hstep
    match k with
    | 0 =>
      cases hstep
      exact ⟨Option.isSome_of_eq_some (soloProc_one shellCmdline), soloProc_two shellCmdline⟩
    | 1 =>
      cases hstep
      change ((Life.fork 1 2).apply (soloProc shellCmdline))[(2 : UInt32)]?.isSome
      rw [fork_soloProc]
      simp
    | k + 2 => cases hstep
  refine ⟨hvalid, (agree_iff_harmless defaultProfiles _ _ hvalid).mpr ?_⟩
  intro k step hstep
  match k with
  | 0 =>
    cases hstep
    change (soloProc shellCmdline)[(1 : UInt32)]?.bind (classifyCmdline defaultProfiles) = none
    rw [soloProc_one]
    exact classify_shellCmdline
  | 1 =>
    cases hstep
    trivial
  | k + 2 => cases hstep

/-- A renderer forks: the child is a target of the walk at once, and the table
does not know it. -/
theorem fork_of_renderer_not_agree :
    ¬ ∀ (profiles : List BrowserProfile) (proc : ProcFs) (steps : List Life),
      ValidTrace proc steps → Agree profiles (Tracked.run profiles proc steps) := by
  intro hclaim
  have hvalid : ValidTrace (soloProc rendererCmdline) [.fork 1 2] := by
    intro k step hstep
    match k with
    | 0 =>
      cases hstep
      exact ⟨Option.isSome_of_eq_some (soloProc_one rendererCmdline),
        soloProc_two rendererCmdline⟩
    | k + 1 => cases hstep
  have hagree := hclaim defaultProfiles _ _ hvalid
  have hexact := (agree_iff_exact (named_run _ _ _)).mp hagree 2
  have htable : (seedFromProc defaultProfiles (soloProc rendererCmdline) ∅)[(2 : UInt32)]? =
      none := by
    rw [getElem?_seedFromProc, classifyPid, soloProc_two, Option.bind_none]
  have hchild : classifyPid defaultProfiles
      ((Life.fork 1 2).apply (soloProc rendererCmdline)) 2 = some ⟨some "chromium"⟩ := by
    rw [fork_soloProc, classifyPid, Map.getElem?_insert, if_pos rfl, Option.bind_some,
      classify_rendererCmdline]
  have hmismatch : (none : Option ProcessRecord) = some ⟨some "chromium"⟩ :=
    htable.symm.trans (hexact.trans hchild)
  cases hmismatch

end BsslRam.ProcessTable
