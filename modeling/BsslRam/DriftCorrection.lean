import BsslRam.TableSync

/-!
# Drift correction next to the reader thread

`reseed_drift_correction` lists `/proc`, copies the keys of the table, reads the
command line of each candidate, and commits under the write lock.  It holds no
lock in between, so what it commits may be out of date.

That does no harm to a PID with an event under way: the event is applied after
the commit and puts the PID right.  `CommitOk` is about the others.  A phantom
must not match by now, and a newcomer must still have the class that was read.
`commit_exact_iff` says that this is exactly what is needed.

It is a condition on the state at the commit.  In terms of the schedule, it holds if every
process that has exec'd or exited since the listing still has an event under way
(`commitOk_of_underWay`): the reader must not catch up with what happens during a reseed.
-/

namespace BsslRam.DriftCorrection

open BsslRam.Lib BsslRam.Lib.Mirror BsslRam.Scanner BsslRam.ProcessTable BsslRam.TableSync

/-! ## What a commit writes -/

/-- The sets that a reseed works with do not overlap, as differences of sets. -/
structure Apart (phantoms candidates : List UInt32)
    (newRecords : List (UInt32 × ProcessRecord)) : Prop where
  nodup : (candidates ++ newRecords.map Prod.fst).Nodup
  apart : ∀ p, p ∈ phantoms → p ∉ candidates ++ newRecords.map Prod.fst

section Commit

variable {table : Table} {phantoms candidates : List UInt32}
  {newRecords : List (UInt32 × ProcessRecord)} {p : UInt32}

theorem commit_of_newcomer (hapart : Apart phantoms candidates newRecords)
    {r : ProcessRecord} (hmem : (p, r) ∈ newRecords) :
    (commitReseed table phantoms newRecords).1[p]? = some r :=
  Map.getElem?_foldl_insert_of_mem (List.nodup_append.mp hapart.nodup).2.1 hmem _

theorem commit_of_phantom (hapart : Apart phantoms candidates newRecords)
    (hmem : p ∈ phantoms) : (commitReseed table phantoms newRecords).1[p]? = none := by
  have hnot : p ∉ newRecords.map Prod.fst :=
    fun h => hapart.apart p hmem (List.mem_append_right _ h)
  unfold commitReseed
  rw [Map.getElem?_foldl_insert_of_not_mem hnot, Map.getElem?_foldl_erase, if_pos hmem]

theorem commit_of_neither (hphantom : p ∉ phantoms) (hnew : p ∉ newRecords.map Prod.fst) :
    (commitReseed table phantoms newRecords).1[p]? = table[p]? := by
  unfold commitReseed
  rw [Map.getElem?_foldl_insert_of_not_mem hnew, Map.getElem?_foldl_erase, if_neg hphantom]

end Commit

/-! ## The invariant with reseeds -/

/-- Where the reseed is; nowhere before the table is published. -/
def reseedOf : Phase → Reseed
  | .running _ _ reseed => reseed
  | _ => .idle

/-- The lists that a reseed holds. -/
def ReseedOk : Reseed → Prop
  | .idle => True
  | .listed livePids => livePids.Nodup
  | .classifying phantoms candidates newRecords => Apart phantoms candidates newRecords

/-- A commit is right about every PID that no event is under way for: a phantom does
not match, and a newcomer matches as it was read. -/
def CommitOk (profiles : List BrowserProfile) (s : Sync) : Prop :=
  ∀ table inflight phantoms newRecords,
    s.phase = .running table inflight (.classifying phantoms [] newRecords) →
    ∀ p, ¬ Holds inflight p → Quiet (notices s) p →
      (p ∈ phantoms → classifyPid profiles s.proc p = none) ∧
      ∀ r, (p, r) ∈ newRecords → classifyPid profiles s.proc p = some r

/-- The step is no commit, or one that is right. -/
def GoodCommit (profiles : List BrowserProfile) (s s' : Sync) : Prop :=
  CommitStep s s' → CommitOk profiles s

section Invariant

variable {profiles : List BrowserProfile}

/-- Only the reseed moves the reseed on. -/
theorem reseedOf_convergence {s s' : Sync} (hstep : (convergence profiles).step s s') :
    reseedOf s'.phase = reseedOf s.phase := by
  rcases hstep with hproc | hwalk | hreader
  · cases hproc with
    | fork parent child raw hparent hfree hclass => rfl
    | exec pid raw hlive => rfl
    | exit pid hlive =>
      change reseedOf (s.phase.forget pid) = _
      cases s.phase with
      | opened => rfl
      | walking visited throughout table => rfl
      | running table inflight reseed => rfl
  · cases hwalk with
    | start hphase => rw [hphase]; rfl
    | read pid visited throughout table hphase hnew => rw [hphase]; rfl
    | done visited throughout table hphase hall => rw [hphase]; rfl
  · cases hreader with
    | fork parent child rest table reseed hphase hqueue => rfl
    | exec pid rest table reseed hphase hqueue => rw [hphase]; rfl
    | exit pid rest table reseed hphase hqueue => rw [hphase]; rfl
    | write pid record table reseed hphase => rw [hphase]; rfl

theorem reseedOk_reseed {s s' : Sync} (h : ReseedOk (reseedOf s.phase))
    (hstep : ReseedStep profiles s s') : ReseedOk (reseedOf s'.phase) := by
  cases hstep with
  | list table inflight hphase => exact Std.ExtTreeMap.nodup_keys
  | copyKeys table inflight livePids hphase =>
    rw [hphase] at h
    refine ⟨?_, fun p hp => ?_⟩
    · rw [List.map_nil, List.append_nil]
      exact h.filter _
    · -- a phantom was not listed, a candidate was
      rw [List.map_nil, List.append_nil]
      intro hcand
      have hlisted := (List.mem_filter.mp hcand).1
      have hunlisted := (List.mem_filter.mp hp).2
      simp [hlisted] at hunlisted
  | classify table inflight phantoms candidates newRecords pid hphase hmem =>
    rw [hphase] at h
    -- the PID moves from the candidates to the records, or out of both
    have hperm : (candidates ++ newRecords.map Prod.fst).Perm
        (candidates.erase pid ++ (newRecords.map Prod.fst ++ [pid])) := by
      refine ((List.perm_cons_erase hmem).append_right _).trans ?_
      rw [← List.append_assoc]
      exact (List.perm_append_singleton pid _).symm
    have hsub : (candidates.erase pid ++ (newRecords ++
        ((classifyPid profiles s.proc pid).map (fun r => (pid, r))).toList).map
          Prod.fst).Sublist (candidates.erase pid ++ (newRecords.map Prod.fst ++ [pid])) := by
      rw [List.map_append]
      refine List.Sublist.append_left (List.Sublist.append_left ?_ _) _
      cases classifyPid profiles s.proc pid with
      | none => exact List.nil_sublist _
      | some r => exact List.Sublist.refl _
    exact ⟨(hperm.nodup_iff.mp h.nodup).sublist hsub,
      fun p hp hin => h.apart p hp (hperm.mem_iff.mpr (hsub.subset hin))⟩

theorem inv_reseed {s s' : Sync} (h : InSync profiles s) (hstep : ReseedStep profiles s s') :
    InSync profiles s' := by
  unfold InSync at h ⊢
  cases hstep with
  | list table inflight hphase =>
    rw [hphase] at h
    exact h
  | copyKeys table inflight livePids hphase =>
    rw [hphase] at h
    exact h
  | classify table inflight phantoms candidates newRecords pid hphase hmem =>
    rw [hphase] at h
    exact h

theorem inv_commit {s s' : Sync} (h : InSync profiles s) (hok : ReseedOk (reseedOf s.phase))
    (hcommit : CommitOk profiles s) (hstep : CommitStep s s') : InSync profiles s' := by
  cases hstep with
  | commit table inflight phantoms newRecords hphase =>
    unfold InSync at h ⊢
    rw [hphase] at h hok
    refine Synced.overwrite h (fun p hfree hquiet => ?_)
    obtain ⟨hphantom, hnew⟩ :=
      hcommit table inflight phantoms newRecords hphase p hfree hquiet
    by_cases hp : p ∈ phantoms
    · rw [hphantom hp]
      exact commit_of_phantom hok hp
    · by_cases hr : p ∈ newRecords.map Prod.fst
      · obtain ⟨⟨q, r⟩, hmem, rfl⟩ := List.mem_map.mp hr
        rw [hnew r hmem]
        exact commit_of_newcomer hok hmem
      · exact (commit_of_neither hp hr).trans (Synced.stored h p hfree hquiet)

/-- In a run whose commits are right, the table is a mirror all along. -/
theorem inv_reachable {s : Sync}
    (hs : ((withReseed profiles).within (GoodCommit profiles)).Reachable s) :
    InSync profiles s ∧ ReseedOk (reseedOf s.phase) := by
  refine hs.invariant (fun s => InSync profiles s ∧ ReseedOk (reseedOf s.phase)) ?_ ?_
  · intro s hinit
    refine ⟨inv_init hinit, ?_⟩
    rw [hinit.2]
    trivial
  · intro s s' _ ⟨hinv, hok⟩ ⟨hstep, hgood⟩
    rcases hstep with hconv | hreseed | hcommit
    · refine ⟨inv_step hinv hconv, ?_⟩
      rw [reseedOf_convergence hconv]
      exact hok
    · exact ⟨inv_reseed hinv hreseed, reseedOk_reseed hok hreseed⟩
    · refine ⟨inv_commit hinv hok (hgood hcommit) hcommit, ?_⟩
      cases hcommit
      trivial

end Invariant

/-! ## From the listing to the commit -/

/-- A reseed has listed `/proc` and not committed yet.  `moved` are the PIDs that have exec'd
or exited since the listing. -/
inductive SinceListing (profiles : List BrowserProfile) : List UInt32 → Sync → Prop where
  | list (s : Sync) (table : Table) (inflight : Inflight)
      (hphase : s.phase = .running table inflight .idle) :
      SinceListing profiles []
        { s with phase := .running table inflight (.listed s.proc.keys) }
  | proc {moved : List UInt32} {s s' : Sync} (new : List (Notice UInt32))
      (h : SinceListing profiles moved s) (hstep : ProcStep profiles s s')
      (hnew : notices s' = notices s ++ new) :
      SinceListing profiles (moved ++ new.map Notice.key) s'
  | reader {moved : List UInt32} {s s' : Sync} (h : SinceListing profiles moved s)
      (hstep : ReaderStep profiles s s') : SinceListing profiles moved s'
  | reseed {moved : List UInt32} {s s' : Sync} (h : SinceListing profiles moved s)
      (hstep : ReseedStep profiles s s') : SinceListing profiles moved s'

/-- Each of these PIDs has an event in the queue or half-applied. -/
def UnderWay (moved : List UInt32) (s : Sync) : Prop :=
  ∀ table inflight reseed, s.phase = .running table inflight reseed →
    ∀ p ∈ moved, Holds inflight p ∨ ¬ Quiet (notices s) p

/-- What a reseed has found out about a PID is still so. -/
def UpToDate (profiles : List BrowserProfile) (s : Sync) (p : UInt32) : Reseed → Prop
  | .idle => False
  | .listed livePids => p ∉ livePids → classifyPid profiles s.proc p = none
  | .classifying phantoms _ newRecords =>
      (p ∈ phantoms → classifyPid profiles s.proc p = none) ∧
        ∀ r, (p, r) ∈ newRecords → classifyPid profiles s.proc p = some r

section Window

variable {profiles : List BrowserProfile} {s s' : Sync} {p : UInt32}

/-- It only depends on the class of the PID. -/
theorem UpToDate.congr {reseed : Reseed} (h : UpToDate profiles s p reseed)
    (hclass : classifyPid profiles s'.proc p = classifyPid profiles s.proc p) :
    UpToDate profiles s' p reseed := by
  cases reseed with
  | idle => exact h
  | listed livePids =>
    intro hp
    rw [hclass]
    exact h hp
  | classifying phantoms candidates newRecords =>
    refine ⟨fun hp => ?_, fun r hr => ?_⟩
    · rw [hclass]
      exact h.1 hp
    · rw [hclass]
      exact h.2 r hr

/-- Only an exec or an exit of the PID itself can change that. -/
theorem upToDate_proc {new : List (Notice UInt32)} (h : UpToDate profiles s p (reseedOf s.phase))
    (hstep : ProcStep profiles s s') (hnew : notices s' = notices s ++ new)
    (hp : p ∉ new.map Notice.key) : UpToDate profiles s' p (reseedOf s'.phase) := by
  rw [reseedOf_convergence (.inl hstep)]
  refine h.congr ?_
  rcases procStep_cases hstep with ⟨hclass, -, -⟩ | ⟨n, hnotices, hsame, -, -⟩
  · rw [hclass]
  · have hn : new = [n] := List.append_cancel_left (hnew.symm.trans hnotices)
    refine hsame p (fun heq => hp ?_)
    rw [hn, ← heq]
    exact List.mem_singleton.mpr rfl

theorem upToDate_reader (h : UpToDate profiles s p (reseedOf s.phase))
    (hstep : ReaderStep profiles s s') : UpToDate profiles s' p (reseedOf s'.phase) := by
  rw [reseedOf_convergence (.inr (.inr hstep))]
  refine h.congr ?_
  cases hstep <;> rfl

theorem upToDate_reseed (h : UpToDate profiles s p (reseedOf s.phase))
    (hstep : ReseedStep profiles s s') : UpToDate profiles s' p (reseedOf s'.phase) := by
  cases hstep with
  | list table inflight hphase =>
    rw [hphase] at h
    cases h
  | copyKeys table inflight livePids hphase =>
    rw [hphase] at h
    refine ⟨fun hp => h ?_, fun r hr => (by cases hr)⟩
    simpa using (List.mem_filter.mp hp).2
  | classify table inflight phantoms candidates newRecords pid hphase hmem =>
    rw [hphase] at h
    refine ⟨h.1, fun r hr => ?_⟩
    rcases List.mem_append.mp hr with hold | hread
    · exact h.2 r hold
    · obtain ⟨r', hr', heq⟩ := Option.map_eq_some_iff.mp (Option.mem_toList.mp hread)
      cases heq
      exact hr'

/-- A reseed is up to date about every PID that has not moved. -/
theorem SinceListing.upToDate {moved : List UInt32} (h : SinceListing profiles moved s) :
    ∀ p, p ∉ moved → UpToDate profiles s p (reseedOf s.phase) := by
  induction h with
  | list s table inflight hphase =>
    intro p _ hp
    rw [Std.ExtTreeMap.mem_keys, ← Std.ExtTreeMap.isSome_getElem?_iff_mem,
      Option.not_isSome_iff_eq_none] at hp
    rw [classifyPid, hp]
    rfl
  | proc new h hstep hnew ih =>
    intro p hp
    rw [List.mem_append, not_or] at hp
    exact upToDate_proc (ih p hp.1) hstep hnew hp.2
  | reader h hstep ih =>
    intro p hp
    exact upToDate_reader (ih p hp) hstep
  | reseed h hstep ih =>
    intro p hp
    exact upToDate_reseed (ih p hp) hstep

/-- With an event under way for everything that has moved, the commit is right. -/
theorem commitOk_of_underWay {moved : List UInt32} (h : SinceListing profiles moved s)
    (hunder : UnderWay moved s) : CommitOk profiles s := by
  intro table inflight phantoms newRecords hphase p hfree hquiet
  have hstill : p ∉ moved := by
    intro hp
    rcases hunder table inflight _ hphase p hp with hholds | hnotice
    · exact hfree hholds
    · exact hnotice hquiet
  have hdate := h.upToDate p hstill
  rw [hphase] at hdate
  exact hdate

end Window

/-! ## The reader alone -/

section Drain

variable {profiles : List BrowserProfile}

/-- With nothing half-applied, the reader can work off the whole queue from the front,
and leaves alone what no event is about. -/
theorem exists_drained_queue (proc : ProcFs) (reseed : Reseed) (queue : List ProcEvent)
    (table : Table) :
    ∃ table', Relation.ReflTransGen (convergence profiles).step
        { proc, queue, phase := .running table none reseed }
        { proc, queue := [], phase := .running table' none reseed } ∧
      ∀ p, Quiet (queue.filterMap notice) p → table'[p]? = table[p]? := by
  induction queue generalizing table with
  | nil => exact ⟨table, .refl, fun _ _ => rfl⟩
  | cons event rest ih =>
    cases event with
    | fork parent child =>
      obtain ⟨table', hrun, hkeep⟩ := ih table
      exact ⟨table', .head (.inr (.inr (.fork _ parent child rest table reseed rfl rfl))) hrun,
        hkeep⟩
    | exec pid =>
      obtain ⟨table', hrun, hkeep⟩ := ih (writeEvent table pid (classifyPid profiles proc pid))
      refine ⟨table', .head (.inr (.inr (.exec _ pid rest table reseed rfl rfl)))
        (.head (.inr (.inr (.write _ pid _ table reseed rfl))) hrun), fun p hquiet => ?_⟩
      obtain ⟨hne, hrest⟩ := quiet_cons.mp hquiet
      have hpid : pid ≠ p := hne
      rw [hkeep p hrest, getElem?_writeEvent, if_neg hpid]
    | exit pid =>
      obtain ⟨table', hrun, hkeep⟩ := ih (writeEvent table pid none)
      refine ⟨table', .head (.inr (.inr (.exit _ pid rest table reseed rfl rfl)))
        (.head (.inr (.inr (.write _ pid _ table reseed rfl))) hrun), fun p hquiet => ?_⟩
      obtain ⟨hne, hrest⟩ := quiet_cons.mp hquiet
      have hpid : pid ≠ p := hne
      rw [hkeep p hrest, getElem?_writeEvent, if_neg hpid]

/-- The same from any state of the reader: one half-applied event at most is written
first. -/
theorem exists_drained (proc : ProcFs) (queue : List ProcEvent) (table : Table)
    (inflight : Inflight) (reseed : Reseed) :
    ∃ table', Relation.ReflTransGen (convergence profiles).step
        { proc, queue, phase := .running table inflight reseed }
        { proc, queue := [], phase := .running table' none reseed } ∧
      ∀ p, ¬ Holds inflight p → Quiet (queue.filterMap notice) p → table'[p]? = table[p]? := by
  cases inflight with
  | none =>
    obtain ⟨table', hrun, hkeep⟩ := exists_drained_queue proc reseed queue table
    exact ⟨table', hrun, fun p _ hquiet => hkeep p hquiet⟩
  | some entry =>
    obtain ⟨pid, record⟩ := entry
    obtain ⟨table', hrun, hkeep⟩ :=
      exists_drained_queue proc reseed queue (writeEvent table pid record)
    refine ⟨table', .head (.inr (.inr (.write _ pid record table reseed rfl))) hrun,
      fun p hfree hquiet => ?_⟩
    have hne : pid ≠ p := fun hp => hfree ⟨record, by rw [hp]⟩
    rw [hkeep p hquiet, getElem?_writeEvent, if_neg hne]

theorem inSync_of_reflTransGen {s t : Sync}
    (hrun : Relation.ReflTransGen (convergence profiles).step s t) (h : InSync profiles s) :
    InSync profiles t := by
  induction hrun with
  | refl => exact h
  | tail _ hstep ih => exact inv_step ih hstep

end Drain

/-! ## When a commit leaves the table right -/

/-- In every run whose commits are right about the PIDs that nothing is under way
for, the table is exact whenever the reader is done.  And such a commit is the
only kind after which it is bound to be: after any other one, the reader alone
leads to a table that is wrong.  A commit is of that kind when every process that has
exec'd or exited since the listing still has an event under way. -/
theorem commit_exact_iff (profiles : List BrowserProfile) :
    (∀ s table, ((withReseed profiles).within (GoodCommit profiles)).Reachable s →
      Quiescent s table → ∀ p : UInt32, table[p]? = classifyPid profiles s.proc p) ∧
    (∀ s s', ((withReseed profiles).within (GoodCommit profiles)).Reachable s →
      CommitStep s s' →
      ((∀ t table, Relation.ReflTransGen (convergence profiles).step s' t →
          Quiescent t table → ∀ p : UInt32, table[p]? = classifyPid profiles t.proc p) ↔
        CommitOk profiles s)) ∧
    ∀ moved s, SinceListing profiles moved s → UnderWay moved s → CommitOk profiles s := by
  refine ⟨?_, ?_, fun moved s => commitOk_of_underWay⟩
  · intro s table hs hq p
    exact InSync.exact (inv_reachable hs).1 hq p
  · intro s s' hs hstep
    obtain ⟨hinv, hok⟩ := inv_reachable hs
    constructor
    · intro hexact table inflight phantoms newRecords hphase p hfree hquiet
      cases hstep with
      | commit table₁ inflight₁ phantoms₁ newRecords₁ hphase₁ =>
        rw [hphase₁] at hphase hok
        cases hphase
        obtain ⟨table', hrun, hkeep⟩ := exists_drained s.proc s.queue
          (commitReseed table phantoms newRecords).1 inflight .idle
        have hright := hexact _ table' hrun ⟨rfl, .idle, rfl⟩ p
        rw [hkeep p hfree hquiet] at hright
        refine ⟨fun hp => ?_, fun r hr => ?_⟩
        · exact hright.symm.trans (commit_of_phantom hok hp)
        · exact hright.symm.trans (commit_of_newcomer hok hr)
    · intro hcommit t table hrun hq p
      have hinv' := inv_commit hinv hok hcommit hstep
      exact InSync.exact (inSync_of_reflTransGen hrun hinv') hq p

/-! ## Runs of a reseed -/

/-- The table is published over a `/proc` with a shell in it. -/
def published : Sync where
  proc := soloProc shellCmdline
  queue := []
  phase := .running ∅ none .idle

theorem goodCommit_of_not_commit {profiles : List BrowserProfile} {s s' : Sync}
    (h : ¬ CommitStep s s') : GoodCommit profiles s s' :=
  fun hcommit => absurd hcommit h

theorem not_commit_of_phase {s s' : Sync}
    (h : ∀ table inflight phantoms newRecords,
      s.phase ≠ .running table inflight (.classifying phantoms [] newRecords)) :
    ¬ CommitStep s s' := by
  intro hcommit
  cases hcommit with
  | commit table inflight phantoms newRecords hphase =>
    exact h table inflight phantoms newRecords hphase

theorem reachable_published :
    ((withReseed defaultProfiles).within (GoodCommit defaultProfiles)).Reachable published := by
  let s₀ : Sync := { proc := soloProc shellCmdline, queue := [], phase := .opened }
  have hlisted : ∀ p, (soloProc shellCmdline)[p]?.isSome → p ∈ [(1 : UInt32)] := by
    intro p hp
    rw [← soloProc_keys shellCmdline, Std.ExtTreeMap.mem_keys,
      ← Std.ExtTreeMap.isSome_getElem?_iff_mem]
    exact hp
  have h₀ : ((withReseed defaultProfiles).within (GoodCommit defaultProfiles)).Reachable s₀ :=
    .start ⟨rfl, rfl⟩
  have h₁ := h₀.tail ⟨.inl (.inr (.inl (.start s₀ rfl))),
    goodCommit_of_not_commit (not_commit_of_phase (fun _ _ _ _ => Phase.noConfusion))⟩
  have h₂ := h₁.tail ⟨.inl (.inr (.inl (.read _ 1 [] _ ∅ rfl (by simp)))),
    goodCommit_of_not_commit (not_commit_of_phase (fun _ _ _ _ => Phase.noConfusion))⟩
  have h₃ := h₂.tail ⟨.inl (.inr (.inl (.done _ [1] _ _ rfl hlisted))),
    goodCommit_of_not_commit (not_commit_of_phase (fun _ _ _ _ => Phase.noConfusion))⟩
  have hseed : seedEntry defaultProfiles (soloProc shellCmdline) ∅ 1 = ∅ := by
    rw [seedEntry, classifyPid, soloProc_one, Option.bind_some, classify_shellCmdline]
  rw [hseed] at h₃
  exact h₃

/-- The shell has exec'd a renderer during a reseed, and the event is in the queue. -/
def duringExec (reseed : Reseed) : Sync where
  proc := (soloProc shellCmdline).insert 1 rendererCmdline
  queue := [.exec 1]
  phase := .running ∅ none reseed

/-- What the reseed reads of it. -/
def readSince : List (UInt32 × ProcessRecord) :=
  ((classifyPid defaultProfiles ((soloProc shellCmdline).insert 1 rendererCmdline) 1).map
    (fun r => (1, r))).toList

/-- The event waits for the commit, and the table is right in the end. -/
theorem commit_exact_iff_exec_under_way :
    ∃ s', ((withReseed defaultProfiles).within (GoodCommit defaultProfiles)).Reachable
        (duringExec (.classifying [] [] readSince)) ∧
      CommitStep (duringExec (.classifying [] [] readSince)) s' ∧
      ∀ t table, Relation.ReflTransGen (convergence defaultProfiles).step s' t →
        Quiescent t table → ∀ p : UInt32, table[p]? = classifyPid defaultProfiles t.proc p := by
  have hlive : (soloProc shellCmdline)[(1 : UInt32)]?.isSome :=
    Option.isSome_of_eq_some (soloProc_one shellCmdline)
  have hexec : ProcStep defaultProfiles { published with phase := .running ∅ none (.listed [1]) }
      (duringExec (.listed [1])) := .exec _ 1 rendererCmdline hlive
  have hcopy : ReseedStep defaultProfiles (duringExec (.listed [1]))
      (duringExec (.classifying [] [1] [])) := .copyKeys _ ∅ none [1] rfl
  have hread : ReseedStep defaultProfiles (duringExec (.classifying [] [1] []))
      (duringExec (.classifying [] [] readSince)) :=
    .classify _ ∅ none [] [1] [] 1 rfl (List.mem_singleton.mpr rfl)
  have hcommit : CommitStep (duringExec (.classifying [] [] readSince)) _ :=
    .commit _ ∅ none [] readSince rfl
  have h₁ := reachable_published.tail ⟨.inr (.inl (.list published ∅ none rfl)),
    goodCommit_of_not_commit (not_commit_of_phase (fun _ _ _ _ h => by cases h))⟩
  have h₂ := h₁.tail ⟨.inl (.inl hexec),
    goodCommit_of_not_commit (not_commit_of_phase (fun _ _ _ _ h => by cases h))⟩
  have h₃ := h₂.tail ⟨.inr (.inl hcopy),
    goodCommit_of_not_commit (not_commit_of_phase (fun _ _ _ _ h => by cases h))⟩
  have h₄ := h₃.tail ⟨.inr (.inl hread),
    goodCommit_of_not_commit (not_commit_of_phase (fun _ _ _ _ h => by cases h))⟩
  have hsince : SinceListing defaultProfiles [1] (duringExec (.classifying [] [] readSince)) :=
    .reseed (.reseed (.proc [.changed 1] (.list published ∅ none rfl) hexec rfl) hcopy) hread
  have hunder : UnderWay [1] (duringExec (.classifying [] [] readSince)) := by
    intro table inflight reseed _ p hp
    right
    intro hquiet
    exact hquiet (.changed 1) (List.mem_singleton.mpr rfl) (List.mem_singleton.mp hp).symm
  obtain ⟨-, hexact, hschedule⟩ := commit_exact_iff defaultProfiles
  exact ⟨_, h₄, hcommit, (hexact _ _ h₄ hcommit).mpr (hschedule [1] _ hsince hunder)⟩

/-- A renderer that execs after the listing and before the copy of the keys is taken
for a phantom: it is live, it matches, and the commit removes it. -/
theorem reseed_removes_live_target :
    ¬ ∀ (profiles : List BrowserProfile) (s : Sync) (table : Table),
      (withReseed profiles).Reachable s → Quiescent s table → reseedOf s.phase = .idle →
        ∀ p : UInt32, table[p]? = classifyPid profiles s.proc p := by
  intro hclaim
  let proc : ProcFs := ((soloProc shellCmdline).insert 2 shellCmdline).insert 2 rendererCmdline
  let table : Table := (∅ : Table).insert 2 ⟨some "chromium"⟩
  have htwo : classifyPid defaultProfiles proc 2 = some ⟨some "chromium"⟩ := by
    simp [proc, classifyPid, classify_rendererCmdline]
  have hlive : (soloProc shellCmdline)[(1 : UInt32)]?.isSome :=
    Option.isSome_of_eq_some (soloProc_one shellCmdline)
  have h₁ := reachable_published.of_within.tail (.inr (.inl (.list published ∅ none rfl)))
  have h₂ := h₁.tail (.inl (.inl (.fork _ 1 2 shellCmdline hlive
    (soloProc_two shellCmdline) classify_shellCmdline)))
  have h₃ := h₂.tail (.inl (.inl (.exec _ 2 rendererCmdline (by simp))))
  have h₄ := h₃.tail (.inl (.inr (.inr (.fork _ 1 2 _ ∅ _ rfl rfl))))
  have h₅ := h₄.tail (.inl (.inr (.inr (.exec _ 2 _ ∅ _ rfl rfl))))
  have h₆ := h₅.tail (.inl (.inr (.inr (.write _ 2 _ ∅ _ rfl))))
  change (withReseed defaultProfiles).Reachable
    { proc, queue := [], phase := .running
        (writeEvent ∅ 2 (classifyPid defaultProfiles proc 2)) none (.listed [1]) } at h₆
  rw [htwo] at h₆
  have h₇ := h₆.tail (.inr (.inl (.copyKeys _ table none [1] rfl)))
  have h₈ := h₇.tail (.inr (.inl (.classify _ table none [2] [1] [] 1 rfl (by simp))))
  have h₉ := h₈.tail (.inr (.inr (.commit _ table none [2] _ rfl)))
  have hright := hclaim defaultProfiles _ _ h₉ ⟨rfl, .idle, rfl⟩ rfl 2
  have hone : classifyPid defaultProfiles proc 1 = none := by
    simp [proc, classifyPid, Map.getElem?_insert, soloProc_one, classify_shellCmdline]
  change (commitReseed table [2] ([] ++ ((classifyPid defaultProfiles proc 1).map
    (fun r => ((1 : UInt32), r))).toList)).1[(2 : UInt32)]? =
      classifyPid defaultProfiles proc 2 at hright
  rw [hone, htwo] at hright
  have hgone : (commitReseed table [2] []).1[(2 : UInt32)]? = none := by
    simp [commitReseed]
  have hmismatch : (none : Option ProcessRecord) = some ⟨some "chromium"⟩ :=
    hgone.symm.trans hright
  cases hmismatch

end BsslRam.DriftCorrection
