import BsslRam.DriftCorrection

/-!
# What one drift correction leaves behind

`reseed_drift_correction` as one function, on a `/proc` that does not change while
it runs.  `DriftCorrection` has the same code cut into steps, with the other
threads in between; `commit_of_undisturbed` says that the steps come to the same
table when nothing happens in between, in whichever order the candidates are read.

The function works with two set differences.  It drops the entries of the PIDs
that are gone and classifies the PIDs without an entry (`getElem?_reseed`).  A PID
on both sides keeps its record, whatever its command line is by now, and that is
the one thing that a drift correction does not correct (`reconciles_iff`).
-/

namespace BsslRam.Reconcile

open BsslRam.Lib BsslRam.Scanner BsslRam.ProcessTable BsslRam.TableSync BsslRam.DriftCorrection

/-! ## The function -/

/-- The table entries without a process. -/
def phantomsOf (proc : ProcFs) (table : Table) : List UInt32 :=
  table.keys.filter (fun p => !proc.keys.contains p)

/-- The processes without a table entry. -/
def candidatesOf (proc : ProcFs) (table : Table) : List UInt32 :=
  proc.keys.filter (fun p => !table.contains p)

/-- `reseed_drift_correction`, with the numbers of added and dropped entries.  There is
no listing when `/proc` cannot be read. -/
def reseedDriftCorrection (profiles : List BrowserProfile) (listing : Option ProcFs)
    (table : Table) : Table × Nat × Nat :=
  match listing with
  | none => (table, 0, 0)
  | some proc =>
      let newRecords := (candidatesOf proc table).filterMap (fun pid =>
        (classifyPid profiles proc pid).map (fun r => (pid, r)))
      commitReseed table (phantomsOf proc table) newRecords

variable {profiles : List BrowserProfile} {proc : ProcFs} {table : Table}

theorem mem_phantomsOf (p : UInt32) : p ∈ phantomsOf proc table ↔ p ∈ table ∧ p ∉ proc := by
  unfold phantomsOf
  simp only [List.mem_filter, Std.ExtTreeMap.mem_keys, Bool.not_eq_true', List.contains_eq_mem,
    decide_eq_false_iff_not]

theorem mem_candidatesOf (p : UInt32) : p ∈ candidatesOf proc table ↔ p ∈ proc ∧ p ∉ table := by
  unfold candidatesOf
  simp only [List.mem_filter, Std.ExtTreeMap.mem_keys, Bool.not_eq_true']
  rw [← Std.ExtTreeMap.contains_iff_mem (t := table), Bool.not_eq_true]

theorem getElem?_of_not_mem {V : Type} {m : Map UInt32 V} {p : UInt32} (h : p ∉ m) :
    m[p]? = none := by
  simpa using h

/-! ## What a commit writes -/

/-- The records that a commit inserts are the classes of the candidates. -/
structure Classified (profiles : List BrowserProfile) (proc : ProcFs) (table : Table)
    (newRecords : List (UInt32 × ProcessRecord)) : Prop where
  nodup : (newRecords.map Prod.fst).Nodup
  mem : ∀ p r, (p, r) ∈ newRecords ↔
    p ∈ candidatesOf proc table ∧ classifyPid profiles proc p = some r

/-- A commit keeps the entries of the live PIDs, fills in the classes of the others,
and keeps nothing else. -/
theorem getElem?_commit {newRecords : List (UInt32 × ProcessRecord)}
    (h : Classified profiles proc table newRecords) (p : UInt32) :
    (commitReseed table (phantomsOf proc table) newRecords).1[p]? =
      if p ∈ proc then table[p]?.or (classifyPid profiles proc p) else none := by
  have hfresh : ∀ q, q ∈ newRecords.map Prod.fst → q ∈ proc ∧ q ∉ table := by
    intro q hq
    obtain ⟨⟨q', r⟩, hmem, rfl⟩ := List.mem_map.mp hq
    exact (mem_candidatesOf q').mp ((h.mem q' r).mp hmem).1
  have hapart : Apart (phantomsOf proc table) [] newRecords :=
    ⟨h.nodup, fun q hq hnew => ((mem_phantomsOf q).mp hq).2 (hfresh q hnew).1⟩
  by_cases hlive : p ∈ proc
  · rw [if_pos hlive]
    by_cases htable : p ∈ table
    · have hnew : p ∉ newRecords.map Prod.fst := fun hmem => (hfresh p hmem).2 htable
      have hold : p ∉ phantomsOf proc table := fun hmem => ((mem_phantomsOf p).mp hmem).2 hlive
      rw [commit_of_neither hold hnew]
      obtain ⟨r, hr⟩ := Option.isSome_iff_exists.mp
        (Std.ExtTreeMap.isSome_getElem?_iff_mem.mpr htable)
      rw [hr, Option.some_or]
    · rw [getElem?_of_not_mem htable, Option.none_or]
      cases hclass : classifyPid profiles proc p with
      | some r =>
        exact commit_of_newcomer hapart ((h.mem p r).mpr ⟨(mem_candidatesOf p).mpr
          ⟨hlive, htable⟩, hclass⟩)
      | none =>
        have hnew : p ∉ newRecords.map Prod.fst := by
          intro hmem
          obtain ⟨⟨q, r⟩, hq, rfl⟩ := List.mem_map.mp hmem
          rw [((h.mem q r).mp hq).2] at hclass
          cases hclass
        have hold : p ∉ phantomsOf proc table := fun hmem => htable ((mem_phantomsOf p).mp hmem).1
        rw [commit_of_neither hold hnew, getElem?_of_not_mem htable]
  · rw [if_neg hlive]
    by_cases htable : p ∈ table
    · exact commit_of_phantom hapart ((mem_phantomsOf p).mpr ⟨htable, hlive⟩)
    · have hnew : p ∉ newRecords.map Prod.fst := fun hmem => hlive (hfresh p hmem).1
      have hold : p ∉ phantomsOf proc table := fun hmem => htable ((mem_phantomsOf p).mp hmem).1
      rw [commit_of_neither hold hnew, getElem?_of_not_mem htable]

theorem classified_candidates (profiles : List BrowserProfile) (proc : ProcFs) (table : Table) :
    Classified profiles proc table ((candidatesOf proc table).filterMap (fun pid =>
      (classifyPid profiles proc pid).map (fun r => (pid, r)))) := by
  constructor
  · -- the keys are a part of the candidates, and those are keys of `/proc`
    have hcands : (candidatesOf proc table).Nodup := Std.ExtTreeMap.nodup_keys.filter _
    rw [List.Nodup, List.pairwise_map, List.pairwise_filterMap]
    refine hcands.imp (fun {a b} hab x hx y hy heq => hab ?_)
    obtain ⟨r, -, rfl⟩ := Option.map_eq_some_iff.mp hx
    obtain ⟨r', -, rfl⟩ := Option.map_eq_some_iff.mp hy
    exact heq
  · intro p r
    simp only [List.mem_filterMap, Option.map_eq_some_iff, Prod.mk.injEq]
    constructor
    · intro ⟨q, hq, r', hr', hqp, hrr⟩
      rw [← hqp, ← hrr]
      exact ⟨hq, hr'⟩
    · intro ⟨hp, hr⟩
      exact ⟨p, hp, r, hr, rfl, rfl⟩

theorem getElem?_reseed (profiles : List BrowserProfile) (proc : ProcFs) (table : Table)
    (p : UInt32) :
    (reseedDriftCorrection profiles (some proc) table).1[p]? =
      if p ∈ proc then table[p]?.or (classifyPid profiles proc p) else none :=
  getElem?_commit (classified_candidates profiles proc table) p

/-! ## The steps, with nothing in between -/

/-- Where a reseed that started on this table stands, when only the reseed has moved. -/
def Progress (profiles : List BrowserProfile) (proc : ProcFs) (table : Table) : Reseed → Prop
  | .idle => True
  | .listed livePids => livePids = proc.keys
  | .classifying phantoms candidates newRecords =>
      phantoms = phantomsOf proc table ∧ Apart phantoms candidates newRecords ∧
        (∀ p ∈ candidates, p ∈ candidatesOf proc table) ∧
        ∀ p r, (p, r) ∈ newRecords ↔
          p ∈ candidatesOf proc table ∧ p ∉ candidates ∧ classifyPid profiles proc p = some r

/-- The candidate that is read leaves the list, and its class joins the records. -/
theorem progress_classify {phantoms candidates : List UInt32}
    {newRecords : List (UInt32 × ProcessRecord)} {pid : UInt32}
    (h : Progress profiles proc table (.classifying phantoms candidates newRecords))
    (hmem : pid ∈ candidates)
    (hapart : Apart phantoms (candidates.erase pid) (newRecords ++
      ((classifyPid profiles proc pid).map (fun r => (pid, r))).toList)) :
    Progress profiles proc table (.classifying phantoms (candidates.erase pid) (newRecords ++
      ((classifyPid profiles proc pid).map (fun r => (pid, r))).toList)) := by
  obtain ⟨hphantoms, happart, hcands, hrecords⟩ := h
  have hnodup : candidates.Nodup := (List.nodup_append.mp happart.nodup).1
  refine ⟨hphantoms, hapart, fun p hp => hcands p (List.mem_of_mem_erase hp), fun p r => ?_⟩
  rw [List.mem_append, hrecords, Option.mem_toList, Option.map_eq_some_iff,
    hnodup.mem_erase_iff]
  constructor
  · intro hin
    rcases hin with ⟨hcand, hout, hclass⟩ | ⟨r', hclass, heq⟩
    · exact ⟨hcand, fun hstill => hout hstill.2, hclass⟩
    · cases heq
      exact ⟨hcands pid hmem, fun hstill => hstill.1 rfl, hclass⟩
  · intro ⟨hcand, hout, hclass⟩
    by_cases hp : p = pid
    · subst hp
      exact Or.inr ⟨r, hclass, rfl⟩
    · exact Or.inl ⟨hcand, fun hstill => hout ⟨hp, hstill⟩, hclass⟩

/-- One step of the reseed. -/
theorem progress_step {s s' : Sync} {table : Table} {inflight : Inflight} {reseed : Reseed}
    (hphase : s.phase = .running table inflight reseed)
    (h : Progress profiles s.proc table reseed) (hok : ReseedOk reseed)
    (hstep : ReseedStep profiles s s') :
    s'.proc = s.proc ∧ ∃ reseed', s'.phase = .running table inflight reseed' ∧
      Progress profiles s.proc table reseed' ∧ ReseedOk reseed' := by
  have hok' : ReseedOk (reseedOf s'.phase) := by
    refine reseedOk_reseed ?_ hstep
    rw [hphase]
    exact hok
  cases hstep with
  | list table₁ inflight₁ hphase₁ =>
    rw [hphase₁] at hphase
    cases hphase
    exact ⟨rfl, _, rfl, rfl, hok'⟩
  | copyKeys table₁ inflight₁ livePids hphase₁ =>
    rw [hphase₁] at hphase
    cases hphase
    have hlive : livePids = s.proc.keys := h
    subst hlive
    refine ⟨rfl, _, rfl, ⟨rfl, hok', fun p hp => hp, fun p r => ?_⟩, hok'⟩
    constructor
    · intro hmem
      cases hmem
    · intro ⟨hcand, hout, _⟩
      exact absurd hcand hout
  | classify table₁ inflight₁ phantoms candidates newRecords pid hphase₁ hmem =>
    rw [hphase₁] at hphase
    cases hphase
    exact ⟨rfl, _, rfl, progress_classify h hmem hok', hok'⟩

theorem progress_run {s t : Sync} {table : Table} {inflight : Inflight}
    (hphase : s.phase = .running table inflight .idle)
    (hrun : Relation.ReflTransGen (ReseedStep profiles) s t) :
    t.proc = s.proc ∧ ∃ reseed, t.phase = .running table inflight reseed ∧
      Progress profiles s.proc table reseed ∧ ReseedOk reseed := by
  induction hrun with
  | refl => exact ⟨rfl, _, hphase, trivial, trivial⟩
  | tail _ hstep ih =>
    obtain ⟨hproc, reseed, hphase', hprog, hok⟩ := ih
    rw [← hproc] at hprog ⊢
    exact progress_step hphase' hprog hok hstep

/-- When only the reseed moves, its commit leaves the table of
`reseedDriftCorrection`. -/
theorem commit_of_undisturbed {s t t' : Sync} {table : Table} {inflight : Inflight}
    (hphase : s.phase = .running table inflight .idle)
    (hrun : Relation.ReflTransGen (ReseedStep profiles) s t) (hcommit : CommitStep t t') :
    t'.phase =
      .running (reseedDriftCorrection profiles (some s.proc) table).1 inflight .idle := by
  obtain ⟨-, reseed, hphase', hprog, -⟩ := progress_run hphase hrun
  cases hcommit with
  | commit table₁ inflight₁ phantoms newRecords hphase₁ =>
    rw [hphase₁] at hphase'
    cases hphase'
    obtain ⟨rfl, hapart, -, hrecords⟩ := hprog
    have hclassified : Classified profiles s.proc table newRecords :=
      ⟨(List.nodup_append.mp hapart.nodup).2.1, fun p r => by simp [hrecords p r]⟩
    refine congrArg (fun table => Phase.running table inflight .idle) ?_
    refine Std.ExtTreeMap.ext_getElem? (fun p => ?_)
    rw [getElem?_commit hclassified, getElem?_reseed]

/-! ## What is reconciled -/

/-- The table and the walk name the same targets after a drift correction when every
PID on both sides had the right record before. -/
theorem targets_reseed_iff (profiles : List BrowserProfile) (proc : ProcFs) (table : Table) :
    (∀ t, t ∈ liveTargets (reseedDriftCorrection profiles (some proc) table).1 ↔
        t ∈ scanTargets profiles proc) ↔
      ∀ p record, p ∈ proc → table[p]? = some record →
        record.profileName = (classifyPid profiles proc p).bind ProcessRecord.profileName := by
  simp only [mem_liveTargets, mem_scanTargets_iff_classify, getElem?_reseed]
  constructor
  · intro hsame p record hlive hrecord
    refine Option.ext (fun name => ?_)
    have hname := hsame { pid := p, profile := name }
    rw [if_pos hlive, hrecord, Option.some_or, Option.bind_some] at hname
    exact hname
  · intro hright t
    by_cases hlive : t.pid ∈ proc
    · rw [if_pos hlive]
      cases hrecord : table[t.pid]? with
      | none => rw [Option.none_or]
      | some record =>
        rw [Option.some_or, Option.bind_some, hright t.pid record hlive hrecord]
    · rw [if_neg hlive, classifyPid, getElem?_of_not_mem hlive]
      rfl

/-- A second drift correction on the same `/proc` finds nothing to do. -/
theorem reseed_again (profiles : List BrowserProfile) (proc : ProcFs) (table : Table) :
    reseedDriftCorrection profiles (some proc)
        (reseedDriftCorrection profiles (some proc) table).1 =
      ((reseedDriftCorrection profiles (some proc) table).1, 0, 0) := by
  obtain ⟨table', htable'⟩ :
      ∃ table', table' = (reseedDriftCorrection profiles (some proc) table).1 := ⟨_, rfl⟩
  have hlookup : ∀ p : UInt32, table'[p]? =
      if p ∈ proc then table[p]?.or (classifyPid profiles proc p) else none := by
    intro p
    rw [htable', getElem?_reseed]
  have hphantoms : phantomsOf proc table' = [] := by
    refine List.eq_nil_iff_forall_not_mem.mpr (fun p hp => ?_)
    obtain ⟨hin, hgone⟩ := (mem_phantomsOf p).mp hp
    rw [← Std.ExtTreeMap.isSome_getElem?_iff_mem, hlookup, if_neg hgone] at hin
    cases hin
  have hrecords : (candidatesOf proc table').filterMap (fun pid =>
      (classifyPid profiles proc pid).map (fun r => (pid, r))) = [] := by
    refine List.filterMap_eq_nil_iff.mpr (fun p hp => ?_)
    obtain ⟨hlive, hout⟩ := (mem_candidatesOf p).mp hp
    -- a candidate with a class would have been added the first time
    have hnone := getElem?_of_not_mem hout
    rw [hlookup, if_pos hlive, Option.or_eq_none_iff] at hnone
    rw [hnone.2]
    rfl
  rw [← htable', reseedDriftCorrection]
  simp only [hphantoms, hrecords]
  rfl

/-- After a drift correction the table names the targets of a walk of `/proc`, and a
second one changes nothing, if and only if every live PID that had an entry before
had the entry of its present command line.  The steps of `DriftCorrection` leave the same
table when nothing comes between them. -/
theorem reconciles_iff (profiles : List BrowserProfile) (proc : ProcFs) (table : Table) :
    (((∀ t, t ∈ liveTargets (reseedDriftCorrection profiles (some proc) table).1 ↔
          t ∈ scanTargets profiles proc) ∧
        reseedDriftCorrection profiles (some proc)
            (reseedDriftCorrection profiles (some proc) table).1 =
          ((reseedDriftCorrection profiles (some proc) table).1, 0, 0)) ↔
      ∀ p record, p ∈ proc → table[p]? = some record →
        record.profileName = (classifyPid profiles proc p).bind ProcessRecord.profileName) ∧
    ∀ (s t t' : Sync) (inflight : Inflight), s.proc = proc →
      s.phase = .running table inflight .idle →
      Relation.ReflTransGen (ReseedStep profiles) s t → CommitStep t t' →
        t'.phase =
          .running (reseedDriftCorrection profiles (some proc) table).1 inflight .idle := by
  constructor
  · rw [targets_reseed_iff, and_iff_left (reseed_again profiles proc table)]
  · rintro s t t' inflight rfl hphase hrun hcommit
    exact commit_of_undisturbed hphase hrun hcommit

/-- The steps of a reseed over a `/proc` with a shell in it. -/
theorem reconciles_iff_published :
    ∃ t t', Relation.ReflTransGen (ReseedStep defaultProfiles) published t ∧ CommitStep t t' ∧
      t'.phase = .running
        (reseedDriftCorrection defaultProfiles (some published.proc) ∅).1 none .idle := by
  have hlist : Relation.ReflTransGen (ReseedStep defaultProfiles) published
      { published with phase := .running ∅ none (.listed [1]) } :=
    .single (.list published ∅ none rfl)
  have hcopy := hlist.tail (.copyKeys _ ∅ none [1] rfl)
  have hread := hcopy.tail (.classify _ ∅ none [] [1] [] 1 rfl (List.mem_singleton.mpr rfl))
  have hcommit := CommitStep.commit { published with
    phase := .running ∅ none (.classifying [] [] ((classifyPid defaultProfiles published.proc 1).map
      (fun r => ((1 : UInt32), r))).toList) } ∅ none [] _ rfl
  exact ⟨_, _, hread, hcommit,
    (reconciles_iff defaultProfiles published.proc ∅).2 _ _ _ none rfl rfl hread hcommit⟩

/-- PID 1 was a renderer when its entry was made, and has become a shell since. -/
theorem stale_record_survives_reseed :
    ¬ ∀ (profiles : List BrowserProfile) (proc : ProcFs) (table : Table) (t : TargetProcess),
      t ∈ liveTargets (reseedDriftCorrection profiles (some proc) table).1 ↔
        t ∈ scanTargets profiles proc := by
  intro hclaim
  let table : Table := (∅ : Table).insert 1 ⟨some "chromium"⟩
  have hone : table[(1 : UInt32)]? = some ⟨some "chromium"⟩ := by simp [table]
  have hlive : (1 : UInt32) ∈ soloProc shellCmdline := by simp [soloProc]
  have hright := (targets_reseed_iff defaultProfiles (soloProc shellCmdline) table).mp
    (hclaim defaultProfiles (soloProc shellCmdline) table) 1 _ hlive hone
  rw [classifyPid, soloProc_one, Option.bind_some, classify_shellCmdline] at hright
  cases hright

end BsslRam.Reconcile
