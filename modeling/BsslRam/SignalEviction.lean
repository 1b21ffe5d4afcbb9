import BsslRam.Signals

/-!
# Eviction in the signal store

`profile_veto_at` prunes the whole store before it looks its own family up, so a
query writes to what later queries read.  The reference store is the same store
with a query that deletes nothing (`lookupVetoAt`): it ignores an entry that is
older than the ttl when it looks it up.

Two stores are compared by what they show from some instant on (`SeenFrom`).  As
the instants of the operations never decrease, an entry that has been evicted
would not be fresh again, so an eviction changes nothing that is still to be seen
(`seenFrom_evict`).  Everything else is one induction over the operations,
`answers_of_seenFrom`.
-/

namespace BsslRam.Signals

open BsslRam.Lib

/-! ## What a store shows -/

namespace SignalStore

/-- The report of the family that a query at `now` may use. -/
def lookup (store : SignalStore) (family : String) (now : Instant) : Option CachedReport :=
  store.reports[family]?.filter (fun cached => decide (now - cached.receivedAt ≤ store.ttl))

/-- It is one that an eviction at `now` keeps. -/
theorem lookup_eq (store : SignalStore) (family : String) (now : Instant) :
    store.lookup family now =
      store.reports[family]?.filter (CachedReport.fresh store.ttl now) := rfl

/-- The query of the reference store.  It leaves the store as it is. -/
def lookupVetoAt (store : SignalStore) (profile : String) (now : Instant) (nowWallMs : UInt64) :
    Option ProfileVeto × SignalStore :=
  ((canonicalFamily profile).bind fun family =>
    (store.lookup family now).bind fun cached =>
      reportVeto store.interactionGrace nowWallMs cached.report, store)

end SignalStore

/-- A way to answer queries, with the store that it leaves behind. -/
abbrev Query := SignalStore → String → Instant → UInt64 → Option ProfileVeto × SignalStore

/-- The answers to the queries among the operations, each with its profile. -/
def answers (ask : Query) : SignalStore → List StoreOp → List (String × Option ProfileVeto)
  | _, [] => []
  | store, .report now nowWall report :: ops =>
      answers ask (store.step (.report now nowWall report)) ops
  | store, .query profile now nowWall :: ops =>
      (profile, (ask store profile now nowWall).1) ::
        answers ask (ask store profile now nowWall).2 ops

/-- The answers to the queries about one family. -/
def answersAbout (family : String) (answers : List (String × Option ProfileVeto)) :
    List (String × Option ProfileVeto) :=
  answers.filter (fun answer => canonicalFamily answer.1 == some family)

/-- From `t` on, two stores show the same report of each of these families. -/
structure SeenFrom (t : Instant) (families : Set String) (a b : SignalStore) : Prop where
  ttl : a.ttl = b.ttl
  grace : a.interactionGrace = b.interactionGrace
  lookup : ∀ now, t ≤ now → ∀ family ∈ families, a.lookup family now = b.lookup family now

/-- A query that answers from what its store shows, and leaves a store behind that
shows the same. -/
structure Query.Transparent (ask : Query) : Prop where
  answer : ∀ store profile now nowWall,
    (ask store profile now nowWall).1 = (store.lookupVetoAt profile now nowWall).1
  keeps : ∀ store profile now nowWall,
    SeenFrom now Set.univ (ask store profile now nowWall).2 store

namespace SeenFrom

variable {t t' : Instant} {families families' : Set String} {a b c : SignalStore}

theorem refl (t : Instant) (families : Set String) (a : SignalStore) : SeenFrom t families a a :=
  ⟨rfl, rfl, fun _ _ _ _ => rfl⟩

theorem symm (h : SeenFrom t families a b) : SeenFrom t families b a :=
  ⟨h.ttl.symm, h.grace.symm, fun now hnow f hf => (h.lookup now hnow f hf).symm⟩

theorem trans (hab : SeenFrom t families a b) (hbc : SeenFrom t families b c) :
    SeenFrom t families a c :=
  ⟨hab.ttl.trans hbc.ttl, hab.grace.trans hbc.grace,
    fun now hnow f hf => (hab.lookup now hnow f hf).trans (hbc.lookup now hnow f hf)⟩

theorem mono (h : SeenFrom t families a b) (ht : t ≤ t') (hf : families' ⊆ families) :
    SeenFrom t' families' a b :=
  ⟨h.ttl, h.grace, fun now hnow f hmem => h.lookup now (Nat.le_trans ht hnow) f (hf hmem)⟩

/-- Stores that show the same answer a query about it alike. -/
theorem answer_eq (h : SeenFrom t families a b) {profile : String}
    (hprofile : ∀ family, canonicalFamily profile = some family → family ∈ families)
    {now : Instant} (hnow : t ≤ now) (nowWall : UInt64) :
    (a.lookupVetoAt profile now nowWall).1 = (b.lookupVetoAt profile now nowWall).1 := by
  unfold SignalStore.lookupVetoAt
  cases hfam : canonicalFamily profile with
  | none => rfl
  | some family =>
    simp only [Option.bind_some]
    rw [h.lookup now hnow family (hprofile family hfam), h.grace]

end SeenFrom

/-! ## What the operations do to it -/

/-- A report is put under its family, if it is accepted, and leaves the others alone. -/
theorem getElem?_step_report (store : SignalStore) (now : Instant) (nowWall : UInt64)
    (report : BrowserSignalsReport) (family : String) :
    (store.step (.report now nowWall report)).reports[family]? =
      ((StoreOp.report now nowWall report).accepted family).or store.reports[family]? := by
  unfold SignalStore.step SignalStore.applyReportAt StoreOp.accepted
  by_cases hskew : SENT_AT_MAX_SKEW_MS < absDiff nowWall report.sentAtMs
  · simp [hskew]
  · cases hfam : canonicalFamily report.browser.family with
    | none => simp [hskew, hfam]
    | some f =>
      by_cases hf : f = family
      · simp [hskew, hfam, hf]
      · simp [hskew, hfam, hf, Map.getElem?_insert]

/-- A report is accepted for the families where its store changes. -/
theorem seenFrom_report (t : Instant) (families : Set String) (store : SignalStore)
    {now : Instant} {nowWall : UInt64} {report : BrowserSignalsReport}
    (h : ∀ family ∈ families, (StoreOp.report now nowWall report).accepted family = none) :
    SeenFrom t families (store.step (.report now nowWall report)) store := by
  obtain ⟨httl, hgrace⟩ := step_ttl store (.report now nowWall report)
  refine ⟨httl, hgrace, fun later _ family hfamily => ?_⟩
  unfold SignalStore.lookup
  rw [getElem?_step_report, h family hfamily, Option.none_or, httl]

theorem SeenFrom.report {t : Instant} {families : Set String} {a b : SignalStore}
    (h : SeenFrom t families a b) (now : Instant) (nowWall : UInt64)
    (report : BrowserSignalsReport) :
    SeenFrom t families (a.step (.report now nowWall report))
      (b.step (.report now nowWall report)) := by
  obtain ⟨httlA, hgraceA⟩ := step_ttl a (.report now nowWall report)
  obtain ⟨httlB, hgraceB⟩ := step_ttl b (.report now nowWall report)
  refine ⟨httlA.trans (h.ttl.trans httlB.symm), hgraceA.trans (h.grace.trans hgraceB.symm),
    fun later hlater family hfamily => ?_⟩
  have hsame := h.lookup later hlater family hfamily
  unfold SignalStore.lookup at hsame ⊢
  rw [getElem?_step_report, getElem?_step_report, httlA, httlB]
  cases (StoreOp.report now nowWall report).accepted family with
  | none => exact hsame
  | some cached => simp only [Option.some_or, h.ttl]

/-- An eviction at `now` removes nothing that a query at `now` or later would use. -/
theorem seenFrom_evict (store : SignalStore) (now : Instant) :
    SeenFrom now Set.univ (store.evict now) store := by
  refine ⟨rfl, rfl, fun later hlater family _ => ?_⟩
  rw [SignalStore.lookup_eq, SignalStore.lookup_eq, getElem?_evict,
    show (store.evict now).ttl = store.ttl from rfl]
  cases store.reports[family]? with
  | none => rfl
  | some cached =>
    by_cases hfresh : cached.fresh store.ttl later = true
    · simp [Option.filter, hfresh, fresh_of_le hlater hfresh]
    · by_cases hearlier : cached.fresh store.ttl now = true
      · simp [Option.filter, hearlier]
      · simp [Option.filter, hearlier, hfresh]

theorem transparent_lookupVetoAt : Query.Transparent SignalStore.lookupVetoAt :=
  ⟨fun _ _ _ _ => rfl, fun store _ now _ => SeenFrom.refl now Set.univ store⟩

theorem transparent_profileVetoAt : Query.Transparent SignalStore.profileVetoAt := by
  constructor
  · intro store profile now nowWall
    unfold SignalStore.profileVetoAt SignalStore.lookupVetoAt
    cases canonicalFamily profile with
    | none => rfl
    | some family =>
      simp only [Option.bind_some, SignalStore.lookup, getElem?_evict]
      rfl
  · intro store profile now nowWall
    unfold SignalStore.profileVetoAt
    cases canonicalFamily profile with
    | none => exact SeenFrom.refl now Set.univ store
    | some family => exact seenFrom_evict store now

/-! ## Whole sequences -/

section Sequences

variable {ask ask' : Query} (hask : ask.Transparent) (hask' : ask'.Transparent)

include hask hask'

/-- Two stores that show the same from `t` on give the same answers about it to any
operations that come later and in order. -/
theorem answers_of_seenFrom {ops : List StoreOp} {t : Instant} {families : Set String}
    {a b : SignalStore} (h : SeenFrom t families a b)
    (hsorted : (ops.map StoreOp.instant).Pairwise (· ≤ ·)) (ht : ∀ op ∈ ops, t ≤ op.instant)
    (keep : String → Bool)
    (hkeep : ∀ profile family, keep profile = true → canonicalFamily profile = some family →
      family ∈ families) :
    (answers ask a ops).filter (fun answer => keep answer.1) =
      (answers ask' b ops).filter (fun answer => keep answer.1) := by
  -- the induction moves `t` to the instant of each query, where its eviction shows nothing
  induction ops generalizing a b t with
  | nil => rfl
  | cons op ops ih =>
    rw [List.map_cons, List.pairwise_cons] at hsorted
    obtain ⟨hfirst, hrest⟩ := hsorted
    cases op with
    | report now nowWall report =>
      rw [answers, answers]
      exact ih (h.report now nowWall report) hrest
        (fun o ho => ht o (List.mem_cons_of_mem _ ho))
    | query profile now nowWall =>
      have hnow : t ≤ now := ht _ List.mem_cons_self
      have hlater : ∀ o ∈ ops, now ≤ o.instant :=
        fun o ho => hfirst o.instant (List.mem_map_of_mem ho)
      have hleft := (hask.keeps a profile now nowWall).mono (Nat.le_refl now)
        (Set.subset_univ families)
      have hright := (hask'.keeps b profile now nowWall).mono (Nat.le_refl now)
        (Set.subset_univ families)
      have htail := ih (hleft.trans ((h.mono hnow subset_rfl).trans hright.symm)) hrest hlater
      rw [answers, answers, List.filter_cons, List.filter_cons, htail]
      by_cases hk : keep profile = true
      · rw [if_pos hk, if_pos hk, hask.answer, hask'.answer,
          h.answer_eq (hkeep profile · hk) hnow]
      · rw [if_neg hk, if_neg hk]

end Sequences

/-- The same, for all answers. -/
theorem answers_eq_of_seenFrom {ask ask' : Query} (hask : ask.Transparent)
    (hask' : ask'.Transparent) {ops : List StoreOp} {t : Instant} {a b : SignalStore}
    (h : SeenFrom t Set.univ a b) (hsorted : (ops.map StoreOp.instant).Pairwise (· ≤ ·))
    (ht : ∀ op ∈ ops, t ≤ op.instant) : answers ask a ops = answers ask' b ops := by
  have hall := answers_of_seenFrom hask hask' h hsorted ht (fun _ => true)
    (fun _ family _ _ => Set.mem_univ family)
  simpa using hall

/-! ## One operation more or less -/

/-- The answers to `ops` after the operations `before`. -/
def answersAfter (ttl grace : Duration) (before ops : List StoreOp) :
    List (String × Option ProfileVeto) :=
  answers SignalStore.profileVetoAt (SignalStore.run ttl grace before) ops

theorem run_append_singleton (ttl grace : Duration) (front : List StoreOp) (op : StoreOp) :
    SignalStore.run ttl grace (front ++ [op]) = (SignalStore.run ttl grace front).step op := by
  unfold SignalStore.run
  rw [List.foldl_append, List.foldl_cons, List.foldl_nil]

section Omitted

variable {front back : List StoreOp} {op : StoreOp}
  (hsorted : ((front ++ op :: back).map StoreOp.instant).Pairwise (· ≤ ·)) (ttl grace : Duration)

include hsorted

theorem sorted_back : (back.map StoreOp.instant).Pairwise (· ≤ ·) ∧
    ∀ o ∈ back, op.instant ≤ o.instant := by
  rw [List.map_append, List.map_cons, List.pairwise_append, List.pairwise_cons] at hsorted
  obtain ⟨-, ⟨hle, hback⟩, -⟩ := hsorted
  exact ⟨hback, fun o ho => hle o.instant (List.mem_map_of_mem ho)⟩

/-- A step that shows the same afterwards can be left out. -/
theorem answersAfter_omit
    (h : ∀ store : SignalStore, SeenFrom op.instant Set.univ (store.step op) store) :
    answersAfter ttl grace (front ++ [op]) back = answersAfter ttl grace front back := by
  obtain ⟨hback, hle⟩ := sorted_back hsorted
  unfold answersAfter
  rw [run_append_singleton]
  exact answers_eq_of_seenFrom transparent_profileVetoAt transparent_profileVetoAt (h _) hback hle

/-- A step that shows the same of one family can be left out for the queries about it. -/
theorem answersAbout_omit {family : String}
    (h : ∀ store : SignalStore, SeenFrom op.instant {family} (store.step op) store) :
    answersAbout family (answersAfter ttl grace (front ++ [op]) back) =
      answersAbout family (answersAfter ttl grace front back) := by
  obtain ⟨hback, hle⟩ := sorted_back hsorted
  unfold answersAfter answersAbout
  rw [run_append_singleton]
  refine answers_of_seenFrom transparent_profileVetoAt transparent_profileVetoAt (h _) hback hle
    (fun profile => canonicalFamily profile == some family) (fun profile f hprofile hf => ?_)
  rw [beq_iff_eq, hf, Option.some.injEq] at hprofile
  exact hprofile

end Omitted

/-- A rejected report is accepted for no family. -/
theorem accepted_of_error {store : SignalStore} {now : Instant} {nowWall : UInt64}
    {report : BrowserSignalsReport} {e : String}
    (h : store.applyReportAt now nowWall report = .error e) (family : String) :
    (StoreOp.report now nowWall report).accepted family = none := by
  rw [StoreOp.accepted]
  by_cases hskew : SENT_AT_MAX_SKEW_MS < absDiff nowWall report.sentAtMs
  · rw [if_pos hskew]
  · cases hfam : canonicalFamily report.browser.family with
    | none => simp
    | some f => simp [SignalStore.applyReportAt, hskew, hfam] at h

theorem accepted_of_ne {now : Instant} {nowWall : UInt64} {report : BrowserSignalsReport}
    {family other : String} (hfam : canonicalFamily report.browser.family = some family)
    (hne : other ≠ family) : (StoreOp.report now nowWall report).accepted other = none := by
  simp [StoreOp.accepted, hfam, Ne.symm hne]

/-- In every sequence of reports and queries in the order of time, the store answers
like one that never deletes anything.  So a query can be left out, a rejected
report can be left out, and a report of one family can be left out for the queries
about another: the later answers stay the same. -/
theorem eviction_invisible (ttl grace : Duration) (ops : List StoreOp)
    (hsorted : (ops.map StoreOp.instant).Pairwise (· ≤ ·)) :
    answers SignalStore.profileVetoAt (SignalStore.new ttl grace) ops =
        answers SignalStore.lookupVetoAt (SignalStore.new ttl grace) ops ∧
      ∀ front op back, ops = front ++ op :: back →
        (∀ profile now nowWall, op = .query profile now nowWall →
          answersAfter ttl grace (front ++ [op]) back = answersAfter ttl grace front back) ∧
        (∀ now nowWall report e, op = .report now nowWall report →
          (SignalStore.run ttl grace front).applyReportAt now nowWall report = .error e →
          answersAfter ttl grace (front ++ [op]) back = answersAfter ttl grace front back) ∧
        ∀ now nowWall report family other, op = .report now nowWall report →
          canonicalFamily report.browser.family = some family → other ≠ family →
          answersAbout other (answersAfter ttl grace (front ++ [op]) back) =
            answersAbout other (answersAfter ttl grace front back) := by
  constructor
  · exact answers_eq_of_seenFrom transparent_profileVetoAt transparent_lookupVetoAt
      (SeenFrom.refl 0 Set.univ _) hsorted (fun _ _ => Nat.zero_le _)
  · intro front op back hops
    rw [hops] at hsorted
    refine ⟨fun profile now nowWall hop => ?_, fun now nowWall report e hop herror => ?_,
      fun now nowWall report family other hop hfam hne => ?_⟩
    · refine answersAfter_omit hsorted ttl grace (fun store => ?_)
      rw [hop]
      exact transparent_profileVetoAt.keeps store profile now nowWall
    · refine answersAfter_omit hsorted ttl grace (fun store => ?_)
      rw [hop]
      exact seenFrom_report _ _ store (fun f _ => accepted_of_error herror f)
    · refine answersAbout_omit hsorted ttl grace (fun store => ?_)
      rw [hop]
      refine seenFrom_report _ _ store (fun f hf => ?_)
      rw [Set.mem_singleton_iff.mp hf]
      exact accepted_of_ne hfam hne

/-- A report, a query when it is exactly `ttl` old, and one after that. -/
def boundaryOps : List StoreOp :=
  [.report 0 0 (oneTabReport "a" { audible := true }), .query "firefox" 10 0,
    .query "firefox" 11 0]

/-- A report that is exactly `ttl` old still counts, in both stores. -/
theorem eviction_invisible_boundary :
    answers SignalStore.profileVetoAt (SignalStore.new 10 0) boundaryOps =
      [("firefox", some { reason := "audible-tab", detail := "1 audible tab(s) reported" }),
        ("firefox", none)] := by
  rw [(eviction_invisible 10 0 boundaryOps (by decide)).1]
  decide +kernel

end BsslRam.Signals
