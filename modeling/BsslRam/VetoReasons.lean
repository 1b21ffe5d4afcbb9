import BsslRam.Signals

/-!
# When a report vetoes, and why

The documented conditions for a veto, in their order: an audible tab, a playing
media element, a focused window, an interaction within the grace period.  The
store does not test the second and the fourth as they stand.  It adds the counts
of playing elements up in a `u32`, and it cuts the grace period in milliseconds
down to a `u64`.  Both sums can come out smaller than what they stand for and
neither can come out larger, so the store never vetoes without a reason, and
`veto_exact_iff` says for which reports it misses one or names a later one.
-/

namespace BsslRam.Signals

open BsslRam.Lib

namespace BrowserSignalsReport

variable (report : BrowserSignalsReport)

/-! ## The conditions -/

def HasAudibleTab : Prop := ∃ tab ∈ report.tabs, tab.audible = true

def PlaysMedia : Prop := ∃ content ∈ report.contents, 0 < content.playingMediaElements

def HasFocusedWindow : Prop := ∃ tab ∈ report.tabs, tab.windowFocused = true

/-- Some tab saw the user at most `graceMs` milliseconds ago. -/
def InteractedWithin (graceMs : Nat) (nowWall : UInt64) : Prop :=
  ∃ content ∈ report.contents, ∃ ts, content.lastUserInteractionMs = some ts ∧
    nowWall.toNat - graceMs ≤ ts.toNat

/-- How many media elements are playing. -/
def playingTotal : Nat :=
  (report.contents.map (fun content => content.playingMediaElements.toNat)).sum

instance : Decidable report.HasAudibleTab :=
  inferInstanceAs (Decidable (∃ tab ∈ report.tabs, tab.audible = true))

instance : Decidable report.PlaysMedia :=
  inferInstanceAs (Decidable (∃ content ∈ report.contents, 0 < content.playingMediaElements))

instance : Decidable report.HasFocusedWindow :=
  inferInstanceAs (Decidable (∃ tab ∈ report.tabs, tab.windowFocused = true))

instance (graceMs : Nat) (nowWall : UInt64) : Decidable (report.InteractedWithin graceMs nowWall) :=
  inferInstanceAs (Decidable (∃ content ∈ report.contents,
    ∃ ts ∈ content.lastUserInteractionMs, nowWall.toNat - graceMs ≤ ts.toNat))

/-- An element plays exactly when the total is not zero. -/
theorem playsMedia_iff : report.PlaysMedia ↔ report.playingTotal ≠ 0 := by
  unfold PlaysMedia playingTotal
  rw [Ne, List.sum_eq_zero_iff, not_forall]
  simp only [List.mem_map, UInt32.lt_iff_toNat_lt, UInt32.toNat_zero]
  constructor
  · intro ⟨content, hmem, hpos⟩
    exact ⟨content.playingMediaElements.toNat, fun hzero => by
      have := hzero ⟨content, hmem, rfl⟩
      omega⟩
  · intro ⟨n, hn⟩
    rw [Classical.not_imp] at hn
    obtain ⟨⟨content, hmem, rfl⟩, hne⟩ := hn
    exact ⟨content, hmem, by omega⟩

theorem playsMedia_of_mod_ne (h : report.playingTotal % 2 ^ 32 ≠ 0) : report.PlaysMedia := by
  rw [playsMedia_iff]
  intro hzero
  rw [hzero] at h
  exact h rfl

/-- A longer grace period lets more interactions count. -/
theorem InteractedWithin.mono {report : BrowserSignalsReport} {graceMs graceMs' : Nat}
    {nowWall : UInt64} (h : report.InteractedWithin graceMs nowWall) (hle : graceMs ≤ graceMs') :
    report.InteractedWithin graceMs' nowWall := by
  obtain ⟨content, hmem, ts, hts, hbound⟩ := h
  exact ⟨content, hmem, ts, hts, by omega⟩

/-! ## The order of the reasons -/

/-- The name of the first condition that holds. -/
def firstReason (audible playing focused recent : Prop) [Decidable audible] [Decidable playing]
    [Decidable focused] [Decidable recent] : Option String :=
  if audible then some "audible-tab"
  else if playing then some "playing-media"
  else if focused then some "focused-window"
  else if recent then some "recent-interaction"
  else none

/-- The reason that a report gives for a veto. -/
def vetoReason (grace : Duration) (nowWall : UInt64) : Option String :=
  firstReason report.HasAudibleTab report.PlaysMedia report.HasFocusedWindow
    (report.InteractedWithin grace.asMillis nowWall)

theorem vetoReason_isSome_iff (grace : Duration) (nowWall : UInt64) :
    (report.vetoReason grace nowWall).isSome = true ↔ report.Vetoes grace nowWall := by
  change _ ↔ report.HasAudibleTab ∨ report.PlaysMedia ∨ report.HasFocusedWindow ∨
    report.InteractedWithin grace.asMillis nowWall
  unfold vetoReason firstReason
  split
  · simp [*]
  split
  · simp [*]
  split
  · simp [*]
  split
  · simp [*]
  · simp [*]

/-- Two ladders with the same first and third condition, where the second and the
fourth of one hold less often than those of the other. -/
theorem firstReason_eq_iff {audible playing playing' focused recent recent' : Prop}
    [Decidable audible] [Decidable playing] [Decidable playing'] [Decidable focused]
    [Decidable recent] [Decidable recent'] (hplaying : playing' → playing)
    (hrecent : recent' → recent) :
    firstReason audible playing' focused recent' = firstReason audible playing focused recent ↔
      audible ∨ playing' ∨ ¬ playing ∧ (focused ∨ (recent → recent')) := by
  unfold firstReason
  by_cases ha : audible
  · simp [ha]
  by_cases hp' : playing'
  · simp [ha, hp', hplaying hp']
  by_cases hp : playing
  · -- the second ladder names the media, the first one something else or nothing
    by_cases hf : focused
    · simp [ha, hp', hp, hf]
    · by_cases hr : recent'
      · simp [ha, hp', hp, hf, hr]
      · simp [ha, hp', hp, hf, hr]
  by_cases hf : focused
  · simp [ha, hp', hp, hf]
  by_cases hr' : recent'
  · simp [ha, hp', hp, hf, hr', hrecent hr']
  by_cases hr : recent
  · simp [ha, hp', hp, hf, hr', hr]
  · simp [ha, hp', hp, hf, hr', hr]

end BrowserSignalsReport

/-! ## What the store tests -/

/-- The reason that the store gives, on the counts that it makes. -/
theorem reason_reportVeto (grace : Duration) (nowWall : UInt64) (report : BrowserSignalsReport) :
    (reportVeto grace nowWall report).map ProfileVeto.reason =
      BrowserSignalsReport.firstReason report.HasAudibleTab (report.playingTotal % 2 ^ 32 ≠ 0)
        report.HasFocusedWindow (report.InteractedWithin (grace.asMillis % 2 ^ 64) nowWall) := by
  have haudible : 0 < report.audibleTabs ↔ report.HasAudibleTab := List.countP_pos_iff
  have hplaying : 0 < report.playingMedia ↔ report.playingTotal % 2 ^ 32 ≠ 0 :=
    zero_lt_playingMedia_iff report
  have hfocused : 0 < report.focusedWindows ↔ report.HasFocusedWindow := List.countP_pos_iff
  have hrecent : 0 < report.recentInteractions (recentCutoff grace nowWall) ↔
      report.InteractedWithin (grace.asMillis % 2 ^ 64) nowWall :=
    zero_lt_recentInteractions_iff grace nowWall report
  unfold reportVeto BrowserSignalsReport.firstReason
  simp only [haudible, hplaying, hfocused, hrecent]
  split
  · rfl
  split
  · rfl
  split
  · rfl
  split
  · rfl
  · rfl

/-- A query finds the report that is stored and fresh. -/
theorem profileVetoAt_of_stored {store : SignalStore} {profile family : String}
    {cached : CachedReport} {now : Instant} (hprofile : canonicalFamily profile = some family)
    (hstored : store.reports[family]? = some cached)
    (hfresh : now - cached.receivedAt ≤ store.ttl) (nowWall : UInt64) :
    (store.profileVetoAt profile now nowWall).1 =
      reportVeto store.interactionGrace nowWall cached.report := by
  have hkeep : cached.fresh store.ttl now = true := decide_eq_true hfresh
  unfold SignalStore.profileVetoAt
  rw [hprofile]
  simp only [getElem?_evict, hstored, Option.filter, hkeep, if_true, Option.bind_some]
  rfl

/-- The counts of the store say what they stand for: an audible tab settles the matter;
otherwise the total of playing elements is not a multiple of `2 ^ 32`, or no element
plays and a focused window comes next, or with an interaction within the grace
period there is also one within the grace period modulo `2 ^ 64`. -/
def BrowserSignalsReport.CountsExactly (grace : Duration) (nowWall : UInt64)
    (report : BrowserSignalsReport) : Prop :=
  report.HasAudibleTab ∨ report.playingTotal % 2 ^ 32 ≠ 0 ∨
    ¬ report.PlaysMedia ∧ (report.HasFocusedWindow ∨
      (report.InteractedWithin grace.asMillis nowWall →
        report.InteractedWithin (grace.asMillis % 2 ^ 64) nowWall))

/-- A query about a fresh report vetoes exactly when one of the conditions holds, and
for the first reason in their order, if and only if the counts of the store are
exact in this sense. -/
theorem veto_exact_iff (store : SignalStore) (profile family : String) (cached : CachedReport)
    (now : Instant) (nowWall : UInt64) (hprofile : canonicalFamily profile = some family)
    (hstored : store.reports[family]? = some cached)
    (hfresh : now - cached.receivedAt ≤ store.ttl) :
    (((store.profileVetoAt profile now nowWall).1.isSome = true ↔
          cached.report.Vetoes store.interactionGrace nowWall) ∧
        (store.profileVetoAt profile now nowWall).1.map ProfileVeto.reason =
          cached.report.vetoReason store.interactionGrace nowWall) ↔
      cached.report.CountsExactly store.interactionGrace nowWall := by
  rw [profileVetoAt_of_stored hprofile hstored hfresh]
  obtain ⟨grace, hgrace⟩ : ∃ grace, grace = store.interactionGrace := ⟨_, rfl⟩
  rw [← hgrace]
  have hladder : (reportVeto grace nowWall cached.report).map ProfileVeto.reason =
      cached.report.vetoReason grace nowWall ↔ cached.report.CountsExactly grace nowWall := by
    rw [reason_reportVeto]
    exact BrowserSignalsReport.firstReason_eq_iff cached.report.playsMedia_of_mod_ne
      (fun h => h.mono (Nat.mod_le _ _))
  constructor
  · intro h
    exact hladder.mp h.2
  · intro h
    have hreason := hladder.mpr h
    refine ⟨?_, hreason⟩
    rw [← cached.report.vetoReason_isSome_iff, ← hreason, Option.isSome_map]

/-- Two tabs of a Firefox instance, with these counts of playing media elements. -/
def twoPlayers (first second : UInt32) : CachedReport where
  receivedAt := 0
  report :=
    { browser := { family := "firefox" }
      tabs := [{ content := some { playingMediaElements := first } },
        { content := some { playingMediaElements := second } }] }

/-- A store that holds one report of Firefox. -/
def soloStore (cached : CachedReport) : SignalStore :=
  { SignalStore.new 10 0 with reports := (∅ : Map String CachedReport).insert "firefox" cached }

theorem soloStore_firefox (cached : CachedReport) :
    (soloStore cached).reports["firefox"]? = some cached := by
  simp [soloStore]

/-- Two tabs with one playing element each veto, for that reason. -/
theorem veto_exact_iff_two_players :
    ((soloStore (twoPlayers 1 1)).profileVetoAt "firefox" 0 0).1.map ProfileVeto.reason =
      some "playing-media" :=
  ((veto_exact_iff (soloStore (twoPlayers 1 1)) "firefox" "firefox" (twoPlayers 1 1) 0 0
    canonicalFamily_firefox (soloStore_firefox _) (by decide)).mpr (Or.inr (Or.inl (by decide)))).2

/-- Two tabs with `2 ^ 31` playing elements each: the sum wraps to zero and nothing
vetoes. -/
theorem wrapped_sum_drops_veto :
    ¬ ∀ (store : SignalStore) (profile family : String) (cached : CachedReport) (now : Instant)
        (nowWall : UInt64), canonicalFamily profile = some family →
      store.reports[family]? = some cached → now - cached.receivedAt ≤ store.ttl →
      ((store.profileVetoAt profile now nowWall).1.isSome = true ↔
        cached.report.Vetoes store.interactionGrace nowWall) := by
  intro hclaim
  have hiff := hclaim (soloStore (twoPlayers 0x80000000 0x80000000)) "firefox" "firefox" _ 0 0
    canonicalFamily_firefox (soloStore_firefox _) (by decide)
  have hveto : (twoPlayers 0x80000000 0x80000000).report.Vetoes 0 0 :=
    Or.inr (Or.inl ⟨{ playingMediaElements := 0x80000000 }, by simp [twoPlayers,
      BrowserSignalsReport.contents], by decide⟩)
  have hquiet : reportVeto 0 0 (twoPlayers 0x80000000 0x80000000).report = none := by decide
  have hsome := hiff.mpr hveto
  rw [profileVetoAt_of_stored canonicalFamily_firefox (soloStore_firefox _) (by decide)] at hsome
  rw [show (soloStore (twoPlayers 0x80000000 0x80000000)).interactionGrace = 0 from rfl,
    hquiet] at hsome
  cases hsome

end BsslRam.Signals
