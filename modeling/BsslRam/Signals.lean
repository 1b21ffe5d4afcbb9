import BsslRam.Lib.Map
import BsslRam.Lib.Text
import BsslRam.Lib.Word

/-!
# The browser signal store

`daemon/src/signals.rs`.  The extension of each browser instance sends reports
about its tabs; the store keeps the last one of each browser family, and
`profile_veto_at` asks whether a fresh report speaks against compression.

A `Duration` is a number of nanoseconds and an `Instant` is the time since some
fixed origin.  Reports are kept under the canonical family only, not under the
instance.  `query_eq_latest` says what a query sees after any sequence of
operations, and `veto_iff_latest` what that means for a veto that one instance
of a family has reported.
-/

namespace BsslRam.Signals

open BsslRam.Lib

/-- `std::time::Duration`, in nanoseconds. -/
abbrev Duration := Nat

/-- `std::time::Instant`, in nanoseconds since a fixed origin. -/
abbrev Instant := Nat

namespace Duration

def fromSecs (secs : UInt64) : Duration := secs.toNat * 1000000000

def asSecs (d : Duration) : Nat := d / 1000000000

def asMillis (d : Duration) : Nat := d / 1000000

end Duration

/-! ## Reports -/

structure BrowserDescriptor where
  family : String := ""
  instanceId : String := ""
  systemIdleState : String := ""
  deriving DecidableEq, Repr

structure SignalSummary where
  tabsTotal : UInt32 := 0
  audibleTabs : UInt32 := 0
  hiddenTabs : UInt32 := 0
  discardedTabs : UInt32 := 0
  activeTabs : UInt32 := 0
  focusedWindows : UInt32 := 0
  contentSamples : UInt32 := 0
  deriving DecidableEq, Repr

structure ContentSignal where
  visibilityState : String := ""
  documentHasFocus : Bool := false
  fullscreen : Bool := false
  pictureInPicture : Bool := false
  mediaElements : UInt32 := 0
  playingMediaElements : UInt32 := 0
  lastUserInteractionMs : Option UInt64 := none
  sampledAtMs : UInt64 := 0
  deriving DecidableEq, Repr

structure TabSignal where
  tabId : Int64 := 0
  windowId : Int64 := 0
  active : Bool := false
  audible : Bool := false
  hidden : Bool := false
  discarded : Bool := false
  lastAccessedMs : Option UInt64 := none
  windowFocused : Bool := false
  urlOrigin : Option String := none
  content : Option ContentSignal := none
  deriving DecidableEq

structure BrowserSignalsReport where
  version : UInt32 := 0
  protocolVersion : UInt32 := 0
  vetoTtlMs : UInt64 := 0
  sentAtMs : UInt64 := 0
  browser : BrowserDescriptor := {}
  summary : SignalSummary := {}
  tabs : List TabSignal := []
  deriving DecidableEq

/-- Why a browser report vetoes compression. -/
structure ProfileVeto where
  reason : String
  detail : String
  deriving DecidableEq, Repr

/-! ## The store -/

def PROTOCOL_VERSION : UInt32 := 1

/-- The most that `sent_at_ms` may differ from the wall clock. -/
def SENT_AT_MAX_SKEW_MS : UInt64 := 120000

structure CachedReport where
  receivedAt : Instant
  report : BrowserSignalsReport
  deriving DecidableEq

structure SignalStore where
  ttl : Duration
  interactionGrace : Duration
  reports : Map String CachedReport

def SignalStore.new (ttl interactionGrace : Duration) : SignalStore :=
  { ttl, interactionGrace, reports := ∅ }

def firefoxNames : List String := ["firefox", "librewolf", "waterfox", "icecat", "zen"]

def chromiumNames : List String :=
  ["chromium", "chrome", "brave", "edge", "opera", "vivaldi", "thorium"]

def canonicalFamily (raw : String) : Option String :=
  let lower := String.ofList (Text.toAsciiLowercase raw.toList)
  if firefoxNames.contains lower then some "firefox"
  else if chromiumNames.contains lower then some "chromium"
  else none

/-- `apply_report_at`, received at `now`. -/
def SignalStore.applyReportAt (store : SignalStore) (now : Instant) (nowWall : UInt64)
    (report : BrowserSignalsReport) : Except String SignalStore :=
  let skewMs := absDiff nowWall report.sentAtMs
  if SENT_AT_MAX_SKEW_MS < skewMs then
    .error s!"sent_at_ms skew {skewMs}ms exceeds limit {SENT_AT_MAX_SKEW_MS}ms"
  else
    match canonicalFamily report.browser.family with
    | none => .error "browser.family missing or unsupported"
    | some family =>
        let report := { report with browser := { report.browser with family } }
        .ok { store with reports := store.reports.insert family { receivedAt := now, report } }

/-- The status codes of `report_handler`. -/
inductive StatusCode where
  | noContent
  | badRequest
  | unauthorized
  deriving DecidableEq, Repr

/-- `report_handler`, on a request that deserialised.  `sourceHeader` is the value of
the `x-bssl-signal-source` header. -/
def reportHandler (store : SignalStore) (requiresSourceHeader : Bool)
    (sourceHeader : Option String) (now : Instant) (nowWall : UInt64)
    (report : BrowserSignalsReport) : StatusCode × SignalStore :=
  if requiresSourceHeader && sourceHeader != some "extension" then (.unauthorized, store)
  else
    let wireVersion :=
      if report.protocolVersion != 0 then report.protocolVersion else report.version
    if wireVersion != PROTOCOL_VERSION then (.badRequest, store)
    else
      match store.applyReportAt now nowWall report with
      | .ok store => (.noContent, store)
      | .error _ => (.badRequest, store)

/-! ## Vetoes -/

namespace BrowserSignalsReport

def contents (report : BrowserSignalsReport) : List ContentSignal :=
  report.tabs.filterMap TabSignal.content

def audibleTabs (report : BrowserSignalsReport) : Nat := report.tabs.countP TabSignal.audible

/-- The sum of the counts, which wraps in a release build. -/
def playingMedia (report : BrowserSignalsReport) : UInt32 :=
  (report.contents.map ContentSignal.playingMediaElements).sum

def focusedWindows (report : BrowserSignalsReport) : Nat :=
  report.tabs.countP TabSignal.windowFocused

def recentInteractions (report : BrowserSignalsReport) (recentCutoff : UInt64) : Nat :=
  (report.contents.filterMap ContentSignal.lastUserInteractionMs).countP
    (fun ts => decide (recentCutoff ≤ ts))

end BrowserSignalsReport

/-- `as_millis() as u64` keeps the low 64 bits. -/
def recentCutoff (grace : Duration) (nowWallMs : UInt64) : UInt64 :=
  saturatingSub nowWallMs (UInt64.ofNat grace.asMillis)

/-- The four tests of `profile_veto_at`, on one report. -/
def reportVeto (grace : Duration) (nowWallMs : UInt64) (report : BrowserSignalsReport) :
    Option ProfileVeto :=
  if 0 < report.audibleTabs then
    some ⟨"audible-tab", s!"{report.audibleTabs} audible tab(s) reported"⟩
  else if 0 < report.playingMedia then
    some ⟨"playing-media", s!"{report.playingMedia} media element(s) actively playing"⟩
  else if 0 < report.focusedWindows then
    some ⟨"focused-window", s!"{report.focusedWindows} focused browser window(s) reported"⟩
  else
    let recent := report.recentInteractions (recentCutoff grace nowWallMs)
    if 0 < recent then
      some ⟨"recent-interaction",
        s!"{recent} tab(s) reported user interaction within the last {grace.asSecs}s"⟩
    else none

/-- The report is at most `ttl` old. -/
def CachedReport.fresh (ttl : Duration) (now : Instant) (cached : CachedReport) : Bool :=
  decide (now - cached.receivedAt ≤ ttl)

/-- `guard.retain` of `profile_veto_at`. -/
def SignalStore.evict (store : SignalStore) (now : Instant) : SignalStore :=
  { store with reports := store.reports.filter (fun _ cached => cached.fresh store.ttl now) }

/-- `profile_veto_at`. -/
def SignalStore.profileVetoAt (store : SignalStore) (profile : String) (now : Instant)
    (nowWallMs : UInt64) : Option ProfileVeto × SignalStore :=
  match canonicalFamily profile with
  | none => (none, store)
  | some family =>
      let store := store.evict now
      (store.reports[family]?.bind (fun cached =>
        reportVeto store.interactionGrace nowWallMs cached.report), store)

/-! ## Histories of the store -/

/-- An operation on the store, with the instant at which it happens. -/
inductive StoreOp where
  | report (now : Instant) (nowWall : UInt64) (report : BrowserSignalsReport)
  | query (profile : String) (now : Instant) (nowWall : UInt64)

namespace StoreOp

def instant : StoreOp → Instant
  | report now _ _ => now
  | query _ now _ => now

/-- What a report puts into the store under `family`, if it is accepted. -/
def accepted (family : String) : StoreOp → Option CachedReport
  | report now nowWall r =>
      if SENT_AT_MAX_SKEW_MS < absDiff nowWall r.sentAtMs then none
      else if canonicalFamily r.browser.family = some family then
        some { receivedAt := now, report := { r with browser := { r.browser with family } } }
      else none
  | query _ _ _ => none

end StoreOp

def SignalStore.step (store : SignalStore) : StoreOp → SignalStore
  | .report now nowWall report =>
      match store.applyReportAt now nowWall report with
      | .ok store => store
      | .error _ => store
  | .query profile now nowWall => (store.profileVetoAt profile now nowWall).2

def SignalStore.run (ttl grace : Duration) (ops : List StoreOp) : SignalStore :=
  ops.foldl SignalStore.step (SignalStore.new ttl grace)

/-- The reports of the family that were accepted, in order. -/
def acceptedReports (family : String) (ops : List StoreOp) : List CachedReport :=
  ops.filterMap (StoreOp.accepted family)

/-- The last accepted report of the family, from whichever instance. -/
def latest (family : String) (ops : List StoreOp) : Option CachedReport :=
  (acceptedReports family ops).getLast?

/-- The last accepted report of one instance of the family. -/
def latestOf (family instanceId : String) (ops : List StoreOp) : Option CachedReport :=
  ((acceptedReports family ops).filter
    (fun cached => cached.report.browser.instanceId == instanceId)).getLast?

theorem latest_append (family : String) (ops : List StoreOp) (op : StoreOp) :
    latest family (ops ++ [op]) = (op.accepted family).or (latest family ops) := by
  unfold latest acceptedReports
  rw [List.filterMap_append, List.getLast?_append]
  cases h : op.accepted family with
  | none => simp [h]
  | some cached => simp [h]

/-- What an operation does: nothing, one insertion, or an eviction. -/
theorem step_cases (store : SignalStore) (op : StoreOp) :
    ((∀ f, op.accepted f = none) ∧ store.step op = store) ∨
    ((∀ f, op.accepted f = none) ∧ store.step op = store.evict op.instant) ∨
    ∃ family cached, op.accepted family = some cached ∧
      (∀ f, family ≠ f → op.accepted f = none) ∧
      store.step op = { store with reports := store.reports.insert family cached } := by
  cases op with
  | query profile now nowWall =>
    cases hfam : canonicalFamily profile with
    | none =>
      left
      exact ⟨fun _ => rfl, by simp [SignalStore.step, SignalStore.profileVetoAt, hfam]⟩
    | some family =>
      refine Or.inr (Or.inl ⟨fun _ => rfl, ?_⟩)
      simp only [SignalStore.step, SignalStore.profileVetoAt, hfam]
      rfl
  | report now nowWall report =>
    by_cases hskew : SENT_AT_MAX_SKEW_MS < absDiff nowWall report.sentAtMs
    · left
      exact ⟨fun f => by simp [StoreOp.accepted, hskew],
        by simp [SignalStore.step, SignalStore.applyReportAt, hskew]⟩
    · cases hfam : canonicalFamily report.browser.family with
      | none =>
        left
        exact ⟨fun f => by simp [StoreOp.accepted, hfam],
          by simp [SignalStore.step, SignalStore.applyReportAt, hskew, hfam]⟩
      | some family =>
        right
        right
        refine ⟨family, _, by rw [StoreOp.accepted, if_neg hskew, if_pos hfam],
          fun f hf => ?_, by simp [SignalStore.step, SignalStore.applyReportAt, hskew, hfam]⟩
        rw [StoreOp.accepted, if_neg hskew, hfam, if_neg (fun h => hf (Option.some.inj h))]

theorem step_ttl (store : SignalStore) (op : StoreOp) :
    (store.step op).ttl = store.ttl ∧
      (store.step op).interactionGrace = store.interactionGrace := by
  rcases step_cases store op with ⟨-, heq⟩ | ⟨-, heq⟩ | ⟨family, cached, -, -, heq⟩
  · rw [heq]
    exact ⟨rfl, rfl⟩
  · rw [heq]
    exact ⟨rfl, rfl⟩
  · rw [heq]
    exact ⟨rfl, rfl⟩

theorem run_ttl (ttl grace : Duration) (ops : List StoreOp) :
    (SignalStore.run ttl grace ops).ttl = ttl ∧
      (SignalStore.run ttl grace ops).interactionGrace = grace := by
  induction ops using List.reverseRecOn with
  | nil => exact ⟨rfl, rfl⟩
  | append_singleton ops op ih =>
    unfold SignalStore.run at ih ⊢
    rw [List.foldl_append, List.foldl_cons, List.foldl_nil]
    obtain ⟨httl, hgrace⟩ := step_ttl (ops.foldl SignalStore.step (SignalStore.new ttl grace)) op
    exact ⟨httl.trans ih.1, hgrace.trans ih.2⟩

theorem getElem?_evict (store : SignalStore) (now : Instant) (family : String) :
    (store.evict now).reports[family]? =
      store.reports[family]?.filter (CachedReport.fresh store.ttl now) := by
  unfold SignalStore.evict
  cases h : store.reports[family]? with
  | none => simp [h]
  | some cached =>
    by_cases hfresh : cached.fresh store.ttl now = true
    · simp [h, hfresh, Option.filter]
    · simp [h, hfresh, Option.filter]

/-- A report that is fresh later on has been fresh all the time. -/
theorem fresh_of_le {ttl : Duration} {q now : Instant} (hle : q ≤ now) {cached : CachedReport}
    (h : cached.fresh ttl now = true) : cached.fresh ttl q = true := by
  unfold CachedReport.fresh at h ⊢
  rw [decide_eq_true_eq] at h ⊢
  exact Nat.le_trans (Nat.sub_le_sub_right hle cached.receivedAt) h

/-- For a query at `now`, an earlier eviction made no difference. -/
theorem filter_fresh_step (store : SignalStore) (op : StoreOp) (family : String)
    {now : Instant} (hle : op.instant ≤ now) :
    (store.step op).reports[family]?.filter (CachedReport.fresh store.ttl now) =
      ((op.accepted family).or store.reports[family]?).filter
        (CachedReport.fresh store.ttl now) := by
  rcases step_cases store op with ⟨hnone, heq⟩ | ⟨hnone, heq⟩ |
      ⟨family', cached, hsome, hother, heq⟩
  · rw [heq, hnone family, Option.none_or]
  · rw [heq, hnone family, Option.none_or, getElem?_evict]
    cases store.reports[family]? with
    | none => rfl
    | some cached =>
      by_cases hfresh : cached.fresh store.ttl now = true
      · simp [Option.filter, hfresh, fresh_of_le hle hfresh]
      · by_cases hearlier : cached.fresh store.ttl op.instant = true
        · simp [Option.filter, hearlier]
        · simp [Option.filter, hearlier, hfresh]
  · rw [heq, Map.getElem?_insert]
    by_cases hf : family' = family
    · rw [if_pos hf, ← hf, hsome]
      rfl
    · rw [if_neg hf, hother family hf, Option.none_or]

/-- What a query at `now` finds is the last accepted report, if it is still fresh. -/
theorem filter_fresh_run (ttl grace : Duration) (family : String) {now : Instant}
    (ops : List StoreOp) (hnow : ∀ op ∈ ops, op.instant ≤ now) :
    (SignalStore.run ttl grace ops).reports[family]?.filter (CachedReport.fresh ttl now) =
      (latest family ops).filter (CachedReport.fresh ttl now) := by
  induction ops using List.reverseRecOn with
  | nil => simp [SignalStore.run, SignalStore.new, latest, acceptedReports]
  | append_singleton ops op ih =>
    have hprev := ih (fun o ho => hnow o (List.mem_append_left _ ho))
    have hstep := filter_fresh_step (SignalStore.run ttl grace ops) op family
      (hnow op (List.mem_append_right _ (List.mem_singleton.mpr rfl)))
    rw [(run_ttl ttl grace ops).1] at hstep
    rw [latest_append, SignalStore.run, List.foldl_append, List.foldl_cons, List.foldl_nil]
    refine hstep.trans ?_
    cases op.accepted family with
    | none => exact hprev
    | some cached => rfl

/-- A query answers from the last accepted report of the family alone. -/
theorem query_eq_latest (ttl grace : Duration) (ops : List StoreOp) {profile family : String}
    (hfamily : canonicalFamily profile = some family) {now : Instant}
    (hnow : ∀ op ∈ ops, op.instant ≤ now) (nowWall : UInt64) :
    ((SignalStore.run ttl grace ops).profileVetoAt profile now nowWall).1 =
      ((latest family ops).filter (CachedReport.fresh ttl now)).bind
        (fun cached => reportVeto grace nowWall cached.report) := by
  unfold SignalStore.profileVetoAt
  rw [hfamily]
  simp only [getElem?_evict]
  rw [(run_ttl ttl grace ops).1, filter_fresh_run ttl grace family ops hnow]
  simp only [SignalStore.evict, (run_ttl ttl grace ops).2]

/-! ## One instance's veto -/

namespace BrowserSignalsReport

/-- The report speaks against compression: an audible tab, a playing media element, a
focused window, or an interaction within the grace period. -/
def Vetoes (grace : Duration) (nowWall : UInt64) (report : BrowserSignalsReport) : Prop :=
  (∃ tab ∈ report.tabs, tab.audible = true) ∨
  (∃ content ∈ report.contents, 0 < content.playingMediaElements) ∨
  (∃ tab ∈ report.tabs, tab.windowFocused = true) ∨
  ∃ content ∈ report.contents, ∃ ts, content.lastUserInteractionMs = some ts ∧
    nowWall.toNat - grace.asMillis ≤ ts.toNat

/-- What the store counts as a veto.  The counts of playing elements are added up
modulo `2 ^ 32`, and the grace period in milliseconds is taken modulo `2 ^ 64`. -/
def CountsAsVeto (grace : Duration) (nowWall : UInt64) (report : BrowserSignalsReport) : Prop :=
  (∃ tab ∈ report.tabs, tab.audible = true) ∨
  (report.contents.map (fun content => content.playingMediaElements.toNat)).sum % 2 ^ 32 ≠ 0 ∨
  (∃ tab ∈ report.tabs, tab.windowFocused = true) ∨
  ∃ content ∈ report.contents, ∃ ts, content.lastUserInteractionMs = some ts ∧
    nowWall.toNat - grace.asMillis % 2 ^ 64 ≤ ts.toNat

theorem toNat_playingMedia (report : BrowserSignalsReport) :
    report.playingMedia.toNat =
      (report.contents.map (fun content => content.playingMediaElements.toNat)).sum % 2 ^ 32 := by
  unfold playingMedia
  induction report.contents with
  | nil => rfl
  | cons content contents ih =>
    simp only [List.map_cons, List.sum_cons, UInt32.toNat_add, ih]
    omega

end BrowserSignalsReport

theorem recentCutoff_le_iff (grace : Duration) (nowWall ts : UInt64) :
    recentCutoff grace nowWall ≤ ts ↔ nowWall.toNat - grace.asMillis % 2 ^ 64 ≤ ts.toNat := by
  unfold recentCutoff
  rw [UInt64.le_iff_toNat_le, toNat_saturatingSub, UInt64.toNat_ofNat']

theorem zero_lt_playingMedia_iff (report : BrowserSignalsReport) :
    0 < report.playingMedia ↔
      (report.contents.map (fun content => content.playingMediaElements.toNat)).sum % 2 ^ 32 ≠
        0 := by
  rw [UInt32.lt_iff_toNat_lt, UInt32.toNat_zero, report.toNat_playingMedia]
  omega

theorem zero_lt_recentInteractions_iff (grace : Duration) (nowWall : UInt64)
    (report : BrowserSignalsReport) :
    0 < report.recentInteractions (recentCutoff grace nowWall) ↔
      ∃ content ∈ report.contents, ∃ ts, content.lastUserInteractionMs = some ts ∧
        nowWall.toNat - grace.asMillis % 2 ^ 64 ≤ ts.toNat := by
  unfold BrowserSignalsReport.recentInteractions
  simp only [List.countP_pos_iff, List.mem_filterMap, decide_eq_true_eq, recentCutoff_le_iff]
  constructor
  · intro ⟨ts, ⟨content, hmem, hts⟩, hle⟩
    exact ⟨content, hmem, ts, hts, hle⟩
  · intro ⟨content, hmem, ts, hts, hle⟩
    exact ⟨ts, ⟨content, hmem, hts⟩, hle⟩

/-- The four tests, without their order. -/
theorem reportVeto_isSome_iff (grace : Duration) (nowWall : UInt64)
    (report : BrowserSignalsReport) :
    (reportVeto grace nowWall report).isSome = true ↔ report.CountsAsVeto grace nowWall := by
  unfold BrowserSignalsReport.CountsAsVeto
  rw [← zero_lt_playingMedia_iff, ← zero_lt_recentInteractions_iff]
  have haudible : 0 < report.audibleTabs ↔ ∃ tab ∈ report.tabs, tab.audible = true :=
    List.countP_pos_iff
  have hfocused : 0 < report.focusedWindows ↔ ∃ tab ∈ report.tabs, tab.windowFocused = true :=
    List.countP_pos_iff
  rw [← haudible, ← hfocused]
  unfold reportVeto
  by_cases h₁ : 0 < report.audibleTabs
  · simp [h₁]
  · by_cases h₂ : 0 < report.playingMedia
    · simp [h₁, h₂]
    · by_cases h₃ : 0 < report.focusedWindows
      · simp [h₁, h₂, h₃]
      · by_cases h₄ : 0 < report.recentInteractions (recentCutoff grace nowWall)
        · simp [h₁, h₂, h₃, h₄]
        · simp [h₁, h₂, h₃, h₄]

/-- Reports are accepted in the order in which they are received. -/
theorem acceptedReports_sorted (family : String) {ops : List StoreOp}
    (hsorted : (ops.map StoreOp.instant).Pairwise (· ≤ ·)) :
    ((acceptedReports family ops).map CachedReport.receivedAt).Pairwise (· ≤ ·) := by
  have hinstant : ∀ op cached, StoreOp.accepted family op = some cached →
      cached.receivedAt = op.instant := by
    intro op cached h
    cases op with
    | query profile now nowWall => cases h
    | report now nowWall report =>
      simp only [StoreOp.accepted] at h
      split at h
      · cases h
      · split at h
        · rw [← Option.some.inj h]
          rfl
        · cases h
  unfold acceptedReports
  rw [List.pairwise_map] at hsorted ⊢
  rw [List.pairwise_filterMap]
  refine hsorted.imp (fun {a b} hab x hx y hy => ?_)
  rw [hinstant a x hx, hinstant b y hy]
  exact hab

/-- The last element of a sorted list is its largest. -/
private theorem receivedAt_le_last {cached : List CachedReport} {c last : CachedReport}
    (hsorted : (cached.map CachedReport.receivedAt).Pairwise (· ≤ ·)) (hc : c ∈ cached)
    (hlast : cached.getLast? = some last) : c.receivedAt ≤ last.receivedAt := by
  obtain ⟨front, hfront⟩ := List.getLast?_eq_some_iff.mp hlast
  rw [hfront] at hc hsorted
  rw [List.pairwise_map, List.pairwise_append] at hsorted
  rcases List.mem_append.mp hc with hmem | hmem
  · exact hsorted.2.2 c hmem last (List.mem_singleton.mpr rfl)
  · rw [List.mem_singleton.mp hmem]

/-- An instance of the family has a fresh report that vetoes.  Then the query vetoes
exactly when the last accepted report of the family, from whichever instance it
came, counts as a veto by itself. -/
theorem veto_iff_latest (ttl grace : Duration) (ops : List StoreOp)
    (hsorted : (ops.map StoreOp.instant).Pairwise (· ≤ ·)) (profile family instanceId : String)
    (hfamily : canonicalFamily profile = some family) (now : Instant)
    (hnow : ∀ op ∈ ops, op.instant ≤ now) (nowWall : UInt64) (mine : CachedReport)
    (hmine : latestOf family instanceId ops = some mine)
    (hfresh : now - mine.receivedAt ≤ ttl) (_hveto : mine.report.Vetoes grace nowWall) :
    ((SignalStore.run ttl grace ops).profileVetoAt profile now nowWall).1.isSome = true ↔
      ∃ last, latest family ops = some last ∧ last.report.CountsAsVeto grace nowWall := by
  have hmem : mine ∈ acceptedReports family ops :=
    (List.mem_filter.mp (List.mem_of_getLast? hmine)).1
  obtain ⟨last, hlast⟩ : ∃ last, latest family ops = some last := by
    cases h : latest family ops with
    | some last => exact ⟨last, rfl⟩
    | none =>
      rw [List.getLast?_eq_none_iff.mp h] at hmem
      cases hmem
  have hle : mine.receivedAt ≤ last.receivedAt :=
    receivedAt_le_last (acceptedReports_sorted family hsorted) hmem hlast
  have hlastFresh : last.fresh ttl now = true := by
    unfold CachedReport.fresh
    rw [decide_eq_true_eq]
    exact Nat.le_trans (Nat.sub_le_sub_left hle now) hfresh
  rw [query_eq_latest ttl grace ops hfamily hnow, hlast]
  simp only [Option.filter, hlastFresh, if_true, Option.bind_some, Option.some.injEq,
    exists_eq_left', reportVeto_isSome_iff]

/-- A Firefox instance with one tab. -/
def oneTabReport (instanceId : String) (tab : TabSignal) : BrowserSignalsReport :=
  { protocolVersion := 1, browser := { family := "firefox", instanceId }, tabs := [tab] }

/-- Instance `a` plays audio, then instance `b` reports. -/
def twoInstances (tab : TabSignal) : List StoreOp :=
  [.report 0 0 (oneTabReport "a" { audible := true }), .report 1 0 (oneTabReport "b" tab)]

theorem canonicalFamily_firefox : canonicalFamily "firefox" = some "firefox" := by
  decide +kernel

theorem accepted_oneTabReport (now : Instant) (instanceId : String) (tab : TabSignal) :
    StoreOp.accepted "firefox" (.report now 0 (oneTabReport instanceId tab)) =
      some { receivedAt := now, report := oneTabReport instanceId tab } := by
  have hskew : ¬ SENT_AT_MAX_SKEW_MS < absDiff 0 (oneTabReport instanceId tab).sentAtMs := by
    change ¬ SENT_AT_MAX_SKEW_MS < absDiff 0 0
    decide
  have hfamily : canonicalFamily (oneTabReport instanceId tab).browser.family =
      some "firefox" := canonicalFamily_firefox
  rw [StoreOp.accepted, if_neg hskew, if_pos hfamily]
  rfl

theorem accepted_twoInstances (tab : TabSignal) :
    acceptedReports "firefox" (twoInstances tab) =
      [{ receivedAt := 0, report := oneTabReport "a" { audible := true } },
       { receivedAt := 1, report := oneTabReport "b" tab }] := by
  simp [acceptedReports, twoInstances, accepted_oneTabReport]

theorem latestOf_twoInstances (tab : TabSignal) :
    latestOf "firefox" "a" (twoInstances tab) =
      some { receivedAt := 0, report := oneTabReport "a" { audible := true } } := by
  rw [latestOf, accepted_twoInstances]
  rfl

theorem latest_twoInstances (tab : TabSignal) :
    latest "firefox" (twoInstances tab) =
      some { receivedAt := 1, report := oneTabReport "b" tab } := by
  rw [latest, accepted_twoInstances]
  rfl

theorem vetoes_audible (grace : Duration) (nowWall : UInt64) :
    (oneTabReport "a" { audible := true }).Vetoes grace nowWall :=
  Or.inl ⟨_, List.mem_singleton.mpr rfl, rfl⟩

theorem twoInstances_instant (tab : TabSignal) :
    ∀ op ∈ twoInstances tab, op.instant ≤ 2 := by
  intro op hop
  rcases List.mem_cons.mp hop with hop | hop
  · rw [hop]
    exact Nat.zero_le 2
  · rw [List.mem_singleton.mp hop]
    exact Nat.le_succ 1

/-- The second instance has a focused window: the query still vetoes. -/
theorem veto_iff_latest_second_focused :
    ((SignalStore.run 10 0 (twoInstances { windowFocused := true })).profileVetoAt
      "firefox" 2 0).1.isSome = true :=
  (veto_iff_latest 10 0 (twoInstances { windowFocused := true }) (by decide) "firefox" "firefox"
      "a" canonicalFamily_firefox 2 (twoInstances_instant _) 0 _ (latestOf_twoInstances _)
      (by decide) (vetoes_audible 0 0)).mpr
    ⟨_, latest_twoInstances _, Or.inr (Or.inr (Or.inl ⟨_, List.mem_singleton.mpr rfl, rfl⟩))⟩

/-- The second instance has nothing to say: the veto of the first one is gone. -/
theorem quiet_instance_erases_veto :
    ¬ ∀ (ttl grace : Duration) (ops : List StoreOp) (profile family instanceId : String)
        (now : Instant) (nowWall : UInt64) (mine : CachedReport),
      (ops.map StoreOp.instant).Pairwise (· ≤ ·) → canonicalFamily profile = some family →
      (∀ op ∈ ops, op.instant ≤ now) → latestOf family instanceId ops = some mine →
      now - mine.receivedAt ≤ ttl → mine.report.Vetoes grace nowWall →
      ((SignalStore.run ttl grace ops).profileVetoAt profile now nowWall).1.isSome = true := by
  intro hclaim
  have hsome := hclaim 10 0 (twoInstances {}) "firefox" "firefox" "a" 2 0 _ (by decide)
    canonicalFamily_firefox (twoInstances_instant {}) (latestOf_twoInstances {}) (by decide)
    (vetoes_audible 0 0)
  have hquiet : reportVeto 0 0 (oneTabReport "b" {}) = none := by decide
  rw [query_eq_latest 10 0 (twoInstances {}) canonicalFamily_firefox (twoInstances_instant {}),
    latest_twoInstances] at hsome
  simp [Option.filter, CachedReport.fresh, hquiet] at hsome

end BsslRam.Signals
