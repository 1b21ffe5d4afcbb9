import BsslRam.Signals
import BsslRam.Lib.Machine

/-!
# Requests to the signal server

`report_handler` of `daemon/src/signals.rs` checks a request in three places: the source
header and the version itself, the clock skew and the family in `apply_report_at`.  `Valid`
says what all of them together ask for, without the order in which they ask, and
`handle_cases` that a request is either valid and stored or refused and forgotten.

The signal store is a machine whose steps are the requests of the extensions and the
queries of the scan.  A stored report carries the canonical name of its family and stands
under that name (`WellKeyed`).  As there are two such names, the store never holds more
than two reports.
-/

namespace BsslRam.SignalRequests

open BsslRam.Lib BsslRam.Signals

/-! ## Families -/

/-- The names of each family. -/
def familyNames : List (String × List String) :=
  [("firefox", firefoxNames), ("chromium", chromiumNames)]

/-- The canonical families. -/
def families : List String := familyNames.map Prod.fst

/-- Two strings that differ in the case of ASCII letters only. -/
def EqIgnoreCase (s t : String) : Prop :=
  Text.toAsciiLowercase s.toList = Text.toAsciiLowercase t.toList

instance (s t : String) : Decidable (EqIgnoreCase s t) := inferInstanceAs (Decidable (_ = _))

/-- The string is one of the names of the family, in any case. -/
def Recognised (raw family : String) : Prop :=
  ∃ names, (family, names) ∈ familyNames ∧ ∃ name ∈ names, EqIgnoreCase raw name

/-- All names are in lower case, so the lower case of the string is looked up. -/
theorem recognised_iff {raw family : String} :
    Recognised raw family ↔ ∃ names, (family, names) ∈ familyNames ∧
      String.ofList (Text.toAsciiLowercase raw.toList) ∈ names := by
  have hlower : ∀ entry ∈ familyNames, ∀ name ∈ entry.2,
      Text.toAsciiLowercase name.toList = name.toList := by decide
  constructor
  · intro h
    obtain ⟨names, hnames, name, hname, heq⟩ := h
    refine ⟨names, hnames, ?_⟩
    rw [heq, hlower _ hnames name hname, String.ofList_toList]
    exact hname
  · intro h
    obtain ⟨names, hnames, hmem⟩ := h
    refine ⟨names, hnames, _, hmem, ?_⟩
    rw [EqIgnoreCase, hlower _ hnames _ hmem, String.toList_ofList]

theorem canonicalFamily_eq (raw : String) :
    canonicalFamily raw =
      if String.ofList (Text.toAsciiLowercase raw.toList) ∈ firefoxNames then some "firefox"
      else if String.ofList (Text.toAsciiLowercase raw.toList) ∈ chromiumNames then some "chromium"
      else none :=
  if_congr List.contains_iff_mem rfl (if_congr List.contains_iff_mem rfl rfl)

theorem canonicalFamily_eq_some_iff {raw family : String} :
    canonicalFamily raw = some family ↔ Recognised raw family := by
  have hdisjoint : ∀ name ∈ firefoxNames, name ∉ chromiumNames := by decide
  rw [recognised_iff, canonicalFamily_eq]
  generalize String.ofList (Text.toAsciiLowercase raw.toList) = lower
  have htable : (∃ names, (family, names) ∈ familyNames ∧ lower ∈ names) ↔
      family = "firefox" ∧ lower ∈ firefoxNames ∨ family = "chromium" ∧ lower ∈ chromiumNames := by
    simp [familyNames, or_and_right, exists_or, and_assoc]
  rw [htable]
  by_cases hfirefox : lower ∈ firefoxNames
  · simp [hfirefox, hdisjoint lower hfirefox, eq_comm]
  · by_cases hchromium : lower ∈ chromiumNames
    · simp [hfirefox, hchromium, eq_comm]
    · simp [hfirefox, hchromium]

/-! ## Requests -/

/-- A report request whose body was read, with the transport it came over. -/
structure Request where
  requiresSourceHeader : Bool
  sourceHeader : Option String
  report : BrowserSignalsReport

/-- The version that counts. -/
def effectiveVersion (report : BrowserSignalsReport) : UInt32 :=
  if report.protocolVersion ≠ 0 then report.protocolVersion else report.version

/-- What a request must be like to be accepted at the wall clock `wall`. -/
structure Valid (wall : UInt64) (r : Request) : Prop where
  source : r.requiresSourceHeader = false ∨ r.sourceHeader = some "extension"
  version : effectiveVersion r.report = PROTOCOL_VERSION
  onTime : |(wall.toNat : Int) - r.report.sentAtMs.toNat| ≤ 120000
  family : ∃ family, Recognised r.report.browser.family family

/-- The report under the canonical name of its family. -/
def canonicalReport (family : String) (report : BrowserSignalsReport) : BrowserSignalsReport :=
  { report with browser := { report.browser with family } }

/-- The answer to a request, and the store that it leaves. -/
def handle (store : SignalStore) (now : Instant) (wall : UInt64) (r : Request) :
    StatusCode × SignalStore :=
  reportHandler store r.requiresSourceHeader r.sourceHeader now wall r.report

theorem skew_iff (wall sent : UInt64) :
    ¬ SENT_AT_MAX_SKEW_MS < absDiff wall sent ↔ |(wall.toNat : Int) - sent.toNat| ≤ 120000 := by
  have hlimit : SENT_AT_MAX_SKEW_MS.toNat = 120000 := by decide
  rw [← toNat_absDiff, UInt64.lt_iff_toNat_lt, hlimit]
  omega

/-- A report that arrives in time is stored under its canonical family. -/
theorem applyReportAt_eq (store : SignalStore) (now : Instant) (wall : UInt64)
    (report : BrowserSignalsReport) :
    (∃ family, |(wall.toNat : Int) - report.sentAtMs.toNat| ≤ 120000 ∧
      Recognised report.browser.family family ∧
      store.applyReportAt now wall report = .ok { store with
        reports := store.reports.insert family ⟨now, canonicalReport family report⟩ }) ∨
    ¬ (|(wall.toNat : Int) - report.sentAtMs.toNat| ≤ 120000 ∧
        ∃ family, Recognised report.browser.family family) ∧
      ∃ err, store.applyReportAt now wall report = .error err := by
  unfold SignalStore.applyReportAt
  rw [← skew_iff]
  by_cases hskew : SENT_AT_MAX_SKEW_MS < absDiff wall report.sentAtMs
  · exact Or.inr ⟨fun h => h.1 hskew, _, if_pos hskew⟩
  · cases hfamily : canonicalFamily report.browser.family with
    | none =>
      refine Or.inr ⟨?_, _, if_neg hskew⟩
      intro ⟨_, family, hrec⟩
      rw [canonicalFamily_eq_some_iff.mpr hrec] at hfamily
      cases hfamily
    | some family =>
      exact Or.inl ⟨family, hskew, canonicalFamily_eq_some_iff.mp hfamily, if_neg hskew⟩

/-- The handler behind its two own checks. -/
theorem handle_eq (store : SignalStore) (now : Instant) (wall : UInt64) (r : Request) :
    handle store now wall r =
      if ¬ (r.requiresSourceHeader = false ∨ r.sourceHeader = some "extension") then
        (.unauthorized, store)
      else if effectiveVersion r.report ≠ PROTOCOL_VERSION then (.badRequest, store)
      else
        match store.applyReportAt now wall r.report with
        | .ok store => (.noContent, store)
        | .error _ => (.badRequest, store) := by
  unfold handle reportHandler effectiveVersion
  cases r.requiresSourceHeader with
  | false => cases store.applyReportAt now wall r.report <;> simp
  | true => cases store.applyReportAt now wall r.report <;> simp

/-- A request is valid and stored, or it is refused and leaves no trace. -/
theorem handle_cases (store : SignalStore) (now : Instant) (wall : UInt64) (r : Request) :
    Valid wall r ∧ (∃ family, Recognised r.report.browser.family family ∧
      handle store now wall r = (.noContent, { store with
        reports := store.reports.insert family ⟨now, canonicalReport family r.report⟩ })) ∨
    ¬ Valid wall r ∧ ∃ status, status ≠ .noContent ∧ handle store now wall r = (status, store) := by
  rw [handle_eq]
  by_cases hsource : r.requiresSourceHeader = false ∨ r.sourceHeader = some "extension"
  · rw [if_neg (not_not.mpr hsource)]
    by_cases hversion : effectiveVersion r.report = PROTOCOL_VERSION
    · rw [if_neg (not_not.mpr hversion)]
      rcases applyReportAt_eq store now wall r.report with
        ⟨family, htime, hrec, happly⟩ | ⟨hnot, err, happly⟩
      · rw [happly]
        exact Or.inl ⟨⟨hsource, hversion, htime, family, hrec⟩, family, hrec, rfl⟩
      · rw [happly]
        exact Or.inr ⟨fun h => hnot ⟨h.onTime, h.family⟩, .badRequest, by decide, rfl⟩
    · rw [if_pos hversion]
      exact Or.inr ⟨fun h => hversion h.version, .badRequest, by decide, rfl⟩
  · rw [if_pos hsource]
    exact Or.inr ⟨fun h => hsource h.source, .unauthorized, by decide, rfl⟩

/-! ## The server -/

/-- What happens to the store: a request of an extension, or a query of the scan. -/
inductive Event where
  | request (now : Instant) (wall : UInt64) (r : Request)
  | query (profile : String) (now : Instant) (wall : UInt64)

def step (store : SignalStore) : Event → SignalStore
  | .request now wall r => (handle store now wall r).2
  | .query profile now wall => (store.profileVetoAt profile now wall).2

def server : Machine SignalStore where
  init store := ∃ ttl grace, store = SignalStore.new ttl grace
  step store store' := ∃ e, store' = step store e

/-- Every report stands under the canonical name of its family. -/
def WellKeyed (store : SignalStore) : Prop :=
  ∀ key cached, store.reports[key]? = some cached →
    key ∈ families ∧ cached.report.browser.family = key

theorem mem_families {raw family : String} (h : Recognised raw family) : family ∈ families := by
  obtain ⟨names, hnames, -⟩ := h
  exact List.mem_map_of_mem hnames

theorem WellKeyed.evict {store : SignalStore} (h : WellKeyed store) (now : Instant) :
    WellKeyed (store.evict now) := by
  intro key cached hkey
  rw [getElem?_evict, Option.filter_eq_some_iff] at hkey
  exact h key cached hkey.1

theorem WellKeyed.step {store : SignalStore} (h : WellKeyed store) (e : Event) :
    WellKeyed (step store e) := by
  cases e with
  | query profile now wall =>
    rw [SignalRequests.step, SignalStore.profileVetoAt]
    cases canonicalFamily profile with
    | none => exact h
    | some family => exact h.evict now
  | request now wall r =>
    rw [SignalRequests.step]
    rcases handle_cases store now wall r with ⟨-, family, hrec, heq⟩ | ⟨-, status, -, heq⟩
    · rw [heq]
      intro key cached hkey
      rw [Map.getElem?_insert] at hkey
      split at hkey
      · rename_i hfamily
        cases hkey
        exact ⟨hfamily ▸ mem_families hrec, hfamily⟩
      · exact h key cached hkey
    · rw [heq]
      exact h

theorem wellKeyed_of_reachable {store : SignalStore} (h : server.Reachable store) :
    WellKeyed store := by
  refine h.invariant WellKeyed ?_ ?_
  · intro store hinit key cached hkey
    obtain ⟨ttl, grace, rfl⟩ := hinit
    simp [SignalStore.new] at hkey
  · intro store store' _ hkeyed hstep
    obtain ⟨e, rfl⟩ := hstep
    exact hkeyed.step e

theorem WellKeyed.size_le {store : SignalStore} (h : WellKeyed store) : store.reports.size ≤ 2 := by
  have hkeys : ∀ key ∈ store.reports, key ∈ families := by
    intro key hkey
    obtain ⟨cached, hcached⟩ :=
      Option.isSome_iff_exists.mp (Std.ExtTreeMap.isSome_getElem?_iff_mem.mpr hkey)
    exact (h key cached hcached).1
  exact Map.size_le_length hkeys

/-- In every state of the server, a request is answered with 204 exactly when it is valid.
It is then stored under the canonical name of its family, in place of the report that was
there, and nothing else changes.  Every other answer leaves the store as it was.  And the
store holds at most one report for each of the two families. -/
theorem requests_accepted_iff (store : SignalStore) (h : server.Reachable store) (now : Instant)
    (wall : UInt64) (r : Request) :
    let answer := handle store now wall r
    (answer.1 = .noContent ↔ Valid wall r) ∧
    (answer.1 ≠ .noContent → answer.2 = store) ∧
    (answer.1 = .noContent → ∃ family, Recognised r.report.browser.family family ∧
      (∀ key, answer.2.reports[key]? =
        if key = family then some ⟨now, canonicalReport family r.report⟩
        else store.reports[key]?) ∧
      answer.2.ttl = store.ttl ∧ answer.2.interactionGrace = store.interactionGrace) ∧
    (∀ key cached, store.reports[key]? = some cached →
      key ∈ ["firefox", "chromium"] ∧ cached.report.browser.family = key) ∧
    store.reports.size ≤ 2 := by
  intro answer
  have hkeyed := wellKeyed_of_reachable h
  rcases handle_cases store now wall r with
    ⟨hvalid, family, hrec, heq⟩ | ⟨hnot, status, hstatus, heq⟩
  · have hanswer : answer = (.noContent, { store with
        reports := store.reports.insert family ⟨now, canonicalReport family r.report⟩ }) := heq
    rw [hanswer]
    refine ⟨iff_of_true rfl hvalid, fun hne => absurd rfl hne, fun _ => ?_, hkeyed,
      hkeyed.size_le⟩
    refine ⟨family, hrec, fun key => ?_, rfl, rfl⟩
    rw [Map.getElem?_insert]
    exact if_congr eq_comm rfl rfl
  · have hanswer : answer = (status, store) := heq
    rw [hanswer]
    exact ⟨iff_of_false hstatus hnot, fun _ => rfl, fun hok => absurd hok hstatus, hkeyed,
      hkeyed.size_le⟩

/-- A report of Brave, sent at the moment it arrives. -/
def braveRequest : Request where
  requiresSourceHeader := true
  sourceHeader := some "extension"
  report := { protocolVersion := 1, sentAtMs := 5, browser := { family := "Brave" } }

theorem requests_accepted_iff_brave :
    (handle (SignalStore.new 0 0) 0 5 braveRequest).1 = .noContent := by
  have hreach : server.Reachable (SignalStore.new 0 0) := .start ⟨0, 0, rfl⟩
  refine (requests_accepted_iff _ hreach 0 5 braveRequest).1.mpr ⟨Or.inr rfl, rfl, by decide, ?_⟩
  exact ⟨"chromium", chromiumNames, by simp [familyNames], "brave", by simp [chromiumNames],
    by decide⟩

end BsslRam.SignalRequests
