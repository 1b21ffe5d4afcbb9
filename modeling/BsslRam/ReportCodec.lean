import BsslRam.Extension
import BsslRam.Signals

/-!
# The report on its way to the daemon

The extension builds a JavaScript object, the bridge forwards its JSON form, and
the daemon reads it into a `BrowserSignalsReport` with the derived decoder.  The
two schemas agree on names and on the kinds of values.  They do not agree on
numbers: the extension lets every finite number through, and the daemon takes
integers of the field's type only.

`report_agrees_iff` says for which states of the browser a report arrives with its
values.  One number or string that the daemon does not take makes it reject the
whole report.
-/

namespace BsslRam.ReportCodec

open BsslRam.Lib BsslRam.Lib.Binary64 BsslRam.Signals BsslRam.Extension

/-! ## The derived decoder -/

def decodeContent (j : Json) : Option ContentSignal := do
  let fields ← j.fields?
  let visibilityState ← Json.fieldOr "" Json.text "visibility_state" fields
  let documentHasFocus ← Json.fieldOr false Json.boolean "document_has_focus" fields
  let fullscreen ← Json.fieldOr false Json.boolean "fullscreen" fields
  let pictureInPicture ← Json.fieldOr false Json.boolean "picture_in_picture" fields
  let mediaElements ← Json.fieldOr 0 Json.u32 "media_elements" fields
  let playingMediaElements ← Json.fieldOr 0 Json.u32 "playing_media_elements" fields
  let lastUserInteractionMs ←
    Json.fieldOr none (Json.nullable Json.u64) "last_user_interaction_ms" fields
  let sampledAtMs ← Json.fieldOr 0 Json.u64 "sampled_at_ms" fields
  return { visibilityState, documentHasFocus, fullscreen, pictureInPicture, mediaElements,
           playingMediaElements, lastUserInteractionMs, sampledAtMs }

def decodeTab (j : Json) : Option TabSignal := do
  let fields ← j.fields?
  let tabId ← Json.fieldOr 0 Json.i64 "tab_id" fields
  let windowId ← Json.fieldOr 0 Json.i64 "window_id" fields
  let active ← Json.fieldOr false Json.boolean "active" fields
  let audible ← Json.fieldOr false Json.boolean "audible" fields
  let hidden ← Json.fieldOr false Json.boolean "hidden" fields
  let discarded ← Json.fieldOr false Json.boolean "discarded" fields
  let lastAccessedMs ← Json.fieldOr none (Json.nullable Json.u64) "last_accessed_ms" fields
  let windowFocused ← Json.fieldOr false Json.boolean "window_focused" fields
  let urlOrigin ← Json.fieldOr none (Json.nullable Json.text) "url_origin" fields
  let content ← Json.fieldOr none (Json.nullable decodeContent) "content" fields
  return { tabId, windowId, active, audible, hidden, discarded, lastAccessedMs, windowFocused,
           urlOrigin, content }

def decodeBrowser (j : Json) : Option BrowserDescriptor := do
  let fields ← j.fields?
  let family ← Json.fieldOr "" Json.text "family" fields
  let instanceId ← Json.fieldOr "" Json.text "instance_id" fields
  let systemIdleState ← Json.fieldOr "" Json.text "system_idle_state" fields
  return { family, instanceId, systemIdleState }

def decodeSummary (j : Json) : Option SignalSummary := do
  let fields ← j.fields?
  let tabsTotal ← Json.fieldOr 0 Json.u32 "tabs_total" fields
  let audibleTabs ← Json.fieldOr 0 Json.u32 "audible_tabs" fields
  let hiddenTabs ← Json.fieldOr 0 Json.u32 "hidden_tabs" fields
  let discardedTabs ← Json.fieldOr 0 Json.u32 "discarded_tabs" fields
  let activeTabs ← Json.fieldOr 0 Json.u32 "active_tabs" fields
  let focusedWindows ← Json.fieldOr 0 Json.u32 "focused_windows" fields
  let contentSamples ← Json.fieldOr 0 Json.u32 "content_samples" fields
  return { tabsTotal, audibleTabs, hiddenTabs, discardedTabs, activeTabs, focusedWindows,
           contentSamples }

def decodeReport (j : Json) : Option BrowserSignalsReport := do
  let fields ← j.fields?
  let version ← Json.fieldOr 0 Json.u32 "version" fields
  let protocolVersion ← Json.fieldOr 0 Json.u32 "protocol_version" fields
  let vetoTtlMs ← Json.fieldOr 0 Json.u64 "veto_ttl_ms" fields
  let sentAtMs ← Json.fieldOr 0 Json.u64 "sent_at_ms" fields
  let browser ← Json.fieldOr {} decodeBrowser "browser" fields
  let summary ← Json.fieldOr {} decodeSummary "summary" fields
  let tabs ← Json.fieldOr [] (Json.sequence decodeTab) "tabs" fields
  return { version, protocolVersion, vetoTtlMs, sentAtMs, browser, summary, tabs }

/-- What the daemon makes of the report of a browser. -/
def transmit (state : BrowserState) : Option BrowserSignalsReport :=
  (buildReport state).stringify.bind decodeReport

/-! ## What is to be preserved -/

/-- The number of playing elements and the time of the last interaction arrive. -/
def ContentPreserved (p : ContentPayload) (c : ContentSignal) : Prop :=
  (c.playingMediaElements.toNat : ℚ) = p.playingMediaElements.value ∧
    Option.Rel (fun x u => ((u : UInt64).toNat : ℚ) = x.value) p.lastUserInteractionMs
      c.lastUserInteractionMs

/-- So do the flags of the tab, and the content signal if there is one. -/
def TabPreserved (p : TabPayload) (t : TabSignal) : Prop :=
  t.audible = p.audible ∧ t.windowFocused = p.windowFocused ∧
    Option.Rel ContentPreserved p.content t.content

/-- The report is accepted with the values of every tab. -/
def Agrees (state : BrowserState) : Prop :=
  ∃ report, transmit state = some report ∧
    List.Forall₂ TabPreserved state.tabPayloads report.tabs

/-! ## What the daemon takes -/

/-- The values of a content signal are of the kinds of the daemon's fields, and the
time of the interaction is written as it is. -/
structure ContentFits (p : ContentPayload) : Prop where
  visibilityState : ∃ s, p.visibilityState = .string s ∧ Utf16.WellFormed s
  mediaElements : p.mediaElements.IsIntegerIn 0 (2 ^ 32)
  playingMediaElements : p.playingMediaElements.IsIntegerIn 0 (2 ^ 32)
  lastUserInteractionMs : ∀ x ∈ p.lastUserInteractionMs,
    x.IsIntegerIn 0 (2 ^ 64) ∧ x.WrittenExactly
  sampledAtMs : p.sampledAtMs.IsIntegerIn 0 (2 ^ 64)

/-- The same for a tab of the browser and its content signal. -/
structure TabFits (state : BrowserState) (tab : Tab) : Prop where
  id : ∀ x ∈ tab.id, x.IsIntegerIn (-2 ^ 63 + 1) (2 ^ 63)
  windowId : tab.windowId.IsIntegerIn (-2 ^ 63 + 1) (2 ^ 63)
  lastAccessed : ∀ x ∈ tab.lastAccessed.finite?, x.IsIntegerIn 0 (2 ^ 64)
  content : ∀ p ∈ state.contentOf tab, ContentFits p

/-- The same for the whole state: the clock is not before 1970 and the strings are
well-formed. -/
structure StateFits (state : BrowserState) : Prop where
  now : 0 ≤ state.now.ms
  family : Utf16.WellFormed state.family
  instanceId : Utf16.WellFormed state.instanceId
  idleState : Utf16.WellFormed state.idleState
  tabs : ∀ tab ∈ state.tabs, TabFits state tab

/-! ## Field by field -/

theorem count_isIntegerIn (n : ℕ) (hn : n < 2 ^ 32) : (countNumber n hn).IsIntegerIn 0 (2 ^ 32) :=
  ⟨n, rfl, by omega, by omega⟩

theorem time_isIntegerIn_iff (t : TimeValue) : t.toNumber.IsIntegerIn 0 (2 ^ 64) ↔ 0 ≤ t.ms := by
  constructor
  · intro ⟨k, hk, hlo, _⟩
    have hms : t.ms = k := Int.cast_injective hk
    rwa [hms]
  · intro hlo
    have hrange := (abs_le.mp t.inRange).2
    exact ⟨t.ms, rfl, hlo, by omega⟩

theorem text_value {v : JsValue} (hv : v ≠ .undefined) :
    (∃ s, Json.orDefault "" Json.text v.stringify = some s) ↔
      ∃ units, v = .string units ∧ Utf16.WellFormed units := by
  unfold Utf16.WellFormed
  cases v with
  | undefined => exact absurd rfl hv
  | string units => simp [JsValue.stringify, Json.orDefault, Json.text]
  | _ => simp [JsValue.stringify, Json.orDefault, Json.text]

/-- An optional number, in a field of an integer type. -/
theorem nullable_u64_value (x : Option Number) :
    Json.orDefault none (Json.nullable Json.u64) (orNull x).stringify =
      Json.optional (fun x => Json.u64 (.number x.toLiteral)) x := by
  refine JsValue.nullable_stringify Json.u64 JsValue.number (fun x => .number x.toLiteral)
    (fun x => ?_) (fun x h => ?_) x
  · rw [JsValue.stringify]
  · cases h

theorem decodeContent_object {fields : List (List UInt16 × Json)} {c : ContentSignal} :
    decodeContent (.object fields) = some c ↔
      Json.fieldOr "" Json.text "visibility_state" fields = some c.visibilityState ∧
      Json.fieldOr false Json.boolean "document_has_focus" fields = some c.documentHasFocus ∧
      Json.fieldOr false Json.boolean "fullscreen" fields = some c.fullscreen ∧
      Json.fieldOr false Json.boolean "picture_in_picture" fields = some c.pictureInPicture ∧
      Json.fieldOr 0 Json.u32 "media_elements" fields = some c.mediaElements ∧
      Json.fieldOr 0 Json.u32 "playing_media_elements" fields = some c.playingMediaElements ∧
      Json.fieldOr none (Json.nullable Json.u64) "last_user_interaction_ms" fields =
        some c.lastUserInteractionMs ∧
      Json.fieldOr 0 Json.u64 "sampled_at_ms" fields = some c.sampledAtMs := by
  simp only [decodeContent, Json.fields?, ↓Option.bind_eq_bind, ↓Option.bind_some,
    ↓Option.bind_eq_some_iff, Option.pure_def, Option.some.injEq]
  constructor
  · intro h
    rcases h with ⟨_, h1, _, h2, _, h3, _, h4, _, h5, _, h6, _, h7, _, h8, rfl⟩
    exact ⟨h1, h2, h3, h4, h5, h6, h7, h8⟩
  · intro h
    rcases h with ⟨h1, h2, h3, h4, h5, h6, h7, h8⟩
    exact ⟨_, h1, _, h2, _, h3, _, h4, _, h5, _, h6, _, h7, _, h8, rfl⟩

theorem decodeContent_fields {p : ContentPayload} {c : ContentSignal} :
    decodeContent (.object (JsValue.jsonFields p.fields)) = some c ↔
      Json.orDefault "" Json.text p.visibilityState.stringify = some c.visibilityState ∧
      p.documentHasFocus = c.documentHasFocus ∧ p.fullscreen = c.fullscreen ∧
      p.pictureInPicture = c.pictureInPicture ∧
      Json.u32 (.number p.mediaElements.toLiteral) = some c.mediaElements ∧
      Json.u32 (.number p.playingMediaElements.toLiteral) = some c.playingMediaElements ∧
      Json.orDefault none (Json.nullable Json.u64) (orNull p.lastUserInteractionMs).stringify =
        some c.lastUserInteractionMs ∧
      Json.u64 (.number p.sampledAtMs.toLiteral) = some c.sampledAtMs := by
  have hkeys : (p.fields.map Prod.fst).Nodup := by simp [ContentPayload.fields]
  rw [decodeContent_object]
  simp only [JsValue.fieldOr_jsonFields _ _ _ hkeys]
  simp only [ContentPayload.fields, List.lookup, String.reduceBEq, Option.bind_some,
    JsValue.stringify, Json.orDefault, Json.boolean, Option.some.injEq]

theorem content_agrees_iff (p : ContentPayload) :
    (∃ c, decodeContent (.object (JsValue.jsonFields p.fields)) = some c ∧
      ContentPreserved p c) ↔ ContentFits p := by
  have hlast := @Json.exists_optional_rel_iff _ _ (fun x => Json.u64 (.number x.toLiteral))
    (fun x u => (u.toNat : ℚ) = x.value) p.lastUserInteractionMs
  simp only [decodeContent_fields, nullable_u64_value]
  constructor
  · intro h
    rcases h with ⟨c, ⟨htext, -, -, -, hmedia, hplaying, hinteraction, hsampled⟩, -, hkept⟩
    refine ⟨(text_value p.visibilityState_ne).mp ⟨_, htext⟩,
      (Number.decodes_u32_iff _).mp ⟨_, hmedia⟩, (Number.decodes_u32_iff _).mp ⟨_, hplaying⟩,
      fun x hx => ?_, (Number.decodes_u64_iff _).mp ⟨_, hsampled⟩⟩
    obtain ⟨u, hu, hvalue⟩ := hlast.mp ⟨_, hinteraction, hkept⟩ x hx
    exact ⟨(Number.decodes_u64_iff x).mp ⟨u, hu⟩, (Number.toNat_decode_u64 hu).mp hvalue⟩
  · intro hfits
    obtain ⟨s, htext⟩ := (text_value p.visibilityState_ne).mpr hfits.visibilityState
    obtain ⟨media, hmedia⟩ := (Number.decodes_u32_iff _).mpr hfits.mediaElements
    obtain ⟨playing, hplaying⟩ := (Number.decodes_u32_iff _).mpr hfits.playingMediaElements
    obtain ⟨sampled, hsampled⟩ := (Number.decodes_u64_iff _).mpr hfits.sampledAtMs
    obtain ⟨last, hinteraction, hkept⟩ := hlast.mpr (fun x hx => by
      obtain ⟨hrange, hexact⟩ := hfits.lastUserInteractionMs x hx
      obtain ⟨u, hu⟩ := (Number.decodes_u64_iff x).mpr hrange
      exact ⟨u, hu, (Number.toNat_decode_u64 hu).mpr hexact⟩)
    exact ⟨⟨s, p.documentHasFocus, p.fullscreen, p.pictureInPicture, media, playing, last, sampled⟩,
      ⟨htext, rfl, rfl, rfl, hmedia, hplaying, hinteraction, hsampled⟩,
      Number.toNat_decode_u32 hplaying, hkept⟩

/-- A tab without an id leaves the field out. -/
theorem tab_id_value (x : Option Number) :
    (∃ i, Json.orDefault 0 Json.i64 (orUndefined x).stringify = some i) ↔
      ∀ y ∈ x, y.IsIntegerIn (-2 ^ 63 + 1) (2 ^ 63) := by
  cases x with
  | none => simp [orUndefined, JsValue.stringify, Json.orDefault]
  | some x =>
    simp only [orUndefined, Option.map_some, Option.getD_some, JsValue.stringify, Json.orDefault,
      Option.mem_some_iff, forall_eq', Number.decodes_i64_iff]

theorem origin_value (origin : Option String) :
    Json.orDefault none (Json.nullable Json.text)
        ((origin.map (fun s => JsValue.string (Utf16.encode s))).getD .null).stringify =
      some origin := by
  rw [JsValue.nullable_stringify Json.text _ (fun s => .string (Utf16.encode s))
    (fun s => by rw [JsValue.stringify]) (fun s h => by cases h)]
  cases origin with
  | none => rfl
  | some s => rw [Json.optional, Option.elim_some, Json.text, Utf16.decode_encode, Option.map_some]

theorem content_value (content : Option ContentPayload) :
    Json.orDefault none (Json.nullable decodeContent)
        ((content.map (fun c => JsValue.ofFields c.fields)).getD .null).stringify =
      Json.optional (fun c => decodeContent (.object (JsValue.jsonFields c.fields))) content :=
  JsValue.nullable_stringify decodeContent _ _ (fun c => JsValue.stringify_ofFields c.fields)
    (fun c h => by cases h) content

theorem decodeTab_object {fields : List (List UInt16 × Json)} {t : TabSignal} :
    decodeTab (.object fields) = some t ↔
      Json.fieldOr 0 Json.i64 "tab_id" fields = some t.tabId ∧
      Json.fieldOr 0 Json.i64 "window_id" fields = some t.windowId ∧
      Json.fieldOr false Json.boolean "active" fields = some t.active ∧
      Json.fieldOr false Json.boolean "audible" fields = some t.audible ∧
      Json.fieldOr false Json.boolean "hidden" fields = some t.hidden ∧
      Json.fieldOr false Json.boolean "discarded" fields = some t.discarded ∧
      Json.fieldOr none (Json.nullable Json.u64) "last_accessed_ms" fields =
        some t.lastAccessedMs ∧
      Json.fieldOr false Json.boolean "window_focused" fields = some t.windowFocused ∧
      Json.fieldOr none (Json.nullable Json.text) "url_origin" fields = some t.urlOrigin ∧
      Json.fieldOr none (Json.nullable decodeContent) "content" fields = some t.content := by
  simp only [decodeTab, Json.fields?, ↓Option.bind_eq_bind, ↓Option.bind_some,
    ↓Option.bind_eq_some_iff, Option.pure_def, Option.some.injEq]
  constructor
  · intro h
    rcases h with ⟨_, h1, _, h2, _, h3, _, h4, _, h5, _, h6, _, h7, _, h8, _, h9, _, h10, rfl⟩
    exact ⟨h1, h2, h3, h4, h5, h6, h7, h8, h9, h10⟩
  · intro h
    rcases h with ⟨h1, h2, h3, h4, h5, h6, h7, h8, h9, h10⟩
    exact ⟨_, h1, _, h2, _, h3, _, h4, _, h5, _, h6, _, h7, _, h8, _, h9, _, h10, rfl⟩

theorem decodeTab_fields {p : TabPayload} {t : TabSignal} :
    decodeTab (.object (JsValue.jsonFields p.fields)) = some t ↔
      Json.orDefault 0 Json.i64 (orUndefined p.tabId).stringify = some t.tabId ∧
      Json.i64 (.number p.windowId.toLiteral) = some t.windowId ∧
      p.active = t.active ∧ p.audible = t.audible ∧ p.hidden = t.hidden ∧
      p.discarded = t.discarded ∧
      Json.optional (fun x => Json.u64 (.number x.toLiteral)) p.lastAccessedMs =
        some t.lastAccessedMs ∧
      p.windowFocused = t.windowFocused ∧ p.urlOrigin = t.urlOrigin ∧
      Json.optional (fun c => decodeContent (.object (JsValue.jsonFields c.fields))) p.content =
        some t.content := by
  have hkeys : (p.fields.map Prod.fst).Nodup := by simp [TabPayload.fields]
  rw [decodeTab_object]
  simp only [JsValue.fieldOr_jsonFields _ _ _ hkeys]
  simp only [TabPayload.fields, List.lookup, String.reduceBEq, Option.bind_some,
    nullable_u64_value, origin_value, content_value]
  simp only [JsValue.stringify, Json.orDefault, Json.boolean, Option.some.injEq]

theorem tab_agrees_iff (state : BrowserState) (tab : Tab) :
    (∃ t, decodeTab (.object (JsValue.jsonFields (state.tabPayload tab).fields)) = some t ∧
      TabPreserved (state.tabPayload tab) t) ↔ TabFits state tab := by
  have hcontent := @Json.exists_optional_rel_iff _ _
    (fun c => decodeContent (.object (JsValue.jsonFields c.fields))) ContentPreserved
    (state.contentOf tab)
  have hlast := @Json.exists_optional_iff _ _ (fun x => Json.u64 (.number x.toLiteral))
    tab.lastAccessed.finite?
  simp only [content_agrees_iff] at hcontent
  simp only [Number.decodes_u64_iff] at hlast
  simp only [decodeTab_fields]
  constructor
  · intro h
    rcases h with ⟨t, ⟨hid, hwindow, -, -, -, -, haccessed, -, -, hdecoded⟩, -, -, hkept⟩
    exact ⟨(tab_id_value _).mp ⟨_, hid⟩, (Number.decodes_i64_iff _).mp ⟨_, hwindow⟩,
      hlast.mp ⟨_, haccessed⟩, hcontent.mp ⟨_, hdecoded, hkept⟩⟩
  · intro hfits
    obtain ⟨id, hid⟩ := (tab_id_value tab.id).mpr hfits.id
    obtain ⟨window, hwindow⟩ := (Number.decodes_i64_iff _).mpr hfits.windowId
    obtain ⟨accessed, haccessed⟩ := hlast.mpr hfits.lastAccessed
    obtain ⟨content, hdecoded, hkept⟩ := hcontent.mpr hfits.content
    exact ⟨⟨id, window, _, _, _, _, accessed, _, _, content⟩,
      ⟨hid, hwindow, rfl, rfl, rfl, rfl, haccessed, rfl, rfl, hdecoded⟩, rfl, rfl, hkept⟩

theorem browser_decodes_iff (state : BrowserState) :
    (∃ b, decodeBrowser (.object (JsValue.jsonFields (browserFields state))) = some b) ↔
      Utf16.WellFormed state.family ∧ Utf16.WellFormed state.instanceId ∧
        Utf16.WellFormed state.idleState := by
  have hkeys : ((browserFields state).map Prod.fst).Nodup := by simp [browserFields]
  simp only [decodeBrowser, Json.fields?, Option.bind_eq_bind, Option.bind_some,
    JsValue.fieldOr_jsonFields _ _ _ hkeys]
  simp only [browserFields, List.lookup, String.reduceBEq, Option.bind_some, JsValue.stringify,
    Json.orDefault, Json.text, Option.bind_eq_some_iff, Option.pure_def, Option.some.injEq]
  constructor
  · intro h
    rcases h with ⟨_, family, hfamily, inst, hinst, idle, hidle, -⟩
    exact ⟨⟨family, hfamily⟩, ⟨inst, hinst⟩, ⟨idle, hidle⟩⟩
  · intro h
    rcases h with ⟨⟨family, hfamily⟩, ⟨inst, hinst⟩, ⟨idle, hidle⟩⟩
    exact ⟨_, family, hfamily, inst, hinst, idle, hidle, rfl⟩

theorem count_decodes (n : ℕ) (hn : n < 2 ^ 32) :
    ∃ u, Json.u32 (.number (countNumber n hn).toLiteral) = some u := by
  rw [Number.decodes_u32_iff]
  exact count_isIntegerIn n hn

/-- The counts of the summary are lengths of arrays, which `u32` holds. -/
theorem summary_decodes (state : BrowserState) :
    ∃ s, decodeSummary (.object (JsValue.jsonFields (summaryFields state))) = some s := by
  have hkeys : ((summaryFields state).map Prod.fst).Nodup := by simp [summaryFields]
  have hcount : ∀ test, ∃ u, Json.u32 (.number (state.countTabs test).toLiteral) = some u :=
    fun test => count_decodes _ (state.count_lt test)
  obtain ⟨_, htotal⟩ := hcount (fun _ => true)
  obtain ⟨_, haudible⟩ := hcount TabPayload.audible
  obtain ⟨_, hhidden⟩ := hcount TabPayload.hidden
  obtain ⟨_, hdiscarded⟩ := hcount TabPayload.discarded
  obtain ⟨_, hactive⟩ := hcount TabPayload.active
  obtain ⟨_, hfocused⟩ := count_decodes _ state.focused_lt
  obtain ⟨_, hcontent⟩ := hcount (fun tab => tab.content.isSome)
  simp only [decodeSummary, Json.fields?, Option.bind_eq_bind, Option.bind_some,
    JsValue.fieldOr_jsonFields _ _ _ hkeys]
  simp only [summaryFields, List.lookup, String.reduceBEq, Option.bind_some, JsValue.stringify,
    Json.orDefault, htotal, haudible, hhidden, hdiscarded, hactive, hfocused, hcontent]
  exact ⟨_, rfl⟩

theorem decodeReport_object {fields : List (List UInt16 × Json)} {r : BrowserSignalsReport} :
    decodeReport (.object fields) = some r ↔
      Json.fieldOr 0 Json.u32 "version" fields = some r.version ∧
      Json.fieldOr 0 Json.u32 "protocol_version" fields = some r.protocolVersion ∧
      Json.fieldOr 0 Json.u64 "veto_ttl_ms" fields = some r.vetoTtlMs ∧
      Json.fieldOr 0 Json.u64 "sent_at_ms" fields = some r.sentAtMs ∧
      Json.fieldOr {} decodeBrowser "browser" fields = some r.browser ∧
      Json.fieldOr {} decodeSummary "summary" fields = some r.summary ∧
      Json.fieldOr [] (Json.sequence decodeTab) "tabs" fields = some r.tabs := by
  simp only [decodeReport, Json.fields?, ↓Option.bind_eq_bind, ↓Option.bind_some,
    ↓Option.bind_eq_some_iff, Option.pure_def, Option.some.injEq]
  constructor
  · intro h
    rcases h with ⟨_, h1, _, h2, _, h3, _, h4, _, h5, _, h6, _, h7, rfl⟩
    exact ⟨h1, h2, h3, h4, h5, h6, h7⟩
  · intro h
    rcases h with ⟨h1, h2, h3, h4, h5, h6, h7⟩
    exact ⟨_, h1, _, h2, _, h3, _, h4, _, h5, _, h6, _, h7, rfl⟩

/-- The items of the array of tabs, decoded one by one. -/
theorem tabs_value (payloads : List TabPayload) :
    Json.orDefault [] (Json.sequence decodeTab)
        (JsValue.array (payloads.map (fun p => .ofFields p.fields))).stringify =
      payloads.mapM (fun p => decodeTab (.object (JsValue.jsonFields p.fields))) := by
  have hitem : ∀ p : TabPayload, (JsValue.ofFields p.fields).stringify.getD .null =
      .object (JsValue.jsonFields p.fields) := by
    intro p
    rw [JsValue.stringify_ofFields, Option.getD_some]
  rw [JsValue.stringify, JsValue.stringifyItems_eq_map, List.map_map, Json.orDefault,
    Json.sequence, List.mapM_map]
  simp only [Function.comp_def, hitem]

theorem transmit_eq_some {state : BrowserState} {r : BrowserSignalsReport} :
    transmit state = some r ↔
      Json.u32 (.number one.toLiteral) = some r.version ∧
      Json.u32 (.number DAEMON_PROTOCOL_VERSION.toLiteral) = some r.protocolVersion ∧
      Json.u64 (.number (countNumber 60000 (by norm_num)).toLiteral) = some r.vetoTtlMs ∧
      Json.u64 (.number state.now.toNumber.toLiteral) = some r.sentAtMs ∧
      decodeBrowser (.object (JsValue.jsonFields (browserFields state))) = some r.browser ∧
      decodeSummary (.object (JsValue.jsonFields (summaryFields state))) = some r.summary ∧
      state.tabPayloads.mapM (fun p => decodeTab (.object (JsValue.jsonFields p.fields))) =
        some r.tabs := by
  have hkeys : ((reportFields state).map Prod.fst).Nodup := by simp [reportFields]
  rw [transmit, buildReport, JsValue.stringify_ofFields, Option.bind_some, decodeReport_object]
  simp only [JsValue.fieldOr_jsonFields _ _ _ hkeys]
  simp only [reportFields, List.lookup, String.reduceBEq, Option.bind_some, tabs_value,
    JsValue.stringify_ofFields]
  simp only [JsValue.stringify, Json.orDefault]

/-! ## Agreement -/

theorem tabs_agree_iff (state : BrowserState) :
    (∃ ts, state.tabPayloads.mapM (fun p => decodeTab (.object (JsValue.jsonFields p.fields))) =
        some ts ∧ List.Forall₂ TabPreserved state.tabPayloads ts) ↔
      ∀ tab ∈ state.tabs, TabFits state tab := by
  rw [Json.exists_mapM_rel_iff, BrowserState.tabPayloads, List.forall_mem_map]
  simp only [tab_agrees_iff]

theorem stateFits_of_agrees {state : BrowserState} (h : Agrees state) : StateFits state := by
  obtain ⟨r, hr, hkept⟩ := h
  obtain ⟨-, -, -, hsent, hbrowser, -, htabs⟩ := transmit_eq_some.mp hr
  obtain ⟨hfamily, hinstance, hidle⟩ := (browser_decodes_iff state).mp ⟨_, hbrowser⟩
  have hnow := (Number.decodes_u64_iff _).mp ⟨_, hsent⟩
  exact ⟨(time_isIntegerIn_iff _).mp hnow, hfamily, hinstance, hidle,
    (tabs_agree_iff state).mp ⟨_, htabs, hkept⟩⟩

theorem agrees_of_stateFits {state : BrowserState} (hfits : StateFits state) : Agrees state := by
  obtain ⟨version, hversion⟩ := count_decodes 1 (by norm_num)
  obtain ⟨ttl, httl⟩ := (Number.decodes_u64_iff (countNumber 60000 (by norm_num))).mpr
    ⟨60000, rfl, by norm_num, by norm_num⟩
  obtain ⟨sent, hsent⟩ := (Number.decodes_u64_iff _).mpr ((time_isIntegerIn_iff _).mpr hfits.now)
  obtain ⟨browser, hbrowser⟩ := (browser_decodes_iff state).mpr
    ⟨hfits.family, hfits.instanceId, hfits.idleState⟩
  obtain ⟨summary, hsummary⟩ := summary_decodes state
  obtain ⟨tabs, htabs, hkept⟩ := (tabs_agree_iff state).mpr hfits.tabs
  exact ⟨⟨version, version, ttl, sent, browser, summary, tabs⟩,
    transmit_eq_some.mpr ⟨hversion, hversion, httl, hsent, hbrowser, hsummary, htabs⟩, hkept⟩

/-! ## The extension's own content script -/

/-- A message of the content script, on a machine whose clock is not before 1970. -/
def OwnMessage (received : Received) : Prop :=
  ∃ doc dateNow, received.message = collectSignal doc dateNow ∧
    0 ≤ doc.lastUserInteractionAt.ms ∧ 0 ≤ dateNow.ms

/-- What `collectSignal` sends fits the daemon's fields, as long as the clock is not
before 1970. -/
theorem collectSignal_fits (doc : Document) (dateNow receivedAt : TimeValue)
    (hinteraction : 0 ≤ doc.lastUserInteractionAt.ms) (hnow : 0 ≤ dateNow.ms) :
    ContentFits (normalizeContentSignal (collectSignal doc dateNow) receivedAt) := by
  have hexact : doc.lastUserInteractionAt.toNumber.WrittenExactly :=
    Number.writtenExactly_of_lt rfl (lt_of_le_of_lt doc.lastUserInteractionAt.inRange (by norm_num))
  constructor
  all_goals simp only [normalizeContentSignal, collectSignal, JsValue.get_ofFields, List.lookup,
    String.reduceBEq, Option.getD_some, JsValue.finite?, JsValue.orElse]
  · exact ⟨_, rfl, Utf16.wellFormed_encode doc.visibilityState⟩
  · exact count_isIntegerIn _ doc.media_lt
  · exact count_isIntegerIn _ (playing_lt doc)
  · intro x hx
    cases hx
    exact ⟨(time_isIntegerIn_iff _).mpr hinteraction, hexact⟩
  · exact (time_isIntegerIn_iff _).mpr hnow

theorem accepted_payload {received : Received} {tabId : Number} {p : ContentPayload}
    (h : accepted received = some (tabId, p)) :
    p = normalizeContentSignal received.message received.dateNow := by
  unfold accepted at h
  split at h
  · split at h
    · cases h
      rfl
    · cases h
  · cases h

/-- The signal of a tab came in one of the messages. -/
theorem exists_message_of_get {messages : List Received} {tabId : Number} {p : ContentPayload}
    (h : (messages.foldl onMessage .empty).get tabId = some p) :
    ∃ received ∈ messages, p = normalizeContentSignal received.message received.dateNow := by
  induction messages using List.reverseRecOn with
  | nil => cases h
  | append_singleton messages received ih =>
    rw [List.foldl_append, List.foldl_cons, List.foldl_nil, onMessage] at h
    cases haccepted : accepted received with
    | none =>
      rw [haccepted] at h
      obtain ⟨earlier, hmem, hp⟩ := ih h
      exact ⟨earlier, List.mem_append_left _ hmem, hp⟩
    | some entry =>
      rw [haccepted] at h
      dsimp only at h
      rw [InsertionMap.get_set] at h
      split at h
      · cases h
        exact ⟨received, List.mem_append_right _ (List.mem_singleton.mpr rfl),
          accepted_payload haccepted⟩
      · obtain ⟨earlier, hmem, hp⟩ := ih h
        exact ⟨earlier, List.mem_append_left _ hmem, hp⟩

theorem content_fits_of_own {state : BrowserState}
    (hown : ∀ received ∈ state.messages, OwnMessage received) (tab : Tab) :
    ∀ p ∈ state.contentOf tab, ContentFits p := by
  intro p hp
  obtain ⟨id, -, hget⟩ := Option.bind_eq_some_iff.mp hp
  rw [BrowserState.tabSignals, trimExpiredSignals, InsertionMap.get_filter] at hget
  obtain ⟨received, hmem, rfl⟩ := exists_message_of_get (Option.eq_some_of_filter_eq_some hget)
  obtain ⟨doc, dateNow, hmessage, hinteraction, hnow⟩ := hown received hmem
  rw [hmessage]
  exact collectSignal_fits doc dateNow received.dateNow hinteraction hnow

/-! ## Which reports agree -/

/-- The report of a browser state is accepted with the values of every tab exactly
when every number in it that the daemon reads as an integer is an integer of that
type, the times of interaction are written exactly, every string is well-formed,
and the visibility states are strings.  The content signals are as they should be when
the extension's own content script has sent them. -/
theorem report_agrees_iff (state : BrowserState) :
    (Agrees state ↔ StateFits state) ∧
      ((∀ received ∈ state.messages, OwnMessage received) →
        ∀ tab, ∀ p ∈ state.contentOf tab, ContentFits p) :=
  ⟨⟨stateFits_of_agrees, agrees_of_stateFits⟩, content_fits_of_own⟩

/-- The tab of a page that has just sent its signal. -/
def ownTab : Tab where
  id := some one
  windowId := one
  active := .bool true
  audible := .bool false
  hidden := .undefined
  discarded := .bool false
  lastAccessed := .number one
  url := none
  pendingUrl := none

def ownMessage : Received where
  message := collectSignal
    { visibilityState := "visible"
      hasFocus := true
      fullscreenElement := false
      pictureInPictureElement := false
      media := []
      lastUserInteractionAt := ⟨1713719990000, by norm_num⟩
      media_lt := noMedia_lt } ⟨1713720000000, by norm_num⟩
  senderTabId := some one
  dateNow := ⟨1713720000000, by norm_num⟩

def ownPage : BrowserState where
  now := ⟨1713720000000, by norm_num⟩
  messages := [ownMessage]
  tabs := [ownTab]
  windows := [{ id := some one, focused := .bool true }]
  family := Utf16.encode "chromium"
  instanceId := Utf16.encode "1b4e28ba-2fa1-41d2-883f-0016d3cca427"
  idleState := Utf16.encode "active"
  parseUrl := fun _ => none
  tabs_lt := by norm_num
  windows_lt := by norm_num

theorem ownPage_own : ∀ received ∈ ownPage.messages, OwnMessage received := by
  intro received hmem
  obtain rfl := List.mem_singleton.mp hmem
  exact ⟨_, _, rfl, by norm_num, by norm_num⟩

/-- The signal is young enough for the report. -/
theorem ownPage_content : (ownPage.contentOf ownTab).isSome = true := by
  have hid : one.value ≠ 0 := by decide
  have hkind : ownMessage.message.get "kind" =
      .string (Utf16.encode "bssl-content-signal") := rfl
  have haccepted : accepted ownMessage = some (one,
      normalizeContentSignal ownMessage.message ownMessage.dateNow) := by
    unfold accepted
    rw [hkind]
    exact if_pos ⟨rfl, hid⟩
  have hsampled : (normalizeContentSignal ownMessage.message ownMessage.dateNow).sampledAtMs =
      ownPage.now.toNumber := rfl
  have hfresh : expired ownPage.now
      (normalizeContentSignal ownMessage.message ownMessage.dateNow) = false := by
    have hvalue : ownPage.now.toNumber.value = 1713720000000 := by
      norm_num [ownPage, TimeValue.toNumber]
    unfold expired
    rw [hsampled, hvalue]
    norm_num [ownPage, round_zero, CONTENT_TTL_MS]
  have hget : ownPage.tabSignals.get one =
      some (normalizeContentSignal ownMessage.message ownMessage.dateNow) := by
    show ((onMessage .empty ownMessage).filter _).get one = _
    rw [onMessage, haccepted, InsertionMap.get_filter, InsertionMap.get_set, if_pos rfl,
      Option.filter_some, hfresh]
    rfl
  exact Option.isSome_of_eq_some hget

/-- The report of `ownPage` is accepted. -/
theorem report_agrees_iff_own_page :
    (ownPage.contentOf ownTab).isSome = true ∧ Agrees ownPage := by
  refine ⟨ownPage_content, (report_agrees_iff ownPage).1.mpr ?_⟩
  have hone : one.IsIntegerIn (-2 ^ 63 + 1) (2 ^ 63) := ⟨1, rfl, by norm_num, by norm_num⟩
  refine ⟨by norm_num [ownPage], Utf16.wellFormed_encode _, Utf16.wellFormed_encode _,
    Utf16.wellFormed_encode _, fun tab hmem => ?_⟩
  obtain rfl := List.mem_singleton.mp hmem
  refine ⟨?_, hone, ?_, (report_agrees_iff ownPage).2 ownPage_own ownTab⟩
  · intro x hx
    cases hx
    exact hone
  · intro x hx
    cases hx
    exact ⟨1, rfl, by norm_num, by norm_num⟩

/-- One audible tab in the focused window, last accessed half a millisecond after a
whole one. -/
def halfMillisecond : BrowserState where
  now := ⟨1713720000000, by norm_num⟩
  messages := []
  tabs :=
    [{ id := some one
       windowId := one
       active := .bool true
       audible := .bool true
       hidden := .undefined
       discarded := .bool false
       lastAccessed := .number ⟨3427439990001 / 2, 3427439990001, -1, by norm_num, by norm_num,
         by norm_num, by norm_num⟩
       url := none
       pendingUrl := none }]
  windows := [{ id := some one, focused := .bool true }]
  family := Utf16.encode "chromium"
  instanceId := Utf16.encode "1b4e28ba-2fa1-41d2-883f-0016d3cca427"
  idleState := Utf16.encode "active"
  parseUrl := fun _ => none
  tabs_lt := by norm_num
  windows_lt := by norm_num

/-- The fraction makes the daemon reject the report. -/
theorem fractional_access_time_rejected : ¬ Agrees halfMillisecond := by
  intro hagrees
  have htab := (stateFits_of_agrees hagrees).tabs _ (List.mem_singleton.mpr rfl)
  obtain ⟨k, hk, -⟩ := htab.lastAccessed _ (Option.mem_some_self _)
  -- twice the time is odd
  have hodd : (3427439990001 : ℚ) = ((2 * k : ℤ) : ℚ) := by
    push_cast
    rw [← hk]
    norm_num
  have hint : (3427439990001 : ℤ) = 2 * k := by exact_mod_cast hodd
  omega

end BsslRam.ReportCodec
