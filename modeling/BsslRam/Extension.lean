import BsslRam.Lib.Ecma
import BsslRam.Lib.InsertionMap

/-!
# The report that the extension builds

`extension/content-script.js` and `extension/background.js`.  Content scripts send
signals about their page; the service worker keeps the last one of each tab in
`tabSignals`, and `buildReport` puts them together with what the browser says about
its tabs and windows.

Numbers are finite JavaScript numbers: the only check on the way is
`Number.isFinite`.  What the code reads from the browser is a `BrowserState`.  The
entries of `tabSignals` are those that the listener makes of some sequence of
messages.
-/

namespace BsslRam.Extension

open BsslRam.Lib BsslRam.Lib.Binary64

/-- A JavaScript string. -/
abbrev JsString := List UInt16

/-- What `Date.now()` returns: whole milliseconds, within the range of a time value. -/
structure TimeValue where
  ms : ℤ
  inRange : |ms| ≤ 8640000000000000

def TimeValue.toNumber (t : TimeValue) : Number where
  value := t.ms
  finite := isBinary64_intCast (lt_of_le_of_lt t.inRange (by norm_num))

/-- A count of items of an array or a set. -/
def countNumber (n : ℕ) (hn : n < 2 ^ 32) : Number where
  value := (n : ℤ)
  finite := isBinary64_intCast (by rw [Nat.abs_cast]; omega)

def zero : Number := countNumber 0 (by norm_num)

def one : Number := countNumber 1 (by norm_num)

def DAEMON_PROTOCOL_VERSION : Number := one

/-! ## The content script -/

structure MediaElement where
  paused : Bool
  ended : Bool
  readyState : ℕ

/-- What a content script reads of its page. -/
structure Document where
  visibilityState : String
  hasFocus : Bool
  fullscreenElement : Bool
  pictureInPictureElement : Bool
  media : List MediaElement
  lastUserInteractionAt : TimeValue
  media_lt : media.length < 2 ^ 32

theorem noMedia_lt : ([] : List MediaElement).length < 2 ^ 32 := by norm_num

def MediaElement.playing (element : MediaElement) : Bool :=
  !element.paused && !element.ended && decide (2 < element.readyState)

theorem playing_lt (doc : Document) : (doc.media.filter MediaElement.playing).length < 2 ^ 32 :=
  lt_of_le_of_lt (List.length_filter_le _ _) doc.media_lt

/-- The message that a content script sends. -/
def collectSignal (doc : Document) (dateNow : TimeValue) : JsValue :=
  .ofFields
    [("kind", .string (Utf16.encode "bssl-content-signal")),
      ("visibility_state", .string (Utf16.encode doc.visibilityState)),
      ("document_has_focus", .bool doc.hasFocus),
      ("fullscreen", .bool doc.fullscreenElement),
      ("picture_in_picture", .bool doc.pictureInPictureElement),
      ("media_elements", .number (countNumber doc.media.length doc.media_lt)),
      ("playing_media_elements", .number
        (countNumber (doc.media.filter MediaElement.playing).length (playing_lt doc))),
      ("last_user_interaction_ms", .number doc.lastUserInteractionAt.toNumber),
      ("sampled_at_ms", .number dateNow.toNumber)]

/-! ## Content signals -/

def CONTENT_TTL_MS : ℚ := 30000

/-- The object that `normalizeContentSignal` returns. -/
structure ContentPayload where
  visibilityState : JsValue
  visibilityState_ne : visibilityState ≠ .undefined
  documentHasFocus : Bool
  fullscreen : Bool
  pictureInPicture : Bool
  mediaElements : Number
  playingMediaElements : Number
  lastUserInteractionMs : Option Number
  sampledAtMs : Number

def normalizeContentSignal (message : JsValue) (dateNow : TimeValue) : ContentPayload where
  visibilityState := (message.get "visibility_state").orElse (.string (Utf16.encode "unknown"))
  visibilityState_ne := JsValue.orElse_ne_undefined _ (fun h => by cases h)
  documentHasFocus := (message.get "document_has_focus").truthy
  fullscreen := (message.get "fullscreen").truthy
  pictureInPicture := (message.get "picture_in_picture").truthy
  mediaElements := (message.get "media_elements").finite?.getD zero
  playingMediaElements := (message.get "playing_media_elements").finite?.getD zero
  lastUserInteractionMs := (message.get "last_user_interaction_ms").finite?
  sampledAtMs := (message.get "sampled_at_ms").finite?.getD dateNow.toNumber

/-- `tabSignals`.  Its values are what the listener sets, and behind a hydration any objects. -/
abbrev TabSignals (V : Type) := InsertionMap Number V

/-- A message that reaches the listener, with the tab of its sender. -/
structure Received where
  message : JsValue
  senderTabId : Option Number
  dateNow : TimeValue

/-- The tab and the signal of a message that the listener does not ignore. -/
def accepted (received : Received) : Option (Number × ContentPayload) :=
  match received.message.get "kind", received.senderTabId with
  | .string kind, some tabId =>
      if kind = Utf16.encode "bssl-content-signal" ∧ tabId.value ≠ 0 then
        some (tabId, normalizeContentSignal received.message received.dateNow)
      else none
  | _, _ => none

/-- The listener of `runtime.onMessage`. -/
def onMessage (signals : TabSignals ContentPayload) (received : Received) :
    TabSignals ContentPayload :=
  match accepted received with
  | none => signals
  | some (tabId, signal) => signals.set tabId signal

/-- A sample is dropped when its time is zero or too long ago; the difference is that
of two JavaScript numbers. -/
def expired (now : TimeValue) (signal : ContentPayload) : Bool :=
  signal.sampledAtMs.value = 0 ∨ CONTENT_TTL_MS < Binary64.round (now.ms - signal.sampledAtMs.value)

def trimExpiredSignals {V : Type} (isExpired : V → Bool) (signals : TabSignals V) :
    TabSignals V :=
  signals.filter (fun signal => !isExpired signal)

/-! ## The browser -/

structure Tab where
  id : Option Number
  windowId : Number
  active : JsValue
  audible : JsValue
  hidden : JsValue
  discarded : JsValue
  lastAccessed : JsValue
  url : Option JsString
  pendingUrl : Option JsString

structure Window where
  id : Option Number
  focused : JsValue

/-- The two properties of a `URL` that are read.  The interface gives them as
well-formed strings. -/
structure Url where
  protocol : String
  origin : String

/-- `tabSignals.get(tab.id) ?? null`. -/
def TabSignals.contentOf {V : Type} (signals : TabSignals V) (tab : Tab) : Option V :=
  tab.id.bind signals.get

/-- What `buildReport` reads.  An array has fewer than `2 ^ 32` items, and so has a
set of some of them. -/
structure BrowserState where
  now : TimeValue
  messages : List Received
  tabs : List Tab
  windows : List Window
  family : JsString
  instanceId : JsString
  idleState : JsString
  /-- `new URL(raw)`, unless it throws. -/
  parseUrl : JsString → Option Url
  tabs_lt : tabs.length < 2 ^ 32
  windows_lt : windows.length < 2 ^ 32

def safeOrigin (parseUrl : JsString → Option Url) (rawUrl : Option JsString) : Option String :=
  match rawUrl with
  | none | some [] => none
  | some raw =>
      match parseUrl raw with
      | none => none
      | some url =>
          if url.protocol = "http:" ∨ url.protocol = "https:" then some url.origin else none

/-! ## The report -/

/-- The object that `buildReport` makes of a tab. -/
structure TabPayload where
  tabId : Option Number
  windowId : Number
  active : Bool
  audible : Bool
  hidden : Bool
  discarded : Bool
  lastAccessedMs : Option Number
  windowFocused : Bool
  urlOrigin : Option String
  content : Option ContentPayload

namespace BrowserState

variable (state : BrowserState)

/-- `tabSignals` after the messages so far and the trimming. -/
def tabSignals : TabSignals ContentPayload :=
  trimExpiredSignals (expired state.now) (state.messages.foldl onMessage .empty)

/-- The set `focusedWindowIds`. -/
def focusedWindowIds : List (Option Number) :=
  ((state.windows.filter (fun win => win.focused.truthy)).map Window.id).dedup

def contentOf (tab : Tab) : Option ContentPayload := state.tabSignals.contentOf tab

def tabPayload (tab : Tab) : TabPayload where
  tabId := tab.id
  windowId := tab.windowId
  active := tab.active.truthy
  audible := tab.audible.truthy
  hidden := tab.hidden.truthy
  discarded := tab.discarded.truthy
  lastAccessedMs := tab.lastAccessed.finite?
  windowFocused := state.focusedWindowIds.contains (some tab.windowId)
  urlOrigin := safeOrigin state.parseUrl (tab.url.or tab.pendingUrl)
  content := state.contentOf tab

def tabPayloads : List TabPayload := state.tabs.map state.tabPayload

theorem count_lt (test : TabPayload → Bool) : (state.tabPayloads.filter test).length < 2 ^ 32 := by
  have hle := List.length_filter_le test state.tabPayloads
  have hlen : state.tabPayloads.length = state.tabs.length := List.length_map _
  have hlt := state.tabs_lt
  omega

theorem focused_lt : state.focusedWindowIds.length < 2 ^ 32 := by
  have hdedup := (List.dedup_sublist
    ((state.windows.filter (fun win => win.focused.truthy)).map Window.id)).length_le
  rw [List.length_map] at hdedup
  have hfilter := List.length_filter_le (fun win : Window => win.focused.truthy) state.windows
  have hlt := state.windows_lt
  exact lt_of_le_of_lt (hdedup.trans hfilter) hlt

/-- The number of tabs that pass a test. -/
def countTabs (test : TabPayload → Bool) : Number :=
  countNumber (state.tabPayloads.filter test).length (state.count_lt test)

end BrowserState

def orUndefined (x : Option Number) : JsValue := (x.map JsValue.number).getD .undefined

def orNull (x : Option Number) : JsValue := (x.map JsValue.number).getD .null

def ContentPayload.fields (p : ContentPayload) : List (String × JsValue) :=
  [("visibility_state", p.visibilityState),
    ("document_has_focus", .bool p.documentHasFocus),
    ("fullscreen", .bool p.fullscreen),
    ("picture_in_picture", .bool p.pictureInPicture),
    ("media_elements", .number p.mediaElements),
    ("playing_media_elements", .number p.playingMediaElements),
    ("last_user_interaction_ms", orNull p.lastUserInteractionMs),
    ("sampled_at_ms", .number p.sampledAtMs)]

def TabPayload.fields (p : TabPayload) : List (String × JsValue) :=
  [("tab_id", orUndefined p.tabId),
    ("window_id", .number p.windowId),
    ("active", .bool p.active),
    ("audible", .bool p.audible),
    ("hidden", .bool p.hidden),
    ("discarded", .bool p.discarded),
    ("last_accessed_ms", orNull p.lastAccessedMs),
    ("window_focused", .bool p.windowFocused),
    ("url_origin", (p.urlOrigin.map (fun s => JsValue.string (Utf16.encode s))).getD .null),
    ("content", (p.content.map (fun c => JsValue.ofFields c.fields)).getD .null)]

def browserFields (state : BrowserState) : List (String × JsValue) :=
  [("family", .string state.family),
    ("instance_id", .string state.instanceId),
    ("system_idle_state", .string state.idleState)]

def summaryFields (state : BrowserState) : List (String × JsValue) :=
  [("tabs_total", .number (state.countTabs (fun _ => true))),
    ("audible_tabs", .number (state.countTabs TabPayload.audible)),
    ("hidden_tabs", .number (state.countTabs TabPayload.hidden)),
    ("discarded_tabs", .number (state.countTabs TabPayload.discarded)),
    ("active_tabs", .number (state.countTabs TabPayload.active)),
    ("focused_windows", .number (countNumber state.focusedWindowIds.length state.focused_lt)),
    ("content_samples", .number (state.countTabs (fun tab => tab.content.isSome)))]

def reportFields (state : BrowserState) : List (String × JsValue) :=
  [("version", .number one),
    ("protocol_version", .number DAEMON_PROTOCOL_VERSION),
    -- twice the reporting period of half a minute
    ("veto_ttl_ms", .number (countNumber 60000 (by norm_num))),
    ("sent_at_ms", .number state.now.toNumber),
    ("browser", .ofFields (browserFields state)),
    ("summary", .ofFields (summaryFields state)),
    ("tabs", .array (state.tabPayloads.map (fun tab => .ofFields tab.fields)))]

def buildReport (state : BrowserState) : JsValue := .ofFields (reportFields state)

end BsslRam.Extension
