import BsslRam.Hydration

/-!
# The content signals of a report

`buildReport` of `extension/background.js` drops the signals that are older than half a
minute, and then waits for the browser: the tabs, the windows, the storage.  Only when all
answers are there does it look the signals of the tabs up.  In between the worker goes on.
Listeners write to `tabSignals`, another report may be begun, and a hydration may end.

`State` is the worker of `Hydration` with the reports that are being built.  A build notes
what has changed `tabSignals` since its trimming (`Change`).

* `get_changes`: what a report finds for a tab is what these changes make of the signal that
  the trimming left.
* `contents_traced`: so every content of a report was young enough at the trimming, or came
  in a message since, or was brought back by a hydration since.
-/

namespace BsslRam.ReportContents

open BsslRam.Lib BsslRam.Lib.Binary64 BsslRam.Extension BsslRam.Hydration

/-! ## Trimming -/

/-- `now - v > CONTENT_TTL_MS`.  What becomes of a value that is not a number is left open. -/
structure Elapsed where
  tooOld : TimeValue → JsValue → Bool
  tooOld_number : ∀ now x,
    tooOld now (.number x) = decide (CONTENT_TTL_MS < Binary64.round (now.ms - x.value))

/-- The test of `trimExpiredSignals`. -/
def isExpired (elapsed : Elapsed) (now : TimeValue) (signal : Signal) : Bool :=
  !(signal.value.get "sampled_at_ms").truthy ||
    elapsed.tooOld now (signal.value.get "sampled_at_ms")

/-- On the signals of the listener it is the test of `Extension`. -/
theorem isExpired_contentSignal (elapsed : Elapsed) (now : TimeValue) (p : ContentPayload) :
    isExpired elapsed now (contentSignal p) = expired now p := by
  have hat : (contentSignal p).value.get "sampled_at_ms" = .number p.sampledAtMs := by
    rw [contentSignal, JsValue.get_ofFields]
    simp [ContentPayload.fields, List.lookup]
  unfold isExpired expired
  rw [hat, elapsed.tooOld_number]
  by_cases hzero : p.sampledAtMs.value = 0
  · simp [JsValue.truthy, hzero]
  · simp [JsValue.truthy, hzero]

/-- The difference is rounded, so the bound is kept up to a millisecond. -/
theorem expired_of_age {now : TimeValue} {p : ContentPayload}
    (h : CONTENT_TTL_MS + 1 ≤ now.ms - p.sampledAtMs.value) : expired now p = true := by
  have hbound : IsBinary64 (CONTENT_TTL_MS + 1) :=
    ⟨30001, 0, by norm_num, by norm_num, by norm_num, by norm_num [CONTENT_TTL_MS]⟩
  have hround := round_mono (by norm_num [CONTENT_TTL_MS]) h
  rw [round_of_isBinary64 hbound] at hround
  unfold expired
  rw [decide_eq_true_eq]
  exact Or.inr (lt_of_lt_of_le (lt_add_one _) hround)

/-! ## Changes of the signals -/

/-- Whatever writes to `tabSignals`. -/
inductive Change where
  | message (received : Received)
  | removed (tabId : Number)
  | hydrated (stored : JsValue)
  | trimmed (now : TimeValue)

section Changes

variable (number : ToNumber) (elapsed : Elapsed)

namespace Change

def apply (signals : Signals) : Change → Signals
  | message received =>
      match accepted received with
      | none => signals
      | some (tabId, payload) => signals.set tabId (contentSignal payload)
  | removed tabId => signals.delete tabId
  | hydrated stored => hydrate number stored signals
  | trimmed now => trimExpiredSignals (isExpired elapsed now) signals

/-- The change as one tab sees it. -/
def onTab (tab : Number) (signal : Option Signal) : Change → Option Signal
  | message received =>
      match accepted received with
      | none => signal
      | some (tabId, payload) => if tab = tabId then some (contentSignal payload) else signal
  | removed tabId => if tab = tabId then none else signal
  | hydrated stored => (storedEntry number stored tab).or signal
  | trimmed now => signal.filter (fun signal => !isExpired elapsed now signal)

theorem get_apply (signals : Signals) (c : Change) (tab : Number) :
    (c.apply number elapsed signals).get tab = c.onTab number elapsed tab (signals.get tab) := by
  cases c with
  | message received =>
    simp only [apply, onTab]
    cases accepted received with
    | none => rfl
    | some entry => exact InsertionMap.get_set _ _ _ _
  | removed tabId => exact InsertionMap.get_delete _ _ _
  | hydrated stored => exact get_hydrate _ _ _
  | trimmed now => exact InsertionMap.get_filter _ _ _

end Change

theorem get_changes (changes : List Change) (signals : Signals) (tab : Number) :
    (changes.foldl (Change.apply number elapsed) signals).get tab =
      changes.foldl (Change.onTab number elapsed tab) (signals.get tab) := by
  induction changes generalizing signals with
  | nil => rfl
  | cons c rest ih => rw [List.foldl_cons, List.foldl_cons, ih, Change.get_apply]

/-- What a turn of the worker does to `tabSignals`. -/
def changesOf (w : Worker) : Event → List Change
  | .message received => [.message received]
  | .removed tabId => [.removed tabId]
  | .resume =>
      match w.returned with
      | some stored :: _ => [.hydrated stored]
      | _ => []
  | _ => []

theorem tabSignals_step (w : Worker) {event : Event} (hwake : event ≠ .wake) :
    (w.step number event).tabSignals =
      (changesOf w event).foldl (Change.apply number elapsed) w.tabSignals := by
  cases event with
  | wake => exact absurd rfl hwake
  | init => rfl
  | message received =>
    change (w.onMessage received).tabSignals =
      Change.apply number elapsed w.tabSignals (.message received)
    simp only [Worker.onMessage, Change.apply]
    cases accepted received with
    | none => rfl
    | some entry => rfl
  | removed tabId =>
    change (w.onRemoved tabId).tabSignals = w.tabSignals.delete tabId
    unfold Worker.onRemoved
    dsimp only
    split <;> rfl
  | complete succeeds =>
    change (w.complete succeeds).tabSignals = w.tabSignals
    unfold Worker.complete
    split <;> rfl
  | resume =>
    change (w.resume number).tabSignals = _
    unfold Worker.resume changesOf
    split <;> rename_i hreturned <;> rw [hreturned] <;> rfl

end Changes

/-! ## Reports under construction -/

/-- A `buildReport` behind its trimming.  `before` are the signals in front of the trimming,
and `changes` what has happened to them since then. -/
structure Build where
  now : TimeValue
  before : Signals
  changes : List Change

def Build.note (changes : List Change) (b : Build) : Build :=
  { b with changes := b.changes ++ changes }

/-- What the build finds for a tab when it ends. -/
def Build.found (number : ToNumber) (elapsed : Elapsed) (b : Build) (tab : Number) :
    Option Signal :=
  b.changes.foldl (Change.onTab number elapsed tab)
    ((b.before.get tab).filter (fun signal => !isExpired elapsed b.now signal))

theorem Build.found_note (number : ToNumber) (elapsed : Elapsed) (b : Build)
    (changes : List Change) (tab : Number) :
    (b.note changes).found number elapsed tab =
      changes.foldl (Change.onTab number elapsed tab) (b.found number elapsed tab) := by
  rw [found, note, List.foldl_append]
  rfl

/-- A report that was built: the tabs and their contents. -/
structure Report where
  build : Build
  tabs : List (Tab × Option Signal)

structure State where
  worker : Worker
  builds : List Build := []
  sent : List Report := []

/-- A turn of the worker, or a part of a `buildReport`: up to its `await`, or from there to
its end.  A build is lost when one of the answers fails or when the worker stops. -/
inductive Step (number : ToNumber) (elapsed : Elapsed) : State → State → Prop where
  | turn (s : State) (event : Event) (hwake : event ≠ .wake) :
      Step number elapsed s
        { s with
          worker := s.worker.step number event
          builds := s.builds.map (Build.note (changesOf s.worker event)) }
  | wake (s : State) :
      Step number elapsed s { s with worker := s.worker.step number .wake, builds := [] }
  | start (s : State) (now : TimeValue) :
      Step number elapsed s
        { s with
          worker := { s.worker with
            tabSignals := trimExpiredSignals (isExpired elapsed now) s.worker.tabSignals }
          builds := s.builds.map (Build.note [.trimmed now]) ++
            [{ now, before := s.worker.tabSignals, changes := [] }] }
  | finish (s : State) (front : List Build) (b : Build) (rest : List Build)
      (hbuilds : s.builds = front ++ b :: rest) (tabs : List Tab) :
      Step number elapsed s
        { s with
          builds := front ++ rest
          sent := s.sent ++
            [{ build := b
               tabs := tabs.map (fun tab => (tab, s.worker.tabSignals.contentOf tab)) }] }
  | fail (s : State) (front : List Build) (b : Build) (rest : List Build)
      (hbuilds : s.builds = front ++ b :: rest) :
      Step number elapsed s { s with builds := front ++ rest }

/-- A browser session. -/
def machine (number : ToNumber) (elapsed : Elapsed) : Machine State where
  init s := s = { worker := Worker.started .undefined [] }
  step := Step number elapsed

/-! ## Where signals come from -/

section Contents

variable {number : ToNumber} {elapsed : Elapsed} {w : Worker}

/-- The signals are those of the listener. -/
def FromListener (signals : Signals) : Prop :=
  ∀ tab signal, signals.get tab = some signal → ∃ p, signal = contentSignal p

/-- So are the signals that a hydration finds. -/
def StoredByListener (number : ToNumber) (stored : JsValue) : Prop :=
  ∀ tab signal, storedEntry number stored tab = some signal → ∃ p, signal = contentSignal p

theorem storedByListener_storedForm {signals : Signals} (h : FromListener signals) :
    StoredByListener number (storedForm signals) := by
  intro tab signal hentry
  rw [storedEntry_storedForm] at hentry
  exact h tab signal hentry

/-- The worker, the storage and what is under way between them. -/
structure Ours (number : ToNumber) (w : Worker) : Prop where
  signals : FromListener w.tabSignals
  storage : StoredByListener number w.storage
  issued : ∀ value, .set value ∈ w.issued → StoredByListener number value
  returned : ∀ stored, some stored ∈ w.returned → StoredByListener number stored

/-- A signal after a change is the signal before it, or comes from the change. -/
theorem Change.onTab_cases (c : Change) {tab : Number} {old : Option Signal} {signal : Signal}
    (h : c.onTab number elapsed tab old = some signal) :
    old = some signal ∨
    (∃ received p, c = .message received ∧ accepted received = some (tab, p) ∧
      signal = contentSignal p) ∨
    ∃ stored, c = .hydrated stored ∧ storedEntry number stored tab = some signal := by
  cases c with
  | message received =>
    cases haccepted : accepted received with
    | none =>
      simp only [onTab, haccepted] at h
      exact Or.inl h
    | some entry =>
      obtain ⟨tabId, p⟩ := entry
      simp only [onTab, haccepted] at h
      by_cases heq : tab = tabId
      · rw [if_pos heq] at h
        exact Or.inr (Or.inl ⟨received, p, rfl, by rw [haccepted, heq], (Option.some.inj h).symm⟩)
      · rw [if_neg heq] at h
        exact Or.inl h
  | removed tabId =>
    simp only [onTab] at h
    split at h
    · cases h
    · exact Or.inl h
  | hydrated stored =>
    rcases Option.or_eq_some_iff.mp h with hentry | ⟨-, hold⟩
    · exact Or.inr (Or.inr ⟨stored, rfl, hentry⟩)
    · exact Or.inl hold
  | trimmed now => exact Or.inl (Option.filter_eq_some_iff.mp h).1

/-- The same along a list of changes. -/
theorem onTab_changes_cases {changes : List Change} {tab : Number} {old : Option Signal}
    {signal : Signal} (h : changes.foldl (Change.onTab number elapsed tab) old = some signal) :
    old = some signal ∨
    (∃ received p, .message received ∈ changes ∧ accepted received = some (tab, p) ∧
      signal = contentSignal p) ∨
    ∃ stored, .hydrated stored ∈ changes ∧ storedEntry number stored tab = some signal := by
  induction changes using List.reverseRecOn with
  | nil => exact Or.inl h
  | append_singleton changes c ih =>
    rw [List.foldl_append] at h
    have hlast : c ∈ changes ++ [c] := List.mem_append_right _ (List.mem_singleton.mpr rfl)
    rcases c.onTab_cases h with hbefore | ⟨received, p, rfl, hfrom⟩ | ⟨stored, rfl, hfrom⟩
    · rcases ih hbefore with hold | ⟨received, p, hmem, hfrom⟩ | ⟨stored, hmem, hfrom⟩
      · exact Or.inl hold
      · exact Or.inr (Or.inl ⟨received, p, List.mem_append_left _ hmem, hfrom⟩)
      · exact Or.inr (Or.inr ⟨stored, List.mem_append_left _ hmem, hfrom⟩)
    · exact Or.inr (Or.inl ⟨received, p, hlast, hfrom⟩)
    · exact Or.inr (Or.inr ⟨stored, hlast, hfrom⟩)

theorem FromListener.change {signals : Signals} (h : FromListener signals) (number : ToNumber)
    (elapsed : Elapsed) (c : Change)
    (hstored : ∀ stored, c = .hydrated stored → StoredByListener number stored) :
    FromListener (c.apply number elapsed signals) := by
  intro tab signal hget
  rw [Change.get_apply] at hget
  rcases c.onTab_cases hget with hold | ⟨received, p, -, -, hp⟩ | ⟨stored, hc, hentry⟩
  · exact h tab signal hold
  · exact ⟨p, hp⟩
  · exact hstored stored hc tab signal hentry

theorem ours_started {storage : JsValue} {writes : List StorageOp}
    (hstorage : StoredByListener number storage)
    (hwrites : ∀ value, .set value ∈ writes → StoredByListener number value) :
    Ours number (Worker.started storage writes) where
  signals := fun _ _ h => by cases h
  storage := hstorage
  issued := by
    intro value hmem
    rcases List.mem_append.mp hmem with hmem | hmem
    · exact hwrites value hmem
    · cases List.mem_singleton.mp hmem
  returned := fun _ h => by cases h

theorem Ours.hydrateTabSignals (h : Ours number w) : Ours number w.hydrateTabSignals := by
  refine ⟨h.signals, h.storage, fun value hmem => ?_, h.returned⟩
  rcases List.mem_append.mp hmem with hmem | hmem
  · exact h.issued value hmem
  · cases List.mem_singleton.mp hmem

theorem Ours.persistTabSignals (h : Ours number w) : Ours number w.persistTabSignals := by
  refine ⟨h.signals, h.storage, fun value hmem => ?_, h.returned⟩
  rcases List.mem_append.mp hmem with hmem | hmem
  · exact h.issued value hmem
  · cases List.mem_singleton.mp hmem
    exact storedByListener_storedForm h.signals

theorem Ours.withSignals (h : Ours number w) {signals : Signals} (hsignals : FromListener signals)
    (last : Number → Option (Option Signal)) :
    Ours number { w with tabSignals := signals, last } :=
  ⟨hsignals, h.storage, h.issued, h.returned⟩

theorem Ours.complete (h : Ours number w) (succeeds : Bool) :
    Ours number (w.complete succeeds) := by
  unfold Worker.complete
  split
  · exact h
  · rename_i rest hissued
    refine ⟨h.signals, h.storage, fun value hmem => ?_, fun stored hmem => ?_⟩
    · exact h.issued value (hissued ▸ List.mem_cons_of_mem _ hmem)
    · rcases List.mem_append.mp hmem with hmem | hmem
      · exact h.returned stored hmem
      · cases succeeds with
        | false => cases List.mem_singleton.mp hmem
        | true =>
          rw [Option.some.inj (List.mem_singleton.mp hmem)]
          exact h.storage
  · rename_i value rest hissued
    refine ⟨h.signals, ?_, fun value' hmem => ?_, h.returned⟩
    · cases succeeds with
      | false => exact h.storage
      | true => exact h.issued value (hissued ▸ List.mem_cons_self)
    · exact h.issued value' (hissued ▸ List.mem_cons_of_mem _ hmem)

/-- The signals, the storage and what is under way stay those of the listener. -/
theorem Ours.step (h : Ours number w) (elapsed : Elapsed) (event : Event) :
    Ours number (w.step number event) := by
  cases event with
  | wake =>
    exact ours_started h.storage (fun value hmem => h.issued value (List.mem_of_mem_filter hmem))
  | init => exact h.hydrateTabSignals
  | message received =>
    have hsignals := h.signals.change number elapsed (.message received) (fun _ h => by cases h)
    change Ours number (w.onMessage received)
    unfold Worker.onMessage
    simp only [Change.apply] at hsignals
    split
    · exact h
    · rename_i haccepted
      rw [haccepted] at hsignals
      exact (h.withSignals hsignals _).persistTabSignals
  | removed tabId =>
    have hsignals : FromListener (w.tabSignals.delete tabId) :=
      h.signals.change number elapsed (.removed tabId) (fun _ h => by cases h)
    change Ours number (w.onRemoved tabId)
    unfold Worker.onRemoved
    split
    · exact (h.withSignals hsignals _).persistTabSignals
    · exact h.withSignals hsignals _
  | complete succeeds => exact h.complete succeeds
  | resume =>
    change Ours number (w.resume number)
    unfold Worker.resume
    split
    · exact h
    · rename_i rest hreturned
      exact ⟨h.signals, h.storage, h.issued,
        fun stored hmem => h.returned stored (hreturned ▸ List.mem_cons_of_mem _ hmem)⟩
    · rename_i stored rest hreturned
      refine ⟨h.signals.change number elapsed (.hydrated stored) ?_, h.storage, h.issued,
        fun stored' hmem => h.returned stored' (hreturned ▸ List.mem_cons_of_mem _ hmem)⟩
      intro stored' heq
      cases heq
      exact h.returned stored (hreturned ▸ List.mem_cons_self)

end Contents

/-! ## Runs -/

/-- The builds know what has become of the signals, and the reports show it. -/
structure Inv (number : ToNumber) (elapsed : Elapsed) (s : State) : Prop where
  ours : Ours number s.worker
  builds : ∀ b ∈ s.builds, ∀ tab, s.worker.tabSignals.get tab = b.found number elapsed tab
  sent : ∀ r ∈ s.sent, ∀ tab content, (tab, content) ∈ r.tabs →
    content = tab.id.bind (r.build.found number elapsed) ∧
      ∀ signal, content = some signal → ∃ p, signal = contentSignal p

section Runs

variable {number : ToNumber} {elapsed : Elapsed} {s s' : State}

/-- The builds after changes that they have noted. -/
theorem Inv.note_builds (h : Inv number elapsed s) (changes : List Change) {signals : Signals}
    (hsignals : signals = changes.foldl (Change.apply number elapsed) s.worker.tabSignals) :
    ∀ b ∈ s.builds.map (Build.note changes), ∀ tab,
      signals.get tab = b.found number elapsed tab := by
  intro b' hb' tab
  obtain ⟨b, hb, rfl⟩ := List.mem_map.mp hb'
  rw [hsignals, get_changes, Build.found_note, h.builds b hb]

/-- The builds without one that has ended. -/
theorem Inv.other_builds (h : Inv number elapsed s) {front rest : List Build} {b : Build}
    (hbuilds : s.builds = front ++ b :: rest) :
    ∀ b' ∈ front ++ rest, ∀ tab, s.worker.tabSignals.get tab = b'.found number elapsed tab := by
  intro b' hb' tab
  have hsub : (front ++ rest).Sublist s.builds := by
    rw [hbuilds]
    exact (List.Sublist.refl front).append (List.sublist_cons_self b rest)
  exact h.builds b' (hsub.subset hb') tab

theorem Inv.start (h : Inv number elapsed s) (now : TimeValue) :
    Inv number elapsed
      { s with
        worker := { s.worker with
          tabSignals := trimExpiredSignals (isExpired elapsed now) s.worker.tabSignals }
        builds := s.builds.map (Build.note [.trimmed now]) ++
          [{ now, before := s.worker.tabSignals, changes := [] }] } := by
  have hsignals : FromListener (trimExpiredSignals (isExpired elapsed now) s.worker.tabSignals) :=
    h.ours.signals.change number elapsed (.trimmed now) (fun _ h => by cases h)
  refine ⟨h.ours.withSignals hsignals s.worker.last, fun b hb tab => ?_, h.sent⟩
  rcases List.mem_append.mp hb with hb | hb
  · exact h.note_builds [.trimmed now] rfl b hb tab
  · rw [List.mem_singleton.mp hb]
    exact InsertionMap.get_filter _ _ tab

theorem Inv.finish (h : Inv number elapsed s) {front rest : List Build} {b : Build}
    (hbuilds : s.builds = front ++ b :: rest) (tabs : List Tab) :
    Inv number elapsed
      { s with
        builds := front ++ rest
        sent := s.sent ++
          [{ build := b
             tabs := tabs.map (fun tab => (tab, s.worker.tabSignals.contentOf tab)) }] } := by
  have hb : b ∈ s.builds := hbuilds ▸ List.mem_append_right _ List.mem_cons_self
  refine ⟨h.ours, h.other_builds hbuilds, fun r hr tab content hmem => ?_⟩
  rcases List.mem_append.mp hr with hr | hr
  · exact h.sent r hr tab content hmem
  · rw [List.mem_singleton.mp hr] at hmem ⊢
    obtain ⟨tab', -, heq⟩ := List.mem_map.mp hmem
    cases heq
    refine ⟨congrArg tab.id.bind (funext (h.builds b hb)), fun signal hsome => ?_⟩
    obtain ⟨id, -, hget⟩ := Option.bind_eq_some_iff.mp hsome
    exact h.ours.signals id signal hget

theorem inv_init (h : (machine number elapsed).init s) : Inv number elapsed s := by
  rw [show s = _ from h]
  refine ⟨ours_started ?_ ?_, ?_, ?_⟩
  · intro tab signal hentry
    cases hentry
  · intro value hmem
    cases hmem
  · intro b hb
    cases hb
  · intro r hr
    cases hr

theorem inv_step (h : Inv number elapsed s) (hstep : Step number elapsed s s') :
    Inv number elapsed s' := by
  cases hstep with
  | turn event hwake =>
    exact ⟨h.ours.step elapsed event,
      h.note_builds (changesOf s.worker event) (tabSignals_step number elapsed s.worker hwake),
      h.sent⟩
  | wake =>
    refine ⟨h.ours.step elapsed .wake, fun b hb => ?_, h.sent⟩
    cases hb
  | start now => exact h.start now
  | finish front b rest hbuilds tabs => exact h.finish hbuilds tabs
  | fail front b rest hbuilds => exact ⟨h.ours, h.other_builds hbuilds, h.sent⟩

theorem inv_of_reachable (hs : (machine number elapsed).Reachable s) : Inv number elapsed s :=
  hs.invariant (Inv number elapsed) (fun _ h => inv_init h) (fun _ _ _ h hstep => inv_step h hstep)

end Runs

/-- The content that a report has for a tab is what the turns since its trimming have made of
the signal that the trimming left.  So it was young enough then, or it came in a message
since, or a hydration since then found it in the storage. -/
theorem contents_traced (number : ToNumber) (elapsed : Elapsed) (s : State)
    (hs : (machine number elapsed).Reachable s) (r : Report) (hr : r ∈ s.sent) (tab : Tab)
    (content : Option Signal) (hmem : (tab, content) ∈ r.tabs) :
    content = tab.id.bind (r.build.found number elapsed) ∧
    ∀ signal, content = some signal → ∃ id p, tab.id = some id ∧ signal = contentSignal p ∧
      (r.build.before.get id = some signal ∧ p.sampledAtMs.value ≠ 0 ∧
          r.build.now.ms - p.sampledAtMs.value < CONTENT_TTL_MS + 1 ∨
        (∃ received, .message received ∈ r.build.changes ∧
          accepted received = some (id, p)) ∨
        ∃ stored, .hydrated stored ∈ r.build.changes ∧
          storedEntry number stored id = some signal) := by
  obtain ⟨hfound, hours⟩ := (inv_of_reachable hs).sent r hr tab content hmem
  refine ⟨hfound, fun signal hsome => ?_⟩
  obtain ⟨p, hp⟩ := hours signal hsome
  obtain ⟨id, hid, htrace⟩ := Option.bind_eq_some_iff.mp (hfound.symm.trans hsome)
  rcases onTab_changes_cases htrace with
    hkept | ⟨received, p', hmessage, haccepted, hp'⟩ | hhydrated
  · obtain ⟨hbefore, hyoung⟩ := Option.filter_eq_some_iff.mp hkept
    rw [hp, isExpired_contentSignal, Bool.not_eq_true'] at hyoung
    refine ⟨id, p, hid, hp, Or.inl ⟨hbefore, fun hzero => ?_, lt_of_not_ge (fun hage => ?_)⟩⟩
    · unfold expired at hyoung
      exact of_decide_eq_false hyoung (Or.inl hzero)
    · rw [expired_of_age hage] at hyoung
      cases hyoung
  · exact ⟨id, p', hid, hp', Or.inr (Or.inl ⟨received, hmessage, haccepted⟩)⟩
  · exact ⟨id, p, hid, hp, Or.inr (Or.inr hhydrated)⟩

/-! ### A worker that is woken by its alarm

Tab 5 sends a signal, and the worker goes to sleep.  A quarter of an hour later the alarm
wakes it.  The report is begun before the hydration ends, and finds what that brings back. -/

/-- The difference for numbers; the stored times are nothing else. -/
def numbersOnly : Elapsed where
  tooOld now v := match v with
    | .number x => decide (CONTENT_TTL_MS < Binary64.round (now.ms - x.value))
    | _ => false
  tooOld_number _ _ := rfl

def earlyMessage : Received where
  message := collectSignal (page true) ⟨1000, by norm_num⟩
  senderTabId := some tabFive
  dateNow := ⟨1000, by norm_num⟩

def earlyPayload : ContentPayload :=
  normalizeContentSignal earlyMessage.message earlyMessage.dateNow

theorem accepted_earlyMessage :
    accepted earlyMessage = some (tabFive, earlyPayload) := by
  have hkind : earlyMessage.message.get "kind" =
      .string (Utf16.encode "bssl-content-signal") := rfl
  have hid : tabFive.value ≠ 0 := by decide
  unfold accepted
  rw [hkind]
  exact if_pos ⟨rfl, hid⟩

theorem sampledAtMs_earlyPayload : earlyPayload.sampledAtMs.value = 1000 := by
  have hat : earlyMessage.message.get "sampled_at_ms" =
      .number (TimeValue.toNumber ⟨1000, by norm_num⟩) := by
    simp [earlyMessage, collectSignal, JsValue.get_ofFields, List.lookup]
  simp [earlyPayload, normalizeContentSignal, hat, JsValue.finite?, TimeValue.toNumber]

def quarterHour : TimeValue := ⟨900000, by norm_num⟩

def fifthTab : Tab where
  id := some tabFive
  windowId := one
  active := .undefined
  audible := .undefined
  hidden := .undefined
  discarded := .undefined
  lastAccessed := .undefined
  url := none
  pendingUrl := none

def earlySignals : Signals := InsertionMap.empty.set tabFive (contentSignal earlyPayload)

theorem step_earlyMessage (w : Worker) (hempty : w.tabSignals = .empty) :
    ∃ last, w.step onNumbers (.message earlyMessage) =
      Worker.persistTabSignals { w with tabSignals := earlySignals, last } := by
  refine ⟨Function.update w.last tabFive (some (some (contentSignal earlyPayload))), ?_⟩
  change w.onMessage earlyMessage = _
  unfold Worker.onMessage
  rw [accepted_earlyMessage, hempty]
  rfl

/-- The report of the woken worker, with its trace. -/
theorem reachable_stale :
    ∃ s r, (machine onNumbers numbersOnly).Reachable s ∧ r ∈ s.sent ∧ r.build.now = quarterHour ∧
      r.build.before = .empty ∧ r.build.changes = [.hydrated (storedForm earlySignals)] ∧
      (fifthTab, some (contentSignal earlyPayload)) ∈ r.tabs := by
  have hstart : (machine onNumbers numbersOnly).Reachable
      { worker := Worker.started .undefined [] } := .start rfl
  have hmessage := hstart.tail (.turn _ (.message earlyMessage) nofun)
  obtain ⟨last, hlast⟩ := step_earlyMessage (Worker.started .undefined []) rfl
  rw [hlast] at hmessage
  have hread := hmessage.tail (.turn _ (.complete true) nofun)
  have hwritten := hread.tail (.turn _ (.complete true) nofun)
  have hwoken := hwritten.tail (.wake _)
  have hbegun := hwoken.tail (.start _ quarterHour)
  have hreturned := hbegun.tail (.turn _ (.complete true) nofun)
  have hhydrated := hreturned.tail (.turn _ .resume nofun)
  have hsent := hhydrated.tail (.finish _ [] _ [] rfl [fifthTab])
  refine ⟨_, _, hsent, List.mem_append_right _ List.mem_cons_self, rfl, rfl, rfl, ?_⟩
  refine List.mem_singleton.mpr (congrArg (Prod.mk fifthTab) ?_)
  change some (contentSignal earlyPayload) =
    (hydrate onNumbers (storedForm earlySignals) _).get tabFive
  rw [get_hydrate, storedEntry_storedForm, earlySignals, InsertionMap.get_set, if_pos rfl]
  rfl

theorem contents_traced_stale :
    ∃ s r, (machine onNumbers numbersOnly).Reachable s ∧ r ∈ s.sent ∧
      (fifthTab, some (contentSignal earlyPayload)) ∈ r.tabs ∧
      expired r.build.now earlyPayload = true ∧
      ∃ stored, .hydrated stored ∈ r.build.changes ∧
        storedEntry onNumbers stored tabFive = some (contentSignal earlyPayload) := by
  obtain ⟨s, r, hs, hr, hnow, hbefore, hchanges, hmem⟩ := reachable_stale
  obtain ⟨-, htraced⟩ := contents_traced onNumbers numbersOnly s hs r hr fifthTab _ hmem
  obtain ⟨id, p, hid, -, hcases⟩ := htraced _ rfl
  obtain rfl : tabFive = id := Option.some.inj hid
  refine ⟨s, r, hs, hr, hmem, expired_of_age ?_, ?_⟩
  · rw [hnow, sampledAtMs_earlyPayload]
    norm_num [quarterHour, CONTENT_TTL_MS]
  · rcases hcases with ⟨hkept, -⟩ | ⟨received, hmessage, -⟩ | hhydrated
    · rw [hbefore] at hkept
      cases hkept
    · rw [hchanges] at hmessage
      cases List.mem_singleton.mp hmessage
    · exact hhydrated

end BsslRam.ReportContents
