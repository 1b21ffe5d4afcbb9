import BsslRam.Extension
import BsslRam.Lib.Machine

/-!
# Hydration of the tab signals

`extension/background.js`, the part that keeps `tabSignals` across the sleep of the
service worker.  Every start of the worker, and every run of `init` after that,
reads the session storage and puts the entries it finds into `tabSignals`.  The
listeners write to `tabSignals` as well, and store all of its entries when they
have.

The read is asynchronous.  The storage takes the operations in the order in which
they were issued, and the answer of a read is used in a later turn of the event
loop.  Whatever the listeners do in between is newer than the answer.  `Worker` is
the state of all this, and `Worker.step` one turn: a listener, an operation that the
storage completes, or the rest of a `hydrateTabSignals` whose read has returned.

The entries that a hydration writes are right for a tab that had an event since the
worker started only if they are what that event left (`reflects_step_iff`).  It is so
in runs where no event is handled while a hydration is under way and no storage
operation fails (`quiet_harmless`).  In general it is not, since a worker is woken by
the very message that its hydration overwrites.
-/

namespace BsslRam.Hydration

open BsslRam.Lib BsslRam.Lib.Binary64 BsslRam.Extension

/-! ## Signals and their stored form -/

/-- `v && typeof v === "object"`. -/
def isObject : JsValue → Bool
  | .object _ | .array _ => true
  | _ => false

/-- A value of `tabSignals`. -/
structure Signal where
  value : JsValue
  isObject : isObject value = true

/-- The object that `normalizeContentSignal` returns. -/
def contentSignal (p : ContentPayload) : Signal := ⟨.ofFields p.fields, rfl⟩

abbrev Signals := TabSignals Signal

/-- `Array.from(tabSignals.entries())`. -/
def storedForm (signals : Signals) : JsValue :=
  .array (signals.entries.map (fun entry => .array [.number entry.1, entry.2.value]))

/-- `Number(v)`, where it is finite.  A number is left as it is. -/
structure ToNumber where
  convert : JsValue → Option Number
  convert_number : ∀ x, convert (.number x) = some x

/-- The body of the loop of `hydrateTabSignals`. -/
def hydrateEntry (number : ToNumber) (rawId signal : JsValue) (signals : Signals) : Signals :=
  match number.convert rawId with
  | none => signals
  | some id => if h : isObject signal = true then signals.set id ⟨signal, h⟩ else signals

/-- The loop of `hydrateTabSignals`.  An entry that cannot be destructured throws, and
ends it; a string can, and has no object in it. -/
def hydrateEntries (number : ToNumber) : List JsValue → Signals → Signals
  | [], signals => signals
  | .array items :: rest, signals =>
      hydrateEntries number rest (hydrateEntry number (items.getD 0 .undefined)
        (items.getD 1 .undefined) signals)
  | .string _ :: rest, signals => hydrateEntries number rest signals
  | _ :: _, signals => signals

/-- `hydrateTabSignals` after the read has returned. -/
def hydrate (number : ToNumber) (stored : JsValue) (signals : Signals) : Signals :=
  match stored with
  | .array entries => hydrateEntries number entries signals
  | _ => signals

/-- The entry that a hydration from `stored` writes for a tab. -/
def storedEntry (number : ToNumber) (stored : JsValue) (tab : Number) : Option Signal :=
  (hydrate number stored .empty).get tab

/-! ## The worker -/

/-- An operation on the session storage. -/
inductive StorageOp where
  | get
  | set (value : JsValue)

def StorageOp.isSet : StorageOp → Bool
  | .get => false
  | .set _ => true

/-- The service worker and the storage.  `last` notes what the last content signal or
removal of each tab since the start of the worker left for it. -/
structure Worker where
  tabSignals : Signals
  storage : JsValue
  issued : List StorageOp
  returned : List (Option JsValue)
  last : Number → Option (Option Signal)

inductive Event where
  | wake
  | init
  | message (received : Received)
  | removed (tabId : Number)
  | complete (succeeds : Bool)
  | resume

namespace Worker

/-- A worker that has just started, and has issued the read of its `init`. -/
def started (storage : JsValue) (writes : List StorageOp) : Worker where
  tabSignals := .empty
  storage := storage
  issued := writes ++ [.get]
  returned := []
  last := fun _ => none

/-- `hydrateTabSignals` up to its `await`. -/
def hydrateTabSignals (w : Worker) : Worker := { w with issued := w.issued ++ [.get] }

def persistTabSignals (w : Worker) : Worker :=
  { w with issued := w.issued ++ [.set (storedForm w.tabSignals)] }

/-- The listener of `runtime.onMessage`. -/
def onMessage (w : Worker) (received : Received) : Worker :=
  match accepted received with
  | none => w
  | some (tabId, payload) =>
      persistTabSignals
        { w with
          tabSignals := w.tabSignals.set tabId (contentSignal payload)
          last := Function.update w.last tabId (some (some (contentSignal payload))) }

/-- The listener of `tabs.onRemoved`. -/
def onRemoved (w : Worker) (tabId : Number) : Worker :=
  let deleted :=
    { w with
      tabSignals := w.tabSignals.delete tabId
      last := Function.update w.last tabId (some none) }
  if w.tabSignals.has tabId then deleted.persistTabSignals else deleted

/-- The storage completes the operation at the front. -/
def complete (w : Worker) (succeeds : Bool) : Worker :=
  match w.issued with
  | [] => w
  | .get :: rest =>
      { w with
        issued := rest
        returned := w.returned ++ [if succeeds then some w.storage else none] }
  | .set value :: rest =>
      { w with issued := rest, storage := if succeeds then value else w.storage }

/-- The rest of a `hydrateTabSignals`; a read that failed is caught. -/
def resume (number : ToNumber) (w : Worker) : Worker :=
  match w.returned with
  | [] => w
  | none :: rest => { w with returned := rest }
  | some stored :: rest =>
      { w with returned := rest, tabSignals := hydrate number stored w.tabSignals }

/-- One turn.  A worker that is woken starts anew; nobody waits any more for what the
last one has read, but what it has written is under way. -/
def step (number : ToNumber) (w : Worker) : Event → Worker
  | .wake => started w.storage (w.issued.filter StorageOp.isSet)
  | .init => w.hydrateTabSignals
  | .message received => w.onMessage received
  | .removed tabId => w.onRemoved tabId
  | .complete succeeds => w.complete succeeds
  | .resume => w.resume number

/-- The runs of a browser session, restricted to events with property `ok`. -/
def machine (number : ToNumber) (ok : Worker → Event → Prop) : Machine Worker :=
  Machine.labelled (fun w => w = started .undefined [])
    (fun w event w' => w' = w.step number event) ok

end Worker

open Worker

/-! ## What a hydration writes -/

section Hydrate

variable {number : ToNumber}

theorem get_hydrateEntry (rawId signal : JsValue) (signals : Signals) (tab : Number) :
    (hydrateEntry number rawId signal signals).get tab =
      ((hydrateEntry number rawId signal .empty).get tab).or (signals.get tab) := by
  unfold hydrateEntry
  cases number.convert rawId with
  | none => rfl
  | some id =>
    dsimp only
    split
    · rw [InsertionMap.get_set, InsertionMap.get_set]
      split <;> rfl
    · rfl

theorem get_hydrateEntries (entries : List JsValue) (signals : Signals) (tab : Number) :
    (hydrateEntries number entries signals).get tab =
      ((hydrateEntries number entries .empty).get tab).or (signals.get tab) := by
  induction entries generalizing signals with
  | nil => rfl
  | cons entry rest ih =>
    cases entry with
    | array items =>
      rw [hydrateEntries, hydrateEntries, ih, ih (hydrateEntry number _ _ .empty),
        get_hydrateEntry, Option.or_assoc]
    | string units => exact ih signals
    | _ => rfl

/-- A hydration leaves the tabs alone that it finds no entry for. -/
theorem get_hydrate (stored : JsValue) (signals : Signals) (tab : Number) :
    (hydrate number stored signals).get tab =
      (storedEntry number stored tab).or (signals.get tab) := by
  cases stored with
  | array entries => exact get_hydrateEntries entries signals tab
  | _ => rfl

theorem get_hydrateEntries_stored {entries : List (Number × Signal)}
    (hnodup : (entries.map Prod.fst).Nodup) (tab : Number) :
    (hydrateEntries number
      (entries.map (fun entry => .array [.number entry.1, entry.2.value])) .empty).get tab =
        entries.lookup tab := by
  induction entries with
  | nil => rfl
  | cons entry rest ih =>
    obtain ⟨id, signal⟩ := entry
    rw [List.map_cons, List.nodup_cons] at hnodup
    have hentry : hydrateEntry number (.number id) signal.value .empty =
        InsertionMap.empty.set id signal := by
      unfold hydrateEntry
      rw [number.convert_number]
      exact dif_pos signal.isObject
    rw [List.map_cons, hydrateEntries]
    show (hydrateEntries number _
      (hydrateEntry number (.number id) signal.value .empty)).get tab = _
    rw [hentry, get_hydrateEntries, ih hnodup.2, InsertionMap.get_set, InsertionMap.lookup_cons]
    split
    · rename_i heq
      rw [heq, InsertionMap.lookup_of_not_mem hnodup.1]
      rfl
    · exact Option.or_none

/-- What `persistTabSignals` stores, a hydration reads back. -/
theorem storedEntry_storedForm (signals : Signals) (tab : Number) :
    storedEntry number (storedForm signals) tab = signals.get tab :=
  get_hydrateEntries_stored signals.nodup tab

end Hydrate

/-! ## The last event of a tab -/

/-- Every tab that had an event since the worker started has what it left. -/
def Reflects (w : Worker) : Prop :=
  ∀ tab latest, w.last tab = some latest → w.tabSignals.get tab = latest

/-- A hydration that goes on finds, for the tabs that had an event since the worker
started, only what is there already. -/
def Harmless (number : ToNumber) (w : Worker) : Event → Prop
  | .resume => ∀ stored rest, w.returned = some stored :: rest →
      ∀ tab latest signal, w.last tab = some latest →
        storedEntry number stored tab = some signal → latest = some signal
  | _ => True

theorem reflects_started (storage : JsValue) (writes : List StorageOp) :
    Reflects (started storage writes) := by
  intro tab latest hlast
  cases hlast

theorem reflects_update {w : Worker} (h : Reflects w) {signals : Signals} {tabId : Number}
    {latest : Option Signal}
    (hget : ∀ tab, signals.get tab = if tab = tabId then latest else w.tabSignals.get tab) :
    Reflects { w with
      tabSignals := signals, last := Function.update w.last tabId (some latest) } := by
  intro tab latest' hlast
  show signals.get tab = latest'
  change Function.update w.last tabId (some latest) tab = some latest' at hlast
  rw [hget]
  by_cases htab : tab = tabId
  · rw [htab, Function.update_self] at hlast
    rw [if_pos htab]
    exact Option.some.inj hlast
  · rw [Function.update_of_ne htab] at hlast
    rw [if_neg htab]
    exact h tab latest' hlast

theorem reflects_onMessage {w : Worker} (h : Reflects w) (received : Received) :
    Reflects (w.onMessage received) := by
  unfold Worker.onMessage
  cases accepted received with
  | none => exact h
  | some entry => exact reflects_update h (fun tab => InsertionMap.get_set _ _ _ _)

theorem reflects_onRemoved {w : Worker} (h : Reflects w) (tabId : Number) :
    Reflects (w.onRemoved tabId) := by
  have hdeleted := reflects_update h (fun tab => InsertionMap.get_delete w.tabSignals tabId tab)
  unfold onRemoved
  split
  · exact hdeleted
  · exact hdeleted

theorem reflects_complete {w : Worker} (h : Reflects w) (succeeds : Bool) :
    Reflects (w.complete succeeds) := by
  unfold complete
  split
  · exact h
  · exact h
  · exact h

theorem harmless_of_returned {number : ToNumber} {w : Worker}
    (h : ∀ stored rest, w.returned ≠ some stored :: rest) : Harmless number w .resume := by
  intro stored rest heq
  exact absurd heq (h stored rest)

theorem reflects_resume_iff {number : ToNumber} {w : Worker} (h : Reflects w) :
    Reflects (w.resume number) ↔ Harmless number w .resume := by
  unfold resume
  split
  · rename_i hreturned
    exact iff_of_true h (harmless_of_returned (by simp [hreturned]))
  · rename_i hreturned
    exact iff_of_true h (harmless_of_returned (by simp [hreturned]))
  · rename_i stored rest hreturned
    constructor
    · intro hafter stored' rest' heq tab latest signal hlast hentry
      rw [hreturned] at heq
      cases heq
      have hget := hafter tab latest hlast
      change (hydrate number stored w.tabSignals).get tab = latest at hget
      rw [get_hydrate, hentry] at hget
      exact hget.symm
    · intro hharmless tab latest hlast
      show (hydrate number stored w.tabSignals).get tab = latest
      rw [get_hydrate, h tab latest hlast]
      cases hentry : storedEntry number stored tab with
      | none => rfl
      | some signal => exact (hharmless stored rest hreturned tab latest signal hlast hentry).symm

/-- The turns that keep the signals up to date. -/
theorem reflects_step_iff {number : ToNumber} {w : Worker} (h : Reflects w) (event : Event) :
    Reflects (w.step number event) ↔ Harmless number w event := by
  cases event with
  | wake => exact iff_of_true (reflects_started _ _) trivial
  | init => exact iff_of_true h trivial
  | message received => exact iff_of_true (reflects_onMessage h received) trivial
  | removed tabId => exact iff_of_true (reflects_onRemoved h tabId) trivial
  | complete succeeds => exact iff_of_true (reflects_complete h succeeds) trivial
  | resume => exact reflects_resume_iff h

/-! ## Quiet runs -/

/-- A read was issued and the rest of its `hydrateTabSignals` has not run. -/
def InFlight (w : Worker) : Prop := StorageOp.get ∈ w.issued ∨ w.returned ≠ []

/-- No event while a hydration is under way, and no failure of the storage. -/
def Quiet (w : Worker) : Event → Prop
  | .message _ => ¬ InFlight w
  | .removed _ => ¬ InFlight w
  | .complete succeeds => succeeds = true
  | _ => True

/-- What the storage holds once an operation has succeeded. -/
def StorageOp.effect (stored : JsValue) : StorageOp → JsValue
  | .get => stored
  | .set value => value

/-- What the storage holds once all operations under way have succeeded. -/
def settled (w : Worker) : JsValue := w.issued.foldl StorageOp.effect w.storage

/-- The invariant of quiet runs: the writes under way are in front of the reads, so
that every read returns what is stored in the end, and `tabSignals` is in step with
that unless the worker has just started. -/
structure InStep (number : ToNumber) (w : Worker) : Prop where
  ordered : ∃ writes reads, w.issued = writes ++ List.replicate reads .get ∧
    (∀ op ∈ writes, op ≠ .get) ∧ (w.returned ≠ [] → writes = [])
  reads : ∀ result ∈ w.returned, result = some (settled w)
  inStep : (∀ tab, w.tabSignals.get tab = storedEntry number (settled w) tab) ∨
    InFlight w ∧ w.tabSignals = .empty ∧ ∀ tab, w.last tab = none

section Quiet

variable {number : ToNumber} {w : Worker}

theorem inStep_started (storage : JsValue) {writes : List StorageOp}
    (hwrites : ∀ op ∈ writes, op ≠ .get) : InStep number (started storage writes) where
  ordered := ⟨writes, 1, rfl, hwrites, fun h => absurd rfl h⟩
  reads := fun _ hmem => by cases hmem
  inStep := Or.inr ⟨Or.inl (List.mem_append_right _ List.mem_cons_self), rfl, fun _ => rfl⟩

theorem settled_hydrateTabSignals (w : Worker) : settled w.hydrateTabSignals = settled w := by
  show (w.issued ++ [StorageOp.get]).foldl StorageOp.effect w.storage = _
  rw [List.foldl_append]
  rfl

theorem settled_persistTabSignals (w : Worker) :
    settled w.persistTabSignals = storedForm w.tabSignals := by
  show (w.issued ++ [StorageOp.set (storedForm w.tabSignals)]).foldl StorageOp.effect w.storage = _
  rw [List.foldl_append]
  rfl

theorem inStep_hydrateTabSignals (h : InStep number w) : InStep number w.hydrateTabSignals where
  ordered := by
    obtain ⟨writes, reads, hissued, hwrites, hreturned⟩ := h.ordered
    refine ⟨writes, reads + 1, ?_, hwrites, hreturned⟩
    show w.issued ++ [.get] = _
    rw [hissued, List.append_assoc, List.replicate_succ']
  reads := by
    rw [settled_hydrateTabSignals]
    exact h.reads
  inStep := by
    rw [settled_hydrateTabSignals]
    rcases h.inStep with hsame | hfresh
    · exact Or.inl hsame
    · exact Or.inr ⟨Or.inl (List.mem_append_right _ List.mem_cons_self), hfresh.2⟩

/-- Without a hydration under way there are only writes, and `tabSignals` is what is
stored in the end. -/
theorem inStep_not_inFlight (h : InStep number w) (hquiet : ¬ InFlight w) :
    w.returned = [] ∧ (∀ op ∈ w.issued, op ≠ .get) ∧
      ∀ tab, w.tabSignals.get tab = storedEntry number (settled w) tab := by
  refine ⟨?_, ?_, ?_⟩
  · exact Classical.not_not.mp (fun hne => hquiet (Or.inr hne))
  · intro op hop heq
    rw [heq] at hop
    exact hquiet (Or.inl hop)
  · rcases h.inStep with hsame | hfresh
    · exact hsame
    · exact absurd hfresh.1 hquiet

theorem inStep_persistTabSignals (hreturned : w.returned = [])
    (hwrites : ∀ op ∈ w.issued, op ≠ .get) : InStep number w.persistTabSignals where
  ordered := by
    refine ⟨w.issued ++ [.set (storedForm w.tabSignals)], 0, ?_, ?_, ?_⟩
    · exact (List.append_nil _).symm
    · intro op hop
      rcases List.mem_append.mp hop with hop | hop
      · exact hwrites op hop
      · rw [List.mem_singleton.mp hop]
        simp
    · intro hne
      exact absurd hreturned hne
  reads := by
    intro result hmem
    change result ∈ w.returned at hmem
    rw [hreturned] at hmem
    cases hmem
  inStep := by
    left
    intro tab
    rw [settled_persistTabSignals, storedEntry_storedForm]
    rfl

theorem inStep_onMessage (h : InStep number w) (hquiet : ¬ InFlight w) (received : Received) :
    InStep number (w.onMessage received) := by
  obtain ⟨hreturned, hwrites, _⟩ := inStep_not_inFlight h hquiet
  unfold Worker.onMessage
  cases accepted received with
  | none => exact h
  | some entry => exact inStep_persistTabSignals hreturned hwrites

/-- A tab without a signal can be removed without a write. -/
theorem inStep_onRemoved (h : InStep number w) (hquiet : ¬ InFlight w) (tabId : Number) :
    InStep number (w.onRemoved tabId) := by
  obtain ⟨hreturned, hwrites, hsame⟩ := inStep_not_inFlight h hquiet
  unfold onRemoved
  split
  · exact inStep_persistTabSignals hreturned hwrites
  · rename_i hnone
    refine ⟨h.ordered, h.reads, Or.inl ?_⟩
    intro tab
    show (w.tabSignals.delete tabId).get tab = storedEntry number (settled w) tab
    rw [InsertionMap.get_delete, ← hsame]
    split
    · rename_i heq
      rw [heq]
      exact (Option.not_isSome_iff_eq_none.mp hnone).symm
    · rfl

theorem complete_get {rest : List StorageOp} (hissued : w.issued = .get :: rest) :
    w.complete true =
      { w with issued := rest, returned := w.returned ++ [some w.storage] } := by
  unfold complete
  rw [hissued]
  rfl

theorem complete_set {value : JsValue} {rest : List StorageOp}
    (hissued : w.issued = .set value :: rest) :
    w.complete true = { w with issued := rest, storage := value } := by
  unfold complete
  rw [hissued]
  rfl

theorem foldl_effect_replicate (reads : Nat) (stored : JsValue) :
    (List.replicate reads StorageOp.get).foldl StorageOp.effect stored = stored := by
  induction reads with
  | zero => rfl
  | succ reads ih => exact ih

/-- Without a write under way, a read gets what is stored in the end. -/
theorem inStep_complete_get (h : InStep number w) {reads : Nat}
    (hissued : w.issued = List.replicate (reads + 1) .get) : InStep number (w.complete true) := by
  have hsettled : settled w = w.storage := by
    unfold settled
    rw [hissued]
    exact foldl_effect_replicate (reads + 1) w.storage
  have hafter : settled { w with
      issued := List.replicate reads .get, returned := w.returned ++ [some w.storage] } =
      settled w := by
    rw [hsettled]
    exact foldl_effect_replicate reads w.storage
  rw [complete_get hissued]
  refine ⟨⟨[], reads, rfl, by simp, fun _ => rfl⟩, ?_, ?_⟩
  · intro result hmem
    rw [hafter]
    rcases List.mem_append.mp hmem with hmem | hmem
    · exact h.reads result hmem
    · rw [List.mem_singleton.mp hmem, hsettled]
  · rw [hafter]
    rcases h.inStep with hsame | hfresh
    · exact Or.inl hsame
    · exact Or.inr ⟨Or.inr (by simp), hfresh.2⟩

theorem inStep_complete_set (h : InStep number w) {value : JsValue} {writes : List StorageOp}
    {reads : Nat} (hissued : w.issued = .set value :: (writes ++ List.replicate reads .get))
    (hwrites : ∀ op ∈ writes, op ≠ .get) (hreturned : w.returned = []) :
    InStep number (w.complete true) := by
  have hsettled : settled w =
      (writes ++ List.replicate reads StorageOp.get).foldl StorageOp.effect value := by
    unfold settled
    rw [hissued]
    rfl
  rw [complete_set hissued]
  refine ⟨⟨writes, reads, rfl, hwrites, fun hne => absurd hreturned hne⟩, ?_, ?_⟩
  · intro result hmem
    change result ∈ w.returned at hmem
    rw [hreturned] at hmem
    cases hmem
  · show (∀ tab, w.tabSignals.get tab = storedEntry number
      ((writes ++ List.replicate reads StorageOp.get).foldl StorageOp.effect value) tab) ∨ _
    rw [← hsettled]
    rcases h.inStep with hsame | hfresh
    · exact Or.inl hsame
    · refine Or.inr ⟨Or.inl ?_, hfresh.2⟩
      have hget := hfresh.1.resolve_right (fun hne => hne hreturned)
      rw [hissued] at hget
      exact (List.mem_cons.mp hget).resolve_left (by simp)

theorem inStep_complete (h : InStep number w) : InStep number (w.complete true) := by
  obtain ⟨writes, reads, hissued, hwrites, hreturned⟩ := h.ordered
  cases writes with
  | nil =>
    cases reads with
    | zero =>
      unfold complete
      rw [hissued]
      exact h
    | succ reads => exact inStep_complete_get h hissued
  | cons op writes =>
    cases op with
    | get => exact absurd rfl (hwrites .get List.mem_cons_self)
    | set value =>
      refine inStep_complete_set h hissued
        (fun op hop => hwrites op (List.mem_cons_of_mem _ hop)) ?_
      by_contra hne
      cases hreturned hne

/-- What a hydration goes on with is what is stored in the end. -/
theorem InStep.stored_eq (h : InStep number w) {stored : JsValue} {rest : List (Option JsValue)}
    (hreturned : w.returned = some stored :: rest) : stored = settled w :=
  Option.some.inj (h.reads (some stored) (by rw [hreturned]; exact List.mem_cons_self))

theorem inStep_resume (h : InStep number w) : InStep number (w.resume number) := by
  unfold resume
  split
  · exact h
  · rename_i rest hreturned
    exact absurd (h.reads none (by rw [hreturned]; exact List.mem_cons_self)) (by simp)
  · rename_i stored rest hreturned
    obtain ⟨writes, reads, hissued, hwrites, hnone⟩ := h.ordered
    refine ⟨⟨writes, reads, hissued, hwrites, ?_⟩, ?_, Or.inl ?_⟩
    · intro _
      exact hnone (by rw [hreturned]; simp)
    · intro result hmem
      exact h.reads result (by rw [hreturned]; exact List.mem_cons_of_mem _ hmem)
    · intro tab
      show (hydrate number stored w.tabSignals).get tab = storedEntry number (settled w) tab
      rw [get_hydrate, h.stored_eq hreturned]
      rcases h.inStep with hsame | hfresh
      · rw [hsame]
        exact Option.or_self
      · rw [hfresh.2.1]
        exact Option.or_none

theorem inStep_step (h : InStep number w) {event : Event} (hquiet : Quiet w event) :
    InStep number (w.step number event) := by
  cases event with
  | wake =>
    apply inStep_started
    intro op hop heq
    rw [heq] at hop
    exact absurd (List.mem_filter.mp hop).2 (by simp [StorageOp.isSet])
  | init => exact inStep_hydrateTabSignals h
  | message received => exact inStep_onMessage h hquiet received
  | removed tabId => exact inStep_onRemoved h hquiet tabId
  | complete succeeds =>
    cases hquiet
    exact inStep_complete h
  | resume => exact inStep_resume h

/-- What a read returns in a quiet run is what `tabSignals` holds, unless no tab had
an event yet. -/
theorem harmless_of_inStep (h : InStep number w) (hreflects : Reflects w) (event : Event) :
    Harmless number w event := by
  cases event with
  | resume =>
    intro stored rest hreturned tab latest signal hlast hentry
    rcases h.inStep with hsame | hfresh
    · rw [← hreflects tab latest hlast, hsame, ← h.stored_eq hreturned]
      exact hentry
    · rw [hfresh.2.2] at hlast
      cases hlast
  | _ => trivial

end Quiet

/-- In quiet runs every hydration is harmless. -/
theorem quiet_harmless (number : ToNumber) {w : Worker}
    (hw : (machine number Quiet).Reachable w) :
    InStep number w ∧ Reflects w ∧ (machine number (Harmless number)).Reachable w := by
  refine hw.invariant (fun w => InStep number w ∧ Reflects w ∧
    (machine number (Harmless number)).Reachable w) ?_ ?_
  · intro w hinit
    refine ⟨?_, ?_, .start hinit⟩
    · rw [hinit]
      exact inStep_started _ (fun op hop => by cases hop)
    · rw [hinit]
      exact reflects_started _ _
  · rintro w w' - ⟨hinStep, hreflects, hreach⟩ ⟨event, hquiet, rfl⟩
    have hharmless := harmless_of_inStep hinStep hreflects event
    exact ⟨inStep_step hinStep hquiet, (reflects_step_iff hreflects event).mpr hharmless,
      hreach.tail ⟨event, hharmless, rfl⟩⟩

/-! ## Every run -/

/-- As long as each hydration finds, for the tabs that had an event since the worker
started, only what that event left, every such tab has it.  And each hydration that
finds anything else there takes it away.  In quiet runs no hydration does. -/
theorem tabSignals_reflect_iff (number : ToNumber) :
    (∀ w, (machine number (Harmless number)).Reachable w → Reflects w) ∧
      (∀ w event, (machine number (fun _ _ => True)).Reachable w → Reflects w →
        (Reflects (w.step number event) ↔ Harmless number w event)) ∧
      ∀ w, (machine number Quiet).Reachable w →
        (machine number (Harmless number)).Reachable w ∧ Reflects w := by
  refine ⟨?_, ?_, ?_⟩
  · intro w hw
    refine Machine.Reachable.good_of_labelled ?_ ?_ hw
    · intro w hinit
      rw [hinit]
      exact reflects_started _ _
    · intro w event w' _ hreflects hstep
      rw [hstep]
      exact reflects_step_iff hreflects event
  · intro w event _ hreflects
    exact reflects_step_iff hreflects event
  · intro w hw
    obtain ⟨-, hreflects, hharmless⟩ := quiet_harmless number hw
    exact ⟨hharmless, hreflects⟩

/-! ### Two runs

Tab 5 reports while the worker runs.  In the first run `init` is called again once the
signal is stored.  In the second one the worker goes to sleep.  The next message of the tab
wakes it, and the read of its `init` was issued before the message is handled. -/

def tabFive : Number := countNumber 5 (by norm_num)

/-- A page with or without the focus. -/
def page (hasFocus : Bool) : Document where
  visibilityState := "visible"
  hasFocus := hasFocus
  fullscreenElement := false
  pictureInPictureElement := false
  media := []
  lastUserInteractionAt := ⟨0, by norm_num⟩
  media_lt := noMedia_lt

def pageMessage (hasFocus : Bool) : Received where
  message := collectSignal (page hasFocus) ⟨0, by norm_num⟩
  senderTabId := some tabFive
  dateNow := ⟨0, by norm_num⟩

def pageSignal (hasFocus : Bool) : Signal :=
  contentSignal
    (normalizeContentSignal (pageMessage hasFocus).message (pageMessage hasFocus).dateNow)

/-- `Number(v)` on numbers; the stored keys are nothing else. -/
def onNumbers : ToNumber := ⟨JsValue.finite?, fun _ => rfl⟩

theorem step_pageMessage (w : Worker) (hasFocus : Bool) :
    w.step onNumbers (.message (pageMessage hasFocus)) = persistTabSignals
      { w with
        tabSignals := w.tabSignals.set tabFive (pageSignal hasFocus)
        last := Function.update w.last tabFive (some (some (pageSignal hasFocus))) } := by
  have hkind : (pageMessage hasFocus).message.get "kind" =
      .string (Utf16.encode "bssl-content-signal") := rfl
  have hid : tabFive.value ≠ 0 := by decide
  have haccepted : accepted (pageMessage hasFocus) = some (tabFive,
      normalizeContentSignal (pageMessage hasFocus).message (pageMessage hasFocus).dateNow) := by
    unfold accepted
    rw [hkind]
    exact if_pos ⟨rfl, hid⟩
  show w.onMessage (pageMessage hasFocus) = _
  unfold Worker.onMessage
  rw [haccepted]
  rfl

theorem last_noted (last : Number → Option (Option Signal)) (tab : Number)
    (latest : Option Signal) : Function.update last tab (some latest) tab = some latest :=
  Function.update_self tab (some latest) last

/-- What the worker has stored of the first message. -/
def leftBehind : JsValue := storedForm (InsertionMap.empty.set tabFive (pageSignal false))

theorem storedEntry_leftBehind :
    storedEntry onNumbers leftBehind tabFive = some (pageSignal false) := by
  unfold leftBehind
  rw [storedEntry_storedForm, InsertionMap.get_set, if_pos rfl]

/-- The worker after the first message and a second hydration, which finds it stored. -/
def rehydrated : Worker where
  tabSignals := hydrate onNumbers leftBehind (InsertionMap.empty.set tabFive (pageSignal false))
  storage := leftBehind
  issued := []
  returned := []
  last := Function.update (fun _ => none) tabFive (some (some (pageSignal false)))

theorem rehydrated_reachable : (machine onNumbers Quiet).Reachable rehydrated := by
  have hstart : (machine onNumbers Quiet).Reachable (started .undefined []) := .start rfl
  have hread := hstart.tail ⟨.complete true, rfl, rfl⟩
  have hresumed := hread.tail ⟨.resume, trivial, rfl⟩
  have hmessage := hresumed.tail ⟨.message (pageMessage false), by simp [Quiet, InFlight,
    Worker.step, started, Worker.complete, Worker.resume], rfl⟩
  rw [step_pageMessage] at hmessage
  have hwritten := hmessage.tail ⟨.complete true, rfl, rfl⟩
  have hinit := hwritten.tail ⟨.init, trivial, rfl⟩
  have hagain := hinit.tail ⟨.complete true, rfl, rfl⟩
  exact hagain.tail ⟨.resume, trivial, rfl⟩

theorem tabSignals_reflect_iff_second_init :
    (machine onNumbers Quiet).Reachable rehydrated ∧
      storedEntry onNumbers leftBehind tabFive = some (pageSignal false) ∧
      rehydrated.tabSignals.get tabFive = some (pageSignal false) := by
  refine ⟨rehydrated_reachable, storedEntry_leftBehind, ?_⟩
  have hreflects := ((tabSignals_reflect_iff onNumbers).2.2 _ rehydrated_reachable).2
  exact hreflects tabFive _ (last_noted (fun _ => none) tabFive (some (pageSignal false)))

/-- The second worker once its hydration is done. -/
def woken : Worker where
  tabSignals := hydrate onNumbers leftBehind (InsertionMap.empty.set tabFive (pageSignal true))
  storage := leftBehind
  issued := [.set (storedForm (InsertionMap.empty.set tabFive (pageSignal true)))]
  returned := []
  last := Function.update (fun _ => none) tabFive (some (some (pageSignal true)))

theorem woken_reachable : (machine onNumbers (fun _ _ => True)).Reachable woken := by
  have hmessage : (machine onNumbers (fun _ _ => True)).Reachable
      ((started .undefined []).step onNumbers (.message (pageMessage false))) :=
    .tail (.start rfl) ⟨.message (pageMessage false), trivial, rfl⟩
  rw [step_pageMessage] at hmessage
  have hread := hmessage.tail ⟨.complete true, trivial, rfl⟩
  have hwritten := hread.tail ⟨.complete true, trivial, rfl⟩
  have hwoken := hwritten.tail ⟨.wake, trivial, rfl⟩
  have hagain := hwoken.tail ⟨.message (pageMessage true), trivial, rfl⟩
  rw [step_pageMessage] at hagain
  have hreturned := hagain.tail ⟨.complete true, trivial, rfl⟩
  exact hreturned.tail ⟨.resume, trivial, rfl⟩

/-- The tab has the focus, and `tabSignals` has its old signal again. -/
theorem hydration_overwrites_newer_signal :
    (machine onNumbers (fun _ _ => True)).Reachable woken ∧
      woken.last tabFive = some (some (pageSignal true)) ∧
      woken.tabSignals.get tabFive = some (pageSignal false) ∧
      pageSignal false ≠ pageSignal true := by
  refine ⟨woken_reachable, last_noted (fun _ => none) tabFive (some (pageSignal true)), ?_, ?_⟩
  · show (hydrate onNumbers leftBehind _).get tabFive = _
    rw [get_hydrate, storedEntry_leftBehind]
    rfl
  · intro heq
    have hfocus : (pageSignal false).value.get "document_has_focus" =
        (pageSignal true).value.get "document_has_focus" := by rw [heq]
    cases hfocus

end BsslRam.Hydration
