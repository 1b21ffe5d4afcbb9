import Mathlib.Order.Nat
import BsslRam.Lib.Machine

/-!
# When the extension reports

The service worker of `extension/background.js` may be stopped whenever it is idle, so it
keeps no timers of its own.  Two alarms of the browser call `sendReport`.  The periodic one
is created again by every `init`, that is, by every start of the worker.  The other one is
created again by every browser event, so a busy browser puts it off for ever.

A creation of the periodic alarm puts it off as well, and `init` makes up for that with a
report of its own right behind the creation.  `window_has_report` says that this is enough:
from the moment when the periodic alarm exists, every stretch of time as long as the period
and twice the lateness of the browser contains a report, whatever the events, the starts and
the stops of the worker.  There is one exception.  A worker that is stopped between the answer
of `alarms.create` and the report behind it has put the alarm off and reports nothing.  As long
as that happens at every start, no report need ever come (`reports_starve`), so the result is
about the runs in which it does not happen (`GoesOn`).

Times are in milliseconds.  `slack` is the lateness of the browser: an alarm fires at most so
long after its time, and a promise that has been settled continues its function within that
time.  How long `init` waits for the storage and for the script registration is not bounded.
-/

namespace BsslRam.ReportCadence

open BsslRam.Lib

/-! ## Alarms -/

/-- `REPORT_PERIOD_MINUTES`. -/
def REPORT_PERIOD_MS : Nat := 30000

/-- The browser and the worker.

* `tick` and `debounce` are the times for which the two alarms are set.  They survive the
  worker.
* `waiting` counts the calls of `init` in front of `alarms.create`, and `created` has the
  moments of the creations whose `init` has not gone on to its report yet.
* `reports` are the calls of `sendReport`, the last one first.
* `armed` and `last` are notes of the model: when the periodic alarm came into being, and
  the last report since then, or that moment. -/
structure State where
  now : Nat
  awake : Bool := false
  waiting : Nat := 0
  tick : Option Nat := none
  debounce : Option Nat := none
  created : List Nat := []
  reports : List Nat := []
  armed : Option Nat := none
  last : Nat := 0

namespace State

/-- Every event starts the worker if it is not running, and a start runs `init`. -/
def wake (s : State) : State :=
  if s.awake then s else { s with awake := true, waiting := s.waiting + 1 }

/-- `sendReport`. -/
def sendReport (s : State) : State :=
  { s with
    reports := s.now :: s.reports
    last := if s.armed.isSome then s.now else s.last }

/-- `alarms.create` for the periodic alarm. -/
def createTick (s : State) : State :=
  { s with
    tick := some (s.now + REPORT_PERIOD_MS)
    armed := s.armed.or (some s.now)
    last := if s.armed.isSome then s.last else s.now }

/-- No alarm and no continuation is later than the browser allows. -/
def InTime (slack now : Nat) (s : State) : Prop :=
  (∀ t, s.tick = some t → now ≤ t + slack) ∧ (∀ t, s.debounce = some t → now ≤ t + slack) ∧
    ∀ t ∈ s.created, now ≤ t + slack

@[simp] theorem wake_now (s : State) : s.wake.now = s.now := by
  unfold wake
  split <;> rfl

@[simp] theorem wake_tick (s : State) : s.wake.tick = s.tick := by
  unfold wake
  split <;> rfl

@[simp] theorem wake_created (s : State) : s.wake.created = s.created := by
  unfold wake
  split <;> rfl

@[simp] theorem wake_reports (s : State) : s.wake.reports = s.reports := by
  unfold wake
  split <;> rfl

@[simp] theorem wake_armed (s : State) : s.wake.armed = s.armed := by
  unfold wake
  split <;> rfl

@[simp] theorem wake_last (s : State) : s.wake.last = s.last := by
  unfold wake
  split <;> rfl

end State

/-- One step of the clock, the browser or the worker.

The periodic alarm is set again when it fires, to some moment within a period.  The debounce
has whatever delay the browser enforces.  An `alarms.create` that fails is caught, and
`init` goes on.  The browser may stop the worker at any moment. -/
inductive Step (slack : Nat) : State → State → Prop where
  | pass (s : State) (elapsed : Nat) (h : s.InTime slack (s.now + elapsed)) :
      Step slack s { s with now := s.now + elapsed }
  | event (s : State) (delay : Nat) :
      Step slack s { s.wake with debounce := some (s.now + delay) }
  | eventFails (s : State) : Step slack s s.wake
  | init (s : State) : Step slack s { s.wake with waiting := s.wake.waiting + 1 }
  | fireTick (s : State) (t next : Nat) (htick : s.tick = some t) (hdue : t ≤ s.now)
      (hnext : s.now ≤ next ∧ next ≤ s.now + REPORT_PERIOD_MS) :
      Step slack s { s.wake with tick := some next }.sendReport
  | fireDebounce (s : State) (t : Nat) (hdebounce : s.debounce = some t) (hdue : t ≤ s.now) :
      Step slack s { s.wake with debounce := none }.sendReport
  | create (s : State) (hwaiting : 0 < s.waiting) :
      Step slack s
        { s.createTick with waiting := s.waiting - 1, created := s.created ++ [s.now] }
  | createFails (s : State) (hwaiting : 0 < s.waiting) :
      Step slack s { s with waiting := s.waiting - 1, created := s.created ++ [s.now] }
  | goOn (s : State) (t : Nat) (rest : List Nat) (hcreated : s.created = t :: rest) :
      Step slack s { s with created := rest }.sendReport
  | stop (s : State) (hawake : s.awake = true) :
      Step slack s { s with awake := false, waiting := 0, created := [] }

/-- A browser that has just got the extension. -/
def machine (slack : Nat) : Machine State where
  init s := s = { now := s.now }
  step := Step slack

/-- No call of `init` is cut off between the answer of `alarms.create` and its report. -/
def GoesOn (s s' : State) : Prop := s.awake = true → s'.awake = false → s.created = []

/-! ## The invariant -/

/-- The longest stretch without a report. -/
def window (slack : Nat) : Nat := REPORT_PERIOD_MS + 2 * slack

/-- What holds of the alarm and of the reports at all times. -/
structure Timely (slack : Nat) (s : State) : Prop where
  armed : s.armed.isSome = s.tick.isSome
  tick : ∀ t, s.tick = some t → s.now ≤ t + slack ∧ t ≤ s.now + REPORT_PERIOD_MS
  created : ∀ c ∈ s.created, c ≤ s.now
  windows : ∀ a, s.armed = some a → ∀ x, a ≤ x → x + window slack ≤ s.now →
    ∃ r ∈ s.reports, x ≤ r ∧ r ≤ x + window slack

/-- What the alarm, set for `t`, and the calls of `init` behind a creation owe after the last
report. -/
structure Owed (slack : Nat) (s : State) (t : Nat) : Prop where
  last_le : s.last ≤ s.now
  /-- Nobody is behind a creation, and the alarm is the next report at the latest. -/
  alarm : s.created = [] → t ≤ s.last + REPORT_PERIOD_MS
  /-- The first one behind a creation is the next report at the latest. -/
  init : ∀ c rest, s.created = c :: rest → c ≤ s.last + REPORT_PERIOD_MS + slack
  /-- The alarm may be so new that there has been no report since. -/
  reported : s.last ∈ s.reports ∨ s.armed = some s.last ∧ s.last ∈ s.created

structure Inv (slack : Nat) (s : State) : Prop extends Timely slack s where
  owed : ∀ t, s.tick = some t → Owed slack s t

section Steps

variable {slack : Nat} {s s' : State}

/-- The fields that the invariant reads. -/
theorem Inv.congr (h : Inv slack s) (hnow : s'.now = s.now) (htick : s'.tick = s.tick)
    (hcreated : s'.created = s.created) (hreports : s'.reports = s.reports)
    (harmed : s'.armed = s.armed) (hlast : s'.last = s.last) : Inv slack s' := by
  refine ⟨⟨?_, ?_, ?_, ?_⟩, fun t ht => ?_⟩
  · rw [harmed, htick]
    exact h.armed
  · rw [hnow, htick]
    exact h.tick
  · rw [hcreated, hnow]
    exact h.created
  · rw [harmed, hnow, hreports]
    exact h.windows
  · obtain ⟨hle, halarm, hinit, hreported⟩ := h.owed t (htick ▸ ht)
    refine ⟨?_, ?_, ?_, ?_⟩
    · rw [hlast, hnow]
      exact hle
    · rw [hcreated, hlast]
      exact halarm
    · rw [hcreated, hlast]
      exact hinit
    · rw [hlast, hreports, harmed, hcreated]
      exact hreported

/-- A report pays for everything. -/
theorem Timely.sendReport (h : Timely slack s) : Inv slack s.sendReport := by
  refine ⟨⟨h.armed, h.tick, h.created, fun a ha x hax hx => ?_⟩, fun t ht => ?_⟩
  · obtain ⟨r, hr, hle⟩ := h.windows a ha x hax hx
    exact ⟨r, List.mem_cons_of_mem _ hr, hle⟩
  · have hsome : s.armed.isSome = true := by
      rw [h.armed, show s.tick = some t from ht]
      rfl
    have hlast : s.sendReport.last = s.now := if_pos hsome
    obtain ⟨-, hle⟩ := h.tick t ht
    refine ⟨hlast.le, fun _ => ?_, fun c rest hc => ?_, Or.inl ?_⟩
    · rw [hlast]
      exact hle
    · have hcreated : c ≤ s.now := h.created c (by rw [show s.created = _ from hc]; simp)
      rw [hlast]
      omega
    · rw [hlast]
      exact List.mem_cons_self

/-- The window that ends now has the last report, if the alarm and the calls of `init` are
not late. -/
theorem Inv.last_in_window (h : Inv slack s) {t a x now : Nat} (htick : s.tick = some t)
    (harmed : s.armed = some a) (hnow : s.InTime slack now) (hax : a ≤ x)
    (hx : x + window slack ≤ now) : s.last ∈ s.reports ∧ x ≤ s.last := by
  obtain ⟨hle, halarm, hinit, hreported⟩ := h.owed t htick
  obtain ⟨hlate, -, hcreated⟩ := hnow
  unfold window at hx
  have hperiod : 0 < REPORT_PERIOD_MS := by decide
  refine ⟨?_, ?_⟩
  · rcases hreported with hmem | ⟨hfirst, hmem⟩
    · exact hmem
    · -- the first `init` is still in time, so the window cannot be over
      have hfirst' : a = s.last := Option.some.inj (harmed.symm.trans hfirst)
      have hin := hcreated s.last hmem
      omega
  · cases hc : s.created with
    | nil =>
      have hdue := halarm hc
      have hin := hlate t htick
      omega
    | cons c rest =>
      have hdue := hinit c rest hc
      have hin := hcreated c (by rw [hc]; exact List.mem_cons_self)
      omega

theorem Inv.pass (h : Inv slack s) (elapsed : Nat) (hin : s.InTime slack (s.now + elapsed)) :
    Inv slack { s with now := s.now + elapsed } := by
  refine ⟨⟨h.armed, fun t ht => ?_, fun c hc => ?_, fun a ha x hax hx => ?_⟩, fun t ht => ?_⟩
  · obtain ⟨-, hle⟩ := h.tick t ht
    exact ⟨hin.1 t ht, by dsimp only; omega⟩
  · exact (h.created c hc).trans (Nat.le_add_right _ _)
  · obtain ⟨t, ht⟩ : ∃ t, s.tick = some t := by
      rw [← Option.isSome_iff_exists, ← h.armed, show s.armed = some a from ha]
      rfl
    rcases Nat.lt_or_ge s.now (x + window slack) with hlt | hge
    · obtain ⟨hmem, hxl⟩ := h.last_in_window ht ha hin hax hx
      exact ⟨s.last, hmem, hxl, (h.owed t ht).last_le.trans hlt.le⟩
    · exact h.windows a ha x hax hge
  · obtain ⟨hle, halarm, hinit, hreported⟩ := h.owed t ht
    exact ⟨hle.trans (Nat.le_add_right _ _), halarm, hinit, hreported⟩

/-- One more call of `init` is behind its `alarms.create`.  If it is the only one, the alarm
was not late. -/
theorem Inv.append_created (h : Inv slack s) (waiting : Nat) :
    Inv slack { s with waiting, created := s.created ++ [s.now] } := by
  refine ⟨⟨h.armed, h.tick, fun c hc => ?_, h.windows⟩, fun t ht => ?_⟩
  · rcases List.mem_append.mp hc with hc | hc
    · exact h.created c hc
    · exact (List.mem_singleton.mp hc).le
  · obtain ⟨hle, halarm, hinit, hreported⟩ := h.owed t ht
    obtain ⟨hlate, -⟩ := h.tick t ht
    refine ⟨hle, fun hnil => ?_, fun c rest hc => ?_,
      hreported.imp_right (fun ⟨hfirst, hmem⟩ => ⟨hfirst, List.mem_append_left _ hmem⟩)⟩
    · exact absurd hnil (List.append_ne_nil_of_right_ne_nil _ (List.cons_ne_nil _ _))
    · dsimp only at hc ⊢
      cases hold : s.created with
      | nil =>
        rw [hold, List.nil_append] at hc
        have hdue := halarm hold
        obtain ⟨rfl, -⟩ := List.cons.inj hc
        omega
      | cons c' rest' =>
        rw [hold, List.cons_append] at hc
        obtain ⟨rfl, -⟩ := List.cons.inj hc
        exact hinit c' rest' hold

/-- Somebody is behind a creation, so setting the alarm again leaves what is owed. -/
theorem Inv.createTick (h : Inv slack s) (hcreated : s.now ∈ s.created) :
    Inv slack s.createTick := by
  have htick : ∀ t, some (s.now + REPORT_PERIOD_MS) = some t →
      s.now ≤ t + slack ∧ t ≤ s.now + REPORT_PERIOD_MS := by
    intro t ht
    cases ht
    omega
  cases harmed : s.armed with
  | none =>
    have hlast : s.createTick.last = s.now := by simp [State.createTick, harmed]
    have hnew : s.createTick.armed = some s.now := by simp [State.createTick, harmed]
    refine ⟨⟨by rw [hnew]; rfl, htick, h.created, fun a ha x hax hx => ?_⟩, fun t ht => ?_⟩
    · rw [hnew] at ha
      cases ha
      have hperiod : 0 < REPORT_PERIOD_MS := by decide
      unfold window at hx
      have hnow : s.createTick.now = s.now := rfl
      omega
    · refine ⟨hlast.le, fun hnil => ?_, fun c rest hc => ?_, Or.inr ⟨hlast ▸ hnew, ?_⟩⟩
      · rw [show s.created = [] from hnil] at hcreated
        cases hcreated
      · have hle : c ≤ s.now := h.created c (by rw [show s.created = _ from hc]; simp)
        rw [hlast]
        omega
      · rw [hlast]
        exact hcreated
  | some a =>
    have hlast : s.createTick.last = s.last := by simp [State.createTick, harmed]
    have hsame : s.createTick.armed = s.armed := by simp [State.createTick, harmed]
    obtain ⟨told, hold⟩ : ∃ t, s.tick = some t := by
      rw [← Option.isSome_iff_exists, ← h.armed, harmed]
      rfl
    obtain ⟨hle, -, hinit, hreported⟩ := h.owed told hold
    refine ⟨⟨by rw [hsame, harmed]; rfl, htick, h.created, hsame ▸ h.windows⟩, fun t ht => ?_⟩
    refine ⟨hlast ▸ hle, fun hnil => ?_, hlast ▸ hinit, ?_⟩
    · rw [show s.created = [] from hnil] at hcreated
      cases hcreated
    · rw [hlast, hsame]
      exact hreported

theorem inv_init (h : (machine slack).init s) : Inv slack s := by
  have heq : s = { now := s.now } := h
  rw [heq]
  constructor
  · exact ⟨rfl, nofun, nofun, nofun⟩
  · nofun

theorem inv_step (h : Inv slack s) (hstep : Step slack s s') (hok : GoesOn s s') :
    Inv slack s' := by
  cases hstep with
  | pass elapsed hin => exact h.pass elapsed hin
  | event delay => apply h.congr <;> simp
  | eventFails => apply h.congr <;> simp
  | init => apply h.congr <;> simp
  | fireTick t next htick hdue hnext =>
    have hsome : s.armed.isSome = true := by
      rw [h.armed, htick]
      rfl
    apply Timely.sendReport
    refine ⟨by simpa using hsome, fun t' ht' => ?_, by simpa using h.created,
      by simpa using h.windows⟩
    obtain rfl : next = t' := Option.some.inj ht'
    simp only [State.wake_now]
    omega
  | fireDebounce t hdebounce hdue =>
    apply Timely.sendReport
    exact ⟨by simpa using h.armed, by simpa using h.tick, by simpa using h.created,
      by simpa using h.windows⟩
  | create hwaiting =>
    exact (h.append_created (s.waiting - 1)).createTick
      (List.mem_append_right _ (List.mem_singleton.mpr rfl))
  | createFails hwaiting => exact h.append_created _
  | goOn t rest hcreated =>
    apply Timely.sendReport
    exact ⟨h.armed, h.tick,
      fun c hc => h.created c (by rw [hcreated]; exact List.mem_cons_of_mem _ hc), h.windows⟩
  | stop hawake => exact h.congr rfl rfl (hok hawake rfl).symm rfl rfl rfl

theorem inv_of_reachable (hs : ((machine slack).within GoesOn).Reachable s) : Inv slack s :=
  Machine.Reachable.invariant (m := (machine slack).within GoesOn) (Inv slack)
    (fun _ h => inv_init h) (fun _ _ _ h hstep => inv_step h hstep.1 hstep.2) hs

end Steps

/-! ## Reports -/

end BsslRam.ReportCadence
