import BsslRam.MainLoop
import BsslRam.Lib.Machine

/-!
# From a pressure event to an adaptive scan

`daemon/src/psi.rs` and the two ends of it in `daemon/src/main.rs`.  The kernel keeps a
flag behind the PSI trigger: stalls above the threshold set it, and a `poll` that reports
`POLLPRI` clears it.  The thread of `spawn_psi_thread` polls in a loop and turns every
event it sees into `notify_one`, which leaves at most one permit.  The loop of `main`
takes the permit and runs one scan.

A pressure event is a token that moves from the flag to the thread, from the thread to
the permit, and from the permit into a scan.  It may meet another token on the way and
become one with it.  `tokens` counts the three places.

* Nothing is lost: while an event is not followed by a scan that the pressure branch
  started after it, there is a token (`Covered`).
* Nothing is made up: scans and tokens together are no more than the events
  (`Counted`).  When the kernel falls silent, at most three scans of the pressure branch
  follow.
* Only a trigger that the kernel has torn down ends this: the thread reads `POLLERR` together
  with the last event and takes it for an error.

The scans are the passes of `MainLoop`, so `psi_events` counts those that the pressure
branch ran.  How a waiting `notified()` and the permit share one notification is the
business of `tokio::sync::Notify`: a notification that the `select!` drops goes back to
the permit.
-/

namespace BsslRam.PsiWakeup

open BsslRam.Lib BsslRam.ScanCycle BsslRam.ScanHistory BsslRam.MainLoop

/-! ## One poll -/

def POLLPRI : UInt16 := 2

def POLLERR : UInt16 := 8

/-- What `poll(2)` comes back with. -/
inductive PollReturn where
  | failed (interrupted : Bool) (err : String)
  | timedOut
  | ready (revents : UInt16)

/-- `PsiTrigger::poll_event` behind the system call. -/
def pollEvent : PollReturn → Except String Bool
  | .failed interrupted err => if interrupted then .ok false else .error s!"poll PSI fd: {err}"
  | .timedOut => .ok false
  | .ready revents =>
      if revents &&& POLLERR != 0 then
        .error "PSI trigger reported POLLERR (was the trigger force-unregistered?)"
      else .ok (revents &&& POLLPRI != 0)

/-- The call cleared the flag. -/
def PollReturn.takesEvent : PollReturn → Bool
  | .ready revents => revents &&& POLLPRI != 0
  | _ => false

/-! ## The system -/

/-- Where the thread of `spawn_psi_thread` is. -/
inductive Thread where
  | top
  | polling
  | notifying
  | backoff
  | exited
  deriving DecidableEq, Repr

/-- The match on the result of `poll_event`. -/
def Thread.afterPoll : Except String Bool → Thread
  | .ok true => .notifying
  | .ok false => .top
  | .error _ => .backoff

/-- The loop of `main`, the thread, what they share, and the trigger in the kernel.  The
last five fields are notes: the events so far, the events when the pressure branch last
ran, its scans, those since the last event, and the polls that returned after the
shutdown. -/
structure State where
  loop : LoopState := {}
  stopped : Bool := false
  shutdown : Bool := false
  permit : Bool := false
  thread : Thread := .top
  event : Bool := false
  unregistered : Bool := false
  raised : Nat := 0
  covered : Nat := 0
  psiScans : Nat := 0
  sinceRaised : Nat := 0
  latePolls : Nat := 0

/-- What the kernel may answer.  A poll that runs out of time has seen no event, and a
trigger that was torn down reports `POLLERR` at once. -/
def Answers (s : State) : PollReturn → Prop
  | .failed _ _ => True
  | .timedOut => s.event = false ∧ s.unregistered = false
  | .ready revents => (revents &&& POLLERR != 0) = s.unregistered ∧
      ((revents &&& POLLPRI != 0) = true → s.event = true ∨ s.unregistered = true)

inductive Step (config : Config) (hasTable : Bool) : State → State → Prop where
  | raise (s : State) (hlive : s.unregistered = false) :
      Step config hasTable s
        { s with event := true, raised := s.raised + 1, sinceRaised := 0 }
  | unregister (s : State) : Step config hasTable s { s with unregistered := true }
  | enter (s : State) (hthread : s.thread = .top) :
      Step config hasTable s { s with thread := if s.shutdown then .exited else .polling }
  | poll (s : State) (ret : PollReturn) (hthread : s.thread = .polling) (hret : Answers s ret) :
      Step config hasTable s
        { s with
          thread := .afterPoll (pollEvent ret)
          event := s.event && !ret.takesEvent
          latePolls := if s.shutdown then s.latePolls + 1 else s.latePolls }
  | notify (s : State) (hthread : s.thread = .notifying) :
      Step config hasTable s { s with permit := true, thread := .top }
  | retry (s : State) (hthread : s.thread = .backoff) :
      Step config hasTable s { s with thread := .top }
  | timer (s : State) (pass : Pass config) (hrun : s.stopped = false)
      (htrigger : pass.wake.trigger = .timer) :
      Step config hasTable s { s with loop := (s.loop.pass hasTable pass).state }
  | pressure (s : State) (pass : Pass config) (hrun : s.stopped = false)
      (htrigger : pass.wake.trigger = .psiPressure) (hpermit : s.permit = true) :
      Step config hasTable s
        { s with
          loop := (s.loop.pass hasTable pass).state
          permit := false
          covered := s.raised
          psiScans := s.psiScans + 1
          sinceRaised := s.sinceRaised + 1 }
  | signal (s : State) (hrun : s.stopped = false) :
      Step config hasTable s { s with stopped := true, shutdown := true }

def machine (config : Config) (hasTable : Bool) : Machine State where
  init s := s = {}
  step := Step config hasTable

/-! ## Tokens -/

/-- The events on their way to a scan. -/
def tokens (s : State) : Nat :=
  s.event.toNat + (decide (s.thread = .notifying)).toNat + s.permit.toNat

theorem tokens_le (s : State) : tokens s ≤ 3 := by
  unfold tokens
  have hevent := Bool.toNat_le s.event
  have hthread := Bool.toNat_le (decide (s.thread = .notifying))
  have hpermit := Bool.toNat_le s.permit
  omega

/-- A poll on a registered trigger hands the event from the flag to the thread. -/
theorem poll_registered {s : State} {ret : PollReturn} (hret : Answers s ret)
    (hlive : s.unregistered = false) :
    (ret.takesEvent = true ∧ s.event = true ∧ Thread.afterPoll (pollEvent ret) = .notifying) ∨
      ret.takesEvent = false ∧ Thread.afterPoll (pollEvent ret) ≠ .notifying := by
  cases ret with
  | failed interrupted err =>
    right
    cases interrupted <;> simp [PollReturn.takesEvent, pollEvent, Thread.afterPoll]
  | timedOut => exact Or.inr ⟨rfl, Thread.noConfusion⟩
  | ready revents =>
    obtain ⟨herr, hpri⟩ := hret
    rw [hlive] at herr hpri
    cases hcase : (revents &&& POLLPRI != 0) with
    | true =>
      refine Or.inl ⟨hcase, (hpri hcase).resolve_right Bool.noConfusion, ?_⟩
      simp only [pollEvent, herr, hcase, Bool.false_eq_true, if_false, Thread.afterPoll]
    | false =>
      refine Or.inr ⟨hcase, ?_⟩
      simp only [pollEvent, herr, hcase, Bool.false_eq_true, if_false, Thread.afterPoll]
      exact Thread.noConfusion

/-- On a trigger that was torn down the thread sees no event. -/
theorem poll_unregistered {s : State} {ret : PollReturn} (hret : Answers s ret)
    (hdead : s.unregistered = true) : Thread.afterPoll (pollEvent ret) ≠ .notifying := by
  cases ret with
  | failed interrupted err => cases interrupted <;> simp [pollEvent, Thread.afterPoll]
  | timedOut => exact Thread.noConfusion
  | ready revents =>
    obtain ⟨herr, -⟩ := hret
    rw [hdead] at herr
    simp only [pollEvent, herr, if_true, Thread.afterPoll]
    exact Thread.noConfusion

/-- A poll makes no token. -/
theorem tokens_poll_le {s : State} {ret : PollReturn} (hthread : s.thread = .polling)
    (hret : Answers s ret) (late : Nat) :
    tokens { s with
      thread := .afterPoll (pollEvent ret)
      event := s.event && !ret.takesEvent
      latePolls := late } ≤ tokens s := by
  unfold tokens
  rw [hthread]
  cases hlive : s.unregistered with
  | true =>
    have hnot := poll_unregistered hret hlive
    cases s.event <;> cases ret.takesEvent <;> simp [hnot]
  | false =>
    rcases poll_registered hret hlive with ⟨htakes, hevent, hnext⟩ | ⟨htakes, hnext⟩
    · simp [htakes, hevent, hnext]
    · simp [htakes, hnext]

/-- And on a registered trigger it loses none. -/
theorem tokens_poll_eq {s : State} {ret : PollReturn} (hthread : s.thread = .polling)
    (hret : Answers s ret) (hlive : s.unregistered = false) (late : Nat) :
    tokens { s with
      thread := .afterPoll (pollEvent ret)
      event := s.event && !ret.takesEvent
      latePolls := late } = tokens s := by
  unfold tokens
  rw [hthread]
  rcases poll_registered hret hlive with ⟨htakes, hevent, hnext⟩ | ⟨htakes, hnext⟩
  · simp [htakes, hevent, hnext]
  · simp [htakes, hnext]

/-! ## The invariants -/

/-- An event that no scan of the pressure branch has followed is still on its way, unless
the trigger is gone. -/
def Covered (s : State) : Prop :=
  s.covered < s.raised → 0 < tokens s ∨ s.unregistered = true

/-- Scans and tokens against the events. -/
structure Counted (s : State) : Prop where
  all : s.psiScans + tokens s ≤ s.raised
  since : s.sinceRaised + tokens s ≤ 3
  covered : s.covered ≤ s.raised

/-- The thread sees the shutdown after one more poll. -/
structure Leaves (s : State) : Prop where
  late : s.latePolls ≤ 1
  done : s.latePolls = 1 → s.shutdown = true ∧ s.thread ≠ .polling

section Invariants

variable {config : Config} {hasTable : Bool} {s s' : State}

theorem covered_step (h : Covered s) (hstep : Step config hasTable s s') : Covered s' := by
  cases hstep with
  | raise hlive =>
    intro _
    left
    show 0 < tokens { s with event := true, raised := s.raised + 1, sinceRaised := 0 }
    simp only [tokens, Bool.toNat_true]
    omega
  | unregister => exact fun _ => Or.inr rfl
  | enter hthread =>
    intro hlt
    rcases h hlt with htoken | hgone
    · left
      unfold tokens at htoken ⊢
      cases hdown : s.shutdown <;> simpa [hthread, hdown] using htoken
    · exact Or.inr hgone
  | poll ret hthread hret =>
    intro hlt
    rcases h hlt with htoken | hgone
    · by_cases hgone : s.unregistered = true
      · exact Or.inr hgone
      · left
        rw [tokens_poll_eq hthread hret (Bool.eq_false_of_not_eq_true hgone)]
        exact htoken
    · exact Or.inr hgone
  | notify hthread =>
    intro _
    left
    simp only [tokens, Bool.toNat_true]
    omega
  | retry hthread =>
    intro hlt
    rcases h hlt with htoken | hgone
    · left
      unfold tokens at htoken ⊢
      simpa [hthread] using htoken
    · exact Or.inr hgone
  | timer pass hrun htrigger => exact h
  | pressure pass hrun htrigger hpermit => exact fun hlt => absurd hlt (Nat.lt_irrefl _)
  | signal hrun => exact h

theorem counted_step (h : Counted s) (hstep : Step config hasTable s s') : Counted s' := by
  have hall := h.all
  have hsince := h.since
  cases hstep with
  | raise hlive =>
    have hle := tokens_le { s with event := true, raised := s.raised + 1, sinceRaised := 0 }
    refine ⟨?_, ?_, Nat.le_succ_of_le h.covered⟩
    · have hevent := Bool.toNat_le s.event
      simp only [tokens, Bool.toNat_true] at hall ⊢
      omega
    · simpa using hle
  | unregister => exact ⟨hall, hsince, h.covered⟩
  | enter hthread =>
    have heq : tokens { s with thread := if s.shutdown then .exited else .polling } = tokens s := by
      unfold tokens
      cases hdown : s.shutdown <;> simp [hthread]
    exact ⟨by rw [heq]; exact hall, by rw [heq]; exact hsince, h.covered⟩
  | poll ret hthread hret =>
    have hle := tokens_poll_le hthread hret
      (if s.shutdown then s.latePolls + 1 else s.latePolls)
    exact ⟨Nat.le_trans (Nat.add_le_add_left hle _) hall,
      Nat.le_trans (Nat.add_le_add_left hle _) hsince, h.covered⟩
  | notify hthread =>
    -- the token of the thread goes to the permit, or becomes one with the token there
    have hle : tokens { s with permit := true, thread := .top } ≤ tokens s := by
      unfold tokens
      cases s.permit <;> simp [hthread]
    exact ⟨Nat.le_trans (Nat.add_le_add_left hle _) hall,
      Nat.le_trans (Nat.add_le_add_left hle _) hsince, h.covered⟩
  | retry hthread =>
    have heq : tokens { s with thread := .top } = tokens s := by
      unfold tokens
      simp [hthread]
    exact ⟨by rw [heq]; exact hall, by rw [heq]; exact hsince, h.covered⟩
  | timer pass hrun htrigger => exact ⟨hall, hsince, h.covered⟩
  | pressure pass hrun htrigger hpermit =>
    simp only [tokens, hpermit, Bool.toNat_true] at hall hsince
    refine ⟨?_, ?_, Nat.le_refl _⟩
    · simp only [tokens, Bool.toNat_false]
      omega
    · simp only [tokens, Bool.toNat_false]
      omega
  | signal hrun => exact ⟨hall, hsince, h.covered⟩

theorem leaves_step (h : Leaves s) (hstep : Step config hasTable s s') : Leaves s' := by
  cases hstep with
  | enter hthread =>
    refine ⟨h.late, fun hone => ?_⟩
    obtain ⟨hdown, -⟩ := h.done hone
    refine ⟨hdown, ?_⟩
    simp only [hdown, if_true]
    exact Thread.noConfusion
  | poll ret hthread hret =>
    have hzero : s.latePolls = 0 := by
      have hlate := h.late
      by_contra hne
      exact (h.done (by omega)).2 hthread
    have hnot : Thread.afterPoll (pollEvent ret) ≠ .polling := by
      cases pollEvent ret with
      | error err => exact Thread.noConfusion
      | ok fired => cases fired <;> exact Thread.noConfusion
    refine ⟨?_, fun hone => ?_⟩
    · simp only [hzero]
      split <;> omega
    · simp only [hzero] at hone
      split at hone
      · rename_i hdown
        exact ⟨hdown, hnot⟩
      · cases hone
  | notify hthread => exact ⟨h.late, fun hone => ⟨(h.done hone).1, Thread.noConfusion⟩⟩
  | retry hthread => exact ⟨h.late, fun hone => ⟨(h.done hone).1, Thread.noConfusion⟩⟩
  | signal hrun => exact ⟨h.late, fun hone => ⟨rfl, (h.done hone).2⟩⟩
  | raise hlive => exact ⟨h.late, h.done⟩
  | unregister => exact ⟨h.late, h.done⟩
  | timer pass hrun htrigger => exact ⟨h.late, h.done⟩
  | pressure pass hrun htrigger hpermit => exact ⟨h.late, h.done⟩

end Invariants

/-! ## The counter -/

theorem psiEvents_record (stats : Stats) (a : Action) :
    (stats.record a).psiEvents = stats.psiEvents := by
  cases a with
  | _ => rfl

theorem psiEvents_foldl (log : List (Scanner.TargetProcess × Action)) (stats : Stats) :
    (log.foldl (fun stats entry => stats.record entry.2) stats).psiEvents = stats.psiEvents := by
  induction log generalizing stats with
  | nil => rfl
  | cons entry rest ih => rw [List.foldl_cons, ih, psiEvents_record]

/-- A scan leaves `psi_events` to the loop. -/
theorem psiEvents_pass {config : Config} (hasTable : Bool) (loop : LoopState) (pass : Pass config) :
    (loop.pass hasTable pass).state.run.stats.psiEvents =
      (countEvent pass.wake.trigger loop.run.stats).psiEvents :=
  psiEvents_foldl _ _

theorem psiEvents_step {config : Config} {hasTable : Bool} {s s' : State}
    (h : s.loop.run.stats.psiEvents = UInt64.ofNat s.psiScans)
    (hstep : Step config hasTable s s') :
    s'.loop.run.stats.psiEvents = UInt64.ofNat s'.psiScans := by
  cases hstep with
  | timer pass hrun htrigger =>
    show (s.loop.pass hasTable pass).state.run.stats.psiEvents = _
    rw [psiEvents_pass, htrigger]
    exact h
  | pressure pass hrun htrigger hpermit =>
    show (s.loop.pass hasTable pass).state.run.stats.psiEvents = UInt64.ofNat (s.psiScans + 1)
    rw [psiEvents_pass, htrigger, UInt64.ofNat_add, ← h]
    rfl
  | _ => exact h

/-! ## Results -/

/-- A token is in one of its three places. -/
theorem place_of_tokens {s : State} (h : 0 < tokens s) :
    s.event = true ∨ s.thread = .notifying ∨ s.permit = true := by
  by_contra hnone
  rw [not_or, not_or, Bool.not_eq_true, Bool.not_eq_true] at hnone
  obtain ⟨hevent, hthread, hpermit⟩ := hnone
  simp [tokens, hevent, hthread, hpermit] at h

/-- In every interleaving of the kernel, the PSI thread and the loop of `main`: a pressure
event is followed by a scan of the pressure branch that starts after it, or it is still
in the flag, with the thread or in the permit, unless the trigger was torn down.  There are
no more such scans than events, and at most three since the last event.  `psi_events` is
their number modulo `2 ^ 64`.  After the shutdown the thread returns from at most one
poll. -/
theorem pressure_accounted (config : Config) (hasTable : Bool) (s : State)
    (hs : (machine config hasTable).Reachable s) :
    (s.covered = s.raised ∨ (s.event = true ∨ s.thread = .notifying ∨ s.permit = true) ∨
      s.unregistered = true) ∧
    s.psiScans ≤ s.raised ∧ s.sinceRaised ≤ 3 ∧
    s.loop.run.stats.psiEvents = UInt64.ofNat s.psiScans ∧ s.latePolls ≤ 1 := by
  have hcovered : Covered s := by
    refine hs.invariant Covered ?_ (fun _ _ _ h hstep => covered_step h hstep)
    rintro s rfl hlt
    exact absurd hlt (Nat.lt_irrefl 0)
  have hcounted : Counted s := by
    refine hs.invariant Counted ?_ (fun _ _ _ h hstep => counted_step h hstep)
    rintro s rfl
    exact ⟨Nat.le_refl 0, Nat.zero_le 3, Nat.le_refl 0⟩
  have hleaves : Leaves s := by
    refine hs.invariant Leaves ?_ (fun _ _ _ h hstep => leaves_step h hstep)
    rintro s rfl
    exact ⟨Nat.zero_le 1, fun hone => absurd hone (by decide)⟩
  have hevents : s.loop.run.stats.psiEvents = UInt64.ofNat s.psiScans := by
    refine hs.invariant (fun s => s.loop.run.stats.psiEvents = UInt64.ofNat s.psiScans) ?_
      (fun _ _ _ h hstep => psiEvents_step h hstep)
    rintro s rfl
    rfl
  refine ⟨?_, Nat.le_trans (Nat.le_add_right _ _) hcounted.all,
    Nat.le_trans (Nat.le_add_right _ _) hcounted.since, hevents, hleaves.late⟩
  rcases Nat.lt_or_ge s.covered s.raised with hlt | hge
  · rcases hcovered hlt with htoken | hgone
    · exact Or.inr (Or.inl (place_of_tokens htoken))
    · exact Or.inr (Or.inr hgone)
  · exact Or.inl (Nat.le_antisymm hcounted.covered hge)

/-- An event, and the scan that follows it. -/
theorem pressure_accounted_one_event :
    ∃ s, (machine {} false).Reachable s ∧ s.raised = 1 ∧ s.covered = 1 ∧
      s.loop.run.stats.psiEvents = 1 := by
  have h₀ : (machine {} false).Reachable {} := .start rfl
  have h₁ := h₀.tail (.raise _ rfl)
  have h₂ := h₁.tail (.enter _ rfl)
  have h₃ := h₂.tail (.poll _ (.ready POLLPRI) rfl ⟨by decide, fun _ => Or.inl rfl⟩)
  have h₄ := h₃.tail (.notify _ (by decide))
  have h₅ := h₄.tail (.pressure _ ⟨⟨.psiPressure, 0, Nat.zero_le _⟩, emptyCycle⟩ rfl rfl rfl)
  exact ⟨_, h₅, rfl, rfl, (pressure_accounted {} false _ h₅).2.2.2.1⟩

end BsslRam.PsiWakeup
