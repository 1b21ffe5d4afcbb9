import Mathlib

/-!
# Streams of frames

A stream is a list, and a reader takes a value off its front or fails.  A format is
delimited when a reader finds the end of a frame by itself: it reads a whole frame and leaves
what comes after it alone, and it fails on a frame that is cut off, after it has used up what
there is of it.

* `attempts` runs a list of actions one after the other, past their failures.
* `Yields` says what a reader returns if it is called again and again.
* A delimited format yields the values whose frames were written (`Delimited.yields`).  On a
  stream that is cut off it yields the values whose frames are complete, and nothing else
  (`Delimited.yields_of_cut`).
-/

namespace BsslRam.Lib.Framing

variable {ε σ α β : Type}

/-! ## Actions that may fail -/

theorem bind_ok {γ : Type} {act : EStateM ε σ α} {s s' : σ} {a : α} (h : act s = .ok a s')
    (f : α → EStateM ε σ γ) : (act >>= f) s = f a s' := by
  change EStateM.bind act f s = f a s'
  rw [EStateM.bind, h]

theorem bind_error {γ : Type} {act : EStateM ε σ α} {s s' : σ} {e : ε} (h : act s = .error e s')
    (f : α → EStateM ε σ γ) : (act >>= f) s = .error e s' := by
  change EStateM.bind act f s = .error e s'
  rw [EStateM.bind, h]

/-- The result of an action, and the state it leaves. -/
def outcome (act : EStateM ε σ α) (s : σ) : Except ε α × σ :=
  match act s with
  | .ok a s => (.ok a, s)
  | .error e s => (.error e, s)

/-- The results of the actions, and the state at the end.  A failure stops nothing. -/
def attempts : List (EStateM ε σ α) → σ → List (Except ε α) × σ
  | [], s => ([], s)
  | act :: acts, s =>
      ((outcome act s).1 :: (attempts acts (outcome act s).2).1,
        (attempts acts (outcome act s).2).2)

theorem attempts_cons_ok {act : EStateM ε σ α} {s s' : σ} {a : α} (h : act s = .ok a s')
    (acts : List (EStateM ε σ α)) :
    attempts (act :: acts) s = (.ok a :: (attempts acts s').1, (attempts acts s').2) := by
  rw [attempts, outcome, h]

theorem attempts_cons_error {act : EStateM ε σ α} {s s' : σ} {e : ε} (h : act s = .error e s')
    (acts : List (EStateM ε σ α)) :
    attempts (act :: acts) s = (.error e :: (attempts acts s').1, (attempts acts s').2) := by
  rw [attempts, outcome, h]

/-- The action fails at `s`, and again and again after that. -/
def FailsFrom (act : EStateM ε σ α) (s : σ) : Prop :=
  ∀ n, ∀ r ∈ (attempts (List.replicate n act) s).1, ∃ e, r = .error e

/-- Called again and again from `s`, the action returns the values in order.  It is then in
`s'`, and fails from there on. -/
structure Yields (act : EStateM ε σ α) (s : σ) (values : List α) (s' : σ) : Prop where
  values : attempts (List.replicate values.length act) s = (values.map .ok, s')
  fails : FailsFrom act s'

theorem FailsFrom.of_error {act : EStateM ε σ α} {s s' : σ} {e : ε} (h : act s = .error e s')
    (hfails : FailsFrom act s') : FailsFrom act s := by
  intro n r hr
  cases n with
  | zero => cases hr
  | succ n =>
    rw [List.replicate_succ, attempts_cons_error h] at hr
    rcases List.mem_cons.mp hr with rfl | hr
    · exact ⟨e, rfl⟩
    · exact hfails n r hr

/-- A failure that changes nothing repeats itself. -/
theorem FailsFrom.of_fixed {act : EStateM ε σ α} {s : σ} {e : ε} (h : act s = .error e s) :
    FailsFrom act s := by
  intro n
  induction n with
  | zero => exact fun r hr => by cases hr
  | succ n ih =>
    intro r hr
    rw [List.replicate_succ, attempts_cons_error h] at hr
    rcases List.mem_cons.mp hr with rfl | hr
    · exact ⟨e, rfl⟩
    · exact ih r hr

/-! ## Delimited formats -/

/-- The reader and the frames of the values that have one. -/
structure Delimited (read : EStateM ε (List β) α) (frame : α → List β) (ok : α → Prop) : Prop where
  whole : ∀ a, ok a → ∀ rest, read (frame a ++ rest) = .ok a rest
  cut : ∀ a, ok a → ∀ part missing, frame a = part ++ missing → missing ≠ [] →
    ∃ e, read part = .error e []
  empty : ∃ e, read [] = .error e []

/-- A stream of frames that is cut off is cut off in the middle of a frame, or right before
it. -/
theorem exists_cut (frame : α → List β) {values : List α} {front back : List β}
    (h : values.flatMap frame = front ++ back) (hback : back ≠ []) :
    ∃ k a part missing, values[k]? = some a ∧ front = (values.take k).flatMap frame ++ part ∧
      frame a = part ++ missing ∧ missing ≠ [] := by
  induction values generalizing front with
  | nil =>
    have hnil := congrArg List.length h
    rw [List.flatMap_nil, List.length_nil, List.length_append] at hnil
    exact absurd (List.eq_nil_of_length_eq_zero (by omega)) hback
  | cons a values ih =>
    rw [List.flatMap_cons] at h
    -- the first frame is complete, or the cut is inside it
    have hcases : (∃ rest, front = frame a ++ rest ∧ values.flatMap frame = rest ++ back) ∨
        ∃ missing, missing ≠ [] ∧ frame a = front ++ missing := by
      rcases List.append_eq_append_iff.mp h with ⟨rest, hfront, hrest⟩ | ⟨missing, hframe, hrest⟩
      · exact Or.inl ⟨rest, hfront, hrest⟩
      · by_cases hmissing : missing = []
        · subst hmissing
          exact Or.inl ⟨[], by rw [hframe, List.append_nil, List.append_nil], hrest.symm⟩
        · exact Or.inr ⟨missing, hmissing, hframe⟩
    rcases hcases with ⟨rest, rfl, hrest⟩ | ⟨missing, hmissing, hframe⟩
    · obtain ⟨k, a', part, missing, hk, hfront, hframe, hmissing⟩ := ih hrest
      refine ⟨k + 1, a', part, missing, hk, ?_, hframe, hmissing⟩
      rw [hfront, List.take_succ_cons, List.flatMap_cons, List.append_assoc]
    · exact ⟨0, a, front, missing, rfl, rfl, hframe, hmissing⟩

namespace Delimited

variable {read : EStateM ε (List β) α} {frame : α → List β} {ok : α → Prop}
  (h : Delimited read frame ok)

include h

/-- Whole frames are read one after the other, up to what comes behind them. -/
theorem attempts_frames {values : List α} (hok : ∀ a ∈ values, ok a) (rest : List β) :
    attempts (List.replicate values.length read) (values.flatMap frame ++ rest) =
      (values.map .ok, rest) := by
  induction values with
  | nil => rfl
  | cons a values ih =>
    rw [List.forall_mem_cons] at hok
    rw [List.flatMap_cons, List.append_assoc, List.length_cons, List.replicate_succ,
      attempts_cons_ok (h.whole a hok.1 _), ih hok.2, List.map_cons]

theorem failsFrom_nil : FailsFrom read [] := by
  obtain ⟨e, he⟩ := h.empty
  exact .of_fixed he

/-- What was written is read. -/
theorem yields {values : List α} (hok : ∀ a ∈ values, ok a) :
    Yields read (values.flatMap frame) values [] := by
  refine ⟨?_, h.failsFrom_nil⟩
  have hframes := h.attempts_frames hok []
  rwa [List.append_nil] at hframes

/-- What is left of a stream that was cut off is read as far as its frames are complete. -/
theorem yields_of_cut {values : List α} (hok : ∀ a ∈ values, ok a) {front back : List β}
    (hcut : values.flatMap frame = front ++ back) (hback : back ≠ []) :
    ∃ k a part missing, values[k]? = some a ∧ front = (values.take k).flatMap frame ++ part ∧
      frame a = part ++ missing ∧ missing ≠ [] ∧ Yields read front (values.take k) part := by
  obtain ⟨k, a, part, missing, hk, hfront, hframe, hmissing⟩ := exists_cut frame hcut hback
  obtain ⟨e, he⟩ := h.cut a (hok a (List.mem_of_getElem? hk)) part missing hframe hmissing
  refine ⟨k, a, part, missing, hk, hfront, hframe, hmissing, ?_, .of_error he h.failsFrom_nil⟩
  rw [hfront]
  exact h.attempts_frames (fun a ha => hok a (List.mem_of_mem_take ha)) part

end Delimited

end BsslRam.Lib.Framing
