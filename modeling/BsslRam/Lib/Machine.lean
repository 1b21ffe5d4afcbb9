import Mathlib.Logic.Relation

/-!
# Transition systems

A machine is a set of initial states and a step relation.  Its reachable states
are the ones that matter, and an invariant is shown by two small goals, one for
the initial states and one for a step.

`within` keeps only the steps that meet a side condition.  A result about every
run whose steps meet the condition is an invariant of the restricted machine.
`labelled` does the same for a step relation with labels, where the condition
reads the label and the state before the step.

`Reachable.refines` is for two levels of one design: a map from the states of one
machine to those of another takes every step to a step or to none.  `Reachable.lift` goes
the other way, from a run of one part to a run of the whole.
-/

namespace BsslRam.Lib

structure Machine (σ : Type*) where
  init : σ → Prop
  step : σ → σ → Prop

namespace Machine

variable {σ : Type*} {m : Machine σ}

inductive Reachable (m : Machine σ) : σ → Prop where
  | start {s : σ} (h : m.init s) : Reachable m s
  | tail {s s' : σ} (h : Reachable m s) (hstep : m.step s s') : Reachable m s'

/-- An invariant: it holds initially, and a step from a reachable state keeps it. -/
theorem Reachable.invariant (inv : σ → Prop) (hinit : ∀ s, m.init s → inv s)
    (hstep : ∀ s s', m.Reachable s → inv s → m.step s s' → inv s') {s : σ}
    (hs : m.Reachable s) : inv s := by
  induction hs with
  | start h => exact hinit _ h
  | tail h hst ih => exact hstep _ _ h ih hst

/-- A refinement mapping.  The steps that the other machine cannot see leave its state
alone. -/
theorem Reachable.refines {τ : Type*} {m' : Machine τ} (f : σ → τ)
    (hinit : ∀ s, m.init s → m'.init (f s))
    (hstep : ∀ s s', m.step s s' → f s' = f s ∨ m'.step (f s) (f s')) {s : σ}
    (hs : m.Reachable s) : m'.Reachable (f s) := by
  induction hs with
  | start h => exact .start (hinit _ h)
  | tail _ hst ih =>
    rcases hstep _ _ hst with heq | hst'
    · rw [heq]
      exact ih
    · exact .tail ih hst'

/-- A run of one part, while everything else stands still, is a run of the whole. -/
theorem Reachable.lift {τ : Type*} {r : τ → τ → Prop} (f : τ → σ)
    (hstep : ∀ a b, r a b → m.step (f a) (f b)) {a b : τ} (ha : m.Reachable (f a))
    (hchain : Relation.ReflTransGen r a b) : m.Reachable (f b) := by
  induction hchain with
  | refl => exact ha
  | tail _ hr ih => exact ih.tail (hstep _ _ hr)

/-- The machine that takes only the steps with property `ok`. -/
def within (m : Machine σ) (ok : σ → σ → Prop) : Machine σ where
  init := m.init
  step s s' := m.step s s' ∧ ok s s'

theorem Reachable.of_within {ok : σ → σ → Prop} {s : σ} (hs : (m.within ok).Reachable s) :
    m.Reachable s := by
  induction hs with
  | start h => exact .start h
  | tail _ hst ih => exact .tail ih hst.1

section Labelled

variable {α : Type*} {init : σ → Prop} {step : σ → α → σ → Prop} {ok : σ → α → Prop}

/-- The machine that takes the labelled steps with property `ok`. -/
def labelled (init : σ → Prop) (step : σ → α → σ → Prop) (ok : σ → α → Prop) : Machine σ where
  init := init
  step s s' := ∃ a, ok s a ∧ step s a s'

/-- Every run whose steps meet `ok` is a run. -/
theorem Reachable.of_labelled {s : σ} (hs : (labelled init step ok).Reachable s) :
    (labelled init step (fun _ _ => True)).Reachable s := by
  induction hs with
  | start h => exact .start h
  | tail _ hst ih =>
    obtain ⟨a, _, ha⟩ := hst
    exact .tail ih ⟨a, trivial, ha⟩

/-- When `ok` is exactly what one step needs to keep `good`, every run whose
steps meet `ok` stays in `good`. -/
theorem Reachable.good_of_labelled {good : σ → Prop} (hinit : ∀ s, init s → good s)
    (hstep : ∀ s a s', (labelled init step (fun _ _ => True)).Reachable s → good s →
      step s a s' → (good s' ↔ ok s a)) {s : σ}
    (hs : (labelled init step ok).Reachable s) : good s := by
  refine Reachable.invariant good hinit ?_ hs
  intro s s' hreach hgood hst
  obtain ⟨a, hok, ha⟩ := hst
  exact (hstep s a s' hreach.of_labelled hgood ha).mpr hok

end Labelled

end Machine

end BsslRam.Lib
