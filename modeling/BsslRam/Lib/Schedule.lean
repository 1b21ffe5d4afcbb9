import Mathlib

/-!
# Instants in order

A schedule is a list of instants, each after the one before.  Two instants are
consecutive in a list when `[a, b] <:+: l`.  A `Refinement` is a schedule and a denser
one with the same end points.

`exists_step` finds, between two instants of a schedule, consecutive ones over which a
quantity grows.  `exists_consecutive_around` finds the consecutive instants around a
moment at which nothing is scheduled.
-/

namespace BsslRam.Lib.Schedule

variable {T : Type} [LinearOrder T]

/-- What is scheduled does not happen between two consecutive instants. -/
theorem le_of_consecutive {l : List T} (hl : l.Pairwise (· < ·)) {u v z : T} (h : [u, v] <:+: l)
    (hz : z ∈ l) (huz : u < z) : v ≤ z := by
  obtain ⟨front, back, rfl⟩ := h
  simp only [List.append_assoc, List.cons_append, List.nil_append, List.pairwise_append,
    List.pairwise_cons] at hl
  obtain ⟨-, ⟨-, hv, -⟩, hfront⟩ := hl
  simp only [List.append_assoc, List.cons_append, List.nil_append, List.mem_append,
    List.mem_cons] at hz
  rcases hz with hz | rfl | rfl | hz
  · exact absurd (hfront z hz u List.mem_cons_self) (lt_asymm huz)
  · exact absurd huz (lt_irrefl _)
  · exact le_refl _
  · exact le_of_lt (hv z hz)

theorem lt_of_consecutive {l : List T} (hl : l.Pairwise (· < ·)) {u v : T} (h : [u, v] <:+: l) :
    u < v := by
  have hpair := hl.sublist h.sublist
  exact List.rel_of_pairwise_cons hpair List.mem_cons_self

/-- A quantity that has grown between two instants has grown over consecutive ones between
them. -/
theorem exists_step (f : T → Nat) {a b : T} {l : List T} (hl : (a :: l).Pairwise (· < ·))
    (hb : b ∈ l) (hf : f a < f b) :
    ∃ x y, [x, y] <:+: a :: l ∧ a ≤ x ∧ y ≤ b ∧ f x < f y := by
  induction l generalizing a with
  | nil => cases hb
  | cons c l ih =>
    have hac : a < c := List.rel_of_pairwise_cons hl List.mem_cons_self
    rw [List.pairwise_cons] at hl
    by_cases hstep : f a < f c
    · refine ⟨a, c, ⟨[], l, rfl⟩, le_refl a, ?_, hstep⟩
      rcases List.mem_cons.mp hb with rfl | hb
      · exact le_refl _
      · exact le_of_lt (List.rel_of_pairwise_cons hl.2 hb)
    · have hfc : f c < f b := by omega
      have hmem : b ∈ l := by
        rcases List.mem_cons.mp hb with rfl | hb
        · exact absurd hfc (Nat.lt_irrefl _)
        · exact hb
      obtain ⟨x, y, hxy, hcx, hyb, hgrow⟩ := ih hl.2 hmem hfc
      exact ⟨x, y, hxy.trans (List.suffix_cons a _).isInfix, le_trans (le_of_lt hac) hcx, hyb,
        hgrow⟩

/-- The same between any two instants of the schedule. -/
theorem exists_step_of_mem (f : T → Nat) {l : List T} (hl : l.Pairwise (· < ·)) {a b : T}
    (ha : a ∈ l) (hb : b ∈ l) (hab : a < b) (hf : f a < f b) :
    ∃ x y, [x, y] <:+: l ∧ a ≤ x ∧ y ≤ b ∧ f x < f y := by
  obtain ⟨front, back, rfl⟩ := List.append_of_mem ha
  rw [List.pairwise_append] at hl
  have hmem : b ∈ back := by
    rcases List.mem_append.mp hb with hb | hb
    · exact absurd (hl.2.2 b hb a List.mem_cons_self) (lt_asymm hab)
    · exact (List.mem_cons.mp hb).resolve_left (ne_of_gt hab)
  obtain ⟨x, y, hxy, hax, hyb, hgrow⟩ := exists_step f hl.2.1 hmem hf
  exact ⟨x, y, hxy.trans (List.suffix_append front _).isInfix, hax, hyb, hgrow⟩

/-- A moment between the first instant and a later one lies between two consecutive ones. -/
theorem exists_consecutive_around {a b x : T} {l : List T} (hax : a < x) (hx : x ∉ l) (hb : b ∈ l)
    (hxb : x < b) : ∃ u v, [u, v] <:+: a :: l ∧ u < x ∧ x < v := by
  induction l generalizing a with
  | nil => cases hb
  | cons c l ih =>
    rw [List.mem_cons, not_or] at hx
    rcases lt_or_gt_of_ne hx.1 with hxc | hcx
    · exact ⟨a, c, ⟨[], l, rfl⟩, hax, hxc⟩
    · have hmem : b ∈ l :=
        (List.mem_cons.mp hb).resolve_left (ne_of_gt (lt_trans hcx hxb))
      obtain ⟨u, v, huv, hux, hxv⟩ := ih hcx hx.2 hmem
      exact ⟨u, v, huv.trans (List.suffix_cons a _).isInfix, hux, hxv⟩

/-- A schedule, and one with additional instants in between. -/
structure Refinement (T : Type) [LinearOrder T] where
  /-- The instant that both start from. -/
  start : T
  coarse : List T
  fine : List T
  ordered : (start :: fine).Pairwise (· < ·)
  sublist : coarse.Sublist fine
  sameEnd : coarse.getLast? = fine.getLast?

namespace Refinement

variable (r : Refinement T)

theorem mem_fine {a : T} (h : a ∈ r.start :: r.coarse) : a ∈ r.start :: r.fine :=
  (r.sublist.cons_cons r.start).subset h

theorem ordered_coarse : (r.start :: r.coarse).Pairwise (· < ·) :=
  r.ordered.sublist (r.sublist.cons_cons r.start)

/-- An additional instant lies between two consecutive ones of the coarse schedule. -/
theorem exists_between (h : r.coarse ≠ r.fine) :
    ∃ x ∈ r.fine, ∃ a b, [a, b] <:+: r.start :: r.coarse ∧ a < x ∧ x < b := by
  have hordered := List.pairwise_cons.mp r.ordered
  -- some instant is additional
  obtain ⟨x, hx, hnew⟩ : ∃ x ∈ r.fine, x ∉ r.coarse := by
    by_contra hnone
    push Not at hnone
    have hnodup : r.fine.Nodup := hordered.2.imp (fun hlt => ne_of_lt hlt)
    exact h (r.sublist.eq_of_length_le (hnodup.subperm hnone).length_le)
  -- and it is not the last one
  obtain ⟨last, hlast⟩ : ∃ last, r.fine.getLast? = some last := by
    cases hend : r.fine.getLast? with
    | none =>
      rw [List.getLast?_eq_none_iff.mp hend] at hx
      cases hx
    | some last => exact ⟨last, rfl⟩
  have hmem : last ∈ r.coarse := List.mem_of_getLast? (r.sameEnd.trans hlast)
  have hle : x < last := by
    obtain ⟨front, hfront⟩ := List.getLast?_eq_some_iff.mp hlast
    rw [hfront] at hx hordered
    rcases List.mem_append.mp hx with hx | hx
    · exact (List.pairwise_append.mp hordered.2).2.2 x hx last List.mem_cons_self
    · rw [List.mem_singleton.mp hx] at hnew
      exact absurd hmem hnew
  obtain ⟨a, b, hab, hax, hxb⟩ :=
    exists_consecutive_around (hordered.1 x hx) hnew hmem hle
  exact ⟨x, hx, a, b, hab, hax, hxb⟩

end Refinement

end BsslRam.Lib.Schedule
