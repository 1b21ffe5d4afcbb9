import Mathlib

/-!
# Past-time operators over a numbered sequence

A monitor sees one observation after another and keeps a little state.  Two
kinds of state come up again and again, and each of them has a reading over
the whole past:

* a counter that grows while a condition holds and falls back to zero when it
  does not (`streak`), which says how far back the condition reaches
  (`le_streak_iff`);
* a flag that one event sets and another clears (`Since`), which says that the
  last setting event is not older than the last clearing one.

A flag that is not set again while it is in force is a `Latch`.  Of two latches that the same
events clear, the one that is set later is set less often (`Latch.count_le`).

`streak` and `since_succ` are the step laws that a proof about the monitor's
code meets; the other lemmas turn them into statements about the past.  The
conditions at index `n` are about the step from observation `n - 1` to
observation `n`, so index `0` starts every streak at zero.
-/

namespace BsslRam.Lib.PastTime

/-! ## Streaks -/

section Streak

variable (good : Nat → Prop) [DecidablePred good]

/-- How many indices in a row, ending at `n`, are good. -/
def streak : Nat → Nat
  | 0 => 0
  | n + 1 => if good (n + 1) then streak n + 1 else 0

variable {good}

theorem streak_le (n : Nat) : streak good n ≤ n := by
  induction n with
  | zero => exact Nat.le_refl 0
  | succ n ih =>
    rw [streak]
    split
    · omega
    · exact Nat.zero_le _

/-- A weaker condition has the longer streaks. -/
theorem streak_mono {good' : Nat → Prop} [DecidablePred good'] {n : Nat}
    (h : ∀ i, i ≤ n → good i → good' i) : streak good n ≤ streak good' n := by
  induction n with
  | zero => exact Nat.le_refl 0
  | succ n ih =>
    rw [streak, streak]
    split
    · rename_i hgood
      rw [if_pos (h (n + 1) (Nat.le_refl _) hgood)]
      exact Nat.succ_le_succ (ih (fun i hi => h i (by omega)))
    · exact Nat.zero_le _

/-- A streak of length at least `k` is `k` good indices up to `n`. -/
theorem le_streak_iff (n k : Nat) :
    k ≤ streak good n ↔ k ≤ n ∧ ∀ i, n - k < i → i ≤ n → good i := by
  induction n generalizing k with
  | zero =>
    rw [streak]
    constructor
    · intro hk
      exact ⟨hk, fun i hlo hhi => absurd hlo (by omega)⟩
    · exact fun h => h.1
  | succ n ih =>
    cases k with
    | zero => exact ⟨fun _ => ⟨Nat.zero_le _, fun i hlo hhi => absurd hlo (by omega)⟩,
        fun _ => Nat.zero_le _⟩
    | succ k =>
      rw [streak]
      by_cases hgood : good (n + 1)
      · rw [if_pos hgood, Nat.succ_le_succ_iff, Nat.succ_le_succ_iff, ih k]
        refine and_congr_right (fun hk => ?_)
        constructor
        · intro h i hlo hhi
          rcases Nat.lt_or_ge n i with hlt | hge
          · rwa [show i = n + 1 by omega]
          · exact h i (by omega) hge
        · intro h i hlo hhi
          exact h i (by omega) (by omega)
      · rw [if_neg hgood]
        constructor
        · intro hk
          omega
        · intro h
          rcases h with ⟨hk, h⟩
          exact absurd (h (n + 1) (by omega) (Nat.le_refl _)) hgood

end Streak

/-! ## Flags -/

section Since

variable {mark keep : Nat → Prop}

/-- `mark` held at some index up to `n`, and `keep` at every later one. -/
def Since (mark keep : Nat → Prop) (n : Nat) : Prop :=
  ∃ j, j ≤ n ∧ mark j ∧ ∀ k, j < k → k ≤ n → keep k

theorem since_zero : Since mark keep 0 ↔ mark 0 := by
  constructor
  · intro h
    rcases h with ⟨j, hj, hmark, -⟩
    rwa [Nat.le_zero.mp hj] at hmark
  · intro hmark
    exact ⟨0, Nat.le_refl 0, hmark, fun k hlo hhi => absurd hlo (by omega)⟩

/-- The step law of a flag: it is set after step `n + 1` when the step sets it,
or when it was set before and the step does not clear it. -/
theorem since_succ (n : Nat) :
    Since mark keep (n + 1) ↔ mark (n + 1) ∨ keep (n + 1) ∧ Since mark keep n := by
  constructor
  · intro h
    rcases h with ⟨j, hj, hmark, hkeep⟩
    rcases Nat.lt_or_ge n j with hlt | hge
    · left
      rwa [show n + 1 = j by omega]
    · right
      exact ⟨hkeep (n + 1) (by omega) (Nat.le_refl _),
        j, hge, hmark, fun k hlo hhi => hkeep k hlo (by omega)⟩
  · intro h
    rcases h with hmark | ⟨hlast, j, hj, hmark, hkeep⟩
    · exact ⟨n + 1, Nat.le_refl _, hmark, fun k hlo hhi => absurd hlo (by omega)⟩
    · refine ⟨j, by omega, hmark, fun k hlo hhi => ?_⟩
      rcases Nat.lt_or_ge n k with hlt | hge
      · rwa [show k = n + 1 by omega]
      · exact hkeep k hlo hge

end Since

/-! ## Latches -/

section Latch

/-- `flag n` is a flag before step `n`.  `mark` sets it, but not while it is in force, and it
stays in force as long as `keep` holds. -/
structure Latch (mark keep flag : Nat → Prop) (length : Nat) : Prop where
  start : ¬ flag 0
  step : ∀ n < length, flag (n + 1) ↔ mark n ∨ keep n ∧ flag n
  once : ∀ n < length, mark n → ¬ (keep n ∧ flag n)

variable {mark mark' keep flag flag' : Nat → Prop} {length : Nat}
variable [DecidablePred mark] [DecidablePred mark']

/-- A latch that is set only when another one is set or in force is set less often.  When the
other one alone is in force, it is a setting ahead. -/
theorem Latch.count_le (h : Latch mark keep flag length) (h' : Latch mark' keep flag' length)
    (hlate : ∀ n < length, mark' n → mark n ∨ keep n ∧ flag n) {n : Nat} (hn : n ≤ length) :
    n.count mark' ≤ n.count mark ∧ (flag' n → flag n) ∧
      (flag n → ¬ flag' n → n.count mark' < n.count mark) := by
  induction n with
  | zero =>
    exact ⟨Nat.le_refl _, fun hflag => absurd hflag h'.start, fun hflag => absurd hflag h.start⟩
  | succ n ih =>
    obtain ⟨hle, himp, hahead⟩ := ih (Nat.le_of_succ_le hn)
    have hbehind : keep n ∧ flag n → ¬ (keep n ∧ flag' n) → n.count mark' < n.count mark :=
      fun hin hnot => hahead hin.2 (fun hflag' => hnot ⟨hin.1, hflag'⟩)
    rw [h.step n hn, h'.step n hn, Nat.count_succ, Nat.count_succ]
    refine ⟨?_, ?_, fun hflag hnot => ?_⟩
    · by_cases hmark' : mark' n
      · rw [if_pos hmark']
        rcases hlate n hn hmark' with hmark | hin
        · rw [if_pos hmark]
          omega
        · have hlt := hbehind hin (h'.once n hn hmark')
          omega
      · rw [if_neg hmark']
        omega
    · rintro (hmark' | ⟨hkeep, hflag'⟩)
      · exact hlate n hn hmark'
      · exact Or.inr ⟨hkeep, himp hflag'⟩
    · rw [if_neg (fun hmark' => hnot (Or.inl hmark'))]
      rcases hflag with hmark | hin
      · rw [if_pos hmark]
        omega
      · have hlt := hbehind hin (fun hin' => hnot (Or.inr hin'))
        omega

end Latch

end BsslRam.Lib.PastTime
