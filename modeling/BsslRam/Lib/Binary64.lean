import Mathlib

/-!
# Finite binary64 numbers

Rounding to binary64, to nearest with ties to even, as a function on the
rationals.  A rational is rounded to a multiple of its unit, the power of two
that leaves 53 bits.  The three facts that the rest uses: representable numbers
are kept (`round_of_isBinary64`), rounding is monotone (`round_mono`), and
representable numbers from `2 ^ 53` on are integers
(`IsBinary64.isInt_of_le`).
-/

namespace BsslRam.Lib.Binary64

/-! ## Nearest integers -/

/-- The nearest integer, and the even one of two. -/
def roundEven (q : ℚ) : ℤ :=
  if 2 * Int.fract q < 1 ∨ (2 * Int.fract q = 1 ∧ Even ⌊q⌋) then ⌊q⌋ else ⌊q⌋ + 1

theorem roundEven_intCast (k : ℤ) : roundEven k = k := by
  unfold roundEven
  rw [Int.fract_intCast, Int.floor_intCast, if_pos (Or.inl (by norm_num))]

theorem floor_le_roundEven (q : ℚ) : ⌊q⌋ ≤ roundEven q := by
  unfold roundEven
  split <;> omega

theorem roundEven_le_floor_add_one (q : ℚ) : roundEven q ≤ ⌊q⌋ + 1 := by
  unfold roundEven
  split <;> omega

theorem roundEven_mono {a b : ℚ} (hab : a ≤ b) : roundEven a ≤ roundEven b := by
  rcases Int.lt_or_eq_of_le (Int.floor_mono hab) with hlt | heq
  · have ha := roundEven_le_floor_add_one a
    have hb := floor_le_roundEven b
    omega
  · -- between the same two integers, the fraction decides
    have hfract : Int.fract a ≤ Int.fract b := by
      unfold Int.fract
      rw [heq]
      linarith
    by_cases hb : 2 * Int.fract b < 1 ∨ (2 * Int.fract b = 1 ∧ Even ⌊b⌋)
    · have ha : 2 * Int.fract a < 1 ∨ (2 * Int.fract a = 1 ∧ Even ⌊a⌋) := by
        rw [heq]
        rcases hb with hb | ⟨hb, heven⟩
        · exact Or.inl (by linarith)
        · rcases lt_or_eq_of_le (show 2 * Int.fract a ≤ 1 by linarith) with hlt | hhalf
          · exact Or.inl hlt
          · exact Or.inr ⟨hhalf, heven⟩
      unfold roundEven
      rw [if_pos ha, if_pos hb, heq]
    · have hfloor := roundEven_le_floor_add_one a
      unfold roundEven at hfloor ⊢
      rw [if_neg hb, ← heq]
      exact hfloor

/-! ## Rounding -/

/-- The exponent of the last bit that a number of this size has. -/
def unitExp (q : ℚ) : ℤ := max (Int.log 2 |q| - 52) (-1074)

/-- The nearest binary64 number, with no bound on the exponent. -/
def round (q : ℚ) : ℚ := roundEven (q / 2 ^ unitExp q) * 2 ^ unitExp q

/-- A finite binary64 number. -/
def IsBinary64 (q : ℚ) : Prop :=
  ∃ m e : ℤ, |m| < 2 ^ 53 ∧ -1074 ≤ e ∧ e ≤ 971 ∧ q = m * 2 ^ e

theorem two_zpow_pos (e : ℤ) : (0 : ℚ) < 2 ^ e := zpow_pos (by norm_num) e

/-- A power of two that is no smaller than the unit is a multiple of it. -/
theorem zpow_div_zpow {e u : ℤ} (hue : u ≤ e) :
    (2 : ℚ) ^ e / 2 ^ u = ((2 ^ (e - u).toNat : ℤ) : ℚ) := by
  have hnat : ((e - u).toNat : ℤ) = e - u := Int.toNat_of_nonneg (by omega)
  rw [← zpow_sub₀ (by norm_num : (2 : ℚ) ≠ 0), ← hnat, zpow_natCast]
  push_cast
  rfl

theorem round_of_multiple {q : ℚ} {k : ℤ} (hk : q / 2 ^ unitExp q = k) : round q = q := by
  unfold round
  rw [hk, roundEven_intCast, ← hk, div_mul_cancel₀ _ (two_zpow_pos _).ne']

theorem round_zero : round 0 = 0 := by
  refine @round_of_multiple _ 0 ?_
  rw [zero_div, Int.cast_zero]

/-- The exponent of a representable number reaches its unit. -/
theorem unitExp_le {m e : ℤ} (hm : |m| < 2 ^ 53) (he : -1074 ≤ e) (hne : m ≠ 0) :
    unitExp (m * 2 ^ e) ≤ e := by
  apply max_le _ he
  have hpos : (0 : ℚ) < |(m : ℚ) * 2 ^ e| :=
    abs_pos.mpr (mul_ne_zero (Int.cast_ne_zero.mpr hne) (two_zpow_pos e).ne')
  have hlt : |(m : ℚ) * 2 ^ e| < ((2 : ℕ) : ℚ) ^ (53 + e) := by
    have hmq : |(m : ℚ)| < 2 ^ 53 := by exact_mod_cast hm
    rw [abs_mul, abs_of_pos (two_zpow_pos e), Nat.cast_ofNat, zpow_add₀ (by norm_num)]
    exact mul_lt_mul_of_pos_right (by exact_mod_cast hmq) (two_zpow_pos e)
  have hlog := (Int.lt_zpow_iff_log_lt (by norm_num) hpos).mp hlt
  omega

theorem round_of_isBinary64 {q : ℚ} (hq : IsBinary64 q) : round q = q := by
  obtain ⟨m, e, hm, hlo, -, rfl⟩ := hq
  by_cases hzero : m = 0
  · rw [hzero, Int.cast_zero, zero_mul, round_zero]
  · have hle := unitExp_le hm hlo hzero
    refine @round_of_multiple _ (m * 2 ^ (e - unitExp (m * 2 ^ e)).toNat) ?_
    rw [mul_div_assoc, zpow_div_zpow hle]
    push_cast
    rfl

/-- Rounding does not cross a multiple of the unit. -/
theorem round_le_of_multiple {q b : ℚ} {k : ℤ} (hb : b = k * 2 ^ unitExp q) (hqb : q ≤ b) :
    round q ≤ b := by
  have hpos := two_zpow_pos (unitExp q)
  have hdiv : q / 2 ^ unitExp q ≤ k := by
    rw [div_le_iff₀ hpos, ← hb]
    exact hqb
  have hint := roundEven_mono hdiv
  rw [roundEven_intCast] at hint
  rw [hb]
  exact mul_le_mul_of_nonneg_right (by exact_mod_cast hint) hpos.le

theorem le_round_of_multiple {q b : ℚ} {k : ℤ} (hb : b = k * 2 ^ unitExp q) (hbq : b ≤ q) :
    b ≤ round q := by
  have hpos := two_zpow_pos (unitExp q)
  have hdiv : (k : ℚ) ≤ q / 2 ^ unitExp q := by
    rw [le_div_iff₀ hpos, ← hb]
    exact hbq
  have hint := roundEven_mono hdiv
  rw [roundEven_intCast] at hint
  rw [hb]
  exact mul_le_mul_of_nonneg_right (by exact_mod_cast hint) hpos.le

theorem round_mono {a b : ℚ} (ha : 0 < a) (hab : a ≤ b) : round a ≤ round b := by
  have hb : 0 < b := lt_of_lt_of_le ha hab
  have hlog : Int.log 2 |a| ≤ Int.log 2 |b| := by
    rw [abs_of_pos ha, abs_of_pos hb]
    exact Int.log_mono_right ha hab
  rcases Int.lt_or_eq_of_le (show unitExp a ≤ unitExp b from max_le_max_right _ (by omega)) with
    hlt | heq
  · -- the power of two at the start of the binade of `b` lies between
    have hbexp : unitExp b = Int.log 2 b - 52 := by
      unfold unitExp at hlt ⊢
      rw [abs_of_pos hb] at hlt ⊢
      omega
    have haexp : Int.log 2 a < Int.log 2 b := by
      unfold unitExp at hlt
      rw [abs_of_pos ha, abs_of_pos hb] at hlt
      omega
    have hpow : ∀ u : ℤ, u ≤ Int.log 2 b →
        (2 : ℚ) ^ Int.log 2 b = (2 ^ (Int.log 2 b - u).toNat : ℤ) * 2 ^ u := by
      intro u hu
      rw [← zpow_div_zpow hu, div_mul_cancel₀ _ (two_zpow_pos u).ne']
    have hafter : (2 : ℚ) ^ Int.log 2 b ≤ b := by
      exact_mod_cast Int.zpow_log_le_self (by norm_num) hb
    have hbefore : a ≤ 2 ^ Int.log 2 b := by
      have hself : a < ((2 : ℕ) : ℚ) ^ (Int.log 2 a + 1) :=
        Int.lt_zpow_succ_log_self (by norm_num) a
      rw [Nat.cast_ofNat] at hself
      exact hself.le.trans (zpow_le_zpow_right₀ (by norm_num) (by omega))
    exact (round_le_of_multiple (hpow _ (by omega)) hbefore).trans
      (le_round_of_multiple (hpow _ (by omega)) hafter)
  · unfold round
    rw [heq]
    have hpos := two_zpow_pos (unitExp b)
    have hint := roundEven_mono (div_le_div_of_nonneg_right hab hpos.le)
    exact mul_le_mul_of_nonneg_right (by exact_mod_cast hint) hpos.le

/-! ## Finite numbers -/

/-- A finite binary64 number, without the sign of zero. -/
structure Number where
  value : ℚ
  finite : IsBinary64 value
  deriving DecidableEq

theorem IsBinary64.abs {q : ℚ} (hq : IsBinary64 q) : IsBinary64 |q| := by
  obtain ⟨m, e, hm, hlo, hhi, rfl⟩ := hq
  refine ⟨|m|, e, by rwa [abs_abs], hlo, hhi, ?_⟩
  rw [abs_mul, abs_of_pos (two_zpow_pos e), Int.cast_abs]

theorem isBinary64_intCast {k : ℤ} (hk : |k| < 2 ^ 53) : IsBinary64 k :=
  ⟨k, 0, hk, by norm_num, by norm_num, by norm_num⟩

theorem IsBinary64.isInt_of_le {q : ℚ} (hq : IsBinary64 q) (hbig : 2 ^ 53 ≤ |q|) :
    ∃ k : ℤ, q = k := by
  obtain ⟨m, e, hm, -, -, rfl⟩ := hq
  have hmq : |(m : ℚ)| < 2 ^ 53 := by exact_mod_cast hm
  have he : 0 ≤ e := by
    by_contra hneg
    have hone : (2 : ℚ) ^ e ≤ 1 := zpow_le_one_of_nonpos₀ (by norm_num) (by omega)
    rw [abs_mul, abs_of_pos (two_zpow_pos e)] at hbig
    have hle := mul_le_mul_of_nonneg_left hone (abs_nonneg (m : ℚ))
    linarith
  obtain ⟨n, rfl⟩ := Int.eq_ofNat_of_zero_le he
  exact ⟨m * 2 ^ n, by push_cast; rfl⟩

/-! ## Shortest decimals -/

/-- The exponent of the last digit when `x` is written with `k` significant digits. -/
def lastDigitExp (x : ℚ) (k : ℕ) : ℤ := Int.log 10 x + 1 - k

/-- Of the two decimals with `k` digits next to `x`, the nearer one that is read back
as `x`. -/
def digits? (x : ℚ) (k : ℕ) : Option ℤ :=
  let scaled := x / 10 ^ lastDigitExp x k
  let nearest := roundEven scaled
  let other := if nearest = ⌊scaled⌋ then ⌊scaled⌋ + 1 else ⌊scaled⌋
  [nearest, other].find? (fun s => round (s * 10 ^ lastDigitExp x k) = x)

theorem round_of_digits? {x : ℚ} {k : ℕ} {s : ℤ} (hs : digits? x k = some s) :
    round (s * 10 ^ lastDigitExp x k) = x := by
  have hfound := List.find?_some hs
  exact of_decide_eq_true hfound

theorem digits?_of_multiple {x : ℚ} {k : ℕ} {s : ℤ} (hx : IsBinary64 x)
    (hs : x / 10 ^ lastDigitExp x k = s) : digits? x k = some s := by
  have hback : (s : ℚ) * 10 ^ lastDigitExp x k = x := by
    rw [← hs, div_mul_cancel₀ _ (zpow_pos (by norm_num) _).ne']
  unfold digits?
  simp only [hs, roundEven_intCast]
  rw [List.find?_cons_of_pos]
  rw [hback, round_of_isBinary64 hx]
  exact decide_eq_true rfl

/-- Enough digits write a number out in full. -/
theorem exists_digits? {x : ℚ} (hx : IsBinary64 x) : ∃ k, (digits? x k).isSome = true := by
  obtain ⟨m, e, -, hlo, -, hxe⟩ := id hx
  obtain ⟨k, hk⟩ : ∃ k : ℕ, lastDigitExp x k ≤ -1074 :=
    ⟨(Int.log 10 x + 1075).toNat, by unfold lastDigitExp; omega⟩
  refine ⟨k, ?_⟩
  obtain ⟨j, hj⟩ : ∃ j : ℕ, lastDigitExp x k = -(j : ℤ) := ⟨(-lastDigitExp x k).toNat, by omega⟩
  have hscaled : x / 10 ^ lastDigitExp x k = ((m * 5 ^ j * 2 ^ (e + j).toNat : ℤ) : ℚ) := by
    have hsum : ((e + j).toNat : ℤ) = e + j := Int.toNat_of_nonneg (by omega)
    have hpow : (2 : ℚ) ^ (e + j).toNat = 2 ^ e * 2 ^ j := by
      rw [← zpow_natCast, hsum, zpow_add₀ (by norm_num), zpow_natCast]
    have hten : (10 : ℚ) ^ j = 5 ^ j * 2 ^ j := by
      rw [← mul_pow]
      norm_num
    rw [hj, zpow_neg, zpow_natCast, div_inv_eq_mul, hxe, hten]
    push_cast
    rw [hpow]
    ring
  rw [digits?_of_multiple hx hscaled]
  rfl

/-- The least number of digits that is read back as `x`.  It counts from the first
digit of `x`, so zero digits stand for the next power of ten. -/
def digitCount {x : ℚ} (hx : IsBinary64 x) : ℕ := Nat.find (exists_digits? hx)

/-- The shortest decimal that is read back as `x`, as a significand and an exponent. -/
def shortest {x : ℚ} (hx : IsBinary64 x) : ℤ × ℤ :=
  ((digits? x (digitCount hx)).get (Nat.find_spec (exists_digits? hx)),
    lastDigitExp x (digitCount hx))

section Shortest

variable {x : ℚ} (hx : IsBinary64 x)

theorem round_shortest : round ((shortest hx).1 * 10 ^ (shortest hx).2) = x :=
  round_of_digits? (Option.some_get _).symm

theorem shortest_pos (hpos : 0 < x) : 0 < (shortest hx).1 := by
  by_contra hneg
  have hle : ((shortest hx).1 : ℚ) * 10 ^ (shortest hx).2 ≤ 0 :=
    mul_nonpos_of_nonpos_of_nonneg (by exact_mod_cast not_lt.mp hneg) (zpow_nonneg (by norm_num) _)
  have hround := @round_le_of_multiple _ 0 0 (by norm_num) hle
  rw [round_shortest] at hround
  linarith

/-- An integer needs no digit after the point. -/
theorem shortest_exp_nonneg {k : ℤ} (hk : x = k) (hpos : 0 < x) : 0 ≤ (shortest hx).2 := by
  have hone : (1 : ℚ) ≤ x := by
    rw [hk] at hpos ⊢
    exact_mod_cast (show 0 < k by exact_mod_cast hpos)
  have hlog : 0 ≤ Int.log 10 x := by
    rw [Int.log_of_one_le_right 10 hone]
    exact Int.natCast_nonneg _
  -- all the digits before the point write it out
  have hexp : lastDigitExp x (Int.log 10 x + 1).toNat = 0 := by
    unfold lastDigitExp
    omega
  have hfull : (digits? x (Int.log 10 x + 1).toNat).isSome = true := by
    rw [digits?_of_multiple hx (show x / 10 ^ lastDigitExp x _ = k by rw [hexp, hk]; simp)]
    rfl
  have hle : digitCount hx ≤ (Int.log 10 x + 1).toNat := Nat.find_min' _ hfull
  change 0 ≤ Int.log 10 x + 1 - (digitCount hx : ℤ)
  omega

/-- The search for the digits, checked. -/
theorem shortest_eq {k : ℕ} {s : ℤ} (hs : digits? x k = some s)
    (hless : ∀ j < k, (digits? x j).isSome = false) : shortest hx = (s, lastDigitExp x k) := by
  have hcount : digitCount hx = k := by
    unfold digitCount
    rw [Nat.find_eq_iff]
    refine ⟨by rw [hs]; rfl, fun j hj => ?_⟩
    rw [hless j hj]
    exact Bool.false_ne_true
  unfold shortest
  simp only [hcount, hs, Option.get_some]

end Shortest

/-- The powers of two at the ends of the 64-bit integers are written with three
zeros at the end, above their value. -/
theorem shortest_two_pow_64 {x : ℚ} (hx : IsBinary64 x) (h : x = (2 ^ 64 : ℤ)) :
    shortest hx = (18446744073709552, 3) := by
  subst h
  exact shortest_eq hx (k := 17) (by decide +kernel) (by decide +kernel)

theorem shortest_two_pow_63 {x : ℚ} (hx : IsBinary64 x) (h : x = (2 ^ 63 : ℤ)) :
    shortest hx = (9223372036854776, 3) := by
  subst h
  exact shortest_eq hx (k := 16) (by decide +kernel) (by decide +kernel)

end BsslRam.Lib.Binary64
