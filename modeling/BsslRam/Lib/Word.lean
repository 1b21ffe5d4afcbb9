import Mathlib

/-!
# Arithmetic on `u64`

The operations of the standard library that do not wrap, with their values as
natural numbers, and a sum, which does wrap.
-/

namespace BsslRam.Lib

/-- `u64::MAX`. -/
def u64Max : UInt64 := 0xFFFFFFFFFFFFFFFF

theorem le_u64Max (a : UInt64) : a ≤ u64Max := by
  have hlt := a.toNat_lt
  rw [UInt64.le_iff_toNat_le, show u64Max.toNat = 2 ^ 64 - 1 from rfl]
  omega

/-- `u64::saturating_sub`. -/
def saturatingSub (a b : UInt64) : UInt64 := if a < b then 0 else a - b

/-- `u64::abs_diff`. -/
def absDiff (a b : UInt64) : UInt64 := if a < b then b - a else a - b

theorem toNat_saturatingSub (a b : UInt64) :
    (saturatingSub a b).toNat = a.toNat - b.toNat := by
  unfold saturatingSub
  by_cases hlt : a < b
  · have hnat := UInt64.lt_iff_toNat_lt.mp hlt
    rw [if_pos hlt, UInt64.toNat_zero]
    omega
  · rw [if_neg hlt, UInt64.toNat_sub_of_le a b (UInt64.not_lt.mp hlt)]

theorem toNat_absDiff (a b : UInt64) :
    ((absDiff a b).toNat : Int) = |(a.toNat : Int) - b.toNat| := by
  unfold absDiff
  by_cases hlt : a < b
  · have hnat := UInt64.lt_iff_toNat_lt.mp hlt
    rw [if_pos hlt, UInt64.toNat_sub_of_le b a (UInt64.le_of_lt hlt), abs_of_neg (by omega)]
    omega
  · have hnat := UInt64.le_iff_toNat_le.mp (UInt64.not_lt.mp hlt)
    rw [if_neg hlt, UInt64.toNat_sub_of_le a b (UInt64.not_lt.mp hlt), abs_of_nonneg (by omega)]
    omega

theorem saturatingSub_zero (a : UInt64) : saturatingSub a 0 = a := by
  apply UInt64.toNat.inj
  rw [toNat_saturatingSub, UInt64.toNat_zero, Nat.sub_zero]

theorem saturatingSub_self (a : UInt64) : saturatingSub a a = 0 := by
  apply UInt64.toNat.inj
  rw [toNat_saturatingSub, UInt64.toNat_zero, Nat.sub_self]

theorem toNat_sum (xs : List UInt64) : xs.sum.toNat = (xs.map UInt64.toNat).sum % 2 ^ 64 := by
  induction xs with
  | nil => rfl
  | cons x xs ih =>
    rw [List.sum_cons, UInt64.toNat_add, ih, List.map_cons, List.sum_cons]
    omega

end BsslRam.Lib
