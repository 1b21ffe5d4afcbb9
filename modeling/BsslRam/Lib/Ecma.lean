import BsslRam.Lib.Binary64
import BsslRam.Lib.Json

/-!
# JavaScript values and `JSON.stringify`

The values that a message between scripts can carry, the conversions that the
language defines on them, and their JSON form.  A finite number is written as
`Number::toString` writes it: the shortest decimal that is read back as the same
number, as an integer if it has no digit after the point and is below `10 ^ 21`.

An integer from `2 ^ 53` on may be written as another integer, since the digits
after the shortest ones are zeros.  `Number.decodes_u32_iff`, `Number.decodes_u64_iff`
and `Number.decodes_i64_iff` say which numbers the integer types then accept.
-/

namespace BsslRam.Lib

open Binary64

/-! ## Numbers as literals -/

namespace Binary64.Number

/-- `Number::toString`. -/
def toLiteral (x : Number) : Literal :=
  let decimal := shortest x.finite.abs
  let signed := if x.value < 0 then -decimal.1 else decimal.1
  if x.value = 0 then .integer 0
  else if 0 ≤ decimal.2 ∧ decimal.1 * 10 ^ decimal.2.toNat < 10 ^ 21 then
    .integer (signed * 10 ^ decimal.2.toNat)
  else .decimal signed decimal.2

/-- An integer from `lo` up to, not including, `hi`. -/
def IsIntegerIn (lo hi : ℤ) (x : Number) : Prop := ∃ k : ℤ, x.value = k ∧ lo ≤ k ∧ k < hi

/-- The integer literal of a number is the number or one that is read back as it. -/
theorem toLiteral_eq_integer {x : Number} {i : ℤ} (h : x.toLiteral = .integer i) :
    round |(i : ℚ)| = |x.value| ∧ (0 ≤ i ↔ 0 ≤ x.value) := by
  unfold toLiteral at h
  by_cases hzero : x.value = 0
  · rw [if_pos hzero] at h
    cases h
    rw [hzero, Int.cast_zero, abs_zero]
    exact ⟨round_zero, by norm_num⟩
  · rw [if_neg hzero] at h
    have hs := shortest_pos x.finite.abs (abs_pos.mpr hzero)
    have hround := round_shortest x.finite.abs
    by_cases hint : 0 ≤ (shortest x.finite.abs).2 ∧
        (shortest x.finite.abs).1 * 10 ^ (shortest x.finite.abs).2.toNat < 10 ^ 21
    · rw [if_pos hint] at h
      generalize shortest x.finite.abs = decimal at h hs hround hint
      obtain ⟨s, e⟩ := decimal
      obtain ⟨n, rfl⟩ := Int.eq_ofNat_of_zero_le hint.1
      rw [Int.toNat_natCast] at h
      injection h with h
      have hpow : (0 : ℤ) < 10 ^ n := by positivity
      have hmag : |(i : ℚ)| = s * 10 ^ (n : ℤ) := by
        have habs : |i| = s * 10 ^ n := by
          rw [← h, abs_mul, abs_of_pos hpow]
          split
          · rw [abs_neg, abs_of_pos hs]
          · rw [abs_of_pos hs]
        rw [← Int.cast_abs, habs, zpow_natCast]
        push_cast
        rfl
      refine ⟨by rw [hmag]; exact hround, ?_⟩
      rw [← h]
      by_cases hneg : x.value < 0
      · rw [if_pos hneg]
        have hlt : -s * 10 ^ n < 0 := by nlinarith
        exact iff_of_false (not_le.mpr hlt) (not_le.mpr hneg)
      · rw [if_neg hneg]
        exact iff_of_true (by positivity) (not_lt.mp hneg)
    · rw [if_neg hint] at h
      cases h

/-- An integer below `10 ^ 21` is written as an integer. -/
theorem toLiteral_of_isInt {x : Number} {k : ℤ} (hk : x.value = k) (hlt : |x.value| < 10 ^ 21) :
    ∃ i, x.toLiteral = .integer i := by
  unfold toLiteral
  by_cases hzero : x.value = 0
  · exact ⟨0, if_pos hzero⟩
  · have hpos := abs_pos.mpr hzero
    have hexp := shortest_exp_nonneg x.finite.abs (show |x.value| = (|k| : ℤ) by
      rw [hk, Int.cast_abs]) hpos
    have hround := round_shortest x.finite.abs
    rw [if_neg hzero]
    generalize shortest x.finite.abs = decimal at hexp hround ⊢
    obtain ⟨s, e⟩ := decimal
    obtain ⟨n, rfl⟩ := Int.eq_ofNat_of_zero_le hexp
    rw [Int.toNat_natCast]
    refine ⟨_, if_pos ⟨hexp, ?_⟩⟩
    by_contra hbig
    have hbound : IsBinary64 (10 ^ 21) :=
      ⟨5 ^ 21, 21, by norm_num, by norm_num, by norm_num, by norm_num⟩
    have hle : (10 : ℚ) ^ 21 ≤ s * 10 ^ (n : ℤ) := by
      rw [zpow_natCast]
      exact_mod_cast not_lt.mp hbig
    have hmono := round_mono (by norm_num) hle
    rw [hround, round_of_isBinary64 hbound] at hmono
    linarith

theorem toLiteral_exact {x : Number} {i : ℤ} (h : x.toLiteral = .integer i)
    (hlt : |x.value| < 2 ^ 53) : (i : ℚ) = x.value := by
  obtain ⟨hround, hsign⟩ := toLiteral_eq_integer h
  have hsmall : |i| < 2 ^ 53 := by
    by_contra hbig
    have hbound : IsBinary64 (2 ^ 53) :=
      ⟨2 ^ 52, 1, by norm_num, by norm_num, by norm_num, by norm_num⟩
    have hle : (2 : ℚ) ^ 53 ≤ |(i : ℚ)| := by exact_mod_cast not_lt.mp hbig
    have hmono := round_mono (by norm_num) hle
    rw [hround, round_of_isBinary64 hbound] at hmono
    linarith
  have habs : |(i : ℚ)| = |x.value| := by
    rw [← hround, round_of_isBinary64 (isBinary64_intCast hsmall).abs]
  by_cases hpos : 0 ≤ i
  · rwa [abs_of_nonneg (by exact_mod_cast hpos), abs_of_nonneg (hsign.mp hpos)] at habs
  · have hneg : x.value < 0 := by
      by_contra hnot
      exact hpos (hsign.mpr (not_lt.mp hnot))
    rw [abs_of_neg (by exact_mod_cast not_le.mp hpos), abs_of_neg hneg] at habs
    linarith

theorem isInt_of_toLiteral {x : Number} {i : ℤ} (h : x.toLiteral = .integer i) :
    ∃ k : ℤ, x.value = k := by
  rcases lt_or_ge |x.value| (2 ^ 53) with hlt | hge
  · exact ⟨i, (toLiteral_exact h hlt).symm⟩
  · exact x.finite.isInt_of_le hge

/-! ## Numbers in integer fields -/

/-- A representable bound separates the literals as it separates the numbers, as long
as the bound itself is not written below itself. -/
theorem abs_lt_iff {x : Number} {i : ℤ} (h : x.toLiteral = .integer i) {bound : ℤ}
    (hpos : 0 < bound) (hbound : IsBinary64 bound)
    (hedge : |x.value| = bound → bound ≤ |i|) : |i| < bound ↔ |x.value| < bound := by
  obtain ⟨hround, -⟩ := toLiteral_eq_integer h
  have hposq : (0 : ℚ) < bound := by exact_mod_cast hpos
  constructor
  · intro hlt
    have hle : |x.value| ≤ bound := by
      by_cases hzero : i = 0
      · rw [hzero, Int.cast_zero, abs_zero] at hround
        rw [← hround, round_zero]
        exact hposq.le
      · have hmono := round_mono (abs_pos.mpr (Int.cast_ne_zero.mpr hzero))
          (show |(i : ℚ)| ≤ bound by exact_mod_cast hlt.le)
        rwa [hround, round_of_isBinary64 hbound] at hmono
    exact lt_of_le_of_ne hle (fun heq => absurd (hedge heq) (not_le.mpr hlt))
  · intro hlt
    by_contra hge
    have hmono := round_mono hposq (show (bound : ℚ) ≤ |(i : ℚ)| by exact_mod_cast not_lt.mp hge)
    rw [hround, round_of_isBinary64 hbound] at hmono
    linarith

/-- A number whose shortest decimal is above it is written above itself. -/
theorem lt_abs_literal {x : Number} {i bound s : ℤ} {n : ℕ} (h : x.toLiteral = .integer i)
    (hpos : 0 < bound) (hx : |x.value| = bound)
    (hs : shortest x.finite.abs = (s, (n : ℤ))) (hlt : bound < s * 10 ^ n) : bound < |i| := by
  have hne : x.value ≠ 0 := by
    intro hzero
    rw [hzero, abs_zero] at hx
    exact absurd (Int.cast_eq_zero.mp hx.symm) hpos.ne'
  unfold toLiteral at h
  simp only [if_neg hne, hs, Int.toNat_natCast] at h
  split at h
  · injection h with h
    have hi : |i| = |s * 10 ^ n| := by
      rw [← h]
      split
      · rw [neg_mul, abs_neg]
      · rfl
    rw [hi]
    exact lt_of_lt_of_le hlt (le_abs_self _)
  · cases h

theorem edge_two_pow_64 {x : Number} {i : ℤ} (h : x.toLiteral = .integer i)
    (hx : |x.value| = (2 ^ 64 : ℤ)) : 2 ^ 64 < |i| :=
  lt_abs_literal h (by norm_num) hx (n := 3) (shortest_two_pow_64 x.finite.abs hx) (by norm_num)

theorem edge_two_pow_63 {x : Number} {i : ℤ} (h : x.toLiteral = .integer i)
    (hx : |x.value| = (2 ^ 63 : ℤ)) : 2 ^ 63 < |i| :=
  lt_abs_literal h (by norm_num) hx (n := 3) (shortest_two_pow_63 x.finite.abs hx) (by norm_num)

/-- The literal is an integer below the bound when the number is. -/
theorem literal_abs_lt_iff {x : Number} {bound : ℤ} (hpos : 0 < bound)
    (hbound : IsBinary64 bound) (hsmall : bound ≤ 10 ^ 21)
    (hedge : ∀ i, x.toLiteral = .integer i → |x.value| = bound → bound ≤ |i|) :
    (∃ i, x.toLiteral = .integer i ∧ |i| < bound) ↔ ∃ k : ℤ, x.value = k ∧ |k| < bound := by
  constructor
  · intro ⟨i, h, hlt⟩
    obtain ⟨k, hk⟩ := isInt_of_toLiteral h
    have habs := (abs_lt_iff h hpos hbound (hedge i h)).mp hlt
    rw [hk] at habs
    exact ⟨k, hk, by exact_mod_cast habs⟩
  · intro ⟨k, hk, hlt⟩
    have habs : |x.value| < bound := by
      rw [hk]
      exact_mod_cast hlt
    have hbig : (bound : ℚ) ≤ 10 ^ 21 := by exact_mod_cast hsmall
    obtain ⟨i, h⟩ := toLiteral_of_isInt hk (lt_of_lt_of_le habs hbig)
    exact ⟨i, h, (abs_lt_iff h hpos hbound (hedge i h)).mpr habs⟩

/-- An unsigned type accepts the numbers that are integers in its range. -/
theorem decodes_unsigned_iff {x : Number} {bound : ℤ} (hpos : 0 < bound)
    (hbound : IsBinary64 bound) (hsmall : bound ≤ 10 ^ 21)
    (hedge : ∀ i, x.toLiteral = .integer i → |x.value| = bound → bound ≤ |i|) :
    (∃ i, (Json.number x.toLiteral).integerIn 0 bound = some i) ↔ x.IsIntegerIn 0 bound := by
  have hiff := literal_abs_lt_iff hpos hbound hsmall hedge
  constructor
  · intro ⟨i, hi⟩
    obtain ⟨h, hlo, hhi⟩ := Json.integerIn_eq_some.mp hi
    injection h with h
    obtain ⟨k, hk, hlt⟩ := hiff.mp ⟨i, h, by rwa [abs_of_nonneg hlo]⟩
    have hsign := (toLiteral_eq_integer h).2.mp hlo
    rw [hk] at hsign
    exact ⟨k, hk, by exact_mod_cast hsign, lt_of_abs_lt hlt⟩
  · intro ⟨k, hk, hlo, hhi⟩
    obtain ⟨i, h, hlt⟩ := hiff.mpr ⟨k, hk, by rwa [abs_of_nonneg hlo]⟩
    have hsign := (toLiteral_eq_integer h).2.mpr (by rw [hk]; exact_mod_cast hlo)
    exact ⟨i, Json.integerIn_eq_some.mpr ⟨by rw [h], hsign, lt_of_abs_lt hlt⟩⟩

theorem decodes_u32_iff (x : Number) :
    (∃ u, Json.u32 (.number x.toLiteral) = some u) ↔ x.IsIntegerIn 0 (2 ^ 32) := by
  have hbound : IsBinary64 ((2 ^ 32 : ℤ) : ℚ) := isBinary64_intCast (by norm_num)
  rw [← decodes_unsigned_iff (by norm_num) hbound (by norm_num) (fun i h hx => ?_)]
  · simp only [Json.u32, Option.map_eq_some_iff, exists_comm, exists_and_left, exists_eq', and_true]
  · -- far below `2 ^ 53` the literal is the number
    have hexact := toLiteral_exact h (by rw [hx]; norm_num)
    rw [← hexact, ← Int.cast_abs] at hx
    exact le_of_eq (by exact_mod_cast hx.symm)

theorem decodes_u64_iff (x : Number) :
    (∃ u, Json.u64 (.number x.toLiteral) = some u) ↔ x.IsIntegerIn 0 (2 ^ 64) := by
  have hbound : IsBinary64 ((2 ^ 64 : ℤ) : ℚ) :=
    ⟨1, 64, by norm_num, by norm_num, by norm_num, by norm_num⟩
  rw [← decodes_unsigned_iff (by norm_num) hbound (by norm_num)
    (fun i h hx => (edge_two_pow_64 h hx).le)]
  simp only [Json.u64, Option.map_eq_some_iff, exists_comm, exists_and_left, exists_eq', and_true]

/-- `i64` accepts one integer less than it has: `-2 ^ 63` is written below itself. -/
theorem decodes_i64_iff (x : Number) :
    (∃ i, Json.i64 (.number x.toLiteral) = some i) ↔ x.IsIntegerIn (-2 ^ 63 + 1) (2 ^ 63) := by
  have hbound : IsBinary64 ((2 ^ 63 : ℤ) : ℚ) :=
    ⟨1, 63, by norm_num, by norm_num, by norm_num, by norm_num⟩
  have hiff := literal_abs_lt_iff (by norm_num) hbound (by norm_num)
    (fun i (h : x.toLiteral = .integer i) hx => (edge_two_pow_63 h hx).le)
  have hmap : (∃ i, Json.i64 (.number x.toLiteral) = some i) ↔
      ∃ i, (Json.number x.toLiteral).integerIn (-2 ^ 63) (2 ^ 63) = some i := by
    simp only [Json.i64, Option.map_eq_some_iff, exists_comm, exists_and_left, exists_eq', and_true]
  rw [hmap]
  constructor
  · intro ⟨i, hi⟩
    obtain ⟨h, hlo, hhi⟩ := Json.integerIn_eq_some.mp hi
    injection h with h
    have hlt : |i| < 2 ^ 63 := by
      by_contra hge
      -- the one literal on the edge is read back as `2 ^ 63`, which is written otherwise
      have hi : |i| = 2 ^ 63 := by
        rcases abs_cases i with ⟨habs, _⟩ | ⟨habs, _⟩ <;> omega
      have hx : |x.value| = (2 ^ 63 : ℤ) := by
        rw [← (toLiteral_eq_integer h).1, ← Int.cast_abs, hi, round_of_isBinary64 hbound]
      exact absurd (edge_two_pow_63 h hx) (by omega)
    obtain ⟨k, hk, hkabs⟩ := hiff.mp ⟨i, h, hlt⟩
    have hbounds := abs_lt.mp hkabs
    exact ⟨k, hk, by omega, hbounds.2⟩
  · intro ⟨k, hk, hlo, hhi⟩
    obtain ⟨i, h, hlt⟩ := hiff.mpr ⟨k, hk, abs_lt.mpr ⟨by omega, hhi⟩⟩
    have hbounds := abs_lt.mp hlt
    exact ⟨i, Json.integerIn_eq_some.mpr ⟨by rw [h], hbounds.1.le, hbounds.2⟩⟩

/-- The literal is the number itself. -/
def WrittenExactly (x : Number) : Prop := ∃ i : ℤ, x.toLiteral = .integer i ∧ (i : ℚ) = x.value

theorem writtenExactly_of_lt {x : Number} {k : ℤ} (hk : x.value = k) (hlt : |k| < 2 ^ 53) :
    x.WrittenExactly := by
  have habs : |x.value| < 2 ^ 53 := by
    rw [hk]
    exact_mod_cast hlt
  obtain ⟨i, h⟩ := toLiteral_of_isInt hk (habs.trans (by norm_num))
  exact ⟨i, h, toLiteral_exact h habs⟩

theorem toNat_decode_u32 {x : Number} {u : UInt32} (hu : Json.u32 (.number x.toLiteral) = some u) :
    (u.toNat : ℚ) = x.value := by
  obtain ⟨k, hk, hlo, hhi⟩ := (decodes_u32_iff x).mp ⟨u, hu⟩
  obtain ⟨i, hi, rfl⟩ := Option.map_eq_some_iff.mp hu
  obtain ⟨h, hnonneg, hlt⟩ := Json.integerIn_eq_some.mp hi
  injection h with h
  have hexact := toLiteral_exact h (by
    rw [hk, ← Int.cast_abs, abs_of_nonneg hlo]
    exact_mod_cast hhi.trans (by norm_num))
  rw [UInt32.toNat_ofNat_of_lt' (by unfold UInt32.size; omega), ← hexact]
  exact_mod_cast Int.toNat_of_nonneg hnonneg

theorem toNat_decode_u64 {x : Number} {u : UInt64} (hu : Json.u64 (.number x.toLiteral) = some u) :
    (u.toNat : ℚ) = x.value ↔ x.WrittenExactly := by
  obtain ⟨i, hi, rfl⟩ := Option.map_eq_some_iff.mp hu
  obtain ⟨h, hnonneg, hlt⟩ := Json.integerIn_eq_some.mp hi
  injection h with h
  have hcast : (((UInt64.ofNat i.toNat).toNat : ℕ) : ℚ) = i := by
    rw [UInt64.toNat_ofNat_of_lt' (by unfold UInt64.size; omega)]
    exact_mod_cast Int.toNat_of_nonneg hnonneg
  rw [hcast]
  constructor
  · intro heq
    exact ⟨i, h, heq⟩
  · intro ⟨j, hj, heq⟩
    rw [h] at hj
    injection hj with hj
    rw [hj]
    exact heq

end Binary64.Number

/-! ## Values -/

/-- What a message can hold. -/
inductive JsValue where
  | undefined
  | null
  | bool (b : Bool)
  | number (x : Binary64.Number)
  | nan
  | infinity (negative : Bool)
  | string (units : List UInt16)
  | array (items : List JsValue)
  | object (fields : List (List UInt16 × JsValue))

namespace JsValue

/-- An object literal. -/
def ofFields (fields : List (String × JsValue)) : JsValue :=
  object (fields.map (fun field => (Utf16.encode field.1, field.2)))

/-- Reading a property. -/
def get (name : String) : JsValue → JsValue
  | object fields => (fields.lookup (Utf16.encode name)).getD undefined
  | _ => undefined

/-- `Boolean(v)`. -/
def truthy : JsValue → Bool
  | undefined | null | nan => false
  | bool b => b
  | number x => x.value ≠ 0
  | string units => !units.isEmpty
  | infinity _ | array _ | object _ => true

/-- `v ?? other`. -/
def orElse (v other : JsValue) : JsValue :=
  match v with
  | undefined | null => other
  | v => v

theorem orElse_ne_undefined {other : JsValue} (v : JsValue) (hother : other ≠ undefined) :
    v.orElse other ≠ undefined := by
  cases v with
  | undefined => exact hother
  | null => exact hother
  | _ => exact fun h => by cases h

/-- The number, if `Number.isFinite(v)`. -/
def finite? : JsValue → Option Binary64.Number
  | number x => some x
  | _ => none

mutual

/-- `JSON.stringify`; `undefined` has no JSON form. -/
def stringify : JsValue → Option Json
  | undefined => none
  | null | nan | infinity _ => some .null
  | bool b => some (.bool b)
  | number x => some (.number x.toLiteral)
  | string units => some (.string units)
  | array items => some (.array (stringifyItems items))
  | object fields => some (.object (stringifyFields fields))

/-- An item with no JSON form is written as `null`. -/
def stringifyItems : List JsValue → List Json
  | [] => []
  | v :: rest => (stringify v).getD .null :: stringifyItems rest

/-- A property with no JSON form is left out. -/
def stringifyFields : List (List UInt16 × JsValue) → List (List UInt16 × Json)
  | [] => []
  | (name, v) :: rest =>
      match stringify v with
      | none => stringifyFields rest
      | some j => (name, j) :: stringifyFields rest

end

theorem stringifyItems_eq_map (items : List JsValue) :
    stringifyItems items = items.map (fun v => (stringify v).getD .null) := by
  induction items with
  | nil => rw [stringifyItems, List.map_nil]
  | cons v rest ih => rw [stringifyItems, List.map_cons, ih]

theorem lookup_stringifyFields_of_not_mem {name : List UInt16}
    {fields : List (List UInt16 × JsValue)} (hnot : name ∉ fields.map Prod.fst) :
    (stringifyFields fields).lookup name = none := by
  induction fields with
  | nil => rw [stringifyFields, List.lookup_nil]
  | cons field rest ih =>
    obtain ⟨key, v⟩ := field
    simp only [List.map_cons, List.mem_cons, not_or] at hnot
    have hkey : (name == key) = false := beq_eq_false_iff_ne.mpr hnot.1
    rw [stringifyFields]
    split
    · exact ih hnot.2
    · rw [List.lookup_cons, hkey]
      exact ih hnot.2

/-- Reading a field of the JSON form of an object. -/
theorem lookup_stringifyFields {name : List UInt16} {fields : List (List UInt16 × JsValue)}
    (hnodup : (fields.map Prod.fst).Nodup) :
    (stringifyFields fields).lookup name = (fields.lookup name).bind stringify := by
  induction fields with
  | nil => rw [stringifyFields, List.lookup_nil, List.lookup_nil, Option.bind_none]
  | cons field rest ih =>
    obtain ⟨key, v⟩ := field
    rw [List.map_cons, List.nodup_cons] at hnodup
    rw [stringifyFields]
    by_cases hkey : name = key
    · subst hkey
      rw [List.lookup_cons_self, Option.bind_some]
      split
      · rename_i hnone
        rw [hnone]
        exact lookup_stringifyFields_of_not_mem hnodup.1
      · rename_i j hsome
        rw [hsome, List.lookup_cons_self]
    · have hne : (name == key) = false := beq_eq_false_iff_ne.mpr hkey
      rw [List.lookup_cons, hne, ← ih hnodup.2]
      split
      · rfl
      · rw [List.lookup_cons, hne]

theorem lookup_encode (name : String) (fields : List (String × JsValue)) :
    (fields.map (fun field => (Utf16.encode field.1, field.2))).lookup (Utf16.encode name) =
      fields.lookup name := by
  induction fields with
  | nil => rfl
  | cons field rest ih =>
    obtain ⟨key, v⟩ := field
    rw [List.map_cons, List.lookup_cons, List.lookup_cons, ih]
    by_cases hkey : name = key
    · rw [beq_iff_eq.mpr hkey, beq_iff_eq.mpr (Utf16.encode_inj.mpr hkey)]
    · rw [beq_eq_false_iff_ne.mpr hkey,
        beq_eq_false_iff_ne.mpr (fun h => hkey (Utf16.encode_inj.mp h))]

theorem get_ofFields (name : String) (fields : List (String × JsValue)) :
    (ofFields fields).get name = (fields.lookup name).getD undefined := by
  rw [ofFields, get, lookup_encode]

/-- The JSON form of an object literal. -/
def jsonFields (fields : List (String × JsValue)) : List (List UInt16 × Json) :=
  stringifyFields (fields.map (fun field => (Utf16.encode field.1, field.2)))

theorem stringify_ofFields (fields : List (String × JsValue)) :
    stringify (ofFields fields) = some (.object (jsonFields fields)) := by
  rw [ofFields, stringify, jsonFields]

/-- A struct field read from an object literal. -/
theorem fieldOr_jsonFields {α : Type} (default : α) (decode : Json → Option α) (name : String)
    {fields : List (String × JsValue)} (hnodup : (fields.map Prod.fst).Nodup) :
    Json.fieldOr default decode name (jsonFields fields) =
      Json.orDefault default decode ((fields.lookup name).bind stringify) := by
  have hkeys :
      ((fields.map (fun field => (Utf16.encode field.1, field.2))).map Prod.fst).Nodup := by
    have hmap : (fields.map (fun field => (Utf16.encode field.1, field.2))).map Prod.fst =
        (fields.map Prod.fst).map Utf16.encode := by
      rw [List.map_map, List.map_map]
      rfl
    rw [hmap]
    exact hnodup.map (fun _ _ h => Utf16.encode_inj.mp h)
  rw [Json.fieldOr, jsonFields, lookup_stringifyFields hkeys, lookup_encode]

/-- An optional value that is written as `null` when it is missing. -/
theorem nullable_stringify {α β : Type} (decode : Json → Option β) (f : α → JsValue) (g : α → Json)
    (hf : ∀ a, (f a).stringify = some (g a)) (hg : ∀ a, g a ≠ .null) (x : Option α) :
    Json.orDefault none (Json.nullable decode) ((x.map f).getD null).stringify =
      Json.optional (fun a => decode (g a)) x := by
  cases x with
  | none => simp [stringify, Json.orDefault, Json.nullable, Json.optional]
  | some a =>
    rw [Option.map_some, Option.getD_some, hf, Json.orDefault, Json.optional, Option.elim_some]
    unfold Json.nullable
    split
    · rename_i hnull
      exact absurd hnull (hg a)
    · rfl

end JsValue

end BsslRam.Lib
