import Mathlib

/-!
# JSON documents and typed decoding

A JSON document after its text has been read: numbers keep the form they were
written in, and strings are sequences of UTF-16 code units, since `\u` escapes can
write unpaired surrogates.  The decoders follow `serde_json` with derived
implementations: an integer type takes integer literals in its range and nothing
else, a string must be well-formed, an `Option` takes `null`, and a missing field
takes its default.
-/

namespace BsslRam.Lib

/-! ## UTF-16 -/

namespace Utf16

def encodeChar (c : Char) : List UInt16 :=
  if c.toNat < 0x10000 then [UInt16.ofNat c.toNat]
  else
    [UInt16.ofNat (0xD800 + (c.toNat - 0x10000) / 0x400),
      UInt16.ofNat (0xDC00 + (c.toNat - 0x10000) % 0x400)]

def encode (s : String) : List UInt16 := s.toList.flatMap encodeChar

def isHighSurrogate (u : UInt16) : Bool := 0xD800 ≤ u.toNat && u.toNat < 0xDC00

def isLowSurrogate (u : UInt16) : Bool := 0xDC00 ≤ u.toNat && u.toNat < 0xE000

/-- The text of a sequence of code units, if every surrogate is paired. -/
def decodeChars : List UInt16 → Option (List Char)
  | [] => some []
  | u :: rest =>
      if isHighSurrogate u then
        match rest with
        | v :: rest =>
            if isLowSurrogate v then
              (decodeChars rest).map
                (Char.ofNat (0x10000 + (u.toNat - 0xD800) * 0x400 + (v.toNat - 0xDC00)) :: ·)
            else none
        | [] => none
      else if isLowSurrogate u then none
      else (decodeChars rest).map (Char.ofNat u.toNat :: ·)

def decode (units : List UInt16) : Option String := (decodeChars units).map String.ofList

/-- No surrogate is unpaired. -/
def WellFormed (units : List UInt16) : Prop := ∃ s, decode units = some s

theorem toNat_ofNat {n : Nat} (hn : n < 0x10000) : (UInt16.ofNat n).toNat = n :=
  UInt16.toNat_ofNat_of_lt' hn

/-- A character has a scalar value: no surrogate, and nothing above the last plane. -/
theorem scalar_bounds (c : Char) : c.toNat < 0xD800 ∨ (0xDFFF < c.toNat ∧ c.toNat < 0x110000) :=
  c.valid

theorem decodeChars_encodeChar (c : Char) (rest : List UInt16) :
    decodeChars (encodeChar c ++ rest) = (decodeChars rest).map (c :: ·) := by
  have hscalar := scalar_bounds c
  unfold encodeChar
  by_cases hsmall : c.toNat < 0x10000
  · have hhigh : isHighSurrogate (UInt16.ofNat c.toNat) = false := by
      simp only [isHighSurrogate, toNat_ofNat hsmall, Bool.and_eq_false_iff,
        decide_eq_false_iff_not]
      omega
    have hlow : isLowSurrogate (UInt16.ofNat c.toNat) = false := by
      simp only [isLowSurrogate, toNat_ofNat hsmall, Bool.and_eq_false_iff, decide_eq_false_iff_not]
      omega
    rw [if_pos hsmall, List.singleton_append, decodeChars.eq_def]
    simp only [hhigh, hlow, Bool.false_eq_true, if_false, toNat_ofNat hsmall, Char.ofNat_toNat]
  · -- two surrogates, put together again
    obtain ⟨n, hn⟩ : ∃ n, n = c.toNat - 0x10000 := ⟨_, rfl⟩
    have hu : 0xD800 + n / 0x400 < 0x10000 := by omega
    have hv : 0xDC00 + n % 0x400 < 0x10000 := by omega
    have hhigh : isHighSurrogate (UInt16.ofNat (0xD800 + n / 0x400)) = true := by
      simp only [isHighSurrogate, toNat_ofNat hu, Bool.and_eq_true, decide_eq_true_eq]
      omega
    have hlow : isLowSurrogate (UInt16.ofNat (0xDC00 + n % 0x400)) = true := by
      simp only [isLowSurrogate, toNat_ofNat hv, Bool.and_eq_true, decide_eq_true_eq]
      omega
    have hback : 0x10000 + (0xD800 + n / 0x400 - 0xD800) * 0x400 + (0xDC00 + n % 0x400 - 0xDC00) =
        c.toNat := by omega
    rw [if_neg hsmall, ← hn, List.cons_append, List.singleton_append, decodeChars]
    simp only [hhigh, hlow, if_true, toNat_ofNat hu, toNat_ofNat hv, hback, Char.ofNat_toNat]

theorem decode_encode (s : String) : decode (encode s) = some s := by
  have hchars : ∀ cs : List Char, decodeChars (cs.flatMap encodeChar) = some cs := by
    intro cs
    induction cs with
    | nil => rfl
    | cons c cs ih => rw [List.flatMap_cons, decodeChars_encodeChar, ih, Option.map_some]
  unfold decode encode
  rw [hchars, Option.map_some, String.ofList_toList]

theorem wellFormed_encode (s : String) : WellFormed (encode s) := ⟨s, decode_encode s⟩

theorem encode_inj {s t : String} : encode s = encode t ↔ s = t := by
  constructor
  · intro h
    have hdecode := decode_encode s
    rw [h, decode_encode] at hdecode
    exact (Option.some.inj hdecode).symm
  · intro h
    rw [h]

end Utf16

/-! ## Documents -/

/-- A number as it is written. -/
inductive Literal where
  | integer (i : ℤ)
  /-- `significand * 10 ^ exponent`, with a fraction or an exponent part. -/
  | decimal (significand exponent : ℤ)
  deriving DecidableEq, Repr

inductive Json where
  | null
  | bool (b : Bool)
  | number (n : Literal)
  | string (units : List UInt16)
  | array (items : List Json)
  | object (fields : List (List UInt16 × Json))

namespace Json

/-! ## Decoding -/

/-- An integer literal from `lo` up to, not including, `hi`. -/
def integerIn (lo hi : ℤ) : Json → Option ℤ
  | number (.integer i) => if lo ≤ i ∧ i < hi then some i else none
  | _ => none

def u32 (j : Json) : Option UInt32 :=
  (j.integerIn 0 (2 ^ 32)).map (fun i => UInt32.ofNat i.toNat)

def u64 (j : Json) : Option UInt64 :=
  (j.integerIn 0 (2 ^ 64)).map (fun i => UInt64.ofNat i.toNat)

def i64 (j : Json) : Option Int64 := (j.integerIn (-2 ^ 63) (2 ^ 63)).map Int64.ofInt

def boolean : Json → Option Bool
  | bool b => some b
  | _ => none

def text : Json → Option String
  | string units => Utf16.decode units
  | _ => none

def nullable {α : Type} (decode : Json → Option α) : Json → Option (Option α)
  | null => some none
  | j => (decode j).map some

def sequence {α : Type} (decode : Json → Option α) : Json → Option (List α)
  | array items => items.mapM decode
  | _ => none

/-- The fields of an object. -/
def fields? : Json → Option (List (List UInt16 × Json))
  | object fields => some fields
  | _ => none

/-- A missing value takes the default. -/
def orDefault {α : Type} (default : α) (decode : Json → Option α) : Option Json → Option α
  | none => some default
  | some j => decode j

/-- A field of a struct. -/
def fieldOr {α : Type} (default : α) (decode : Json → Option α) (name : String)
    (fields : List (List UInt16 × Json)) : Option α :=
  orDefault default decode (fields.lookup (Utf16.encode name))

theorem integerIn_eq_some {lo hi i : ℤ} {j : Json} :
    j.integerIn lo hi = some i ↔ j = number (.integer i) ∧ lo ≤ i ∧ i < hi := by
  unfold integerIn
  split
  · rename_i k
    by_cases hk : lo ≤ k ∧ k < hi
    · rw [if_pos hk]
      constructor
      · intro h
        cases h
        exact ⟨rfl, hk⟩
      · intro ⟨h, _⟩
        cases h
        rfl
    · rw [if_neg hk]
      constructor
      · intro h
        cases h
      · intro ⟨h, hin⟩
        cases h
        exact absurd hin hk
  · rename_i hnot
    constructor
    · intro h
      cases h
    · intro ⟨h, _⟩
      exact absurd h (hnot i)

/-! ## Optional values and sequences, value by value -/

section Relations

variable {α β : Type} {f : α → Option β} {R : α → β → Prop}

/-- The decoder of an optional value: `null` is kept, anything else is decoded. -/
def optional (f : α → Option β) (x : Option α) : Option (Option β) :=
  x.elim (some none) (fun a => (f a).map some)

theorem exists_optional_iff (x : Option α) :
    (∃ y, optional f x = some y) ↔ ∀ a ∈ x, ∃ b, f a = some b := by
  cases x with
  | none => simp [optional]
  | some a => simp [optional]

theorem exists_optional_rel_iff (x : Option α) :
    (∃ y, optional f x = some y ∧ Option.Rel R x y) ↔ ∀ a ∈ x, ∃ b, f a = some b ∧ R a b := by
  cases x with
  | none => simp [optional]
  | some a =>
    simp only [optional, Option.elim_some, Option.map_eq_some_iff, Option.mem_some_iff,
      forall_eq']
    constructor
    · intro h
      rcases h with ⟨_, ⟨b, hb, rfl⟩, hrel⟩
      cases hrel with
      | some hab => exact ⟨b, hb, hab⟩
    · intro h
      rcases h with ⟨b, hb, hab⟩
      exact ⟨some b, ⟨b, hb, rfl⟩, .some hab⟩

theorem exists_mapM_rel_iff (xs : List α) :
    (∃ ys, xs.mapM f = some ys ∧ List.Forall₂ R xs ys) ↔
      ∀ a ∈ xs, ∃ b, f a = some b ∧ R a b := by
  induction xs with
  | nil => simp
  | cons a xs ih =>
    simp only [List.mapM_cons, Option.bind_eq_bind, Option.bind_eq_some_iff, Option.pure_def,
      Option.some.injEq, List.forall_mem_cons, ← ih]
    constructor
    · intro h
      rcases h with ⟨_, ⟨b, hb, bs, hbs, rfl⟩, hrel⟩
      cases hrel with
      | cons hab hrest => exact ⟨⟨b, hb, hab⟩, bs, hbs, hrest⟩
    · intro h
      rcases h with ⟨⟨b, hb, hab⟩, bs, hbs, hrest⟩
      exact ⟨b :: bs, ⟨b, hb, bs, hbs, rfl⟩, .cons hab hrest⟩

end Relations

end Json

end BsslRam.Lib
