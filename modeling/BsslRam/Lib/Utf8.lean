import Mathlib

/-!
# UTF-8 over lists of bytes

The encoding of a text and the decoding that fails on anything else, both from the
core library.  What the development needs of them is how they meet ASCII: a byte below
`0x80` is a character of its own and never part of another one, so a file cut at such a
byte decodes piece by piece (`decode_append_ascii`).
-/

namespace BsslRam.Lib.Utf8

/-- The bytes of a text. -/
def encode (s : List Char) : List UInt8 := s.flatMap String.utf8EncodeChar

/-- `String::from_utf8`: the text of the bytes, if they are valid UTF-8. -/
def decode (bytes : List UInt8) : Option (List Char) :=
  bytes.toByteArray.utf8Decode?.map Array.toList

@[simp] theorem encode_nil : encode [] = [] := rfl

@[simp] theorem encode_cons (c : Char) (s : List Char) :
    encode (c :: s) = String.utf8EncodeChar c ++ encode s := rfl

@[simp] theorem encode_append (s t : List Char) : encode (s ++ t) = encode s ++ encode t := by
  simp [encode]

/-- To check something of every byte, check it of 256 numbers. -/
theorem forall_byte {P : UInt8 → Prop} (h : ∀ n < 256, P (UInt8.ofNat n)) (b : UInt8) : P b := by
  have hb := h b.toNat b.toNat_lt
  rwa [UInt8.ofNat_toNat] at hb

/-! ## Decoding undoes encoding -/

theorem utf8Encode_eq (s : List Char) : s.utf8Encode = (encode s).toByteArray := rfl

theorem toByteArray_injective : Function.Injective List.toByteArray := by
  intro xs ys h
  have hdata := congrArg (fun b => b.data.toList) h
  simpa using hdata

theorem decode_eq_some_iff {bytes : List UInt8} {s : List Char} :
    decode bytes = some s ↔ bytes = encode s := by
  constructor
  · intro h
    obtain ⟨chars, hchars, rfl⟩ := Option.map_eq_some_iff.mp h
    have hsome : bytes.toByteArray.utf8Decode?.isSome = true := by rw [hchars]; rfl
    have hget := ByteArray.utf8Encode_get_utf8Decode? (b := bytes.toByteArray) (h := hsome)
    simp only [hchars, Option.get_some] at hget
    rw [utf8Encode_eq] at hget
    exact (toByteArray_injective hget).symm
  · intro h
    have hdecode := List.utf8Decode?_utf8Encode (l := s)
    rw [utf8Encode_eq, ← h] at hdecode
    rw [decode, hdecode]
    rfl

@[simp] theorem decode_encode (s : List Char) : decode (encode s) = some s :=
  decode_eq_some_iff.mpr rfl

/-- A text in front of other bytes is decoded first. -/
theorem decode_encode_append (s : List Char) (bytes : List UInt8) :
    decode (encode s ++ bytes) = (decode bytes).map (s ++ ·) := by
  induction s with
  | nil =>
    rw [encode_nil, List.nil_append]
    exact Option.map_id'.symm
  | cons c s ih =>
    have hfirst := ByteArray.utf8Decode?_utf8Encode_singleton_append (c := c)
      (l := (encode s ++ bytes).toByteArray)
    rw [utf8Encode_eq, ← List.toByteArray_append] at hfirst
    have hdecode : decode (encode (c :: s) ++ bytes) =
        (decode (encode s ++ bytes)).map (c :: ·) := by
      rw [encode_cons, List.append_assoc]
      simpa [decode, Function.comp_def] using congrArg (Option.map Array.toList) hfirst
    rw [hdecode, ih, Option.map_map]
    rfl

/-- The length of a text in bytes. -/
theorem length_encode (s : List Char) : (encode s).length = (s.map Char.utf8Size).sum := by
  induction s with
  | nil => rfl
  | cons c s ih =>
    rw [encode_cons, List.length_append, String.length_utf8EncodeChar, ih, List.map_cons,
      List.sum_cons]

/-! ## ASCII -/

theorem utf8EncodeChar_ascii {c : Char} (h : c.toNat < 128) :
    String.utf8EncodeChar c = [UInt8.ofNat c.toNat] := by
  unfold String.utf8EncodeChar
  exact if_pos (Nat.le_of_lt_succ h)

/-- The bytes of any other character are all above `0x7f`. -/
theorem le_of_mem_utf8EncodeChar {c : Char} (h : 128 ≤ c.toNat) :
    ∀ b ∈ String.utf8EncodeChar c, 128 ≤ b.toNat := by
  have hone : ¬ c.val.toNat ≤ 0x7f := by
    have hval : c.val.toNat = c.toNat := rfl
    omega
  unfold String.utf8EncodeChar
  simp only [if_neg hone]
  split
  · simp
    omega
  · split
    · simp
      omega
    · simp
      omega

/-- The first of them is above `0xbf`. -/
theorem exists_lead_of_utf8EncodeChar {c : Char} (h : 128 ≤ c.toNat) :
    ∃ b ∈ String.utf8EncodeChar c, 192 ≤ b.toNat := by
  have hone : ¬ c.val.toNat ≤ 0x7f := by
    have hval : c.val.toNat = c.toNat := rfl
    omega
  unfold String.utf8EncodeChar
  simp only [if_neg hone]
  split
  · exact ⟨_, List.mem_cons_self, by simp; omega⟩
  · split
    · exact ⟨_, List.mem_cons_self, by simp; omega⟩
    · exact ⟨_, List.mem_cons_self, by simp; omega⟩

/-- A byte below `0x80` in the encoding of a character is that character. -/
theorem utf8EncodeChar_of_mem {c : Char} {b : UInt8} (hb : b.toNat < 128)
    (h : b ∈ String.utf8EncodeChar c) : c.toNat = b.toNat ∧ String.utf8EncodeChar c = [b] := by
  by_cases hc : c.toNat < 128
  · rw [utf8EncodeChar_ascii hc] at h ⊢
    rw [List.mem_singleton] at h
    subst h
    refine ⟨?_, rfl⟩
    rw [UInt8.toNat_ofNat']
    omega
  · have hle := le_of_mem_utf8EncodeChar (Nat.le_of_not_lt hc) b h
    omega

/-- A byte above `0x7f` is no text by itself. -/
theorem decode_singleton {b : UInt8} (h : 128 ≤ b.toNat) : decode [b] = none := by
  rw [Option.eq_none_iff_forall_not_mem]
  intro s hs
  have hbytes := decode_eq_some_iff.mp hs
  cases s with
  | nil => cases hbytes
  | cons c s =>
    have hlength := congrArg List.length hbytes
    rw [encode_cons, List.length_append, String.length_utf8EncodeChar, List.length_singleton]
      at hlength
    have hpos := c.utf8Size_pos
    have hone : c.utf8Size = 1 := by omega
    have hascii : c.toNat < 128 := by
      have hle := UInt32.le_iff_toNat_le.mp (Char.utf8Size_eq_one_iff.mp hone)
      exact Nat.lt_succ_of_le hle
    rw [encode_cons, utf8EncodeChar_ascii hascii, List.singleton_append, List.cons.injEq] at hbytes
    rw [hbytes.1, UInt8.toNat_ofNat'] at h
    omega

/-- An ASCII byte is a character of its own. -/
theorem eq_of_utf8EncodeChar_eq {c a : Char} (ha : a.toNat < 128) {front back : List UInt8}
    (h : String.utf8EncodeChar c = front ++ UInt8.ofNat a.toNat :: back) :
    c = a ∧ front = [] ∧ back = [] := by
  have hbyte : (UInt8.ofNat a.toNat).toNat = a.toNat := by
    rw [UInt8.toNat_ofNat']
    omega
  have hmem : UInt8.ofNat a.toNat ∈ String.utf8EncodeChar c := by
    rw [h]
    simp
  obtain ⟨hchar, hsingle⟩ := utf8EncodeChar_of_mem (by rw [hbyte]; exact ha) hmem
  rw [hbyte, Char.toNat_inj] at hchar
  have hlength := congrArg List.length (hsingle.symm.trans h)
  rw [List.length_singleton, List.length_append, List.length_cons] at hlength
  exact ⟨hchar, List.length_eq_zero_iff.mp (by omega), List.length_eq_zero_iff.mp (by omega)⟩

/-- The text is cut where its bytes are. -/
theorem exists_of_encode_eq {s : List Char} {front back : List UInt8} {a : Char}
    (ha : a.toNat < 128) (h : encode s = front ++ UInt8.ofNat a.toNat :: back) :
    ∃ before after, s = before ++ a :: after ∧ encode before = front ∧ encode after = back := by
  induction s generalizing front with
  | nil => simp at h
  | cons c s ih =>
    rw [encode_cons, List.append_eq_append_iff] at h
    -- the cut is behind the first character, right behind it, or inside it
    rcases h with ⟨front', hfront, hs⟩ | ⟨back', hc, hback⟩
    · obtain ⟨before, after, rfl, hbefore, hafter⟩ := ih hs
      refine ⟨c :: before, after, rfl, ?_, hafter⟩
      rw [encode_cons, hbefore, hfront]
    · cases back' with
      | nil =>
        obtain ⟨before, after, rfl, hbefore, hafter⟩ := @ih [] hback.symm
        refine ⟨c :: before, after, rfl, ?_, hafter⟩
        rw [encode_cons, hbefore, hc, List.append_nil, List.append_nil]
      | cons b back' =>
        rw [List.cons_append, List.cons.injEq] at hback
        rw [← hback.1] at hc
        obtain ⟨hchar, hfront, hnone⟩ := eq_of_utf8EncodeChar_eq ha hc
        refine ⟨[], s, ?_, ?_, ?_⟩
        · rw [hchar, List.nil_append]
        · rw [hfront, encode_nil]
        · rw [hback.2, hnone, List.nil_append]

/-- At an ASCII byte a file can be decoded piece by piece. -/
theorem decode_append_ascii (front back : List UInt8) {a : Char} (ha : a.toNat < 128) :
    decode (front ++ UInt8.ofNat a.toNat :: back) =
      (decode front).bind fun before => (decode back).map fun after => before ++ a :: after := by
  apply Option.ext
  intro s
  simp only [decode_eq_some_iff, Option.bind_eq_some_iff, Option.map_eq_some_iff]
  constructor
  · intro h
    obtain ⟨before, after, hs, hbefore, hafter⟩ := exists_of_encode_eq ha h.symm
    exact ⟨before, hbefore.symm, after, hafter.symm, hs.symm⟩
  · intro ⟨before, hbefore, after, hafter, hs⟩
    rw [← hs, encode_append, encode_cons, utf8EncodeChar_ascii ha, hbefore, hafter]
    rfl

end BsslRam.Lib.Utf8
