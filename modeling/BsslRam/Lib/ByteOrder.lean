import Mathlib

/-!
# Words in memory

Numbers as sequences of bytes, in either byte order.  `toBytes` lays a number out over a
given width and `ofBytes` reads it back; on a fixed width each undoes the other.  The
second half is the case that packed structures of 32-bit fields need: a buffer that
starts with given words gives them back at their offsets, and every long enough buffer
starts with some.
-/

namespace BsslRam.Lib

inductive ByteOrder where
  | little
  | big
  deriving DecidableEq, Repr

namespace ByteOrder

/-! ## Numbers -/

/-- The number whose least significant byte comes first. -/
def ofLittle : List UInt8 → Nat
  | [] => 0
  | b :: bytes => b.toNat + 256 * ofLittle bytes

/-- The lowest `width` bytes of a number, the least significant one first. -/
def toLittle : Nat → Nat → List UInt8
  | 0, _ => []
  | width + 1, n => UInt8.ofNat n :: toLittle width (n / 256)

def ofBytes (order : ByteOrder) (bytes : List UInt8) : Nat :=
  match order with
  | little => ofLittle bytes
  | big => ofLittle bytes.reverse

def toBytes (order : ByteOrder) (width n : Nat) : List UInt8 :=
  match order with
  | little => toLittle width n
  | big => (toLittle width n).reverse

theorem length_toLittle (width n : Nat) : (toLittle width n).length = width := by
  induction width generalizing n with
  | zero => rfl
  | succ width ih => rw [toLittle, List.length_cons, ih]

theorem ofLittle_toLittle {width n : Nat} (h : n < 256 ^ width) :
    ofLittle (toLittle width n) = n := by
  induction width generalizing n with
  | zero =>
    rw [Nat.pow_zero] at h
    rw [toLittle, ofLittle]
    omega
  | succ width ih =>
    have hrest : n / 256 < 256 ^ width := Nat.div_lt_of_lt_mul (by rwa [Nat.pow_succ'] at h)
    rw [toLittle, ofLittle, ih hrest, UInt8.toNat_ofNat']
    omega

theorem toLittle_ofLittle (bytes : List UInt8) :
    toLittle bytes.length (ofLittle bytes) = bytes := by
  induction bytes with
  | nil => rfl
  | cons b bytes ih =>
    have hb := b.toNat_lt
    have hlow : UInt8.ofNat (b.toNat + 256 * ofLittle bytes) = b := by
      apply UInt8.toNat.inj
      rw [UInt8.toNat_ofNat']
      omega
    have hhigh : (b.toNat + 256 * ofLittle bytes) / 256 = ofLittle bytes := by omega
    rw [List.length_cons, ofLittle, toLittle, hlow, hhigh, ih]

theorem ofLittle_lt (bytes : List UInt8) : ofLittle bytes < 256 ^ bytes.length := by
  induction bytes with
  | nil => exact Nat.one_pos
  | cons b bytes ih =>
    have hb := b.toNat_lt
    rw [ofLittle, List.length_cons, Nat.pow_succ]
    omega

@[simp] theorem length_toBytes (order : ByteOrder) (width n : Nat) :
    (order.toBytes width n).length = width := by
  cases order with
  | little => exact length_toLittle width n
  | big => exact (List.length_reverse).trans (length_toLittle width n)

theorem ofBytes_toBytes (order : ByteOrder) {width n : Nat} (h : n < 256 ^ width) :
    order.ofBytes (order.toBytes width n) = n := by
  cases order with
  | little => exact ofLittle_toLittle h
  | big =>
    rw [ofBytes, toBytes, List.reverse_reverse]
    exact ofLittle_toLittle h

theorem toBytes_ofBytes (order : ByteOrder) (bytes : List UInt8) :
    order.toBytes bytes.length (order.ofBytes bytes) = bytes := by
  cases order with
  | little => exact toLittle_ofLittle bytes
  | big =>
    have hreverse := toLittle_ofLittle bytes.reverse
    rw [List.length_reverse] at hreverse
    rw [ofBytes, toBytes, hreverse, List.reverse_reverse]

theorem ofBytes_lt (order : ByteOrder) (bytes : List UInt8) :
    order.ofBytes bytes < 256 ^ bytes.length := by
  cases order with
  | little => exact ofLittle_lt bytes
  | big =>
    have hlt := ofLittle_lt bytes.reverse
    rwa [List.length_reverse] at hlt

/-! ## 32-bit words -/

def wordBytes (order : ByteOrder) (w : UInt32) : List UInt8 := order.toBytes 4 w.toNat

/-- The word at a byte offset. -/
def wordAt (order : ByteOrder) (bytes : List UInt8) (offset : Nat) : UInt32 :=
  UInt32.ofNat (order.ofBytes ((bytes.drop offset).take 4))

/-- Words one after the other. -/
def wire (order : ByteOrder) (ws : List UInt32) : List UInt8 := ws.flatMap order.wordBytes

variable (order : ByteOrder)

@[simp] theorem length_wordBytes (w : UInt32) : (order.wordBytes w).length = 4 :=
  length_toBytes order 4 w.toNat

@[simp] theorem length_wire (ws : List UInt32) : (order.wire ws).length = 4 * ws.length := by
  induction ws with
  | nil => rfl
  | cons w ws ih =>
    rw [wire, List.flatMap_cons, List.length_append, length_wordBytes, List.length_cons]
    rw [wire] at ih
    omega

theorem wire_cons (w : UInt32) (ws : List UInt32) :
    order.wire (w :: ws) = order.wordBytes w ++ order.wire ws := rfl

/-- The first word of a buffer. -/
@[simp] theorem wordAt_wire_zero (w : UInt32) (ws : List UInt32) (rest : List UInt8) :
    order.wordAt (order.wire (w :: ws) ++ rest) 0 = w := by
  have hlt : w.toNat < 256 ^ 4 := w.toNat_lt
  rw [wordAt, wire_cons, List.drop_zero, List.append_assoc,
    List.take_left' (length_wordBytes order w), wordBytes, ofBytes_toBytes order hlt,
    UInt32.ofNat_toNat]

/-- The words behind the first one are four bytes further on. -/
@[simp] theorem wordAt_wire_add (w : UInt32) (ws : List UInt32) (rest : List UInt8)
    (offset : Nat) : order.wordAt (order.wire (w :: ws) ++ rest) (offset + 4) =
      order.wordAt (order.wire ws ++ rest) offset := by
  have hdrop : (order.wire (w :: ws) ++ rest).drop (offset + 4) =
      (order.wire ws ++ rest).drop offset := by
    rw [Nat.add_comm, ← List.drop_drop, wire_cons, List.append_assoc,
      List.drop_left' (length_wordBytes order w)]
  rw [wordAt, wordAt, hdrop]

theorem exists_wordBytes {bytes : List UInt8} (h : bytes.length = 4) :
    ∃ w, bytes = order.wordBytes w := by
  have hlt := ofBytes_lt order bytes
  have hback := toBytes_ofBytes order bytes
  rw [h] at hlt hback
  refine ⟨UInt32.ofNat (order.ofBytes bytes), ?_⟩
  rw [wordBytes, UInt32.toNat_ofNat_of_lt' hlt, hback]

/-- A buffer of at least `4 * k` bytes starts with `k` words. -/
theorem exists_wire {bytes : List UInt8} {k : Nat} (h : 4 * k ≤ bytes.length) :
    ∃ ws rest, ws.length = k ∧ bytes = order.wire ws ++ rest := by
  induction k generalizing bytes with
  | zero => exact ⟨[], bytes, rfl, rfl⟩
  | succ k ih =>
    have hfirst : (bytes.take 4).length = 4 := by
      rw [List.length_take]
      omega
    have hrest : 4 * k ≤ (bytes.drop 4).length := by
      rw [List.length_drop]
      omega
    obtain ⟨w, hw⟩ := exists_wordBytes order hfirst
    obtain ⟨ws, rest, hlength, hws⟩ := ih hrest
    refine ⟨w :: ws, rest, by rw [List.length_cons, hlength], ?_⟩
    rw [wire_cons, List.append_assoc, ← hws, ← hw, List.take_append_drop]

end ByteOrder

end BsslRam.Lib
