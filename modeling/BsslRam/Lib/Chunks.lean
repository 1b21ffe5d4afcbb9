import Mathlib

/-!
# Cutting a list into chunks

`slice::chunks(n)` cuts a slice into consecutive pieces of `n` elements, the
last of which may be shorter.  The scan carries the open chunk along, so it is
structural on the list and evaluates in the kernel.
-/

namespace BsslRam.Lib.Chunks

variable {α : Type}

/-- The chunks of `xs` when `open_` is the chunk already begun. -/
def chunksFrom (n : Nat) (open_ : List α) : List α → List (List α)
  | [] => if open_.isEmpty then [] else [open_]
  | x :: xs =>
      if n ≤ open_.length + 1 then (open_ ++ [x]) :: chunksFrom n [] xs
      else chunksFrom n (open_ ++ [x]) xs

/-- `slice::chunks(n)`. -/
def chunks (n : Nat) (xs : List α) : List (List α) := chunksFrom n [] xs

theorem flatten_chunksFrom (n : Nat) (open_ xs : List α) :
    (chunksFrom n open_ xs).flatten = open_ ++ xs := by
  induction xs generalizing open_ with
  | nil => cases open_ <;> simp [chunksFrom]
  | cons x xs ih =>
    rw [chunksFrom]
    split
    · rw [List.flatten_cons, ih []]
      simp
    · rw [ih (open_ ++ [x])]
      simp

/-- The chunks of a list, put together again, are the list. -/
theorem flatten_chunks (n : Nat) (xs : List α) : (chunks n xs).flatten = xs :=
  flatten_chunksFrom n [] xs

/-- Only the empty list has no chunks. -/
theorem chunks_eq_nil_iff (n : Nat) (xs : List α) : chunks n xs = [] ↔ xs = [] := by
  constructor
  · intro h
    rw [← flatten_chunks n xs, h, List.flatten_nil]
  · rintro rfl
    rfl

theorem length_of_mem_chunksFrom {n : Nat} {open_ xs chunk : List α} (hopen : open_.length < n)
    (h : chunk ∈ chunksFrom n open_ xs) : 0 < chunk.length ∧ chunk.length ≤ n := by
  induction xs generalizing open_ with
  | nil =>
    rw [chunksFrom] at h
    cases open_ with
    | nil => cases h
    | cons x open_ =>
      rw [List.mem_singleton.mp h]
      exact ⟨Nat.zero_lt_succ _, Nat.le_of_lt hopen⟩
  | cons x xs ih =>
    rw [chunksFrom] at h
    split at h
    · rcases List.mem_cons.mp h with rfl | hrest
      · rw [List.length_append, List.length_singleton]
        omega
      · exact ih (by rw [List.length_nil]; omega) hrest
    · exact ih (by rw [List.length_append, List.length_singleton]; omega) h

/-- No chunk is empty, and none is longer than `n`. -/
theorem length_of_mem_chunks {n : Nat} (hn : 0 < n) {xs chunk : List α} (h : chunk ∈ chunks n xs) :
    0 < chunk.length ∧ chunk.length ≤ n :=
  @length_of_mem_chunksFrom α n [] xs chunk hn h

theorem length_chunksFrom {n : Nat} {open_ : List α} (hopen : open_.length < n) (xs : List α) :
    (chunksFrom n open_ xs).length = (open_.length + xs.length) ⌈/⌉ n := by
  induction xs generalizing open_ with
  | nil =>
    rw [chunksFrom]
    cases open_ with
    | nil => simp
    | cons x open_ =>
      have hone : ((x :: open_).length + 0) ⌈/⌉ n = 1 := by
        rw [Nat.ceilDiv_eq_add_pred_div, Nat.div_eq_of_lt_le]
        · rw [List.length_cons]
          omega
        · omega
      rw [List.length_nil, hone]
      rfl
  | cons x xs ih =>
    rw [chunksFrom]
    split
    · -- the open chunk is full
      have hfull : open_.length + (x :: xs).length = xs.length + n := by
        rw [List.length_cons]
        omega
      have hmore : xs.length + n + n - 1 = xs.length + n - 1 + n := by omega
      rw [List.length_cons, ih (by rw [List.length_nil]; omega), hfull, List.length_nil,
        Nat.zero_add, Nat.ceilDiv_eq_add_pred_div, Nat.ceilDiv_eq_add_pred_div, hmore,
        Nat.add_div_right _ (by omega)]
    · have hlength : (open_ ++ [x]).length = open_.length + 1 := by
        rw [List.length_append, List.length_singleton]
      rw [ih (by omega), hlength, List.length_cons, Nat.add_assoc, Nat.add_comm 1]

/-- There are as many chunks as it takes. -/
theorem length_chunks {n : Nat} (hn : 0 < n) (xs : List α) :
    (chunks n xs).length = xs.length ⌈/⌉ n := by
  rw [chunks, length_chunksFrom hn, List.length_nil, Nat.zero_add]

end BsslRam.Lib.Chunks
