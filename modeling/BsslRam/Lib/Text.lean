import Mathlib

/-!
# The `str` operations of the Rust standard library

A `&str` is a list of `char`, and these are the operations that the parsers of
the daemon apply to it.  Most slices of the source start or end at a character it
has just found, so they are parts of the list (`splitFirst`).  Where the source
computes with byte offsets, so do `rfind` and `getFrom`.

The lemmas say what each operation gives on a text that is put together from
parts: words and whitespace, lines, numbers in some radix.
-/

namespace BsslRam.Lib.Text

/-- `char::is_whitespace`: the Unicode property `White_Space`. -/
def isWhitespace (c : Char) : Bool :=
  let n := c.toNat
  (9 ≤ n && n ≤ 13) || n == 0x20 || n == 0x85 || n == 0xA0 || n == 0x1680 ||
    (0x2000 ≤ n && n ≤ 0x200A) || n == 0x2028 || n == 0x2029 || n == 0x202F ||
    n == 0x205F || n == 0x3000

/-- `str::split_whitespace`: the non-empty pieces between whitespace. -/
def splitWhitespace (s : List Char) : List (List Char) :=
  (s.splitOnP isWhitespace).filter (fun w => !w.isEmpty)

/-- Drop one trailing carriage return. -/
def stripCr (line : List Char) : List Char :=
  if line.getLast? = some '\r' then line.dropLast else line

/-- `str::lines`.  A line that ends in a line feed loses it and one carriage
return before it; what follows the last line feed is a line of its own unless
it is empty. -/
def lines (s : List Char) : List (List Char) :=
  let segments := s.splitOn '\n'
  let last := segments.getLast?.getD []
  segments.dropLast.map stripCr ++ if last.isEmpty then [] else [last]

/-- The text before and after the first `c`, as `find` and two slices give
them. -/
def splitFirst (c : Char) : List Char → Option (List Char × List Char)
  | [] => none
  | x :: xs =>
      if x = c then some ([], xs)
      else (splitFirst c xs).map (fun (before, after) => (x :: before, after))

/-- `char::to_digit(radix)`. -/
def toDigit (radix : Nat) (c : Char) : Option Nat :=
  let digit :=
    if '0' ≤ c ∧ c ≤ '9' then some (c.toNat - '0'.toNat)
    else if 'a' ≤ c ∧ c ≤ 'z' then some (c.toNat - 'a'.toNat + 10)
    else if 'A' ≤ c ∧ c ≤ 'Z' then some (c.toNat - 'A'.toNat + 10)
    else none
  digit.filter (fun d => d < radix)

/-- The value of a digit string, most significant digit first. -/
def digitsValue (radix : Nat) (s : List Char) : Option Nat :=
  s.foldlM (fun acc c => (toDigit radix c).map (fun d => acc * radix + d)) 0

/-- `u64::from_str_radix` (and `usize`, which is the same on a 64-bit target):
an optional plus sign, at least one digit, and a value that fits. -/
def fromStrRadix (radix : Nat) (s : List Char) : Option UInt64 :=
  let digits := if s.head? = some '+' then s.tail else s
  if digits.isEmpty then none
  else
    match digitsValue radix digits with
    | none => none
    | some n => if n < 2 ^ 64 then some (UInt64.ofNat n) else none

/-- `str::contains` for a string pattern. -/
def contains (s pattern : List Char) : Bool := decide (pattern <:+: s)

/-- `str::to_ascii_lowercase`. -/
def toAsciiLowercase (s : List Char) : List Char := s.map Char.toLower

/-! ## Cutting at a character -/

theorem splitFirst_eq_some_iff {c : Char} {s before after : List Char} :
    splitFirst c s = some (before, after) ↔ s = before ++ c :: after ∧ c ∉ before := by
  induction s generalizing before with
  | nil => simp [splitFirst]
  | cons x xs ih =>
    unfold splitFirst
    by_cases hx : x = c
    · rw [if_pos hx, hx]
      cases before with
      | nil => simp
      | cons y before =>
        simp only [Option.some.injEq, Prod.mk.injEq, List.nil_eq, reduceCtorEq, false_and,
          List.cons_append, List.cons.injEq, List.mem_cons, not_or, false_iff, not_and]
        intro h
        exact fun hne => absurd h.1 hne
    · rw [if_neg hx, Option.map_eq_some_iff]
      cases before with
      | nil => simp [hx]
      | cons y before =>
        simp only [Prod.exists, Prod.mk.injEq, List.cons.injEq, List.cons_append, List.mem_cons,
          not_or]
        constructor
        · intro ⟨a, b, hab, ⟨hxy, hbefore⟩, hafter⟩
          rw [hbefore, hafter] at hab
          obtain ⟨hxs, hnot⟩ := ih.mp hab
          exact ⟨⟨hxy, hxs⟩, fun h => hx (hxy.trans h.symm), hnot⟩
        · intro ⟨⟨hxy, hxs⟩, _, hnot⟩
          exact ⟨before, after, ih.mpr ⟨hxs, hnot⟩, ⟨hxy, rfl⟩, rfl⟩

/-! ## Words -/

/-- A piece that `split_whitespace` can return. -/
structure IsWord (w : List Char) : Prop where
  ne_nil : w ≠ []
  plain : ∀ c ∈ w, isWhitespace c = false

theorem splitWhitespace_cons_of_whitespace {c : Char} (hc : isWhitespace c = true)
    (s : List Char) : splitWhitespace (c :: s) = splitWhitespace s := by
  unfold splitWhitespace
  rw [List.splitOnP_cons_eq_if_modifyHead, if_pos hc, List.filter_cons_of_neg (by simp)]

/-- Leading whitespace makes no word. -/
theorem splitWhitespace_run_append {run : List Char} (hrun : ∀ c ∈ run, isWhitespace c = true)
    (s : List Char) : splitWhitespace (run ++ s) = splitWhitespace s := by
  induction run with
  | nil => rfl
  | cons c run ih =>
    rw [List.cons_append, splitWhitespace_cons_of_whitespace (hrun c List.mem_cons_self),
      ih (fun d hd => hrun d (List.mem_cons_of_mem _ hd))]

theorem IsWord.splitWhitespace_eq {w : List Char} (h : IsWord w) : splitWhitespace w = [w] := by
  unfold splitWhitespace
  rw [List.splitOnP_eq_singleton h.plain]
  simp [h.ne_nil]

/-- A word ends at the next whitespace. -/
theorem IsWord.splitWhitespace_append_cons {w : List Char} (h : IsWord w) {c : Char}
    (hc : isWhitespace c = true) (s : List Char) :
    splitWhitespace (w ++ c :: s) = w :: splitWhitespace s := by
  unfold splitWhitespace
  rw [List.splitOnP_append_cons_of_forall_mem h.plain c hc, List.filter_cons_of_pos]
  simp [h.ne_nil]

/-- Whitespace alone has no words. -/
theorem splitWhitespace_run {run : List Char} (hrun : ∀ c ∈ run, isWhitespace c = true) :
    splitWhitespace run = [] := by
  have hall := splitWhitespace_run_append hrun []
  rwa [List.append_nil] at hall

theorem IsWord.splitWhitespace_append_run {w : List Char} (h : IsWord w) {run : List Char}
    (hrun : ∀ c ∈ run, isWhitespace c = true) : splitWhitespace (w ++ run) = [w] := by
  cases run with
  | nil => rw [List.append_nil, h.splitWhitespace_eq]
  | cons c run =>
    rw [List.forall_mem_cons] at hrun
    rw [h.splitWhitespace_append_cons hrun.1, splitWhitespace_run hrun.2]

/-- Words with a space between them, and any whitespace at the end. -/
theorem splitWhitespace_intercalate {ws : List (List Char)} (h : ∀ w ∈ ws, IsWord w)
    {tail : List Char} (htail : ∀ c ∈ tail, isWhitespace c = true) :
    splitWhitespace (List.intercalate [' '] ws ++ tail) = ws := by
  induction ws with
  | nil => exact splitWhitespace_run htail
  | cons w ws ih =>
    rw [List.forall_mem_cons] at h
    cases ws with
    | nil => rw [List.intercalate_singleton, h.1.splitWhitespace_append_run htail]
    | cons w' ws =>
      rw [List.intercalate_cons_cons, List.append_assoc, List.append_assoc, List.singleton_append,
        h.1.splitWhitespace_append_cons (by decide), ih h.2]

/-- Words with any whitespace before each, and any whitespace at the end. -/
theorem splitWhitespace_joined {w : List Char} (hw : IsWord w)
    {rest : List (List Char × List Char)}
    (hrest : ∀ r ∈ rest, r.1 ≠ [] ∧ (∀ c ∈ r.1, isWhitespace c = true) ∧ IsWord r.2)
    {tail : List Char} (htail : ∀ c ∈ tail, isWhitespace c = true) :
    splitWhitespace (w ++ (rest.flatMap (fun r => r.1 ++ r.2) ++ tail)) =
      w :: rest.map Prod.snd := by
  induction rest generalizing w with
  | nil => exact hw.splitWhitespace_append_run htail
  | cons r rest ih =>
    rw [List.forall_mem_cons] at hrest
    obtain ⟨⟨hne, hrun, hword⟩, hrest⟩ := hrest
    obtain ⟨c, run, hr⟩ := List.exists_cons_of_ne_nil hne
    rw [hr, List.forall_mem_cons] at hrun
    rw [List.flatMap_cons, hr]
    simp only [List.cons_append, List.append_assoc]
    rw [hw.splitWhitespace_append_cons hrun.1, splitWhitespace_run_append hrun.2, ih hword hrest,
      List.map_cons]

theorem flatten_splitOnP (p : Char → Bool) (s : List Char) :
    (s.splitOnP p).flatten = s.filter (fun c => !p c) := by
  induction s with
  | nil => rfl
  | cons c s ih =>
    rw [List.splitOnP_cons_eq_if_modifyHead]
    by_cases hc : p c = true
    · rw [if_pos hc, List.flatten_cons, List.nil_append, ih, List.filter_cons_of_neg (by simp [hc])]
    · obtain ⟨head, rest, hsplit⟩ := List.exists_cons_of_ne_nil (List.splitOnP_ne_nil p s)
      rw [hsplit, List.flatten_cons] at ih
      rw [if_neg hc, hsplit, List.modifyHead_cons, List.flatten_cons, List.cons_append, ih,
        List.filter_cons_of_pos (by simp [hc])]

/-- The words together are everything that is not whitespace. -/
theorem flatten_splitWhitespace (s : List Char) :
    (splitWhitespace s).flatten = s.filter (fun c => !isWhitespace c) := by
  unfold splitWhitespace
  rw [List.flatten_filter_not_isEmpty, flatten_splitOnP]

/-! ## Lines -/

theorem lines_append_newline {l : List Char} (hl : '\n' ∉ l) (s : List Char) :
    lines (l ++ '\n' :: s) = stripCr l :: lines s := by
  have hsplit : (l ++ '\n' :: s).splitOn '\n' = l :: s.splitOn '\n' := by
    rw [List.splitOn_eq_splitOnP, List.splitOn_eq_splitOnP]
    exact List.splitOnP_append_cons_of_forall_mem
      (fun c hc => by simpa using fun h : c = '\n' => hl (h ▸ hc)) '\n' (by simp) s
  have hne : s.splitOn '\n' ≠ [] := by
    rw [List.splitOn_eq_splitOnP]
    exact List.splitOnP_ne_nil _ s
  unfold lines
  simp only [hsplit]
  rw [List.dropLast_cons_of_ne_nil hne, List.getLast?_cons, List.map_cons, List.cons_append]
  cases hlast : (s.splitOn '\n').getLast? with
  | none => exact absurd (List.getLast?_eq_none_iff.mp hlast) hne
  | some last => rfl

/-- Lines that all end in a line feed. -/
theorem lines_terminated {ls : List (List Char)} (h : ∀ l ∈ ls, '\n' ∉ l) :
    lines (ls.flatMap (fun l => l ++ ['\n'])) = ls.map stripCr := by
  induction ls with
  | nil => rfl
  | cons l ls ih =>
    rw [List.forall_mem_cons] at h
    rw [List.flatMap_cons, List.append_assoc, List.singleton_append, lines_append_newline h.1,
      ih h.2, List.map_cons]

/-- A carriage return is stripped from the end only. -/
theorem exists_stripCr_append {front : List Char} (h : front.getLast? ≠ some '\r')
    (back : List Char) : ∃ back', stripCr (front ++ back) = front ++ back' := by
  unfold stripCr
  by_cases hcr : (front ++ back).getLast? = some '\r'
  · rw [if_pos hcr]
    by_cases hback : back = []
    · rw [hback, List.append_nil] at hcr
      exact absurd hcr h
    · exact ⟨back.dropLast, List.dropLast_append_of_ne_nil hback⟩
  · exact ⟨back, if_neg hcr⟩

theorem stripCr_prefix (l : List Char) : stripCr l <+: l := by
  unfold stripCr
  split
  · exact List.dropLast_prefix l
  · exact List.prefix_refl l

/-! ## Digits -/

theorem toDigit_digitChar {radix d : Nat} (hradix : radix ≤ 16) (hd : d < radix) :
    toDigit radix d.digitChar = some d := by
  have hlt : d < 16 := by omega
  have hvalue : ∀ e < 16, (toDigit 16 (Nat.digitChar e)) = some e := by decide
  have h16 := hvalue d hlt
  unfold toDigit at h16 ⊢
  simp only [Option.filter_eq_some_iff] at h16 ⊢
  exact ⟨h16.1, by simpa using hd⟩

theorem digitsValue_append {radix : Nat} {s t : List Char} {n : Nat}
    (hs : digitsValue radix s = some n) :
    digitsValue radix (s ++ t) =
      t.foldlM (fun acc c => (toDigit radix c).map (fun d => acc * radix + d)) n := by
  unfold digitsValue at hs ⊢
  rw [List.foldlM_append, hs]
  rfl

theorem digitsValue_toDigits {radix : Nat} (hlo : 1 < radix) (hhi : radix ≤ 16) (n : Nat) :
    digitsValue radix (Nat.toDigits radix n) = some n := by
  induction n using Nat.strongRecOn with
  | _ n ih =>
    by_cases hn : n < radix
    · rw [Nat.toDigits_of_lt_base hn, digitsValue]
      simp [toDigit_digitChar hhi hn]
    · have hle : radix ≤ n := Nat.le_of_not_lt hn
      have hdiv : n / radix < n := Nat.div_lt_self (by omega) hlo
      rw [Nat.toDigits_of_base_le hlo hle, digitsValue_append (ih _ hdiv)]
      simp [toDigit_digitChar hhi (Nat.mod_lt n (by omega)), Nat.div_add_mod']

/-- Leading zeros do not count. -/
theorem digitsValue_replicate_zero {radix : Nat} (hradix : 0 < radix) (k : Nat) (s : List Char) :
    digitsValue radix (List.replicate k '0' ++ s) = digitsValue radix s := by
  induction k with
  | zero => rfl
  | succ k ih =>
    have hzero : toDigit radix '0' = some 0 := by
      simp [toDigit, hradix, Option.filter]
    rw [List.replicate_succ, List.cons_append, ← ih]
    simp [digitsValue, hzero]

/-- A string of decimal digits with this value. -/
structure IsDecimal (s : List Char) (n : Nat) : Prop where
  ne_nil : s ≠ []
  digits : ∀ c ∈ s, c.isDigit = true
  value : Nat.ofDigitChars 10 s 0 = n

theorem toDigit_of_isDigit {c : Char} (h : c.isDigit = true) :
    toDigit 10 c = some (c.toNat - '0'.toNat) := by
  have hrange : '0' ≤ c ∧ c ≤ '9' := by
    simpa [Char.isDigit, Char.le_def] using h
  have hnat : c.toNat ≤ 57 := by
    have hle := UInt32.le_iff_toNat_le.mp hrange.2
    exact hle
  unfold toDigit
  rw [if_pos hrange]
  refine Option.filter_eq_some_iff.mpr ⟨rfl, ?_⟩
  have hzero : '0'.toNat = 48 := rfl
  rw [decide_eq_true_eq, hzero]
  omega

theorem foldlM_toDigit {s : List Char} (h : ∀ c ∈ s, c.isDigit = true) (acc : Nat) :
    s.foldlM (fun acc c => (toDigit 10 c).map (fun d => acc * 10 + d)) acc =
      some (Nat.ofDigitChars 10 s acc) := by
  induction s generalizing acc with
  | nil => rfl
  | cons c s ih =>
    rw [List.forall_mem_cons] at h
    rw [List.foldlM_cons, toDigit_of_isDigit h.1, Nat.ofDigitChars_cons, Nat.mul_comm 10 acc]
    exact ih h.2 _

theorem isDecimal_toDigits (n : Nat) : IsDecimal (Nat.toDigits 10 n) n :=
  ⟨Nat.toDigits_ne_nil, fun _ hc => Nat.isDigit_of_mem_toDigits (by decide) (by decide) hc,
    Nat.ofDigitChars_ten_toDigits⟩

theorem IsDecimal.not_mem {s : List Char} {n : Nat} (h : IsDecimal s n) {c : Char}
    (hc : c.isDigit = false) : c ∉ s := by
  intro hmem
  rw [h.digits c hmem] at hc
  cases hc

theorem IsDecimal.isWord {s : List Char} {n : Nat} (h : IsDecimal s n) : IsWord s := by
  refine ⟨h.ne_nil, fun c hc => ?_⟩
  have hdigit := h.digits c hc
  simp only [Char.isDigit, Bool.and_eq_true, decide_eq_true_eq, UInt32.le_iff_toNat_le] at hdigit
  have hlo : 48 ≤ c.toNat := hdigit.1
  have hhi : c.toNat ≤ 57 := hdigit.2
  simp [isWhitespace]
  omega

/-- A decimal number that fits is read. -/
theorem IsDecimal.fromStrRadix_eq {s : List Char} {v : UInt64} (h : IsDecimal s v.toNat) :
    fromStrRadix 10 s = some v := by
  have hplus : s.head? ≠ some '+' := fun hhead =>
    h.not_mem (by decide) (List.mem_of_head? hhead)
  have hvalue : digitsValue 10 s = some v.toNat := by
    rw [digitsValue, foldlM_toDigit h.digits, h.value]
  unfold fromStrRadix
  simp only [if_neg hplus, hvalue, if_pos v.toNat_lt, UInt64.ofNat_toNat]
  rw [if_neg]
  simp [h.ne_nil]

/-- A number in this radix, padded with zeros to this width. -/
def showNat (radix width n : Nat) : List Char := (Nat.toDigits radix n).leftpad width '0'

theorem mem_toDigits {radix : Nat} (hlo : 1 < radix) {n : Nat} {c : Char}
    (h : c ∈ Nat.toDigits radix n) : ∃ d < radix, c = d.digitChar := by
  induction n using Nat.strongRecOn with
  | _ n ih =>
    by_cases hn : n < radix
    · rw [Nat.toDigits_of_lt_base hn, List.mem_singleton] at h
      exact ⟨n, hn, h⟩
    · have hle : radix ≤ n := Nat.le_of_not_lt hn
      rw [Nat.toDigits_of_base_le hlo hle, List.mem_append, List.mem_singleton] at h
      rcases h with h | h
      · exact ih _ (Nat.div_lt_self (by omega) hlo) h
      · exact ⟨n % radix, Nat.mod_lt n (by omega), h⟩

section ShowNat

variable {radix : Nat} (hlo : 1 < radix) (hhi : radix ≤ 16) (width n : Nat)

include hlo hhi

/-- A fact about the sixteen digits holds of every character of a number. -/
theorem forall_mem_showNat {P : Char → Prop} (h : ∀ d < 16, P d.digitChar) :
    ∀ c ∈ showNat radix width n, P c := by
  intro c hc
  rw [showNat, List.leftpad, List.mem_append, List.mem_replicate] at hc
  rcases hc with ⟨-, rfl⟩ | hc
  · exact h 0 (by omega)
  · obtain ⟨d, hd, rfl⟩ := mem_toDigits hlo hc
    exact h d (by omega)

omit hlo hhi in
theorem showNat_ne_nil : showNat radix width n ≠ [] := by
  unfold showNat List.leftpad
  simp [Nat.toDigits_ne_nil]

theorem isWord_showNat : IsWord (showNat radix width n) :=
  ⟨showNat_ne_nil width n, forall_mem_showNat hlo hhi width n (by decide)⟩

theorem digitsValue_showNat : digitsValue radix (showNat radix width n) = some n := by
  unfold showNat List.leftpad
  rw [digitsValue_replicate_zero (by omega), digitsValue_toDigits hlo hhi]

/-- A number that fits is read back. -/
theorem fromStrRadix_showNat {n : Nat} (hn : n < 2 ^ 64) :
    fromStrRadix radix (showNat radix width n) = some (UInt64.ofNat n) := by
  have hplus : (showNat radix width n).head? ≠ some '+' := by
    intro hhead
    exact forall_mem_showNat hlo hhi width n (P := (· ≠ '+')) (by decide) '+'
      (List.mem_of_head? hhead) rfl
  unfold fromStrRadix
  simp only [if_neg hplus, digitsValue_showNat hlo hhi, if_pos hn]
  rw [if_neg]
  simp [showNat_ne_nil]

end ShowNat

/-! ## Byte offsets -/

/-- `str::len`. -/
def byteLen (s : List Char) : Nat := (s.map Char.utf8Size).sum

/-- `str::rfind` for a character: the byte offset of its last occurrence. -/
def rfind (c : Char) : List Char → Option Nat
  | [] => none
  | x :: xs =>
      match rfind c xs with
      | some n => some (x.utf8Size + n)
      | none => if x = c then some 0 else none

/-- `str::get(n..)`: nothing when the offset is beyond the end or inside a character. -/
def getFrom : List Char → Nat → Option (List Char)
  | s, 0 => some s
  | [], _ + 1 => none
  | x :: xs, n + 1 => if x.utf8Size ≤ n + 1 then getFrom xs (n + 1 - x.utf8Size) else none

theorem byteLen_append (s t : List Char) : byteLen (s ++ t) = byteLen s + byteLen t := by
  simp [byteLen]

theorem byteLen_cons (c : Char) (s : List Char) : byteLen (c :: s) = c.utf8Size + byteLen s := by
  simp [byteLen]

theorem byteLen_le (s : List Char) : byteLen s ≤ 4 * s.length := by
  induction s with
  | nil => exact Nat.le_refl 0
  | cons c s ih =>
    have hc := c.utf8Size_le_four
    rw [byteLen_cons, List.length_cons]
    omega

theorem rfind_eq_none {c : Char} {s : List Char} (h : c ∉ s) : rfind c s = none := by
  induction s with
  | nil => rfl
  | cons x xs ih =>
    rw [List.mem_cons, not_or] at h
    rw [rfind, ih h.2]
    exact if_neg (Ne.symm h.1)

theorem rfind_append_cons {c : Char} (before : List Char) {after : List Char} (h : c ∉ after) :
    rfind c (before ++ c :: after) = some (byteLen before) := by
  induction before with
  | nil =>
    rw [List.nil_append, rfind, rfind_eq_none h]
    exact if_pos rfl
  | cons x before ih =>
    rw [List.cons_append, rfind, ih, byteLen_cons]

theorem exists_of_rfind {c : Char} {s : List Char} {n : Nat} (h : rfind c s = some n) :
    ∃ before after, s = before ++ c :: after ∧ c ∉ after ∧ byteLen before = n := by
  have hmem : c ∈ s := by
    by_contra hnot
    rw [rfind_eq_none hnot] at h
    cases h
  -- the last occurrence is the first one from the back
  obtain ⟨after, before, hsplit, hnot⟩ :=
    List.eq_append_cons_of_mem (List.mem_reverse.mpr hmem)
  have hs : s = before.reverse ++ c :: after.reverse := by
    rw [← List.reverse_reverse s, hsplit]
    simp
  refine ⟨before.reverse, after.reverse, hs, by simpa using hnot, ?_⟩
  rw [hs, rfind_append_cons _ (by simpa using hnot)] at h
  exact Option.some.inj h

@[simp] theorem getFrom_zero (s : List Char) : getFrom s 0 = some s := by
  cases s <;> rfl

theorem getFrom_cons {n : Nat} (hn : 0 < n) (x : Char) (xs : List Char) :
    getFrom (x :: xs) n = if x.utf8Size ≤ n then getFrom xs (n - x.utf8Size) else none := by
  cases n with
  | zero => cases hn
  | succ n => rfl

/-- A slice that `get` returns is in range and starts at a character. -/
theorem getFrom_eq_some_iff {s r : List Char} {n : Nat} :
    getFrom s n = some r ↔ ∃ before, s = before ++ r ∧ byteLen before = n := by
  constructor
  · intro h
    induction s generalizing n with
    | nil =>
      cases n with
      | zero => exact ⟨[], Option.some.inj h, rfl⟩
      | succ n => cases h
    | cons x xs ih =>
      by_cases hn : n = 0
      · subst hn
        exact ⟨[], Option.some.inj h, rfl⟩
      · rw [getFrom_cons (Nat.pos_of_ne_zero hn)] at h
        split at h
        · rename_i hle
          obtain ⟨before, hxs, hlen⟩ := ih h
          refine ⟨x :: before, by rw [hxs]; rfl, ?_⟩
          rw [byteLen_cons, hlen]
          omega
        · cases h
  · intro ⟨before, hs, hlen⟩
    subst hs
    induction before generalizing n with
    | nil =>
      rw [← hlen]
      exact getFrom_zero r
    | cons x before ih =>
      have hpos := x.utf8Size_pos
      rw [byteLen_cons] at hlen
      rw [List.cons_append, getFrom_cons (by omega), if_pos (by omega)]
      exact ih (by omega)

end BsslRam.Lib.Text
