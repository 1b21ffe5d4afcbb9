import BsslRam.Scanner
import BsslRam.Lib.Utf8

/-!
# Command lines, and the tokens that the scanner makes of them

The kernel gives the arguments of a process one after the other with a NUL behind each.
A process may rewrite them, and Firefox puts spaces between its own.  `CommandLine` is
both forms and everything between them: non-empty arguments without whitespace, in
UTF-8, with any runs of NUL and space bytes between them and at the end.

`parse_cmdline` turns each byte into the character with that number, and only then
looks for whitespace.  For a character beyond ASCII this gives two to four characters,
and two of the numbers a byte can have, `0x85` and `0xa0`, are whitespace.  So the
tokens are the arguments exactly when every character of them is ASCII.

The proof compares the two lists without their separators.  A character of an argument
leaves behind what `kept` says, at least one character (`kept_ne_nil`), so equal lists
leave no room for a second one (`eq_singleton_of_flatMap_eq`).
-/

namespace BsslRam.Cmdline

open BsslRam.Lib BsslRam.Lib.Text BsslRam.Lib.Utf8 BsslRam.Scanner

/-! ## Command lines -/

/-- An argument that has no separator in it. -/
structure Argument where
  chars : List Char
  ne_nil : chars ≠ []
  noNul : ∀ c ∈ chars, c.toNat ≠ 0
  plain : ∀ c ∈ chars, isWhitespace c = false

/-- The bytes that separate arguments. -/
def Blank (bytes : List UInt8) : Prop := ∀ b ∈ bytes, b = 0 ∨ b = 32

structure Separator where
  bytes : List UInt8
  ne_nil : bytes ≠ []
  blank : Blank bytes

/-- What `/proc/PID/cmdline` holds. -/
structure CommandLine where
  first : Argument
  rest : List (Separator × Argument)
  tail : List UInt8
  blank : Blank tail

def CommandLine.raw (c : CommandLine) : List UInt8 :=
  encode c.first.chars ++ (c.rest.flatMap (fun r => r.1.bytes ++ encode r.2.chars) ++ c.tail)

def CommandLine.arguments (c : CommandLine) : List Argument := c.first :: c.rest.map Prod.snd

/-- The arguments as the process has them. -/
def CommandLine.argv (c : CommandLine) : List String :=
  c.arguments.map (fun a => String.ofList a.chars)

/-- Every character of every argument is ASCII. -/
def CommandLine.Ascii (c : CommandLine) : Prop :=
  ∀ a ∈ c.arguments, ∀ ch ∈ a.chars, ch.toNat < 128

theorem Argument.isWord (a : Argument) : IsWord a.chars := ⟨a.ne_nil, a.plain⟩

/-! ## Bytes as characters -/

/-- What `parse_cmdline` makes of one byte. -/
def charOf (b : UInt8) : Char := if b = 0 then ' ' else Char.ofNat b.toNat

theorem parseCmdline_eq_iff (c : CommandLine) :
    parseCmdline c.raw = c.argv ↔
      splitWhitespace (c.raw.map charOf) = c.arguments.map Argument.chars := by
  have hofList : Function.Injective String.ofList := fun _ _ h => String.ofList_injective h
  have hargv : c.argv = (c.arguments.map Argument.chars).map String.ofList := by
    rw [List.map_map]
    rfl
  rw [hargv]
  exact (List.map_injective_iff.mpr hofList).eq_iff

theorem charOf_ascii {ch : Char} (hnul : ch.toNat ≠ 0) (h : ch.toNat < 128) :
    charOf (UInt8.ofNat ch.toNat) = ch := by
  have hbyte : (UInt8.ofNat ch.toNat).toNat = ch.toNat := by
    rw [UInt8.toNat_ofNat']
    omega
  have hne : UInt8.ofNat ch.toNat ≠ 0 := by
    intro hzero
    rw [hzero] at hbyte
    exact hnul hbyte.symm
  rw [charOf, if_neg hne, hbyte, Char.ofNat_toNat]

theorem Blank.isWhitespace {bytes : List UInt8} (h : Blank bytes) :
    ∀ ch ∈ bytes.map charOf, isWhitespace ch = true := by
  intro ch hch
  obtain ⟨b, hb, rfl⟩ := List.mem_map.mp hch
  rcases h b hb with rfl | rfl
  · decide
  · decide

/-! ## ASCII arguments -/

theorem map_charOf_encode {chars : List Char} (hnul : ∀ ch ∈ chars, ch.toNat ≠ 0)
    (h : ∀ ch ∈ chars, ch.toNat < 128) : (encode chars).map charOf = chars := by
  induction chars with
  | nil => rfl
  | cons ch chars ih =>
    rw [List.forall_mem_cons] at hnul h
    rw [encode_cons, utf8EncodeChar_ascii h.1, List.map_append, ih hnul.2 h.2, List.map_cons,
      charOf_ascii hnul.1 h.1]
    rfl

theorem tokens_of_ascii {c : CommandLine} (h : c.Ascii) :
    splitWhitespace (c.raw.map charOf) = c.arguments.map Argument.chars := by
  have hargument : ∀ a ∈ c.arguments, (encode a.chars).map charOf = a.chars := fun a ha =>
    map_charOf_encode a.noNul (h a ha)
  have hrest : (c.rest.flatMap (fun r => r.1.bytes ++ encode r.2.chars)).map charOf =
      (c.rest.map (fun r => (r.1.bytes.map charOf, r.2.chars))).flatMap (fun r => r.1 ++ r.2) := by
    rw [List.map_flatMap, List.flatMap_map]
    refine List.flatMap_congr (fun r hr => ?_)
    rw [List.map_append, hargument r.2 (List.mem_cons_of_mem _ (List.mem_map_of_mem hr))]
  rw [CommandLine.raw, List.map_append, List.map_append, hrest,
    hargument c.first List.mem_cons_self, splitWhitespace_joined c.first.isWord]
  · simp [CommandLine.arguments, Function.comp_def]
  · intro r hr
    obtain ⟨r', -, rfl⟩ := List.mem_map.mp hr
    exact ⟨by simpa using r'.1.ne_nil, r'.1.blank.isWhitespace, r'.2.isWord⟩
  · exact c.blank.isWhitespace

/-! ## What a character leaves behind -/

/-- The characters that `parse_cmdline` makes of one character, without the whitespace
among them. -/
def kept (ch : Char) : List Char :=
  ((String.utf8EncodeChar ch).map charOf).filter (fun x => !isWhitespace x)

/-- Without its separators, the text holds what is left of the arguments. -/
theorem filter_raw (c : CommandLine) :
    (c.raw.map charOf).filter (fun x => !isWhitespace x) =
      (c.arguments.flatMap Argument.chars).flatMap kept := by
  have hblank : ∀ {bytes : List UInt8}, Blank bytes →
      (bytes.map charOf).filter (fun x => !isWhitespace x) = [] := by
    intro bytes h
    rw [List.filter_eq_nil_iff]
    intro ch hch
    simp [h.isWhitespace ch hch]
  have hencode : ∀ chars : List Char,
      ((encode chars).map charOf).filter (fun x => !isWhitespace x) = chars.flatMap kept := by
    intro chars
    rw [encode, List.map_flatMap, List.filter_flatMap]
    rfl
  have hrest : ((c.rest.flatMap (fun r => r.1.bytes ++ encode r.2.chars)).map charOf).filter
      (fun x => !isWhitespace x) = c.rest.flatMap (fun r => r.2.chars.flatMap kept) := by
    rw [List.map_flatMap, List.filter_flatMap]
    refine List.flatMap_congr (fun r _ => ?_)
    rw [List.map_append, List.filter_append, hblank r.1.blank, hencode, List.nil_append]
  rw [CommandLine.raw, List.map_append, List.map_append, List.filter_append, List.filter_append,
    hencode, hblank c.blank, hrest, CommandLine.arguments, List.flatMap_cons, List.flatMap_append,
    List.flatMap_map, List.append_nil, List.flatMap_assoc]

theorem isWhitespace_lead : ∀ b : UInt8, 192 ≤ b.toNat → isWhitespace (charOf b) = false :=
  forall_byte (by decide +kernel)

/-- No character is lost. -/
theorem kept_ne_nil {ch : Char} (hnul : ch.toNat ≠ 0) (hplain : isWhitespace ch = false) :
    kept ch ≠ [] := by
  unfold kept
  by_cases hascii : ch.toNat < 128
  · rw [utf8EncodeChar_ascii hascii, List.map_cons, charOf_ascii hnul hascii, List.map_nil,
      List.filter_cons_of_pos (by simp [hplain])]
    simp
  · obtain ⟨b, hb, hlead⟩ := exists_lead_of_utf8EncodeChar (Nat.le_of_not_lt hascii)
    have hmem : charOf b ∈ ((String.utf8EncodeChar ch).map charOf).filter
        (fun x => !isWhitespace x) := by
      rw [List.mem_filter]
      exact ⟨List.mem_map_of_mem hb, by simp [isWhitespace_lead b hlead]⟩
    exact List.ne_nil_of_mem hmem

theorem kept_byte : ∀ b : UInt8, 128 ≤ b.toNat → kept (charOf b) ≠ [charOf b] :=
  forall_byte (by decide +kernel)

/-- Only an ASCII character is kept as it is.  Any other one would have to be the
character of one of its own bytes, and the byte `b` above `0x7f` is not how the character
of number `b` begins, or there is a second one behind it. -/
theorem ascii_of_kept {ch : Char} (h : kept ch = [ch]) : ch.toNat < 128 := by
  by_contra hascii
  have hmem : ch ∈ kept ch := by
    rw [h]
    exact List.mem_singleton_self ch
  obtain ⟨b, hb, hchar⟩ := List.mem_map.mp (List.mem_filter.mp hmem).1
  have hhigh := le_of_mem_utf8EncodeChar (Nat.le_of_not_lt hascii) b hb
  rw [← hchar] at h
  exact kept_byte b hhigh h

/-- If nothing is lost and the list is the same in the end, nothing has changed. -/
theorem eq_singleton_of_flatMap_eq {α : Type*} {f : α → List α} {xs : List α}
    (hne : ∀ x ∈ xs, f x ≠ []) (h : xs.flatMap f = xs) : ∀ x ∈ xs, f x = [x] := by
  -- the images of a list are at least as many as its elements
  have hlength : ∀ ys : List α, (∀ y ∈ ys, f y ≠ []) → ys.length ≤ (ys.flatMap f).length := by
    intro ys hys
    induction ys with
    | nil => simp
    | cons y ys ih =>
      rw [List.forall_mem_cons] at hys
      have hy := List.length_pos_iff.mpr hys.1
      have hrest := ih hys.2
      rw [List.flatMap_cons, List.length_append, List.length_cons]
      omega
  induction xs with
  | nil => simp
  | cons x xs ih =>
    rw [List.forall_mem_cons] at hne
    rw [List.flatMap_cons] at h
    obtain ⟨y, ys, hfx⟩ := List.exists_cons_of_ne_nil hne.1
    have htotal := congrArg List.length h
    have hrest := hlength xs hne.2
    rw [hfx, List.length_append, List.length_cons, List.length_cons] at htotal
    have hys : ys = [] := List.length_eq_zero_iff.mp (by omega)
    rw [hfx, hys, List.singleton_append, List.cons.injEq] at h
    rw [List.forall_mem_cons]
    exact ⟨by rw [hfx, hys, h.1], ih hne.2 h.2⟩

theorem ascii_of_tokens {c : CommandLine}
    (h : splitWhitespace (c.raw.map charOf) = c.arguments.map Argument.chars) : c.Ascii := by
  have hflat := congrArg List.flatten h
  rw [flatten_splitWhitespace, filter_raw, ← List.flatMap_def] at hflat
  have hne : ∀ ch ∈ c.arguments.flatMap Argument.chars, kept ch ≠ [] := by
    intro ch hch
    obtain ⟨a, -, hmem⟩ := List.mem_flatMap.mp hch
    exact kept_ne_nil (a.noNul ch hmem) (a.plain ch hmem)
  intro a ha ch hch
  have hmem : ch ∈ c.arguments.flatMap Argument.chars := List.mem_flatMap.mpr ⟨a, ha, hch⟩
  exact ascii_of_kept (eq_singleton_of_flatMap_eq hne hflat ch hmem)

/-! ## The result -/

/-- The tokens are the arguments, and every profile is matched against the arguments,
exactly when these are ASCII.  The separators never matter. -/
theorem tokens_exact_iff (c : CommandLine) :
    (parseCmdline c.raw = c.argv ∧
      ∀ profile, matchProfile (parseCmdline c.raw) profile = matchProfile c.argv profile) ↔
    c.Ascii := by
  rw [parseCmdline_eq_iff]
  constructor
  · intro h
    exact ascii_of_tokens h.1
  · intro h
    have htokens := tokens_of_ascii h
    refine ⟨htokens, fun profile => ?_⟩
    rw [(parseCmdline_eq_iff c).mpr htokens]

/-- The command line of a process whose one argument is `Štab`. -/
def caronTab : CommandLine where
  first := ⟨['Š', 't', 'a', 'b'], by simp, by simp, by simp [isWhitespace]⟩
  rest := []
  tail := [0]
  blank := by simp [Blank]

/-- The second byte of `Š` is `0xa0`, a whitespace character.  The process ends up with two
arguments, the last of which is `tab`, and a profile that asks for this one takes it. -/
theorem caron_splits :
    caronTab.argv = ["Štab"] ∧ parseCmdline caronTab.raw = ["Å", "tab"] ∧
      matchProfile caronTab.argv { name := "tab", argLast := some "tab" } = false ∧
      matchProfile (parseCmdline caronTab.raw) { name := "tab", argLast := some "tab" } = true := by
  have hargv : caronTab.argv = ["Štab"] := rfl
  have htokens : parseCmdline caronTab.raw = ["Å", "tab"] := by
    have hsplit : splitWhitespace (caronTab.raw.map charOf) = [['Å'], ['t', 'a', 'b']] := by
      decide
    exact congrArg (List.map String.ofList) hsplit
  rw [hargv, htokens]
  refine ⟨rfl, rfl, ?_, ?_⟩
  · decide
  · decide

end BsslRam.Cmdline
