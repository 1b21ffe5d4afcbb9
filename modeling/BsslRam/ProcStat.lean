import BsslRam.Lib.Text

/-!
# The `stat` parser

`parse_proc_stats` of `daemon/src/compressor.rs`.  The second field of
`/proc/PID/stat` is the name of the process in parentheses, and a process may
choose any name, so the parser skips to two bytes behind the last closing
parenthesis and counts fields from there.

That offset may be beyond the end of the text, or inside a character.  The parser
takes the slice with `get`, which then gives nothing.  `parseProcStats_iff` says
what is read when something is, for every text; `parseProcStats_statLine` says that on
a line of the kernel these are the right fields, whatever the name is.
-/

namespace BsslRam.ProcStat

open BsslRam.Lib BsslRam.Lib.Text

/-- A string slice.  No allocation has more than `isize::MAX` bytes. -/
structure Str where
  chars : List Char
  fits : byteLen chars < 2 ^ 63

/-- `usize::checked_add`. -/
def checkedAdd (a b : Nat) : Option Nat := if a + b < 2 ^ 64 then some (a + b) else none

/-- The start time and the two CPU times out of `/proc/PID/stat`: `parse_proc_stats`. -/
def parseProcStats (stat : Str) : Option (UInt64 × UInt64 × UInt64) :=
  (rfind ')' stat.chars).bind fun afterComm =>
  (checkedAdd afterComm 2).bind fun after =>
  (getFrom stat.chars after).bind fun rest =>
  let fields := splitWhitespace rest
  (fields[11]?.bind (fromStrRadix 10)).bind fun utime =>
  (fields[12]?.bind (fromStrRadix 10)).bind fun stime =>
  (fields[19]?.bind (fromStrRadix 10)).bind fun starttime =>
  some (starttime, utime, stime)

/-! ## Any text -/

/-- The three fields that the parser looks at, among the words of `rest`. -/
def FieldsOf (rest : List Char) (starttime utime stime : UInt64) : Prop :=
  ∃ w₁₂ w₁₃ w₂₀, (splitWhitespace rest)[11]? = some w₁₂ ∧ (splitWhitespace rest)[12]? = some w₁₃ ∧
    (splitWhitespace rest)[19]? = some w₂₀ ∧ fromStrRadix 10 w₁₂ = some utime ∧
    fromStrRadix 10 w₁₃ = some stime ∧ fromStrRadix 10 w₂₀ = some starttime

/-- The offset of a character in a string slice is far from the end of `usize`. -/
theorem checkedAdd_offset (stat : Str) {before after : List Char}
    (h : stat.chars = before ++ ')' :: after) :
    checkedAdd (byteLen before) 2 = some (byteLen before + 2) := by
  have hfits := stat.fits
  rw [h, byteLen_append] at hfits
  exact if_pos (by omega)

/-- The parser returns something exactly when there is a closing parenthesis, the offset
two bytes behind the last one is in range and at the start of a character, and the
three words behind it are numbers. -/
theorem parseProcStats_iff (stat : Str) (starttime utime stime : UInt64) :
    parseProcStats stat = some (starttime, utime, stime) ↔
      ∃ before after front rest, stat.chars = before ++ ')' :: after ∧ ')' ∉ after ∧
        stat.chars = front ++ rest ∧ byteLen front = byteLen before + 2 ∧
        FieldsOf rest starttime utime stime := by
  unfold parseProcStats
  simp only [Option.bind_eq_some_iff, Option.some.injEq, Prod.mk.injEq]
  constructor
  · intro ⟨afterComm, hfind, offset, hadd, rest, hget, u, ⟨w₁₂, hw₁₂, hu⟩, s, ⟨w₁₃, hw₁₃, hs⟩, st,
      ⟨w₂₀, hw₂₀, hst⟩, hstarttime, hutime, hstime⟩
    obtain ⟨before, after, hstat, hlast, rfl⟩ := exists_of_rfind hfind
    rw [checkedAdd_offset stat hstat, Option.some.injEq] at hadd
    obtain ⟨front, hfront, hlen⟩ := getFrom_eq_some_iff.mp hget
    rw [hutime] at hu
    rw [hstime] at hs
    rw [hstarttime] at hst
    exact ⟨before, after, front, rest, hstat, hlast, hfront, hlen.trans hadd.symm, w₁₂, w₁₃, w₂₀,
      hw₁₂, hw₁₃, hw₂₀, hu, hs, hst⟩
  · intro ⟨before, after, front, rest, hstat, hlast, hfront, hlen, w₁₂, w₁₃, w₂₀, hw₁₂, hw₁₃,
      hw₂₀, hu, hs, hst⟩
    refine ⟨byteLen before, ?_, byteLen before + 2, checkedAdd_offset stat hstat, rest, ?_, utime,
      ⟨w₁₂, hw₁₂, hu⟩, stime, ⟨w₁₃, hw₁₃, hs⟩, starttime, ⟨w₂₀, hw₂₀, hst⟩, rfl, rfl, rfl⟩
    · rw [hstat]
      exact rfind_append_cons before hlast
    · exact getFrom_eq_some_iff.mpr ⟨front, hfront, hlen⟩

/-! ## The kernel's line -/

/-- `pid (comm) f₃ f₄ ..`, with what comes after the last field. -/
def statLine (pid : Nat) (comm : List Char) (fields : List (List Char)) (tail : List Char) :
    List Char :=
  showNat 10 1 pid ++ ' ' :: '(' :: (comm ++ ')' :: ' ' :: (List.intercalate [' '] fields ++ tail))

/-- The fields of a line of the kernel. -/
structure StatFields (fields : List (List Char)) : Prop where
  length : 20 ≤ fields.length
  word : ∀ f ∈ fields, IsWord f
  noParen : ∀ f ∈ fields, ')' ∉ f

/-- A line ends in nothing, or in whitespace. -/
structure StatTail (tail : List Char) : Prop where
  blank : ∀ c ∈ tail, isWhitespace c = true

theorem StatTail.noParen {tail : List Char} (h : StatTail tail) : ')' ∉ tail := by
  intro hmem
  have hblank := h.blank _ hmem
  revert hblank
  decide

theorem not_mem_intercalate {c : Char} {fields : List (List Char)} (h : ∀ f ∈ fields, c ∉ f)
    (hspace : c ≠ ' ') : c ∉ List.intercalate [' '] fields := by
  induction fields with
  | nil => simp
  | cons f fields ih =>
    rw [List.forall_mem_cons] at h
    cases fields with
    | nil =>
      rw [List.intercalate_singleton]
      exact h.1
    | cons f' fields =>
      rw [List.intercalate_cons_cons, List.mem_append, List.mem_append, List.mem_singleton]
      rintro ((hmem | hmem) | hmem)
      · exact h.1 hmem
      · exact hspace hmem
      · exact ih h.2 hmem

/-- On a line of the kernel the parser reads the fields 22, 14 and 15 of the line, in
that order, whatever the name is. -/
theorem parseProcStats_statLine {stat : Str} {pid : Nat} {comm : List Char}
    {fields : List (List Char)} {tail : List Char}
    (hstat : stat.chars = statLine pid comm fields tail)
    (hfields : StatFields fields) (htail : StatTail tail) {w₁₄ w₁₅ w₂₂ : List Char}
    (h₁₄ : fields[11]? = some w₁₄) (h₁₅ : fields[12]? = some w₁₅) (h₂₂ : fields[19]? = some w₂₂)
    {utime stime starttime : UInt64} (hutime : IsDecimal w₁₄ utime.toNat)
    (hstime : IsDecimal w₁₅ stime.toNat) (hstarttime : IsDecimal w₂₂ starttime.toNat) :
    parseProcStats stat = some (starttime, utime, stime) := by
  have hwords : splitWhitespace (List.intercalate [' '] fields ++ tail) = fields :=
    splitWhitespace_intercalate hfields.word htail.blank
  rw [parseProcStats_iff]
  refine ⟨showNat 10 1 pid ++ ' ' :: '(' :: comm, ' ' :: (List.intercalate [' '] fields ++ tail),
    showNat 10 1 pid ++ ' ' :: '(' :: (comm ++ [')', ' ']),
    List.intercalate [' '] fields ++ tail, ?_, ?_, ?_, ?_, w₁₄, w₁₅, w₂₂, ?_, ?_, ?_,
    hutime.fromStrRadix_eq, hstime.fromStrRadix_eq, hstarttime.fromStrRadix_eq⟩
  · rw [hstat]
    simp [statLine]
  · -- no closing parenthesis behind the name
    rw [List.mem_cons, List.mem_append, not_or, not_or]
    exact ⟨by decide, not_mem_intercalate hfields.noParen (by decide), htail.noParen⟩
  · rw [hstat]
    simp [statLine]
  · have htwo : byteLen [')', ' '] = 2 := by decide
    simp only [byteLen_append, byteLen_cons, htwo]
    omega
  · rw [hwords, h₁₄]
  · rw [hwords, h₁₅]
  · rw [hwords, h₂₂]

/-- The name of a process cannot disturb the parser, and no text takes it out of range.
On a line of the kernel with at least twenty fields behind the name it returns the fields
22, 14 and 15.  On any text it returns something exactly when there is a closing
parenthesis, the slice two bytes behind the last one exists, and the twelfth, the thirteenth
and the twentieth word of that slice are numbers. -/
theorem stat_fields_read (stat : Str) :
    (∀ (pid : Nat) (comm : List Char) (fields : List (List Char)),
      stat.chars = statLine pid comm fields [] → StatFields fields →
      ∀ w₁₄ w₁₅ w₂₂, fields[11]? = some w₁₄ → fields[12]? = some w₁₅ → fields[19]? = some w₂₂ →
      ∀ utime stime starttime : UInt64, IsDecimal w₁₄ utime.toNat → IsDecimal w₁₅ stime.toNat →
        IsDecimal w₂₂ starttime.toNat → parseProcStats stat = some (starttime, utime, stime)) ∧
    (∀ starttime utime stime : UInt64,
      parseProcStats stat = some (starttime, utime, stime) ↔
        ∃ before after front rest, stat.chars = before ++ ')' :: after ∧ ')' ∉ after ∧
          stat.chars = front ++ rest ∧ byteLen front = byteLen before + 2 ∧
          FieldsOf rest starttime utime stime) := by
  refine ⟨?_, parseProcStats_iff stat⟩
  intro pid comm fields hstat hfields w₁₄ w₁₅ w₂₂ h₁₄ h₁₅ h₂₂ utime stime starttime hutime hstime
    hstarttime
  exact parseProcStats_statLine hstat hfields ⟨by simp⟩ h₁₄ h₁₅ h₂₂ hutime hstime hstarttime

/-- The fields 3 to 22 of a line, each with its own number in it. -/
def numberedFields : List (List Char) := (List.range 20).map (fun i => Nat.toDigits 10 (i + 3))

theorem statFields_numberedFields : StatFields numberedFields := by
  refine ⟨by decide, ?_, ?_⟩
  · intro f hf
    obtain ⟨i, -, rfl⟩ := List.mem_map.mp hf
    exact (isDecimal_toDigits _).isWord
  · intro f hf
    obtain ⟨i, -, rfl⟩ := List.mem_map.mp hf
    exact (isDecimal_toDigits _).not_mem (by decide)

/-- The line of process 7, whose name is `) (`. -/
def parenthesisedStat : Str where
  chars := statLine 7 [')', ' ', '('] numberedFields []
  fits := by decide +kernel

theorem stat_fields_read_parentheses : parseProcStats parenthesisedStat = some (22, 14, 15) :=
  (stat_fields_read parenthesisedStat).1 7 [')', ' ', '('] _ rfl statFields_numberedFields _ _ _
    rfl rfl rfl 14 15 22 (isDecimal_toDigits 14) (isDecimal_toDigits 15) (isDecimal_toDigits 22)

end BsslRam.ProcStat
