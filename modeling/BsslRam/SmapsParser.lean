import BsslRam.Compressor

/-!
# The `smaps` parser on arbitrary text

`parse_anon_regions` tries every line as a mapping header and carries what it read
over to the next lines.  `HeaderShape` says what it takes for a header, in terms of
the line alone.

One line does two things: it may replace the current mapping (`readHeader`) and it
may push it (`countAnonymous`).  No line does both, because `Anonymous:` is no
hexadecimal number.  So a region that is pushed comes from an earlier line, with no
header in between (`Origin`), and `readFrom_lines` follows it through a whole text.

The only arithmetic is `end - start`.  A build with overflow checks panics when it
underflows (`parseAnonRegionsChecked`) and a release build wraps; `parse_safe_iff`
says that this happens exactly on a header with its addresses in the wrong order.
-/

namespace BsslRam.SmapsParser

open BsslRam.Lib BsslRam.Lib.Text BsslRam.Compressor

/-! ## Lines that are taken for headers -/

/-- The line is `start-stop`, a space, and at least four fields, with both addresses in
hexadecimal. -/
def HeaderShape (line : List Char) (start stop : UInt64) (perms inode : List Char) : Prop :=
  ∃ startStr endStr after offset dev rest,
    line = startStr ++ '-' :: (endStr ++ ' ' :: after) ∧ '-' ∉ startStr ∧ ' ' ∉ endStr ∧
      splitWhitespace after = perms :: offset :: dev :: inode :: rest ∧
      fromStrRadix 16 startStr = some start ∧ fromStrRadix 16 endStr = some stop

/-- The line is taken for a header. -/
def IsHeader (line : List Char) : Prop :=
  ∃ start stop perms inode, HeaderShape line start stop perms inode

theorem parseHeader_of_shape {line : List Char} {start stop : UInt64} {perms inode : List Char}
    (h : HeaderShape line start stop perms inode) :
    parseHeader line = some (start, stop, perms.contains 'p' && inode == ['0']) := by
  obtain ⟨startStr, endStr, after, offset, dev, rest, hline, hdash, hspace, hfields, hstart,
    hstop⟩ := h
  have hfirst : splitFirst '-' line = some (startStr, endStr ++ ' ' :: after) :=
    splitFirst_eq_some_iff.mpr ⟨hline, hdash⟩
  have hsecond : splitFirst ' ' (endStr ++ ' ' :: after) = some (endStr, after) :=
    splitFirst_eq_some_iff.mpr ⟨rfl, hspace⟩
  simp only [parseHeader, hfirst, hsecond, hfields, hstart, hstop]

theorem shape_of_parseHeader {line : List Char} {start stop : UInt64} {flag : Bool}
    (h : parseHeader line = some (start, stop, flag)) :
    ∃ perms inode, HeaderShape line start stop perms inode ∧
      flag = (perms.contains 'p' && inode == ['0']) := by
  unfold parseHeader at h
  split at h
  · cases h
  rename_i startStr rest hfirst
  split at h
  · cases h
  rename_i endStr after hsecond
  split at h
  · rename_i perms offset dev inode fields hfields
    split at h
    · rename_i start' stop' hstart hstop
      cases h
      obtain ⟨hline, hdash⟩ := splitFirst_eq_some_iff.mp hfirst
      obtain ⟨hrest, hspace⟩ := splitFirst_eq_some_iff.mp hsecond
      rw [hrest] at hline
      exact ⟨perms, inode, ⟨startStr, endStr, after, offset, dev, fields, hline, hdash, hspace,
        hfields, hstart, hstop⟩, rfl⟩
    · cases h
  · cases h

theorem isHeader_iff (line : List Char) :
    IsHeader line ↔ ∃ header, parseHeader line = some header := by
  constructor
  · intro ⟨start, stop, perms, inode, hshape⟩
    exact ⟨_, parseHeader_of_shape hshape⟩
  · intro ⟨⟨start, stop, flag⟩, hparse⟩
    obtain ⟨perms, inode, hshape, -⟩ := shape_of_parseHeader hparse
    exact ⟨start, stop, perms, inode, hshape⟩

theorem parseHeader_eq_none {line : List Char} (h : ¬ IsHeader line) : parseHeader line = none := by
  cases hparse : parseHeader line with
  | none => rfl
  | some header => exact absurd ((isHeader_iff line).mpr ⟨header, hparse⟩) h

/-! ## The detail line -/

/-- A line that counts anonymous pages, and counts at least one. -/
def PositiveAnonymous (line : List Char) : Prop :=
  "Anonymous:".toList <+: line ∧ ∃ word kb, (splitWhitespace line)[1]? = some word ∧
    fromStrRadix 10 word = some kb ∧ 0 < kb

/-- The line before the dash would have to be a number. -/
theorem not_isHeader_of_anonymous {line : List Char} (h : "Anonymous:".toList <+: line) :
    ¬ IsHeader line := by
  intro ⟨start, stop, perms, inode, hshape⟩
  obtain ⟨startStr, endStr, after, offset, dev, rest, hline, -, -, -, hstart, -⟩ := hshape
  obtain ⟨tail, htail⟩ := h
  rw [← htail] at hline
  -- the first two characters of the number are those of the key
  match startStr with
  | [] => cases hline
  | [x] => simp at hline
  | x :: y :: startStr =>
    obtain ⟨rfl, rfl⟩ : x = 'A' ∧ y = 'n' := by
      simp at hline
      exact ⟨hline.1.symm, hline.2.1.symm⟩
    have hnone : digitsValue 16 ('A' :: 'n' :: startStr) = none := by
      have hA : toDigit 16 'A' = some 10 := by decide
      have hn : toDigit 16 'n' = none := by decide
      simp [digitsValue, hA, hn]
    simp [fromStrRadix, hnone] at hstart

/-! ## One line -/

/-- The first half of a turn of the loop: a header replaces the current mapping. -/
def readHeader (st : SmapsState) (line : List Char) : SmapsState :=
  match parseHeader line with
  | some (start, stop, isPrivateAnon) =>
      { st with isPrivateAnon, currentStart := start, currentSize := stop - start }
  | none => st

/-- The second half: a line that counts anonymous pages pushes the current mapping. -/
def countAnonymous (st : SmapsState) (line : List Char) : SmapsState :=
  if st.isPrivateAnon && "Anonymous:".toList.isPrefixOf line then
    let kb := ((splitWhitespace line)[1]?.bind (fromStrRadix 10)).getD 0
    if 0 < kb then
      { st with regions := st.regions ++ [(st.currentStart, st.currentSize)] }
    else st
  else st

theorem parseSmapsLine_eq (st : SmapsState) (line : List Char) :
    parseSmapsLine st line = countAnonymous (readHeader st line) line := rfl

/-- The first half in a build with overflow checks, where `end - start` panics when it
underflows. -/
def readHeaderChecked (st : SmapsState) (line : List Char) : Option SmapsState :=
  match parseHeader line with
  | some (start, stop, isPrivateAnon) =>
      if start ≤ stop then
        some { st with isPrivateAnon, currentStart := start, currentSize := stop - start }
      else none
  | none => some st

/-- One turn of the loop in such a build. -/
def parseSmapsLineChecked (st : SmapsState) (line : List Char) : Option SmapsState :=
  (readHeaderChecked st line).map (fun st => countAnonymous st line)

/-- `parse_anon_regions` in such a build; nothing when it panics. -/
def parseAnonRegionsChecked (smaps : List Char) : Option (List Region) :=
  ((lines smaps).foldlM parseSmapsLineChecked {}).map SmapsState.regions

/-- The second half of a turn pushes the current mapping or does nothing. -/
theorem countAnonymous_cases (st : SmapsState) (line : List Char) :
    countAnonymous st line = st ∨
      st.isPrivateAnon = true ∧ PositiveAnonymous line ∧
        countAnonymous st line =
          { st with regions := st.regions ++ [(st.currentStart, st.currentSize)] } := by
  unfold countAnonymous
  by_cases hline : (st.isPrivateAnon && "Anonymous:".toList.isPrefixOf line) = true
  · rw [if_pos hline]
    obtain ⟨hprivate, hkey⟩ := (Bool.and_eq_true _ _).mp hline
    cases hword : (splitWhitespace line)[1]?.bind (fromStrRadix 10) with
    | none => exact Or.inl rfl
    | some kb =>
      by_cases hpos : 0 < kb
      · right
        obtain ⟨word, hnth, hkb⟩ := Option.bind_eq_some_iff.mp hword
        refine ⟨hprivate, ⟨List.isPrefixOf_iff_prefix.mp hkey, word, kb, hnth, hkb, hpos⟩, ?_⟩
        exact if_pos hpos
      · left
        exact if_neg hpos
  · left
    exact if_neg hline

/-- A header replaces the current mapping and counts nothing. -/
theorem parseSmapsLine_header {line : List Char} {start stop : UInt64} {perms inode : List Char}
    (h : HeaderShape line start stop perms inode) (st : SmapsState) :
    parseSmapsLine st line =
      { st with
        isPrivateAnon := perms.contains 'p' && inode == ['0']
        currentStart := start
        currentSize := stop - start } := by
  rw [parseSmapsLine_eq, readHeader, parseHeader_of_shape h]
  refine (countAnonymous_cases _ line).elim id (fun hpushed => ?_)
  exact absurd ⟨start, stop, perms, inode, h⟩ (not_isHeader_of_anonymous hpushed.2.1.1)

/-- A line that is no header leaves the current mapping alone. -/
theorem parseSmapsLine_of_not_header {line : List Char} (h : ¬ IsHeader line) (st : SmapsState) :
    parseSmapsLine st line = countAnonymous st line := by
  rw [parseSmapsLine_eq, readHeader, parseHeader_eq_none h]

/-- A line that is no header and counts nothing leaves the parser alone. -/
theorem parseSmapsLine_of_plain {line : List Char} (hheader : ¬ IsHeader line)
    (hkey : ¬ "Anonymous:".toList <+: line) (st : SmapsState) : parseSmapsLine st line = st := by
  rw [parseSmapsLine_of_not_header hheader]
  rcases countAnonymous_cases st line with heq | ⟨-, hline, -⟩
  · exact heq
  · exact absurd hline.1 hkey

/-! ## Where a region comes from -/

/-- The last header among the lines is a private anonymous mapping with these
addresses. -/
def Current (ls : List (List Char)) (start stop : UInt64) : Prop :=
  ∃ (i : Nat) (header perms inode : List Char), ls[i]? = some header ∧
    HeaderShape header start stop perms inode ∧ 'p' ∈ perms ∧ inode = ['0'] ∧
    ∀ (k : Nat) (line : List Char), i < k → ls[k]? = some line → ¬ IsHeader line

/-- A line is the header of a private anonymous mapping with these addresses, and a
later line, before the next header, counts anonymous pages of it. -/
def Origin (ls : List (List Char)) (start stop : UInt64) : Prop :=
  ∃ (i j : Nat) (header detail perms inode : List Char), ls[i]? = some header ∧
    HeaderShape header start stop perms inode ∧ 'p' ∈ perms ∧ inode = ['0'] ∧ i < j ∧
    ls[j]? = some detail ∧ PositiveAnonymous detail ∧
    ∀ (k : Nat) (line : List Char), i < k → k < j → ls[k]? = some line → ¬ IsHeader line

section Append

variable {ls : List (List Char)} {line : List Char} {start stop : UInt64}

theorem getElem?_append_of_some {i : Nat} {l : List Char} (h : ls[i]? = some l) :
    (ls ++ [line])[i]? = some l := by
  rw [List.getElem?_append_left (List.getElem?_eq_some_iff.mp h).1]
  exact h

/-- A line of the longer list is one of the shorter list, or the last. -/
theorem getElem?_append_cases {k : Nat} {l : List Char} (h : (ls ++ [line])[k]? = some l) :
    ls[k]? = some l ∨ k = ls.length ∧ l = line := by
  by_cases hk : k < ls.length
  · rw [List.getElem?_append_left hk] at h
    exact Or.inl h
  · have hlen := (List.getElem?_eq_some_iff.mp h).1
    rw [List.length_append, List.length_singleton] at hlen
    have hlast : k = ls.length := by omega
    rw [hlast, List.getElem?_concat_length] at h
    exact Or.inr ⟨hlast, (Option.some.inj h).symm⟩

theorem current_append (h : Current ls start stop) (hline : ¬ IsHeader line) :
    Current (ls ++ [line]) start stop := by
  obtain ⟨i, header, perms, inode, hi, hshape, hp, hinode, hlast⟩ := h
  refine ⟨i, header, perms, inode, getElem?_append_of_some hi, hshape, hp, hinode, ?_⟩
  intro k l hk hl
  rcases getElem?_append_cases hl with hl | ⟨-, rfl⟩
  · exact hlast k l hk hl
  · exact hline

theorem current_of_header {perms inode : List Char}
    (hshape : HeaderShape line start stop perms inode) (hp : 'p' ∈ perms) (hinode : inode = ['0']) :
    Current (ls ++ [line]) start stop := by
  refine ⟨ls.length, line, perms, inode, List.getElem?_concat_length, hshape, hp, hinode, ?_⟩
  intro k l hk hl
  have hlen := (List.getElem?_eq_some_iff.mp hl).1
  rw [List.length_append, List.length_singleton] at hlen
  omega

theorem origin_append (h : Origin ls start stop) : Origin (ls ++ [line]) start stop := by
  obtain ⟨i, j, header, detail, perms, inode, hi, hshape, hp, hinode, hij, hj, hdetail,
    hbetween⟩ := h
  refine ⟨i, j, header, detail, perms, inode, getElem?_append_of_some hi, hshape, hp, hinode, hij,
    getElem?_append_of_some hj, hdetail, ?_⟩
  intro k l hlo hhi hl
  have hjlt := (List.getElem?_eq_some_iff.mp hj).1
  rcases getElem?_append_cases hl with hl | ⟨hk, -⟩
  · exact hbetween k l hlo hhi hl
  · omega

theorem origin_of_current (h : Current ls start stop) (hline : PositiveAnonymous line) :
    Origin (ls ++ [line]) start stop := by
  obtain ⟨i, header, perms, inode, hi, hshape, hp, hinode, hlast⟩ := h
  refine ⟨i, ls.length, header, line, perms, inode, getElem?_append_of_some hi, hshape, hp, hinode,
    (List.getElem?_eq_some_iff.mp hi).1, List.getElem?_concat_length, hline, ?_⟩
  intro k l hlo hhi hl
  rcases getElem?_append_cases hl with hl | ⟨hk, -⟩
  · exact hlast k l hlo hl
  · omega

end Append

/-- What the parser has at hand after these lines: the current mapping is that of the
last header, and every region has an origin. -/
structure ReadFrom (ls : List (List Char)) (st : SmapsState) : Prop where
  current : st.isPrivateAnon = true →
    ∃ stop, Current ls st.currentStart stop ∧ st.currentSize = stop - st.currentStart
  regions : ∀ r ∈ st.regions, ∃ stop, Origin ls r.1 stop ∧ r.2 = stop - r.1

theorem readFrom_line {ls : List (List Char)} {st : SmapsState} (h : ReadFrom ls st)
    (line : List Char) : ReadFrom (ls ++ [line]) (parseSmapsLine st line) := by
  have hregions : ∀ r ∈ st.regions, ∃ stop, Origin (ls ++ [line]) r.1 stop ∧ r.2 = stop - r.1 := by
    intro r hr
    obtain ⟨stop, horigin, hsize⟩ := h.regions r hr
    exact ⟨stop, origin_append horigin, hsize⟩
  by_cases hheader : IsHeader line
  · obtain ⟨start, stop, perms, inode, hshape⟩ := hheader
    rw [parseSmapsLine_header hshape]
    refine ⟨fun hflag => ⟨stop, ?_, rfl⟩, hregions⟩
    simp only [Bool.and_eq_true, List.contains_iff_mem, beq_iff_eq] at hflag
    exact current_of_header hshape hflag.1 hflag.2
  · have hcurrent : st.isPrivateAnon = true → ∃ stop,
        Current (ls ++ [line]) st.currentStart stop ∧ st.currentSize = stop - st.currentStart := by
      intro hflag
      obtain ⟨stop, hcur, hsize⟩ := h.current hflag
      exact ⟨stop, current_append hcur hheader, hsize⟩
    rw [parseSmapsLine_of_not_header hheader]
    rcases countAnonymous_cases st line with heq | ⟨hflag, hline, heq⟩
    · rw [heq]
      exact ⟨hcurrent, hregions⟩
    · rw [heq]
      refine ⟨hcurrent, fun r hr => ?_⟩
      rcases List.mem_append.mp hr with hr | hr
      · exact hregions r hr
      · rw [List.mem_singleton.mp hr]
        obtain ⟨stop, hcur, hsize⟩ := h.current hflag
        exact ⟨stop, origin_of_current hcur hline, hsize⟩

theorem readFrom_lines (ls : List (List Char)) : ReadFrom ls (ls.foldl parseSmapsLine {}) := by
  induction ls using List.reverseRecOn with
  | nil => exact ⟨fun h => (by cases h), fun r hr => (by cases hr)⟩
  | append_singleton ls line ih =>
    rw [List.foldl_append, List.foldl_cons, List.foldl_nil]
    exact readFrom_line ih line

/-! ## Underflow -/

/-- If the line is taken for a header, its addresses are in order. -/
def Ordered (line : List Char) : Prop :=
  ∀ start stop perms inode, HeaderShape line start stop perms inode → start ≤ stop

theorem parseSmapsLineChecked_of_ordered {line : List Char} (h : Ordered line) (st : SmapsState) :
    parseSmapsLineChecked st line = some (parseSmapsLine st line) := by
  rw [parseSmapsLine_eq]
  unfold parseSmapsLineChecked readHeaderChecked readHeader
  cases hparse : parseHeader line with
  | none => rfl
  | some header =>
    obtain ⟨start, stop, flag⟩ := header
    obtain ⟨perms, inode, hshape, -⟩ := shape_of_parseHeader hparse
    simp [h start stop perms inode hshape]

theorem parseSmapsLineChecked_of_not_ordered {line : List Char} (h : ¬ Ordered line)
    (st : SmapsState) : parseSmapsLineChecked st line = none := by
  unfold Ordered at h
  push Not at h
  obtain ⟨start, stop, perms, inode, hshape, hle⟩ := h
  unfold parseSmapsLineChecked readHeaderChecked
  rw [parseHeader_of_shape hshape]
  simp only [if_neg hle, Option.map_none]

/-- The loop gets through exactly when no header has its addresses the wrong way
round. -/
theorem foldlM_checked_isSome_iff (ls : List (List Char)) (st : SmapsState) :
    (ls.foldlM parseSmapsLineChecked st).isSome = true ↔ ∀ line ∈ ls, Ordered line := by
  induction ls generalizing st with
  | nil => simp
  | cons line ls ih =>
    rw [List.foldlM_cons, List.forall_mem_cons]
    by_cases hline : Ordered line
    · rw [parseSmapsLineChecked_of_ordered hline]
      exact (ih _).trans (and_iff_right hline).symm
    · rw [parseSmapsLineChecked_of_not_ordered hline]
      exact iff_of_false (by simp) (fun h => hline h.1)

/-- In order, the difference of the addresses is the size. -/
theorem toNat_add_sub {start stop : UInt64} (h : start ≤ stop) :
    start.toNat + (stop - start).toNat = stop.toNat := by
  rw [UInt64.toNat_sub_of_le _ _ h]
  have hle := UInt64.le_iff_toNat_le.mp h
  omega

/-- On every text, the parser gets through without an underflow and every region it
returns is the mapping of a header line with anonymous pages, if and only if no line
that is taken for a header has its addresses the wrong way round. -/
theorem parse_safe_iff (smaps : List Char) :
    ((parseAnonRegionsChecked smaps).isSome = true ∧
        ∀ r ∈ parseAnonRegions smaps, ∃ stop, Origin (lines smaps) r.1 stop ∧
          r.1.toNat + r.2.toNat = stop.toNat) ↔
      ∀ line ∈ lines smaps, ∀ start stop perms inode,
        HeaderShape line start stop perms inode → start ≤ stop := by
  unfold parseAnonRegionsChecked
  rw [Option.isSome_map, foldlM_checked_isSome_iff]
  constructor
  · intro h
    exact h.1
  · intro hordered
    refine ⟨hordered, fun r hr => ?_⟩
    obtain ⟨stop, horigin, hsize⟩ := (readFrom_lines (lines smaps)).regions r hr
    refine ⟨stop, horigin, ?_⟩
    obtain ⟨i, j, header, detail, perms, inode, hi, hshape, -⟩ := horigin
    rw [hsize]
    exact toNat_add_sub (hordered header (List.mem_of_getElem? hi) _ _ _ _ hshape)

/-- A mapping that ends before it starts. -/
def reversedSmaps : List Char := "2000-1000 rw-p 0 00:00 0 \nAnonymous: 4 kB\n".toList

/-- The size of the reversed mapping wraps: the parser hands out almost the whole
address space, and panics in a build with overflow checks. -/
theorem reversed_header_underflows :
    ¬ ∀ smaps : List Char, (parseAnonRegionsChecked smaps).isSome = true ∧
      ∀ r ∈ parseAnonRegions smaps, r.1.toNat + r.2.toNat < 2 ^ 64 := by
  intro hclaim
  have hparse : parseAnonRegions reversedSmaps = [(0x2000, 0xFFFFFFFFFFFFF000)] := by decide
  have hbound := (hclaim reversedSmaps).2 (0x2000, 0xFFFFFFFFFFFFF000)
    (by rw [hparse]; exact List.mem_singleton.mpr rfl)
  revert hbound
  decide

end BsslRam.SmapsParser
