import BsslRam.SmapsParser

/-!
# What the kernel writes into `smaps`, and what the parser reads out of it

A mapping is a header line and detail lines (`Mapping.lines`).  The header is
`start-end perms offset major:minor inode` and a space, and then the pathname, if
there is one, behind some more spaces.  A pathname may hold anything but a line
feed.  It comes after the fields that the parser looks at, so it can shift none of
them, and it cannot make a detail line either.

`foldl_mapping` is the step: the lines of one mapping push its region if it is
eligible, whatever the parser had at hand before.  `parse_render` is the run.
-/

namespace BsslRam.SmapsFormat

open BsslRam.Lib BsslRam.Lib.Text BsslRam.Compressor BsslRam.SmapsParser

/-! ## The format -/

/-- A detail line `Key: value`, other than the one that counts anonymous pages. -/
structure Detail where
  key : List Char
  value : List Char
  noNewline : '\n' ∉ key ++ ':' :: ' ' :: value
  noDash : '-' ∉ key ++ ':' :: ' ' :: value
  notAnonymous : ¬ "Anonymous:".toList <+: key ++ ':' :: ' ' :: value

def Detail.line (d : Detail) : List Char := d.key ++ ':' :: ' ' :: d.value

/-- A mapping as `smaps` shows it. -/
structure Mapping where
  start : UInt64
  stop : UInt64
  start_lt_stop : start < stop
  readable : Bool
  writable : Bool
  executable : Bool
  shared : Bool
  offset : Nat
  devMajor : Nat
  devMinor : Nat
  inode : Nat
  pathname : Option (List Char)
  noNewline : ∀ path ∈ pathname, '\n' ∉ path
  /-- How many spaces there are before the pathname. -/
  padding : Nat
  /-- The detail lines before and after the count of anonymous pages. -/
  before : List Detail
  anonymousKb : UInt64
  /-- How many spaces there are before the count, besides one. -/
  anonymousPadding : Nat
  after : List Detail

namespace Mapping

variable (m : Mapping)

/-- The four characters of the permissions. -/
def perms : List Char :=
  [if m.readable then 'r' else '-', if m.writable then 'w' else '-',
    if m.executable then 'x' else '-', if m.shared then 's' else 'p']

def device : List Char := showNat 16 2 m.devMajor ++ ':' :: showNat 16 2 m.devMinor

/-- The pathname with the spaces before it. -/
def name : List Char :=
  match m.pathname with
  | none => []
  | some path => List.replicate m.padding ' ' ++ path

/-- The fields behind the addresses. -/
def fields : List Char :=
  m.perms ++ ' ' :: (showNat 16 8 m.offset ++ ' ' :: (m.device ++ ' ' ::
    (showNat 10 1 m.inode ++ [' '])))

def header : List Char :=
  showNat 16 8 m.start.toNat ++ '-' :: (showNat 16 8 m.stop.toNat ++ ' ' :: (m.fields ++ m.name))

def anonymousLine : List Char :=
  "Anonymous:".toList ++ ' ' :: (List.replicate m.anonymousPadding ' ' ++
    (showNat 10 1 m.anonymousKb.toNat ++ [' ', 'k', 'B']))

def lines : List (List Char) :=
  m.header :: (m.before.map Detail.line ++ m.anonymousLine :: m.after.map Detail.line)

/-- The text of the mapping. -/
def render : List Char := m.lines.flatMap (fun l => l ++ ['\n'])

/-- The mapping is private, anonymous and has anonymous pages. -/
def eligible : Bool := !m.shared && m.inode == 0 && decide (0 < m.anonymousKb)

def region : Region := (m.start, m.stop - m.start)

end Mapping

/-! ## The header -/

section Header

variable (m : Mapping)

theorem isWord_perms : IsWord m.perms := by
  refine ⟨by simp [Mapping.perms], ?_⟩
  simp only [Mapping.perms, List.forall_mem_cons]
  refine ⟨?_, ?_, ?_, ?_, List.forall_mem_nil _⟩
  all_goals split <;> decide

theorem contains_perms : m.perms.contains 'p' = !m.shared := by
  unfold Mapping.perms
  cases m.readable <;> cases m.writable <;> cases m.executable <;> cases m.shared <;> decide

theorem isWord_device : IsWord m.device := by
  have hmajor : IsWord (showNat 16 2 m.devMajor) := isWord_showNat (by decide) (by decide) _ _
  have hminor : IsWord (showNat 16 2 m.devMinor) := isWord_showNat (by decide) (by decide) _ _
  refine ⟨by simp [Mapping.device], fun c hc => ?_⟩
  unfold Mapping.device at hc
  rcases List.mem_append.mp hc with hc | hc
  · exact hmajor.plain c hc
  · rcases List.mem_cons.mp hc with rfl | hc
    · decide
    · exact hminor.plain c hc

theorem inode_eq_zero : (showNat 10 1 m.inode == ['0']) = (m.inode == 0) := by
  rw [Bool.eq_iff_iff, beq_iff_eq, beq_iff_eq]
  constructor
  · intro hzero
    have hvalue : digitsValue 10 (showNat 10 1 m.inode) = some m.inode :=
      digitsValue_showNat (by decide) (by decide) 1 m.inode
    rw [hzero] at hvalue
    exact (Option.some.inj hvalue).symm
  · intro hzero
    rw [hzero]
    rfl

/-- The fields come out one by one, in front of whatever the name holds. -/
theorem splitWhitespace_fields (rest : List Char) :
    splitWhitespace (m.fields ++ rest) =
      m.perms :: showNat 16 8 m.offset :: m.device :: showNat 10 1 m.inode ::
        splitWhitespace rest := by
  have hspace : isWhitespace ' ' = true := by decide
  have hoffset : IsWord (showNat 16 8 m.offset) := isWord_showNat (by decide) (by decide) _ _
  have hinode : IsWord (showNat 10 1 m.inode) := isWord_showNat (by decide) (by decide) _ _
  unfold Mapping.fields
  simp only [List.append_assoc, List.cons_append, List.nil_append]
  rw [(isWord_perms m).splitWhitespace_append_cons hspace,
    hoffset.splitWhitespace_append_cons hspace,
    (isWord_device m).splitWhitespace_append_cons hspace,
    hinode.splitWhitespace_append_cons hspace]

/-- The header is one, also without a carriage return at its end. -/
theorem headerShape_header :
    HeaderShape (stripCr m.header) m.start m.stop m.perms (showNat 10 1 m.inode) := by
  have hsplit : m.header = (showNat 16 8 m.start.toNat ++ '-' :: (showNat 16 8 m.stop.toNat ++
      ' ' :: m.fields)) ++ m.name := by
    simp [Mapping.header]
  have hlast : (showNat 16 8 m.start.toNat ++ '-' :: (showNat 16 8 m.stop.toNat ++
      ' ' :: m.fields)).getLast? ≠ some '\r' := by
    simp [Mapping.fields, List.getLast?_append, List.getLast?_cons]
  obtain ⟨name, hname⟩ := exists_stripCr_append hlast m.name
  refine ⟨showNat 16 8 m.start.toNat, showNat 16 8 m.stop.toNat, m.fields ++ name, _, _, _, ?_,
    ?_, ?_, splitWhitespace_fields m name, ?_, ?_⟩
  · rw [hsplit, hname]
    simp
  · exact fun hmem => forall_mem_showNat (by decide) (by decide) _ _ (P := (· ≠ '-'))
      (by decide) '-' hmem rfl
  · exact fun hmem => forall_mem_showNat (by decide) (by decide) _ _ (P := (· ≠ ' '))
      (by decide) ' ' hmem rfl
  · rw [fromStrRadix_showNat (by decide) (by decide) 8 m.start.toNat_lt, UInt64.ofNat_toNat]
  · rw [fromStrRadix_showNat (by decide) (by decide) 8 m.stop.toNat_lt, UInt64.ofNat_toNat]

end Header

/-! ## The detail lines -/

theorem not_isHeader_of_no_dash {line : List Char} (h : '-' ∉ line) : ¬ IsHeader line := by
  intro ⟨start, stop, perms, inode, startStr, endStr, after, offset, dev, rest, hline, _⟩
  rw [hline] at h
  simp at h

theorem foldl_details (details : List Detail) (st : SmapsState) :
    ((details.map Detail.line).map stripCr).foldl parseSmapsLine st = st := by
  induction details with
  | nil => rfl
  | cons d details ih =>
    have hpre := stripCr_prefix d.line
    have hdash : '-' ∉ stripCr d.line := fun h => d.noDash (hpre.subset h)
    have hkey : ¬ "Anonymous:".toList <+: stripCr d.line :=
      fun h => d.notAnonymous (h.trans hpre)
    rw [List.map_cons, List.map_cons, List.foldl_cons,
      parseSmapsLine_of_plain (not_isHeader_of_no_dash hdash) hkey, ih]

section Anonymous

variable (m : Mapping)

theorem stripCr_anonymousLine : stripCr m.anonymousLine = m.anonymousLine := by
  have hlast : m.anonymousLine.getLast? = some 'B' := by
    unfold Mapping.anonymousLine
    rw [List.getLast?_append, List.getLast?_cons, List.getLast?_append, List.getLast?_append]
    rfl
  unfold stripCr
  rw [hlast]
  exact if_neg (by decide)

theorem anonymous_start : "Anonymous:".toList <+: m.anonymousLine := List.prefix_append _ _

omit m in
theorem isWord_anonymous : IsWord "Anonymous:".toList := by
  refine ⟨by simp, fun c hc => ?_⟩
  simp only [String.reduceToList, List.mem_cons, List.not_mem_nil, or_false] at hc
  rcases hc with rfl | rfl | rfl | rfl | rfl | rfl | rfl | rfl | rfl | rfl
  all_goals decide

/-- The second word of the line is the count. -/
theorem anonymousKb_line :
    (splitWhitespace m.anonymousLine)[1]?.bind (fromStrRadix 10) = some m.anonymousKb := by
  have hkey : IsWord "Anonymous:".toList := isWord_anonymous
  have hcount : IsWord (showNat 10 1 m.anonymousKb.toNat) :=
    isWord_showNat (by decide) (by decide) _ _
  have hpad : ∀ c ∈ List.replicate m.anonymousPadding ' ', isWhitespace c = true := by
    intro c hc
    rw [List.eq_of_mem_replicate hc]
    decide
  unfold Mapping.anonymousLine
  rw [hkey.splitWhitespace_append_cons (by decide), splitWhitespace_run_append hpad,
    hcount.splitWhitespace_append_cons (by decide), List.getElem?_cons_succ,
    List.getElem?_cons_zero, Option.bind_some,
    fromStrRadix_showNat (by decide) (by decide) 1 m.anonymousKb.toNat_lt, UInt64.ofNat_toNat]

/-- The line pushes the current mapping if that is private and anonymous and the count
is positive. -/
theorem parseSmapsLine_anonymous (st : SmapsState) :
    parseSmapsLine st m.anonymousLine =
      { st with regions := st.regions ++
          if st.isPrivateAnon && decide (0 < m.anonymousKb) then
            [(st.currentStart, st.currentSize)] else [] } := by
  have hkey : "Anonymous:".toList.isPrefixOf m.anonymousLine = true :=
    List.isPrefixOf_iff_prefix.mpr (anonymous_start m)
  rw [parseSmapsLine_of_not_header (not_isHeader_of_anonymous (anonymous_start m))]
  unfold countAnonymous
  rw [hkey, anonymousKb_line]
  obtain ⟨regions, currentStart, currentSize, isPrivateAnon⟩ := st
  cases isPrivateAnon with
  | false => simp
  | true =>
    by_cases hpos : 0 < m.anonymousKb
    · simp [hpos]
    · simp [hpos]

end Anonymous

/-! ## Whole mappings -/

/-- The lines of a mapping push its region if it is eligible, and leave nothing of the
mapping before. -/
theorem foldl_mapping (m : Mapping) (st : SmapsState) :
    (m.lines.map stripCr).foldl parseSmapsLine st =
      { regions := st.regions ++ if m.eligible then [m.region] else []
        currentStart := m.start
        currentSize := m.stop - m.start
        isPrivateAnon := !m.shared && m.inode == 0 } := by
  have hheader : parseSmapsLine st (stripCr m.header) =
      { st with
        isPrivateAnon := !m.shared && m.inode == 0
        currentStart := m.start
        currentSize := m.stop - m.start } := by
    rw [parseSmapsLine_header (headerShape_header m), contains_perms, inode_eq_zero]
  unfold Mapping.lines
  rw [List.map_cons, List.map_append, List.map_cons, List.foldl_cons, List.foldl_append,
    List.foldl_cons, foldl_details, foldl_details, stripCr_anonymousLine, hheader,
    parseSmapsLine_anonymous]
  rfl

theorem noNewline_lines (m : Mapping) : ∀ l ∈ m.lines, '\n' ∉ l := by
  have hhex : ∀ width n : Nat, '\n' ∉ showNat 16 width n := fun width n hmem =>
    forall_mem_showNat (by decide) (by decide) width n (P := (· ≠ '\n')) (by decide) _ hmem rfl
  have hdec : ∀ width n : Nat, '\n' ∉ showNat 10 width n := fun width n hmem =>
    forall_mem_showNat (by decide) (by decide) width n (P := (· ≠ '\n')) (by decide) _ hmem rfl
  have hperms : '\n' ∉ m.perms := fun hmem => by
    have hplain := (isWord_perms m).plain _ hmem
    revert hplain
    decide
  have hname : '\n' ∉ m.name := by
    unfold Mapping.name
    cases hpath : m.pathname with
    | none => simp
    | some path =>
      have hline := m.noNewline path hpath
      simp [hline]
  have hkey : '\n' ∉ "Anonymous:".toList := by simp
  intro l hl
  rw [Mapping.lines, List.mem_cons, List.mem_append, List.mem_cons] at hl
  have hdetail : ∀ {details : List Detail}, l ∈ details.map Detail.line → '\n' ∉ l := by
    intro details hmem
    obtain ⟨d, -, rfl⟩ := List.mem_map.mp hmem
    exact d.noNewline
  rcases hl with rfl | hl | rfl | hl
  · simp only [Mapping.header, Mapping.fields, Mapping.device, List.mem_append, List.mem_cons,
      hhex, hdec, hperms, hname]
    decide
  · exact hdetail hl
  · intro hmem
    rcases List.mem_append.mp hmem with hmem | hmem
    · exact hkey hmem
    · simp [hdec] at hmem
  · exact hdetail hl

/-- The lines of the whole text. -/
theorem lines_render (ms : List Mapping) :
    Text.lines (ms.flatMap Mapping.render) = (ms.flatMap Mapping.lines).map stripCr := by
  have hflat : ms.flatMap Mapping.render =
      (ms.flatMap Mapping.lines).flatMap (fun l => l ++ ['\n']) := by
    rw [List.flatMap_assoc]
    rfl
  rw [hflat, lines_terminated]
  intro l hl
  obtain ⟨m, -, hm⟩ := List.mem_flatMap.mp hl
  exact noNewline_lines m l hm

/-- The regions after any number of mappings. -/
theorem regions_foldl_mappings (ms : List Mapping) (st : SmapsState) :
    (((ms.flatMap Mapping.lines).map stripCr).foldl parseSmapsLine st).regions =
      st.regions ++ (ms.filter Mapping.eligible).map Mapping.region := by
  induction ms generalizing st with
  | nil => simp
  | cons m ms ih =>
    rw [List.flatMap_cons, List.map_append, List.foldl_append, foldl_mapping, ih,
      List.append_assoc, List.filter_cons]
    by_cases helig : m.eligible = true
    · rw [if_pos helig, if_pos helig]
      rfl
    · rw [if_neg helig, if_neg helig]
      rfl

theorem parseAnonRegions_render (ms : List Mapping) :
    parseAnonRegions (ms.flatMap Mapping.render) =
      (ms.filter Mapping.eligible).map Mapping.region := by
  unfold parseAnonRegions
  rw [lines_render, regions_foldl_mappings]
  rfl

/-- The parser returns the regions of exactly the mappings that are private, have no inode and
have anonymous pages, in order.  The length of a region is that of the mapping, the subtraction
does not wrap. -/
theorem parse_render (ms : List Mapping) :
    parseAnonRegions (ms.flatMap Mapping.render) =
      (ms.filter (fun m => !m.shared && m.inode == 0 && decide (0 < m.anonymousKb))).map
        (fun m => (m.start, m.stop - m.start)) ∧
    ∀ m ∈ ms, m.start.toNat + (m.stop - m.start).toNat = m.stop.toNat := by
  refine ⟨parseAnonRegions_render ms, fun m _ => ?_⟩
  have hle := UInt64.le_of_lt m.start_lt_stop
  rw [UInt64.toNat_sub_of_le _ _ hle, Nat.add_sub_cancel' (UInt64.le_iff_toNat_le.mp hle)]

def rssDetail : Detail where
  key := "Rss".toList
  value := "              12 kB".toList
  noNewline := by decide
  noDash := by decide
  notAnonymous := by decide

/-- A private mapping with anonymous pages. -/
def heapMapping : Mapping where
  start := 0x1000
  stop := 0x4000
  start_lt_stop := by decide
  readable := true
  writable := true
  executable := false
  shared := false
  offset := 0
  devMajor := 0
  devMinor := 0
  inode := 0
  pathname := some "[heap]".toList
  noNewline := by decide
  padding := 26
  before := [rssDetail]
  anonymousKb := 12
  anonymousPadding := 6
  after := []

/-- A file whose name looks like the header of another mapping. -/
def fileMapping : Mapping :=
  { heapMapping with
    inode := 17
    pathname := some "/tmp/5000-6000 rw-p 00000000 00:00 0".toList
    noNewline := by decide }

theorem parse_render_two_mappings :
    parseAnonRegions ([fileMapping, heapMapping].flatMap Mapping.render) = [(0x1000, 0x3000)] :=
  (parse_render [fileMapping, heapMapping]).1

end BsslRam.SmapsFormat
