import BsslRam.ProcStat
import BsslRam.SmapsFormat
import BsslRam.ScanHistory
import BsslRam.PageOut
import BsslRam.Lib.Utf8

/-!
# Names in `/proc`, and what they can do to a decision

Two files that the daemon reads hold names: `stat` the name of the process, and `smaps`
the pathnames of the files it maps.  For the kernel a name is a sequence of bytes.  The
daemon reads both files with `fs::read_to_string`, which wants UTF-8 and fails otherwise,
before any parser has seen a character.

`ProcFiles` is both files with the names as bytes, `SameButNames` relates two processes
that differ in these bytes only.  The first half computes the two readings
(`readProcStats_eq`, `readAnonymousRegions_eq`).  They do not depend on the names, except
for whether these are UTF-8 throughout.  A process with another name therefore counts as
exited, and one that maps a file of such a name as failed.

The second half follows two such processes through the scan cycles of two runs.  The
tracker entries of the two differ in the PID at most (`withoutPid`), so equal readings
lead to equal branches (`branchAt_eq`).  A cycle takes none of the branches of a process
that is gone exactly when the names that it reads are UTF-8 (`treatedAsLive_iff`): that of
the process if it is a target, the pathnames if `compress_pid` is called.
-/

namespace BsslRam.ProcNames

open BsslRam.Lib BsslRam.Lib.Text BsslRam.Lib.Utf8 BsslRam.Scanner BsslRam.State
open BsslRam.Compressor BsslRam.Signals BsslRam.ScanCycle BsslRam.ScanHistory BsslRam.ProcStat
open BsslRam.SmapsFormat

/-! ## Reading files -/

/-- `fs::read_to_string`, with the text of its error. -/
def readToString (bytes : List UInt8) : Except String (List Char) :=
  match decode bytes with
  | some s => .ok s
  | none => .error "stream did not contain valid UTF-8"

/-- A file that fits into memory. -/
structure File where
  bytes : List UInt8
  fits : bytes.length < 2 ^ 63

theorem File.fits_of_decode {f : File} {s : List Char} (h : decode f.bytes = some s) :
    byteLen s < 2 ^ 63 := by
  have hfits := f.fits
  rw [decode_eq_some_iff.mp h, length_encode] at hfits
  exact hfits

/-- `fs::read_to_string` of a file, as a string slice. -/
def File.text (f : File) : Option Str :=
  match h : decode f.bytes with
  | some s => some ⟨s, File.fits_of_decode h⟩
  | none => none

/-- `read_proc_stats`. -/
def readProcStats (stat : File) : Option (UInt64 × UInt64 × UInt64) :=
  stat.text.bind parseProcStats

/-- `build_snapshot` without the BPF tracker.  The sum and the product wrap. -/
def buildSnapshot (stat : File) : Option (UInt64 × UInt64) :=
  (readProcStats stat).map fun (starttime, utime, stime) => (starttime, (utime + stime) * TICK_NS)

theorem File.text_of_decode {f : File} {s : List Char} (h : decode f.bytes = some s) :
    ∃ str : Str, f.text = some str ∧ str.chars = s := by
  unfold File.text
  split
  · rename_i s' hs'
    rw [h, Option.some.injEq] at hs'
    exact ⟨_, rfl, hs'.symm⟩
  · rename_i hnone
    rw [h] at hnone
    cases hnone

theorem File.text_of_invalid {f : File} (h : decode f.bytes = none) : f.text = none := by
  unfold File.text
  split
  · rename_i s hs
    rw [h] at hs
    cases hs
  · rfl

/-! ## The files of a process -/

/-- The bytes are UTF-8. -/
def Valid (bytes : List UInt8) : Prop := (decode bytes).isSome = true

instance (bytes : List UInt8) : Decidable (Valid bytes) :=
  inferInstanceAs (Decidable (_ = _))

theorem valid_of_decode {bytes : List UInt8} {s : List Char} (h : decode bytes = some s) :
    Valid bytes := by
  rw [Valid, h]
  rfl

theorem not_valid_of_decode {bytes : List UInt8} (h : decode bytes = none) : ¬ Valid bytes := by
  rw [Valid, h]
  exact Bool.false_ne_true

/-- A name of a process. -/
structure Comm where
  bytes : List UInt8
  ne_nil : bytes ≠ []
  length_le : bytes.length ≤ 15
  noNul : 0 ∉ bytes

/-- What `stat` shows behind the name. -/
structure StatRest where
  fields : List (List Char)
  shape : StatFields fields
  utime : UInt64
  stime : UInt64
  starttime : UInt64
  utimeField : ∃ w, fields[11]? = some w ∧ IsDecimal w utime.toNat
  stimeField : ∃ w, fields[12]? = some w ∧ IsDecimal w stime.toNat
  starttimeField : ∃ w, fields[19]? = some w ∧ IsDecimal w starttime.toNat

/-- The bytes of `stat`. -/
def statBytes (pid : Nat) (comm : Comm) (rest : StatRest) : List UInt8 :=
  encode (showNat 10 1 pid ++ [' ', '(']) ++
    (comm.bytes ++ encode (')' :: ' ' :: (List.intercalate [' '] rest.fields ++ ['\n'])))

/-- A mapping with the bytes of its pathname, if it has one. -/
structure MappedFile where
  /-- Everything but the name. -/
  frame : Mapping
  nameless : frame.pathname = none
  path : Option (List UInt8)
  noNewline : ∀ bytes ∈ path, 10 ∉ bytes

/-- The lines of the mapping behind its header. -/
def MappedFile.details (m : MappedFile) : List Char :=
  m.frame.lines.tail.flatMap (fun l => l ++ ['\n'])

/-- The bytes of the pathname with the spaces before it. -/
def MappedFile.nameBytes (m : MappedFile) : List UInt8 :=
  match m.path with
  | none => []
  | some path => encode (List.replicate m.frame.padding ' ') ++ path

def MappedFile.bytes (m : MappedFile) : List UInt8 :=
  encode m.frame.header ++ (m.nameBytes ++ encode ('\n' :: m.details))

/-- The two files. -/
structure ProcFiles where
  pid : Nat
  comm : Comm
  rest : StatRest
  fits : (statBytes pid comm rest).length < 2 ^ 63
  maps : List MappedFile

def ProcFiles.stat (p : ProcFiles) : File := ⟨statBytes p.pid p.comm p.rest, p.fits⟩

def ProcFiles.smaps (p : ProcFiles) : List UInt8 := p.maps.flatMap MappedFile.bytes

/-- All pathnames are UTF-8. -/
def ProcFiles.ValidPaths (p : ProcFiles) : Prop := ∀ m ∈ p.maps, ∀ path ∈ m.path, Valid path

instance (p : ProcFiles) : Decidable p.ValidPaths :=
  inferInstanceAs (Decidable (∀ m ∈ p.maps, ∀ path ∈ m.path, Valid path))

/-- The regions of the eligible mappings. -/
def ProcFiles.regions (p : ProcFiles) : List Region :=
  ((p.maps.map MappedFile.frame).filter Mapping.eligible).map Mapping.region

/-- The two processes differ in their names only, and in the PID that `stat` starts
with. -/
structure SameButNames (p q : ProcFiles) : Prop where
  rest : p.rest = q.rest
  frames : p.maps.map MappedFile.frame = q.maps.map MappedFile.frame

/-! ## `stat` -/

theorem decode_statBytes (pid : Nat) (comm : Comm) (rest : StatRest) :
    decode (statBytes pid comm rest) =
      (decode comm.bytes).map fun name => statLine pid name rest.fields ['\n'] := by
  have hcut := decode_append_ascii comm.bytes
    (encode (' ' :: (List.intercalate [' '] rest.fields ++ ['\n']))) (a := ')') (by decide)
  rw [decode_encode] at hcut
  have hparen : encode (')' :: ' ' :: (List.intercalate [' '] rest.fields ++ ['\n'])) =
      UInt8.ofNat (')'.toNat) ::
        encode (' ' :: (List.intercalate [' '] rest.fields ++ ['\n'])) := by
    rw [encode_cons, utf8EncodeChar_ascii (by decide)]
    rfl
  rw [statBytes, decode_encode_append, hparen, hcut]
  cases decode comm.bytes with
  | none => rfl
  | some name => simp [statLine]

/-- The reading of `stat` depends on the name only by whether it is UTF-8. -/
theorem readProcStats_eq (p : ProcFiles) :
    readProcStats p.stat =
      if Valid p.comm.bytes then some (p.rest.starttime, p.rest.utime, p.rest.stime) else none := by
  have hdecode := decode_statBytes p.pid p.comm p.rest
  cases hname : decode p.comm.bytes with
  | none =>
    rw [hname, Option.map_none] at hdecode
    have hnone : p.stat.text = none := File.text_of_invalid hdecode
    rw [if_neg (not_valid_of_decode hname), readProcStats, hnone]
    rfl
  | some name =>
    rw [hname, Option.map_some] at hdecode
    obtain ⟨str, htext, hchars⟩ : ∃ str, p.stat.text = some str ∧ str.chars = _ :=
      File.text_of_decode hdecode
    obtain ⟨w₁₄, h₁₄, hutime⟩ := p.rest.utimeField
    obtain ⟨w₁₅, h₁₅, hstime⟩ := p.rest.stimeField
    obtain ⟨w₂₂, h₂₂, hstarttime⟩ := p.rest.starttimeField
    have htail : StatTail ['\n'] := ⟨by simp [isWhitespace]⟩
    have hparse := parseProcStats_statLine hchars p.rest.shape htail h₁₄ h₁₅ h₂₂ hutime hstime
      hstarttime
    rw [if_pos (valid_of_decode hname), readProcStats, htext, Option.bind_some, hparse]

/-! ## `smaps` -/

/-- The mapping of a name that is UTF-8, and the bytes of everything behind it. -/
theorem decode_mappedFile (m : MappedFile) (rest : List UInt8) :
    decode (m.bytes ++ rest) =
      (decode m.nameBytes).bind fun name =>
        (decode rest).map fun after =>
          m.frame.header ++ (name ++ '\n' :: (m.details ++ after)) := by
  have hcut := decode_append_ascii m.nameBytes (encode m.details ++ rest) (a := '\n') (by decide)
  rw [decode_encode_append] at hcut
  have hnewline : m.bytes ++ rest = encode m.frame.header ++
      (m.nameBytes ++ UInt8.ofNat ('\n'.toNat) :: (encode m.details ++ rest)) := by
    rw [MappedFile.bytes, encode_cons, utf8EncodeChar_ascii (by decide)]
    simp
  rw [hnewline, decode_encode_append, hcut]
  cases decode m.nameBytes with
  | none => rfl
  | some name => cases decode rest <;> simp

theorem decode_nameBytes_of_path {m : MappedFile} {path : List UInt8} (h : m.path = some path) :
    decode m.nameBytes = (decode path).map (List.replicate m.frame.padding ' ' ++ ·) := by
  rw [MappedFile.nameBytes, h]
  exact decode_encode_append _ path

theorem render_eq (m : Mapping) :
    m.render = m.header ++ '\n' :: m.lines.tail.flatMap (fun l => l ++ ['\n']) := by
  simp [Mapping.render, Mapping.lines]

/-- The mapping with a name. -/
def withName (m : Mapping) (name : List Char) (h : '\n' ∉ name) : Mapping :=
  { m with pathname := some name, noNewline := by simpa using h }

theorem header_withName {m : Mapping} (hnone : m.pathname = none) {name : List Char}
    (h : '\n' ∉ name) :
    (withName m name h).header = m.header ++ (List.replicate m.padding ' ' ++ name) := by
  have hname : m.name = [] := by
    rw [Mapping.name, hnone]
  have hfields : (withName m name h).header = showNat 16 8 m.start.toNat ++ '-' ::
      (showNat 16 8 m.stop.toNat ++ ' ' :: (m.fields ++ (List.replicate m.padding ' ' ++ name))) :=
    rfl
  rw [hfields, Mapping.header, hname]
  simp

/-- A mapping whose name is UTF-8 is read as the same mapping with this name. -/
theorem exists_mapping (m : MappedFile) (h : ∀ path ∈ m.path, Valid path) :
    ∃ m' : Mapping, m'.eligible = m.frame.eligible ∧ m'.region = m.frame.region ∧
      ∀ rest, decode (m.bytes ++ rest) = (decode rest).map (m'.render ++ ·) := by
  cases hpath : m.path with
  | none =>
    refine ⟨m.frame, rfl, rfl, fun rest => ?_⟩
    have hname : decode m.nameBytes = some [] := by
      rw [MappedFile.nameBytes, hpath]
      exact decode_encode []
    rw [decode_mappedFile, hname, render_eq]
    simp [MappedFile.details]
  | some path =>
    obtain ⟨name, hname⟩ := Option.isSome_iff_exists.mp (h path hpath)
    have hline : '\n' ∉ name := by
      intro hmem
      refine m.noNewline path hpath ?_
      rw [decode_eq_some_iff.mp hname]
      exact List.mem_flatMap.mpr ⟨'\n', hmem, by decide⟩
    refine ⟨withName m.frame name hline, rfl, rfl, fun rest => ?_⟩
    have hdetails : (withName m.frame name hline).lines.tail = m.frame.lines.tail := rfl
    rw [decode_mappedFile, decode_nameBytes_of_path hpath, hname, render_eq, hdetails,
      header_withName m.nameless]
    simp [MappedFile.details]

theorem decode_of_not_valid {m : MappedFile} (h : ¬ ∀ path ∈ m.path, Valid path)
    (rest : List UInt8) : decode (m.bytes ++ rest) = none := by
  push Not at h
  obtain ⟨path, hpath, hvalid⟩ := h
  have hnone : decode path = none := by
    rwa [Valid, Bool.not_eq_true, Option.isSome_eq_false_iff, Option.isNone_iff_eq_none] at hvalid
  rw [decode_mappedFile, decode_nameBytes_of_path hpath, hnone]
  rfl

/-- A file with valid names is the text of mappings with the same regions. -/
theorem decode_maps_of_valid {maps : List MappedFile}
    (h : ∀ m ∈ maps, ∀ path ∈ m.path, Valid path) :
    ∃ ms : List Mapping, decode (maps.flatMap MappedFile.bytes) = some (ms.flatMap Mapping.render) ∧
      (ms.filter Mapping.eligible).map Mapping.region =
        ((maps.map MappedFile.frame).filter Mapping.eligible).map Mapping.region := by
  induction maps with
  | nil => exact ⟨[], decode_encode [], rfl⟩
  | cons m maps ih =>
    rw [List.forall_mem_cons] at h
    obtain ⟨m', helig, hregion, hdecode⟩ := exists_mapping m h.1
    obtain ⟨ms, hms, hregions⟩ := ih h.2
    refine ⟨m' :: ms, ?_, ?_⟩
    · rw [List.flatMap_cons, hdecode, hms]
      rfl
    · rw [List.map_cons, List.filter_cons, List.filter_cons, helig]
      split
      · rw [List.map_cons, List.map_cons, hregion, hregions]
      · exact hregions

/-- One invalid name is enough to make the file unreadable. -/
theorem decode_maps_of_not_valid {maps : List MappedFile}
    (h : ¬ ∀ m ∈ maps, ∀ path ∈ m.path, Valid path) :
    decode (maps.flatMap MappedFile.bytes) = none := by
  induction maps with
  | nil => simp at h
  | cons m maps ih =>
    rw [List.flatMap_cons]
    by_cases hm : ∀ path ∈ m.path, Valid path
    · obtain ⟨m', -, -, hdecode⟩ := exists_mapping m hm
      have hrest : ¬ ∀ m ∈ maps, ∀ path ∈ m.path, Valid path := fun hall =>
        h (List.forall_mem_cons.mpr ⟨hm, hall⟩)
      rw [hdecode, ih hrest]
      rfl
    · exact decode_of_not_valid hm _

/-- What `compress_pid` gets from the kernel, with `smaps` from the file. -/
def inputsOf (kernel : CompressInputs) (p : ProcFiles) : CompressInputs :=
  { kernel with smaps := readToString p.smaps }

section Regions

variable (kernel : CompressInputs) (p : ProcFiles) (pid : UInt32)

theorem readAnonymousRegions_of_valid (h : p.ValidPaths) :
    readAnonymousRegions (inputsOf kernel p) pid = .ok p.regions := by
  obtain ⟨ms, hdecode, hregions⟩ := decode_maps_of_valid h
  have htext : (inputsOf kernel p).smaps = .ok (ms.flatMap Mapping.render) := by
    simp only [inputsOf, readToString, ProcFiles.smaps, hdecode]
  rw [readAnonymousRegions, htext, ProcFiles.regions, ← hregions]
  exact congrArg Except.ok (parseAnonRegions_render ms)

theorem readAnonymousRegions_of_not_valid (h : ¬ p.ValidPaths) :
    readAnonymousRegions (inputsOf kernel p) pid =
      .error [s!"reading smaps for pid {pid}", "stream did not contain valid UTF-8"] := by
  have htext : (inputsOf kernel p).smaps = .error "stream did not contain valid UTF-8" := by
    simp only [inputsOf, readToString, ProcFiles.smaps, decode_maps_of_not_valid h]
  rw [readAnonymousRegions, htext]

/-- The reading of `smaps` depends on the pathnames only by whether they are UTF-8. -/
theorem readAnonymousRegions_eq :
    (readAnonymousRegions (inputsOf kernel p) pid).toOption =
      if p.ValidPaths then some p.regions else none := by
  by_cases hvalid : p.ValidPaths
  · rw [readAnonymousRegions_of_valid kernel p pid hvalid, if_pos hvalid]
    rfl
  · rw [readAnonymousRegions_of_not_valid kernel p pid hvalid, if_neg hvalid]
    rfl

end Regions

/-! ## Two processes in one cycle -/

/-- The action without the text of an error, which names the PID. -/
def withoutText : Action → Action
  | .compressFailed _ => .compressFailed []
  | action => action

/-- The tracker entries without the PID in the snapshot. -/
def withoutPid (v : PidView) : PidView :=
  { v with snapshot := v.snapshot.map (fun snap => { snap with pid := 0 }) }

@[simp] theorem idleCycles_withoutPid (v : PidView) :
    (withoutPid v).idleCycles = v.idleCycles := rfl

@[simp] theorem isCompressed_withoutPid (v : PidView) :
    (withoutPid v).isCompressed = v.isCompressed := rfl

theorem isSuccess_withoutText (action : Action) :
    (withoutText action).isSuccess = action.isSuccess := by
  cases action <;> rfl

/-- `update` reads nothing of a snapshot but its start time and its CPU time. -/
theorem update_withoutPid (v : PidView) (snap : ProcSnapshot) (cpuNs wakeupNs : UInt64) :
    (v.update snap cpuNs wakeupNs).1 =
        ((withoutPid v).update { snap with pid := 0 } cpuNs wakeupNs).1 ∧
      withoutPid (v.update snap cpuNs wakeupNs).2 =
        ((withoutPid v).update { snap with pid := 0 } cpuNs wakeupNs).2 := by
  obtain ⟨stored, idle, compressed⟩ := v
  cases stored with
  | none => exact ⟨rfl, rfl⟩
  | some prev =>
    by_cases hst : prev.starttime = snap.starttime
    · simp [withoutPid, PidView.update, PidView.guardReuse, PidView.delta, hst]
    · simp [withoutPid, PidView.update, PidView.guardReuse, PidView.delta, hst, PidView.empty]

/-- Two results that are equal but for the text of an error. -/
theorem alike_cases {ε α : Type} {x y : Except ε α} (h : x.toOption = y.toOption) :
    (∃ a, x = .ok a ∧ y = .ok a) ∨ ∃ e e', x = .error e ∧ y = .error e' := by
  cases x with
  | error e =>
    cases y with
    | error e' => exact .inr ⟨e, e', rfl, rfl⟩
    | ok b => cases h
  | ok a =>
    cases y with
    | error e' => cases h
    | ok b =>
      cases h
      exact .inl ⟨a, rfl, rfl⟩

/-- `compress_pid` does the same on equal regions, but for the PID in its errors. -/
theorem compressPid_alike (kernel : CompressInputs) {smaps smaps' : Except String (List Char)}
    {p q : UInt32}
    (h : (readAnonymousRegions { kernel with smaps := smaps } p).toOption =
      (readAnonymousRegions { kernel with smaps := smaps' } q).toOption) (dryRun : Bool) :
    (compressPid { kernel with smaps := smaps } p dryRun).toOption =
      (compressPid { kernel with smaps := smaps' } q dryRun).toOption := by
  rcases alike_cases h with ⟨regions, hp, hq⟩ | ⟨e, e', hp, hq⟩
  · cases dryRun with
    | true => rw [compressPid_eq_preview hp, compressPid_eq_preview hq]
    | false =>
      rw [compressPid_eq_bind _ p hp, compressPid_eq_bind _ q hq]
      unfold openPidfd
      cases kernel.pidfdOpenError <;> rfl
  · rw [compressPid_of_read_error hp, compressPid_of_read_error hq]
    rfl

/-- Two environments that answer alike about two targets, but for the PID in errors. -/
structure AnswerAlike (config : Config) (env env' : CycleEnv) (tab tab' : TargetProcess) :
    Prop where
  snapshot : env.snapshot tab.pid = env'.snapshot tab'.pid
  rss : env.rssMib tab.pid = env'.rssMib tab'.pid
  veto : env.profileVeto tab.pid tab.profile = env'.profileVeto tab'.pid tab'.profile
  compress : (env.compressPid tab.pid config.dryRun).toOption =
    (env'.compressPid tab'.pid config.dryRun).toOption

section Cycle

variable {config : Config} {env env' : CycleEnv} {tab tab' : TargetProcess}

theorem judge_alike (h : AnswerAlike config env env' tab tab') (isIdle : Bool) (cycles : UInt32)
    (isCompressed : Bool) :
    withoutText (judge config env tab isIdle cycles isCompressed) =
      withoutText (judge config env' tab' isIdle cycles isCompressed) := by
  unfold judge
  rw [h.rss, h.veto]
  split
  · rfl
  split
  · rfl
  split
  · rfl
  split
  · rfl
  cases env'.profileVeto tab'.pid tab'.profile with
  | some veto => rfl
  | none =>
    rcases alike_cases h.compress with ⟨outcome, hp, hq⟩ | ⟨e, e', hp, hq⟩
    · rw [hp, hq]
    · rw [hp, hq]
      rfl

/-- One step of the two processes, from entries that differ in the PID at most. -/
theorem scan_alike (h : AnswerAlike config env env' tab tab') {v w : PidView}
    (hview : withoutPid v = withoutPid w) :
    withoutText (PidView.scan config env tab v).1 =
        withoutText (PidView.scan config env' tab' w).1 ∧
      withoutPid (PidView.scan config env tab v).2 =
        withoutPid (PidView.scan config env' tab' w).2 := by
  unfold PidView.scan
  rw [h.snapshot]
  cases env'.snapshot tab'.pid with
  | none => exact ⟨rfl, rfl⟩
  | some reading =>
    obtain ⟨starttime, cpuNs⟩ := reading
    have hv := update_withoutPid v ⟨tab.pid, starttime, cpuNs⟩ config.cpuDeltaNs
      config.wakeupDeltaNs
    have hw := update_withoutPid w ⟨tab'.pid, starttime, cpuNs⟩ config.cpuDeltaNs
      config.wakeupDeltaNs
    rw [hview] at hv
    have hidle := hv.1.trans hw.1.symm
    have hentries := hv.2.trans hw.2.symm
    simp only
    generalize v.update ⟨tab.pid, starttime, cpuNs⟩ config.cpuDeltaNs config.wakeupDeltaNs = u
      at hidle hentries ⊢
    generalize w.update ⟨tab'.pid, starttime, cpuNs⟩ config.cpuDeltaNs config.wakeupDeltaNs = u'
      at hidle hentries ⊢
    have hcounter := congrArg PidView.idleCycles hentries
    have hflag := congrArg PidView.isCompressed hentries
    rw [idleCycles_withoutPid, idleCycles_withoutPid] at hcounter
    rw [isCompressed_withoutPid, isCompressed_withoutPid] at hflag
    rw [hidle, hcounter, hflag]
    have hjudge := judge_alike h u'.1 u'.2.idleCycles u'.2.isCompressed
    refine ⟨hjudge, ?_⟩
    have hsuccess := congrArg Action.isSuccess hjudge
    rw [isSuccess_withoutText, isSuccess_withoutText] at hsuccess
    rw [hsuccess]
    split
    · exact congrArg PidView.markCompressed hentries
    · exact hentries

end Cycle

/-! ## Two runs -/

/-- What cycle `n` of a run does about `p`. -/
def branchAt (config : Config) (cycles : List Cycle) (p : UInt32) (n : Nat) : Option Action :=
  cycles[n]?.bind (fun c => c.action? config p (viewAt config cycles p n))

/-- In a cycle the answers about `p` come from its files. -/
structure ReadsFrom (c : Cycle) (p : UInt32) (files : ProcFiles) (kernel : CompressInputs) :
    Prop where
  snapshot : c.env.snapshot p = buildSnapshot files.stat
  compress : ∀ dryRun, c.env.compressPid p dryRun = compressPid (inputsOf kernel files) p dryRun

/-- Two cycles agree on everything else about `p` and `q`. -/
structure OtherwiseAlike (c c' : Cycle) (p q : UInt32) : Prop where
  target : (c.target? p).map TargetProcess.profile = (c'.target? q).map TargetProcess.profile
  rss : c.env.rssMib p = c'.env.rssMib q
  veto : ∀ profile, c.env.profileVeto p profile = c'.env.profileVeto q profile

/-- Two runs that watch a process each.  In cycle `n` the files of the two differ in the
names only, and everything else that a cycle looks at is the same. -/
structure SameCourse (cs cs' : List Cycle) (p q : UInt32) (files files' : Nat → ProcFiles)
    (kernel : Nat → CompressInputs) : Prop where
  length : cs.length = cs'.length
  names : ∀ n < cs.length, SameButNames (files n) (files' n)
  reads : ∀ (n : Nat) c, cs[n]? = some c → ReadsFrom c p (files n) (kernel n)
  reads' : ∀ (n : Nat) c, cs'[n]? = some c → ReadsFrom c q (files' n) (kernel n)
  otherwise : ∀ (n : Nat) c c', cs[n]? = some c → cs'[n]? = some c' → OtherwiseAlike c c' p q

/-- The daemon reads the same out of the files of both processes. -/
def SameReadings (p q : UInt32) (files files' : ProcFiles) (kernel : CompressInputs) : Prop :=
  readProcStats files.stat = readProcStats files'.stat ∧
    (readAnonymousRegions (inputsOf kernel files) p).toOption =
      (readAnonymousRegions (inputsOf kernel files') q).toOption

/-- The names of both processes are UTF-8, or neither's are. -/
def SameValidity (files files' : ProcFiles) : Prop :=
  (Valid files.comm.bytes ↔ Valid files'.comm.bytes) ∧ (files.ValidPaths ↔ files'.ValidPaths)

theorem ite_some_eq_iff {α : Type} {P Q : Prop} [Decidable P] [Decidable Q] {a : α} :
    ((if P then some a else none) = if Q then some a else none) ↔ (P ↔ Q) := by
  by_cases hP : P
  · by_cases hQ : Q
    · simp [hP, hQ]
    · simp [hP, hQ]
  · by_cases hQ : Q
    · simp [hP, hQ]
    · simp [hP, hQ]

/-- Names matter by their validity, and by nothing else. -/
theorem sameReadings_iff {files files' : ProcFiles} (h : SameButNames files files') (p q : UInt32)
    (kernel : CompressInputs) :
    SameReadings p q files files' kernel ↔ SameValidity files files' := by
  have hregions : files.regions = files'.regions := by
    rw [ProcFiles.regions, h.frames]
    rfl
  refine and_congr ?_ ?_
  · rw [readProcStats_eq, readProcStats_eq, h.rest, ite_some_eq_iff]
  · rw [readAnonymousRegions_eq, readAnonymousRegions_eq, hregions, ite_some_eq_iff]

/-- Equal readings are equal answers. -/
theorem answerAlike {config : Config} {c c' : Cycle} {p q : UInt32} {files files' : ProcFiles}
    {kernel : CompressInputs} (hread : ReadsFrom c p files kernel)
    (hread' : ReadsFrom c' q files' kernel) (hother : OtherwiseAlike c c' p q)
    (hsame : SameReadings p q files files' kernel) {tab tab' : TargetProcess}
    (htab : c.target? p = some tab) (htab' : c'.target? q = some tab') :
    AnswerAlike config c.env c'.env tab tab' := by
  have hpid := (Cycle.target?_pid htab).2
  have hpid' := (Cycle.target?_pid htab').2
  have hprofile : tab.profile = tab'.profile := by
    have htarget := hother.target
    rwa [htab, htab', Option.map_some, Option.map_some, Option.some.injEq] at htarget
  refine ⟨?_, ?_, ?_, ?_⟩
  · rw [hpid, hpid', hread.snapshot, hread'.snapshot, buildSnapshot, buildSnapshot, hsame.1]
  · rw [hpid, hpid', hother.rss]
  · rw [hpid, hpid', hprofile, hother.veto]
  · rw [hpid, hpid', hread.compress, hread'.compress]
    exact compressPid_alike kernel hsame.2 config.dryRun

section Runs

variable {config : Config} {cs cs' : List Cycle} {p q : UInt32} {files files' : Nat → ProcFiles}
  {kernel : Nat → CompressInputs}

/-- One cycle of both runs. -/
theorem step_alike (h : SameCourse cs cs' p q files files' kernel) {n : Nat} {c c' : Cycle}
    (hc : cs[n]? = some c) (hc' : cs'[n]? = some c')
    (hsame : SameReadings p q (files n) (files' n) (kernel n)) {v w : PidView}
    (hview : withoutPid v = withoutPid w) :
    (c.action? config p v).map withoutText = (c'.action? config q w).map withoutText ∧
      withoutPid (c.stepView config p v) = withoutPid (c'.stepView config q w) := by
  have hother := h.otherwise n c c' hc hc'
  have htarget := hother.target
  unfold Cycle.action? Cycle.stepView
  cases htab : c.target? p with
  | none =>
    cases htab' : c'.target? q with
    | none => simp only [Option.map_none, and_self]
    | some tab' => simp [htab, htab'] at htarget
  | some tab =>
    cases htab' : c'.target? q with
    | none => simp [htab, htab'] at htarget
    | some tab' =>
      have halike : AnswerAlike config c.env c'.env tab tab' :=
        answerAlike (h.reads n c hc) (h.reads' n c' hc') hother hsame htab htab'
      obtain ⟨haction, hentries⟩ := scan_alike halike hview
      refine ⟨?_, hentries⟩
      rw [Option.map_some, Option.map_some, Option.map_some, Option.map_some, haction]

/-- Along both runs, the tracker entries differ in the PID at most. -/
theorem viewAt_alike (h : SameCourse cs cs' p q files files' kernel)
    (hsame : ∀ n < cs.length, SameReadings p q (files n) (files' n) (kernel n)) {n : Nat}
    (hn : n ≤ cs.length) :
    withoutPid (viewAt config cs p n) = withoutPid (viewAt config cs' q n) := by
  induction n with
  | zero => rw [viewAt_zero, viewAt_zero]
  | succ n ih =>
    have hc := List.getElem?_eq_getElem (show n < cs.length by omega)
    have hc' := List.getElem?_eq_getElem (show n < cs'.length by rw [← h.length]; omega)
    rw [viewAt_succ config p hc, viewAt_succ config q hc']
    exact (step_alike h hc hc' (hsame n (by omega)) (ih (by omega))).2

/-- Equal readings in every cycle lead to equal branches in every cycle. -/
theorem branchAt_eq (h : SameCourse cs cs' p q files files' kernel)
    (hsame : ∀ n < cs.length, SameReadings p q (files n) (files' n) (kernel n)) {n : Nat}
    (hn : n < cs.length) :
    (branchAt config cs p n).map withoutText = (branchAt config cs' q n).map withoutText := by
  have hc := List.getElem?_eq_getElem hn
  have hc' := List.getElem?_eq_getElem (show n < cs'.length by rw [← h.length]; exact hn)
  rw [branchAt, branchAt, hc, hc', Option.bind_some, Option.bind_some]
  exact (step_alike h hc hc' (hsame n hn) (viewAt_alike h hsame (Nat.le_of_lt hn))).1

end Runs

/-! ## Live processes -/

/-- `p` is one of the targets of cycle `n`. -/
def Targeted (cs : List Cycle) (p : UInt32) (n : Nat) : Prop :=
  ∃ c tab, cs[n]? = some c ∧ c.target? p = some tab

/-- The cycle does not take the process for an exited one, and where it fails to page it
out, the error is that of `pidfd_open`. -/
structure TreatedAsLive (config : Config) (cs : List Cycle) (p : UInt32) (kernel : CompressInputs)
    (n : Nat) : Prop where
  notExited : branchAt config cs p n ≠ some .skipExited
  notFailed : ∀ err, branchAt config cs p n = some (.compressFailed err) →
    openPidfd kernel p = .error err

section Live

variable {config : Config} {cs : List Cycle} {p : UInt32} {n : Nat}

theorem called_iff_branchAt :
    Called config cs p n ↔
      ∃ a, branchAt config cs p n = some a ∧ a.callsCompressPid = true := by
  constructor
  · intro hcalled
    obtain ⟨c, hc⟩ := exists_cycle_of_did hcalled
    obtain ⟨a, ha, hcalls⟩ := (did_iff config p hc _).mp hcalled
    refine ⟨a, ?_, hcalls⟩
    rw [branchAt, hc]
    exact ha
  · rintro ⟨a, ha, hcalls⟩
    obtain ⟨c, hc, haction⟩ := Option.bind_eq_some_iff.mp ha
    exact (did_iff config p hc _).mpr ⟨a, haction, hcalls⟩

variable {files : ProcFiles} {kernel : CompressInputs}

theorem buildSnapshot_isSome_iff (files : ProcFiles) :
    (buildSnapshot files.stat).isSome = true ↔ Valid files.comm.bytes := by
  rw [buildSnapshot, readProcStats_eq]
  by_cases hvalid : Valid files.comm.bytes
  · simp [hvalid]
  · simp [hvalid]

/-- A target whose `stat` can be read is not taken for exited, and goes to `compress_pid` or
not.  One whose `stat` cannot be read is. -/
theorem branchAt_of_targeted (config : Config)
    (hreads : ∀ c, cs[n]? = some c → ReadsFrom c p files kernel) (htarget : Targeted cs p n) :
    ∃ a, branchAt config cs p n = some a ∧
      (¬ Valid files.comm.bytes ∧ a = .skipExited ∨
        Valid files.comm.bytes ∧ a ≠ .skipExited ∧
          (a.callsCompressPid = false ∨
            a = PageOut.outcomeAction (compressPid (inputsOf kernel files) p config.dryRun))) := by
  obtain ⟨c, tab, hc, htab⟩ := htarget
  have hread := hreads c hc
  have hpid := (Cycle.target?_pid htab).2
  have hbranch : branchAt config cs p n =
      some (PidView.scan config c.env tab (viewAt config cs p n)).1 := by
    rw [branchAt, hc, Option.bind_some, Cycle.action?, htab, Option.map_some]
  refine ⟨_, hbranch, ?_⟩
  unfold PidView.scan
  rw [hpid, hread.snapshot, ← buildSnapshot_isSome_iff files]
  cases buildSnapshot files.stat with
  | none => exact Or.inl ⟨by simp, rfl⟩
  | some reading =>
    refine Or.inr ⟨rfl, ?_⟩
    dsimp only
    rcases PageOut.judge_cases config c.env tab _ _ _ with ⟨hnot, hskip⟩ | hcall
    · exact ⟨hskip, Or.inl hnot⟩
    · have hcalls :=
        PageOut.callsCompressPid_outcomeAction (c.env.compressPid tab.pid config.dryRun)
      rw [hcall]
      refine ⟨fun hskip => ?_, Or.inr (by rw [hpid, hread.compress])⟩
      rw [hskip] at hcalls
      cases hcalls

/-- Only a target has a branch. -/
theorem targeted_of_branchAt {a : Action} (ha : branchAt config cs p n = some a) :
    Targeted cs p n := by
  obtain ⟨c, hc, haction⟩ := Option.bind_eq_some_iff.mp ha
  obtain ⟨tab, htab, -⟩ := Option.map_eq_some_iff.mp haction
  exact ⟨c, tab, hc, htab⟩

/-- With regions that can be read, `compress_pid` fails as `pidfd_open` does. -/
theorem openPidfd_of_error {dryRun : Bool} {err : Error} (hvalid : files.ValidPaths)
    (h : compressPid (inputsOf kernel files) p dryRun = .error err) :
    openPidfd kernel p = .error err := by
  have hread := readAnonymousRegions_of_valid kernel files p hvalid
  cases dryRun with
  | true =>
    rw [compressPid_eq_preview hread] at h
    cases h
  | false =>
    rw [compressPid_eq_bind _ p hread] at h
    change (openPidfd kernel p).bind _ = _ at h
    cases hopen : openPidfd kernel p with
    | error e =>
      rw [hopen] at h
      exact congrArg Except.error (Except.error.inj h)
    | ok u =>
      rw [hopen] at h
      cases h

/-- With regions that cannot be read, its error is another one. -/
theorem openPidfd_ne_of_not_valid (kernel : CompressInputs) (p : UInt32) (dryRun : Bool)
    (hnot : ¬ files.ValidPaths) :
    ∃ err, compressPid (inputsOf kernel files) p dryRun = .error err ∧
      openPidfd kernel p ≠ .error err := by
  refine ⟨_, compressPid_of_read_error
    (readAnonymousRegions_of_not_valid kernel files p hnot) _, ?_⟩
  unfold openPidfd
  cases kernel.pidfdOpenError with
  | none => simp
  | some e => simp

/-- The process is treated as the live one it is exactly when its name is UTF-8 where it is a
target, and the pathnames are where `compress_pid` reads them. -/
theorem treatedAsLive_iff (hreads : ∀ c, cs[n]? = some c → ReadsFrom c p files kernel) :
    TreatedAsLive config cs p kernel n ↔
      (Targeted cs p n → Valid files.comm.bytes) ∧
        (Called config cs p n → files.ValidPaths) := by
  constructor
  · intro hlive
    refine ⟨fun htarget => ?_, fun hcalled => ?_⟩
    · obtain ⟨a, ha, ⟨-, rfl⟩ | ⟨hvalid, -⟩⟩ :=
        branchAt_of_targeted config hreads htarget
      · exact absurd ha hlive.notExited
      · exact hvalid
    · obtain ⟨a, ha, hcalls⟩ := called_iff_branchAt.mp hcalled
      obtain ⟨a', ha', hcases⟩ := branchAt_of_targeted config hreads (targeted_of_branchAt ha)
      obtain rfl : a = a' := Option.some.inj (ha.symm.trans ha')
      rcases hcases with ⟨-, rfl⟩ | ⟨-, -, hnot | rfl⟩
      · cases hcalls
      · rw [hnot] at hcalls
        cases hcalls
      · by_contra hinvalid
        obtain ⟨err, herr, hopen⟩ := openPidfd_ne_of_not_valid kernel p config.dryRun hinvalid
        rw [herr] at ha
        exact hopen (hlive.notFailed err ha)
  · intro ⟨hcomm, hpaths⟩
    constructor
    · intro hexited
      have htarget := targeted_of_branchAt hexited
      obtain ⟨a, ha, ⟨hnot, -⟩ | ⟨-, hne, -⟩⟩ := branchAt_of_targeted config hreads htarget
      · exact hnot (hcomm htarget)
      · exact hne (Option.some.inj (ha.symm.trans hexited))
    · intro err hfailed
      have hvalid := hpaths (called_iff_branchAt.mpr ⟨_, hfailed, rfl⟩)
      obtain ⟨a, ha, ⟨-, rfl⟩ | ⟨-, -, hnot | rfl⟩⟩ :=
        branchAt_of_targeted config hreads (targeted_of_branchAt hfailed)
      · rw [ha] at hfailed
        cases hfailed
      · rw [hfailed] at ha
        cases ha
        cases hnot
      · exact openPidfd_of_error hvalid
          (PageOut.eq_error_of_compressFailed (Option.some.inj (ha.symm.trans hfailed)))

end Live

theorem callsCompressPid_withoutText (action : Action) :
    (withoutText action).callsCompressPid = action.callsCompressPid := by
  cases action <;> rfl

/-- Equal branches go to `compress_pid` together. -/
theorem called_of_branchAt_eq {config : Config} {cs cs' : List Cycle} {p q : UInt32} {n : Nat}
    (h : (branchAt config cs p n).map withoutText = (branchAt config cs' q n).map withoutText)
    (hcalled : Called config cs' q n) : Called config cs p n := by
  obtain ⟨a, ha, hcalls⟩ := called_iff_branchAt.mp hcalled
  rw [ha, Option.map_some, Option.map_eq_some_iff] at h
  obtain ⟨b, hb, htext⟩ := h
  refine called_iff_branchAt.mpr ⟨b, hb, ?_⟩
  rw [← callsCompressPid_withoutText, htext, callsCompressPid_withoutText, hcalls]

theorem SameCourse.targeted {cs cs' : List Cycle} {p q : UInt32} {files files' : Nat → ProcFiles}
    {kernel : Nat → CompressInputs} (h : SameCourse cs cs' p q files files' kernel) {n : Nat}
    (htarget : Targeted cs' q n) : Targeted cs p n := by
  obtain ⟨c', tab', hc', htab'⟩ := htarget
  have hn : n < cs.length := h.length ▸ (List.getElem?_eq_some_iff.mp hc').1
  have hc := List.getElem?_eq_getElem hn
  have hprofile := (h.otherwise n _ c' hc hc').target
  rw [htab', Option.map_some, Option.map_eq_some_iff] at hprofile
  obtain ⟨tab, htab, -⟩ := hprofile
  exact ⟨_, tab, hc, htab⟩

/-- In every cycle the daemon reads the same out of the files of both processes, takes the
same branch for them, and treats both as the live processes they are, exactly under three
conditions.  In each cycle the names of both are UTF-8 or neither's, and so for the
pathnames.  The name is UTF-8 whenever the process is a target.  The pathnames are whenever
`compress_pid` is called for it. -/
theorem names_harmless_iff (config : Config) {cs cs' : List Cycle} {p q : UInt32}
    {files files' : Nat → ProcFiles} {kernel : Nat → CompressInputs}
    (h : SameCourse cs cs' p q files files' kernel) :
    (∀ n < cs.length, SameReadings p q (files n) (files' n) (kernel n) ∧
      (branchAt config cs p n).map withoutText = (branchAt config cs' q n).map withoutText ∧
      TreatedAsLive config cs p (kernel n) n ∧ TreatedAsLive config cs' q (kernel n) n) ↔
    ∀ n < cs.length, SameValidity (files n) (files' n) ∧
      (Targeted cs p n → Valid (files n).comm.bytes) ∧
      (Called config cs p n → (files n).ValidPaths) := by
  constructor
  · intro hall n hn
    obtain ⟨hreadings, -, hlive, -⟩ := hall n hn
    exact ⟨(sameReadings_iff (h.names n hn) p q (kernel n)).mp hreadings,
      (treatedAsLive_iff (h.reads n)).mp hlive⟩
  · intro hall
    have hsame : ∀ n < cs.length, SameReadings p q (files n) (files' n) (kernel n) :=
      fun n hn => (sameReadings_iff (h.names n hn) p q (kernel n)).mpr (hall n hn).1
    intro n hn
    obtain ⟨hvalidity, hcomm, hpaths⟩ := hall n hn
    have hbranch : (branchAt config cs p n).map withoutText =
        (branchAt config cs' q n).map withoutText := branchAt_eq h hsame hn
    refine ⟨hsame n hn, hbranch, (treatedAsLive_iff (h.reads n)).mpr ⟨hcomm, hpaths⟩,
      (treatedAsLive_iff (h.reads' n)).mpr ⟨fun htarget => ?_, fun hcalled => ?_⟩⟩
    · exact hvalidity.1.mp (hcomm (h.targeted htarget))
    · exact hvalidity.2.mp (hpaths (called_of_branchAt_eq hbranch hcalled))

/-! ## A truncated name -/

/-- Twenty fields that are all 5. -/
def fivesRest : StatRest :=
  have hfive : ∃ w, (List.replicate 20 ['5'])[11]? = some w ∧ IsDecimal w (5 : UInt64).toNat :=
    ⟨['5'], rfl, by simp, by simp, by simp [Nat.ofDigitChars]⟩
  { fields := List.replicate 20 ['5']
    shape := ⟨by decide,
      fun f hf => List.eq_of_mem_replicate hf ▸ ⟨by simp, by simp [isWhitespace]⟩,
      fun f hf => List.eq_of_mem_replicate hf ▸ by decide⟩
    utime := 5
    stime := 5
    starttime := 5
    utimeField := hfive
    stimeField := hfive
    starttimeField := hfive }

/-- Seven times `é` and the first byte of the eighth: a name of sixteen bytes or more, cut off
at fifteen. -/
def truncatedComm : Comm where
  bytes := encode (List.replicate 7 'é') ++ [0xc3]
  ne_nil := by decide
  length_le := by decide
  noNul := by decide

def plainComm : Comm where
  bytes := [0x61]
  ne_nil := by decide
  length_le := by decide
  noNul := by decide

def otherComm : Comm where
  bytes := [0x62]
  ne_nil := by decide
  length_le := by decide
  noNul := by decide

/-- The files of process 7 under a name, with nothing mapped. -/
def filesNamed (comm : Comm) : ProcFiles where
  pid := 7
  comm := comm
  rest := fivesRest
  fits := by
    have hlength := comm.length_le
    have hfront : (encode (showNat 10 1 7 ++ [' ', '('])).length = 3 := by decide
    have hback :
        (encode (')' :: ' ' :: (List.intercalate [' '] fivesRest.fields ++ ['\n']))).length =
          42 := by decide
    rw [statBytes, List.length_append, List.length_append, hfront, hback]
    omega
  maps := []

def quietKernel : CompressInputs := { smaps := .ok [], madvise := fun _ => 0 }

/-- A cycle with process 7 as its one target. -/
def watchCycle (comm : Comm) : Cycle where
  targets := [{ pid := 7, profile := "firefox" }]
  env :=
    { snapshot := fun _ => buildSnapshot (filesNamed comm).stat
      rssMib := fun _ => 0
      profileVeto := fun _ _ => none
      compressPid := compressPid (inputsOf quietKernel (filesNamed comm)) }
  nodup := by decide

theorem target?_watchCycle (comm : Comm) :
    (watchCycle comm).target? 7 = some { pid := 7, profile := "firefox" } := rfl

theorem readsFrom_watchCycle (comm : Comm) :
    ReadsFrom (watchCycle comm) 7 (filesNamed comm) quietKernel := by
  constructor
  · simp only [watchCycle]
  · simp only [watchCycle, implies_true]

theorem sameButNames_filesNamed (comm comm' : Comm) :
    SameButNames (filesNamed comm) (filesNamed comm') := by
  constructor
  · simp only [filesNamed]
  · simp only [filesNamed]

theorem otherwiseAlike_watchCycle (comm comm' : Comm) :
    OtherwiseAlike (watchCycle comm) (watchCycle comm') 7 7 := by
  constructor
  · rw [target?_watchCycle, target?_watchCycle]
  · simp only [watchCycle]
  · simp only [watchCycle, implies_true]

theorem sameCourse_watch (comm comm' : Comm) :
    SameCourse [watchCycle comm] [watchCycle comm'] 7 7 (fun _ => filesNamed comm)
      (fun _ => filesNamed comm') (fun _ => quietKernel) := by
  have honly : ∀ {name : Comm} {n : Nat} {c : Cycle}, [watchCycle name][n]? = some c →
      c = watchCycle name := fun hc => List.mem_singleton.mp (List.mem_of_getElem? hc)
  constructor
  · simp only [List.length_singleton]
  · exact fun _ _ => sameButNames_filesNamed comm comm'
  · intro n c hc
    rw [honly hc]
    exact readsFrom_watchCycle comm
  · intro n c hc
    rw [honly hc]
    exact readsFrom_watchCycle comm'
  · intro n c c' hc hc'
    rw [honly hc, honly hc']
    exact otherwiseAlike_watchCycle comm comm'

/-- The first cycle of a process with a plain name, and of one with another. -/
theorem names_harmless_plain :
    (branchAt {} [watchCycle plainComm] 7 0).map withoutText =
      (branchAt {} [watchCycle otherComm] 7 0).map withoutText := by
  have hplain : Valid plainComm.bytes := valid_of_decode (decode_encode ['a'])
  have hother : Valid otherComm.bytes := valid_of_decode (decode_encode ['b'])
  have hpaths : ∀ comm, (filesNamed comm).ValidPaths := fun comm m hm => by cases hm
  have hall := (names_harmless_iff {} (sameCourse_watch plainComm otherComm)).mpr
    (fun _ _ => ⟨⟨iff_of_true hplain hother, iff_of_true (hpaths _) (hpaths _)⟩, fun _ => hplain,
      fun _ => hpaths plainComm⟩)
  exact (hall 0 Nat.one_pos).2.1

/-- The kernel cut the name of process 7 in the middle of a character, and so the daemon
takes a live process for an exited one.  Under the name `a` it is looked at. -/
theorem truncated_name_exits :
    SameCourse [watchCycle plainComm] [watchCycle truncatedComm] 7 7
      (fun _ => filesNamed plainComm) (fun _ => filesNamed truncatedComm) (fun _ => quietKernel) ∧
    readProcStats (filesNamed plainComm).stat = some (5, 5, 5) ∧
    readProcStats (filesNamed truncatedComm).stat = none ∧
    branchAt {} [watchCycle plainComm] 7 0 = some .skipActive ∧
    branchAt {} [watchCycle truncatedComm] 7 0 = some .skipExited := by
  have hinvalid : ¬ Valid truncatedComm.bytes := by
    refine not_valid_of_decode ?_
    rw [truncatedComm, decode_encode_append, decode_singleton (by decide)]
    rfl
  have hplain : readProcStats (filesNamed plainComm).stat = some (5, 5, 5) := by
    rw [readProcStats_eq]
    exact if_pos (valid_of_decode (decode_encode ['a']))
  have htruncated : readProcStats (filesNamed truncatedComm).stat = none := by
    rw [readProcStats_eq]
    exact if_neg hinvalid
  refine ⟨sameCourse_watch plainComm truncatedComm, hplain, htruncated, ?_, ?_⟩
  · have hsnap : (watchCycle plainComm).env.snapshot 7 = some (5, (5 + 5) * TICK_NS) := by
      rw [(readsFrom_watchCycle plainComm).snapshot, buildSnapshot, hplain]
      rfl
    rw [branchAt, List.getElem?_cons_zero, Option.bind_some, Cycle.action?, target?_watchCycle,
      viewAt_zero, Option.map_some, PidView.scan, hsnap]
    rfl
  · have hsnap : (watchCycle truncatedComm).env.snapshot 7 = none := by
      rw [(readsFrom_watchCycle truncatedComm).snapshot, buildSnapshot, htruncated]
      rfl
    rw [branchAt, List.getElem?_cons_zero, Option.bind_some, Cycle.action?, target?_watchCycle,
      viewAt_zero, Option.map_some, PidView.scan, hsnap]

end BsslRam.ProcNames
