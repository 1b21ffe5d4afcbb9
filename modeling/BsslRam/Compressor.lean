import BsslRam.Lib.Chunks
import BsslRam.Lib.Text

/-!
# Paging out one process

`daemon/src/compressor.rs`: the `smaps` parser and `compress_pid`, which hands
every private anonymous region of a process to `process_madvise` in batches of
at most `IOV_MAX`.

What the kernel answers is an input of the model (`CompressInputs`): the text
of `/proc/PID/smaps`, whether `pidfd_open` succeeds, and the return value of
each `process_madvise` call.  `usize` is 64 bits wide and its sums wrap, as in
a release build.

The second half states what the kernel has done when the call comes back.  A
return value `n ≥ 0` means that the first `n` bytes of the ranges of the batch
were advised, in order, and `n` may be smaller than the batch.  The success
test of the caller counts rejected batches only, so
`isRealSuccess_advised` is as far as it reaches.
-/

namespace BsslRam.Compressor

open BsslRam.Lib BsslRam.Lib.Text

/-- The most iovecs one `process_madvise` call takes. -/
def IOV_MAX : Nat := 1024

/-- A mapping: its start address and its size in bytes. -/
abbrev Region := UInt64 × UInt64

/-! ## The `smaps` parser -/

/-- What `parse_anon_regions` carries from one line to the next. -/
structure SmapsState where
  regions : List Region := []
  currentStart : UInt64 := 0
  currentSize : UInt64 := 0
  isPrivateAnon : Bool := false
  deriving DecidableEq

/-- Read a line as a mapping header `start-end perms offset dev inode ..`.  The
flag says that the mapping is private and anonymous. -/
def parseHeader (line : List Char) : Option (UInt64 × UInt64 × Bool) :=
  match splitFirst '-' line with
  | none => none
  | some (startStr, rest) =>
      match splitFirst ' ' rest with
      | none => none
      | some (endStr, after) =>
          match splitWhitespace after with
          | perms :: _ :: _ :: inode :: _ =>
              match fromStrRadix 16 startStr, fromStrRadix 16 endStr with
              | some start, some stop =>
                  some (start, stop, perms.contains 'p' && inode == ['0'])
              | _, _ => none
          | _ => none

/-- One turn of the loop of `parse_anon_regions`. -/
def parseSmapsLine (st : SmapsState) (line : List Char) : SmapsState :=
  let st := match parseHeader line with
    | some (start, stop, isPrivateAnon) =>
        { st with isPrivateAnon, currentStart := start, currentSize := stop - start }
    | none => st
  if st.isPrivateAnon && "Anonymous:".toList.isPrefixOf line then
    let kb := ((splitWhitespace line)[1]?.bind (fromStrRadix 10)).getD 0
    if 0 < kb then
      { st with regions := st.regions ++ [(st.currentStart, st.currentSize)] }
    else st
  else st

/-- The private anonymous regions with at least one anonymous page. -/
def parseAnonRegions (smaps : List Char) : List Region :=
  ((lines smaps).foldl parseSmapsLine {}).regions

/-! ## `compress_pid` -/

/-- An error with its contexts, outermost first. -/
abbrev Error := List String

/-- What the kernel answers during one call of `compress_pid`. -/
structure CompressInputs where
  /-- `fs::read_to_string("/proc/PID/smaps")`, or the text of its error. -/
  smaps : Except String (List Char)
  /-- The text of the error of `pidfd_open`, if it fails. -/
  pidfdOpenError : Option String := none
  /-- The return value of the `i`-th `process_madvise` call. -/
  madvise : Nat → Int

/-- `read_anonymous_regions`. -/
def readAnonymousRegions (inputs : CompressInputs) (pid : UInt32) :
    Except Error (List Region) :=
  match inputs.smaps with
  | .error e => .error [s!"reading smaps for pid {pid}", e]
  | .ok smaps => .ok (parseAnonRegions smaps)

/-- `open_pidfd`. -/
def openPidfd (inputs : CompressInputs) (pid : UInt32) : Except Error Unit :=
  match inputs.pidfdOpenError with
  | some e => .error [s!"pidfd_open failed for pid {pid}: {e}"]
  | none => .ok ()

/-- The numbers that `compress_pid` reports to its caller. -/
structure CompressOutcome where
  regions : Nat := 0
  bytesAdvised : UInt64 := 0
  bytesSkippedByKernel : UInt64 := 0
  batches : Nat := 0
  /-- Batches that the kernel rejected outright.  A short positive count is
  not a rejection. -/
  batchesFailed : Nat := 0
  /-- The call returned without a single system call. -/
  wasDryRun : Bool := false
  deriving DecidableEq, Repr

/-- At least one real batch went through and none failed. -/
def CompressOutcome.isRealSuccess (o : CompressOutcome) : Bool :=
  !o.wasDryRun && decide (0 < o.batches) && o.batchesFailed == 0

/-- The iovec table in chunks of `IOV_MAX`. -/
def batchesOf (regions : List Region) : List (List Region) :=
  Chunks.chunks IOV_MAX regions

/-- A `process_madvise` call: the ranges it was given, and what it returned. -/
structure MadviseCall where
  iovs : List Region
  ret : Int
  deriving DecidableEq

/-- What the batch loop has done so far: the system calls, and the running totals. -/
structure BatchTotals where
  calls : List MadviseCall := []
  bytesAdvised : UInt64 := 0
  batchesDone : Nat := 0
  batchesFailed : Nat := 0
  deriving DecidableEq

/-- One turn of the batch loop.  The chunk goes out in one system call, and the kernel's
answer is the next return value. -/
def adviseBatch (madvise : Nat → Int) (acc : BatchTotals) (chunk : List Region) :
    BatchTotals :=
  let ret := madvise acc.batchesDone
  let call : MadviseCall := { iovs := chunk, ret }
  let acc := { acc with calls := acc.calls ++ [call] }
  let acc :=
    if ret < 0 then { acc with batchesFailed := acc.batchesFailed + 1 }
    else { acc with bytesAdvised := acc.bytesAdvised + UInt64.ofNat ret.toNat }
  { acc with batchesDone := acc.batchesDone + 1 }

/-- The batch loop of `compress_pid`. -/
def batchLoop (madvise : Nat → Int) (regions : List Region) : BatchTotals :=
  (batchesOf regions).foldl (adviseBatch madvise) {}

/-- The batch loop and the summary behind it. -/
def adviseRegions (madvise : Nat → Int) (regions : List Region) : CompressOutcome :=
  let totalRequested := (regions.map Prod.snd).sum
  let totals := batchLoop madvise regions
  { regions := regions.length
    bytesAdvised := totals.bytesAdvised
    -- `saturating_sub`
    bytesSkippedByKernel :=
      if totalRequested < totals.bytesAdvised then 0 else totalRequested - totals.bytesAdvised
    batches := totals.batchesDone
    batchesFailed := totals.batchesFailed
    wasDryRun := false }

/-- Call `process_madvise(MADV_PAGEOUT)` on all anonymous regions of `pid`.  Beside the result
there are the calls that were made. -/
def tracedCompressPid (inputs : CompressInputs) (pid : UInt32) (dryRun : Bool) :
    Except Error CompressOutcome × List MadviseCall :=
  match readAnonymousRegions inputs pid with
  | .error e => (.error (s!"reading regions for pid {pid}" :: e), [])
  | .ok regions =>
      if dryRun then (.ok { regions := regions.length, wasDryRun := true }, [])
      else
        match openPidfd inputs pid with
        | .error e => (.error e, [])
        | .ok () =>
            (.ok (adviseRegions inputs.madvise regions),
              (batchLoop inputs.madvise regions).calls)

/-- `compress_pid`. -/
def compressPid (inputs : CompressInputs) (pid : UInt32) (dryRun : Bool) :
    Except Error CompressOutcome :=
  (tracedCompressPid inputs pid dryRun).1

/-- The `process_madvise` calls of `compress_pid`, in order. -/
def madviseCalls (inputs : CompressInputs) (pid : UInt32) (dryRun : Bool) : List MadviseCall :=
  (tracedCompressPid inputs pid dryRun).2

/-! ## What the batch loop counts -/

theorem batchesDone_foldl (madvise : Nat → Int) (batches : List (List Region)) :
    (batches.foldl (adviseBatch madvise) {}).batchesDone = batches.length := by
  induction batches using List.reverseRecOn with
  | nil => rfl
  | append_singleton batches batch ih =>
    simp only [List.foldl_append, List.foldl_cons, List.foldl_nil, adviseBatch, ih,
      List.length_append, List.length_singleton]
    split <;> rfl

/-- The loop submits every chunk, whatever the kernel said about the ones before. -/
theorem calls_foldl (madvise : Nat → Int) (batches : List (List Region)) :
    (batches.foldl (adviseBatch madvise) {}).calls =
      batches.mapIdx (fun i batch => { iovs := batch, ret := madvise i }) := by
  induction batches using List.reverseRecOn with
  | nil => rfl
  | append_singleton batches batch ih =>
    rw [List.foldl_append, List.foldl_cons, List.foldl_nil, List.mapIdx_concat, ← ih, adviseBatch,
      batchesDone_foldl]
    dsimp only
    split <;> rfl

private theorem batchesFailed_foldl (madvise : Nat → Int) (batches : List (List Region)) :
    (batches.foldl (adviseBatch madvise) {}).batchesFailed =
      (List.range batches.length).countP (fun i => madvise i < 0) := by
  induction batches using List.reverseRecOn with
  | nil => rfl
  | append_singleton batches batch ih =>
    rw [List.foldl_append, List.length_append, List.length_singleton, List.range_succ,
      List.countP_append, ← ih]
    simp only [List.foldl_cons, List.foldl_nil, adviseBatch, batchesDone_foldl]
    by_cases hret : madvise batches.length < 0 <;> simp [hret]

/-- The loop counts one batch for each chunk. -/
theorem adviseRegions_batches (madvise : Nat → Int) (regions : List Region) :
    (adviseRegions madvise regions).batches = (batchesOf regions).length :=
  batchesDone_foldl madvise (batchesOf regions)

/-- The loop counts as failed the batches that come back negative. -/
theorem adviseRegions_batchesFailed (madvise : Nat → Int) (regions : List Region) :
    (adviseRegions madvise regions).batchesFailed =
      (List.range (batchesOf regions).length).countP (fun i => madvise i < 0) :=
  batchesFailed_foldl madvise (batchesOf regions)

/-- The outcome of a real call is a success when there was a batch and the
kernel rejected none. -/
theorem adviseRegions_isRealSuccess (madvise : Nat → Int) (regions : List Region) :
    (adviseRegions madvise regions).isRealSuccess = true ↔
      batchesOf regions ≠ [] ∧ ∀ i, i < (batchesOf regions).length → 0 ≤ madvise i := by
  simp only [CompressOutcome.isRealSuccess, adviseRegions_batches,
    adviseRegions_batchesFailed, Bool.and_eq_true, decide_eq_true_eq, beq_iff_eq,
    List.countP_eq_zero, List.mem_range, not_lt, List.length_pos_iff]
  simp [adviseRegions]

theorem calls_batchLoop (madvise : Nat → Int) (regions : List Region) :
    (batchLoop madvise regions).calls =
      (batchesOf regions).mapIdx (fun i batch => { iovs := batch, ret := madvise i }) :=
  calls_foldl madvise (batchesOf regions)

/-- What the loop hands to the kernel are the chunks. -/
theorem iovs_batchLoop (madvise : Nat → Int) (regions : List Region) :
    (batchLoop madvise regions).calls.map MadviseCall.iovs = batchesOf regions := by
  rw [calls_batchLoop]
  refine List.ext_getElem? (fun i => ?_)
  rw [List.getElem?_map, List.getElem?_mapIdx, Option.map_map]
  exact congrFun Option.map_id _

/-- The return value of the `i`-th call. -/
theorem ret_batchLoop {madvise : Nat → Int} {regions : List Region} {i : Nat} {call : MadviseCall}
    (h : (batchLoop madvise regions).calls[i]? = some call) : call.ret = madvise i := by
  rw [calls_batchLoop, List.getElem?_mapIdx, Option.map_eq_some_iff] at h
  obtain ⟨batch, -, rfl⟩ := h
  rfl

theorem length_calls_batchLoop (madvise : Nat → Int) (regions : List Region) :
    (batchLoop madvise regions).calls.length = (batchesOf regions).length := by
  rw [← iovs_batchLoop madvise regions, List.length_map]

/-! ## The pieces of `compress_pid` -/

/-- Without the regions there is nothing to do. -/
theorem compressPid_of_read_error {inputs : CompressInputs} {pid : UInt32} {e : Error}
    (hread : readAnonymousRegions inputs pid = .error e) (dryRun : Bool) :
    compressPid inputs pid dryRun = .error (s!"reading regions for pid {pid}" :: e) := by
  simp only [compressPid, tracedCompressPid, hread]

/-- A dry run reads the regions and stops. -/
theorem compressPid_eq_preview {inputs : CompressInputs} {pid : UInt32} {regions : List Region}
    (hread : readAnonymousRegions inputs pid = .ok regions) :
    compressPid inputs pid true = .ok { regions := regions.length, wasDryRun := true } := by
  simp only [compressPid, tracedCompressPid, hread, if_true]

/-- The pieces of `compress_pid` between its system calls. -/
theorem compressPid_eq_bind (inputs : CompressInputs) (pid : UInt32) {regions : List Region}
    (hread : readAnonymousRegions inputs pid = .ok regions) :
    compressPid inputs pid false =
      (openPidfd inputs pid).bind (fun _ => .ok (adviseRegions inputs.madvise regions)) := by
  unfold compressPid tracedCompressPid
  rw [hread]
  simp only [Bool.false_eq_true, if_false]
  cases openPidfd inputs pid with
  | error e => rfl
  | ok u => rfl

/-- A real call whose first two system calls succeed comes to the batch loop. -/
theorem tracedCompressPid_eq {inputs : CompressInputs} {pid : UInt32}
    {regions : List Region} (hread : readAnonymousRegions inputs pid = .ok regions)
    (hopen : inputs.pidfdOpenError = none) :
    tracedCompressPid inputs pid false =
      (.ok (adviseRegions inputs.madvise regions),
        (batchLoop inputs.madvise regions).calls) := by
  unfold tracedCompressPid openPidfd
  rw [hread, hopen]
  rfl

theorem compressPid_eq_adviseRegions {inputs : CompressInputs} {pid : UInt32}
    {regions : List Region} (hread : readAnonymousRegions inputs pid = .ok regions)
    (hopen : inputs.pidfdOpenError = none) :
    compressPid inputs pid false = .ok (adviseRegions inputs.madvise regions) :=
  congrArg Prod.fst (tracedCompressPid_eq hread hopen)

theorem madviseCalls_eq_calls {inputs : CompressInputs} {pid : UInt32}
    {regions : List Region} (hread : readAnonymousRegions inputs pid = .ok regions)
    (hopen : inputs.pidfdOpenError = none) :
    madviseCalls inputs pid false = (batchLoop inputs.madvise regions).calls :=
  congrArg Prod.snd (tracedCompressPid_eq hread hopen)

/-- A dry run is never a success: it issues no system call. -/
theorem compressPid_dryRun {inputs : CompressInputs} {pid : UInt32} {o : CompressOutcome}
    (h : compressPid inputs pid true = .ok o) : o.isRealSuccess = false := by
  cases hread : readAnonymousRegions inputs pid with
  | error e =>
    rw [compressPid_of_read_error hread] at h
    cases h
  | ok regions =>
    rw [compressPid_eq_preview hread] at h
    cases h
    rfl

/-- A success comes out of the batch loop over the regions that were read. -/
theorem compressPid_isRealSuccess {inputs : CompressInputs} {pid : UInt32} {dryRun : Bool}
    {o : CompressOutcome} (h : compressPid inputs pid dryRun = .ok o)
    (hs : o.isRealSuccess = true) :
    ∃ regions, readAnonymousRegions inputs pid = .ok regions ∧
      o = adviseRegions inputs.madvise regions ∧
      madviseCalls inputs pid dryRun = (batchLoop inputs.madvise regions).calls := by
  cases dryRun with
  | true => rw [compressPid_dryRun h] at hs; cases hs
  | false =>
    cases hread : readAnonymousRegions inputs pid with
    | error e =>
      rw [compressPid_of_read_error hread] at h
      cases h
    | ok regions =>
      cases hopen : inputs.pidfdOpenError with
      | some e =>
        rw [compressPid_eq_bind inputs pid hread, openPidfd, hopen] at h
        cases h
      | none =>
        rw [compressPid_eq_adviseRegions hread hopen] at h
        exact ⟨regions, rfl, (Except.ok.inj h).symm, madviseCalls_eq_calls hread hopen⟩

/-! ## What the kernel has advised -/

/-- The byte total of a list of ranges. -/
def bytesOf (ranges : List Region) : Nat := (ranges.map (fun r => r.2.toNat)).sum

/-- The first `n` bytes of the ranges, in order, as pieces `(start, length)`. -/
def takeBytes : Nat → List Region → List (Nat × Nat)
  | _, [] => []
  | n, (start, size) :: rest =>
      if size.toNat ≤ n then (start.toNat, size.toNat) :: takeBytes (n - size.toNat) rest
      else [(start.toNat, n)]

/-- What one batch leaves advised: nothing when it was rejected, otherwise as
many bytes from the front as the kernel returned. -/
def advisedInBatch (ret : Int) (batch : List Region) : List (Nat × Nat) :=
  if ret < 0 then [] else takeBytes ret.toNat batch

/-- The byte at address `a` lies in one of the pieces. -/
def Covered (pieces : List (Nat × Nat)) (a : Nat) : Prop :=
  ∃ piece ∈ pieces, piece.1 ≤ a ∧ a < piece.1 + piece.2

/-- The byte at address `a` was advised by one of the calls. -/
def Advised (calls : List MadviseCall) (a : Nat) : Prop :=
  ∃ call ∈ calls, Covered (advisedInBatch call.ret call.iovs) a

/-- `a` is one of the bytes of the region. -/
def Region.HasByte (r : Region) (a : Nat) : Prop := r.1.toNat ≤ a ∧ a < r.1.toNat + r.2.toNat

instance (r : Region) (a : Nat) : Decidable (r.HasByte a) :=
  inferInstanceAs (Decidable (_ ∧ _))

/-- The kernel never claims to have advised more than it was given. -/
def KernelReturns (calls : List MadviseCall) : Prop :=
  ∀ call ∈ calls, call.ret ≤ bytesOf call.iovs

theorem bytesOf_cons (r : Region) (ranges : List Region) :
    bytesOf (r :: ranges) = r.2.toNat + bytesOf ranges := by
  simp [bytesOf]

theorem bytesOf_append (xs ys : List Region) : bytesOf (xs ++ ys) = bytesOf xs + bytesOf ys := by
  simp [bytesOf]

/-- A byte is within the first `n` when the ranges before its own, and the
bytes before it in its own, leave room for it. -/
theorem covered_takeBytes {front : List Region} {r : Region} {back : List Region} {n a : Nat}
    (hbyte : r.HasByte a) (hpos : bytesOf front + (a - r.1.toNat) < n) :
    Covered (takeBytes n (front ++ r :: back)) a := by
  induction front generalizing n with
  | nil =>
    obtain ⟨start, size⟩ := r
    obtain ⟨hlo, hhi⟩ := hbyte
    have hzero : bytesOf [] = 0 := rfl
    rw [List.nil_append, takeBytes]
    split
    · exact ⟨_, List.mem_cons_self, hlo, hhi⟩
    · exact ⟨_, List.mem_cons_self, hlo, by simp only at hlo hpos ⊢; omega⟩
  | cons x front ih =>
    obtain ⟨start, size⟩ := x
    rw [bytesOf_cons] at hpos
    simp only at hpos
    rw [List.cons_append, takeBytes, if_pos (by omega)]
    obtain ⟨piece, hmem, hin⟩ := ih (n := n - size.toNat) (by omega)
    exact ⟨piece, List.mem_cons_of_mem _ hmem, hin⟩

/-- A byte is advised if the kernel's count for the call reaches it. -/
theorem advised_of_reached {calls : List MadviseCall} {call : MadviseCall} (hcall : call ∈ calls)
    {front back : List Region} {r : Region} (hiovs : call.iovs = front ++ r :: back) {a : Nat}
    (hbyte : r.HasByte a) (hreach : (bytesOf front + (a - r.1.toNat) : Nat) < call.ret) :
    Advised calls a := by
  refine ⟨call, hcall, ?_⟩
  rw [advisedInBatch, if_neg (by omega), hiovs]
  exact covered_takeBytes hbyte (by omega)

/-- A call that came back with the size of its ranges advised every byte of them. -/
theorem advised_of_full {calls : List MadviseCall} {call : MadviseCall} (hcall : call ∈ calls)
    (hfull : call.ret = bytesOf call.iovs) {r : Region} (hr : r ∈ call.iovs) {a : Nat}
    (hbyte : r.HasByte a) : Advised calls a := by
  obtain ⟨front, back, hsplit⟩ := List.append_of_mem hr
  refine advised_of_reached hcall hsplit hbyte ?_
  rw [hfull, hsplit, bytesOf_append, bytesOf_cons]
  obtain ⟨hlo, hhi⟩ := hbyte
  omega

/-- What a success means for the memory of the process.  There was a call, the ranges that the
calls were given are together the regions that were read, the kernel rejected no call, and for
each call every byte up to the kernel's count was advised.  So every byte of every region
was advised unless a call came back short. -/
theorem isRealSuccess_advised (inputs : CompressInputs) (pid : UInt32) (dryRun : Bool)
    (o : CompressOutcome) (h : compressPid inputs pid dryRun = .ok o)
    (hs : o.isRealSuccess = true) :
    let calls := madviseCalls inputs pid dryRun
    ∃ regions, readAnonymousRegions inputs pid = .ok regions ∧
      regions ≠ [] ∧ calls ≠ [] ∧
      (calls.map MadviseCall.iovs).flatten = regions ∧
      (∀ i call, calls[i]? = some call → call.ret = inputs.madvise i) ∧
      (∀ call ∈ calls, 0 ≤ call.ret) ∧
      (∀ call ∈ calls, ∀ front r back, call.iovs = front ++ r :: back →
        ∀ a, r.HasByte a → (bytesOf front + (a - r.1.toNat) : Nat) < call.ret →
          Advised calls a) ∧
      ((∀ call ∈ calls, call.ret = bytesOf call.iovs) →
        ∀ r ∈ regions, ∀ a, r.HasByte a → Advised calls a) := by
  intro calls
  obtain ⟨regions, hread, rfl, hcalls⟩ := compressPid_isRealSuccess h hs
  obtain ⟨hne, hret⟩ := (adviseRegions_isRealSuccess _ _).mp hs
  have hiovs : calls.map MadviseCall.iovs = batchesOf regions := by
    rw [show calls = _ from hcalls, iovs_batchLoop]
  have hflatten : (calls.map MadviseCall.iovs).flatten = regions := by
    rw [hiovs]
    exact Chunks.flatten_chunks _ _
  have hanswer : ∀ i call, calls[i]? = some call → call.ret = inputs.madvise i := by
    intro i call hcall
    rw [show calls = _ from hcalls] at hcall
    exact ret_batchLoop hcall
  refine ⟨regions, hread, ?_, ?_, hflatten, hanswer, ?_, ?_, ?_⟩
  · exact fun hnil => hne ((Chunks.chunks_eq_nil_iff _ _).mpr hnil)
  · intro hnil
    rw [hnil, List.map_nil] at hiovs
    exact hne hiovs.symm
  · intro call hmem
    obtain ⟨i, hi⟩ := List.mem_iff_getElem?.mp hmem
    rw [hanswer i call hi]
    apply hret
    rw [← hiovs, List.length_map]
    exact (List.getElem?_eq_some_iff.mp hi).1
  · exact fun call hmem front r back hsplit a hbyte hreach =>
      advised_of_reached hmem hsplit hbyte hreach
  · intro hfull r hr a hbyte
    -- the region sits in the ranges of some call
    rw [← hflatten] at hr
    obtain ⟨batch, hbatch, hrb⟩ := List.mem_flatten.mp hr
    obtain ⟨call, hmem, rfl⟩ := List.mem_map.mp hbatch
    exact advised_of_full hmem (hfull call hmem) hrb hbyte

/-- One private anonymous mapping of two pages, of which the kernel advises the
first and then stops. -/
def shortCountInputs : CompressInputs where
  smaps := .ok "1000-3000 rw-p 00000000 00:00 0 \nAnonymous: 8 kB\n".toList
  madvise := fun _ => 4096

private theorem read_shortCountInputs :
    readAnonymousRegions shortCountInputs 7 = .ok [(0x1000, 0x2000)] := by
  have hparse : parseAnonRegions
      "1000-3000 rw-p 00000000 00:00 0 \nAnonymous: 8 kB\n".toList = [(0x1000, 0x2000)] := by
    decide
  simp only [readAnonymousRegions, shortCountInputs, hparse]

private theorem compressPid_shortCountInputs :
    compressPid shortCountInputs 7 false =
      .ok (adviseRegions shortCountInputs.madvise [(0x1000, 0x2000)]) :=
  compressPid_eq_adviseRegions read_shortCountInputs rfl

private theorem madviseCalls_shortCountInputs :
    madviseCalls shortCountInputs 7 false =
      [{ iovs := [(0x1000, 0x2000)], ret := 4096 }] := by
  rw [madviseCalls_eq_calls read_shortCountInputs rfl]
  decide

/-- The first page of `shortCountInputs`, by the general statement. -/
theorem isRealSuccess_advised_first_page :
    Advised (madviseCalls shortCountInputs 7 false) 0x1FFF := by
  obtain ⟨regions, -, -, -, -, -, -, hupTo, -⟩ :=
    isRealSuccess_advised shortCountInputs 7 false _ compressPid_shortCountInputs (by decide)
  refine hupTo { iovs := [(0x1000, 0x2000)], ret := 4096 } ?_ [] (0x1000, 0x2000) [] rfl 0x1FFF
    (by decide) (by decide)
  rw [madviseCalls_shortCountInputs]
  exact List.mem_singleton.mpr rfl

/-- With a call that comes back short, a success does not mean that every byte
was advised: the second page of `shortCountInputs` was not. -/
theorem isRealSuccess_not_all_advised :
    ¬ ∀ (inputs : CompressInputs) (pid : UInt32) (dryRun : Bool) (o : CompressOutcome)
        (regions : List Region), KernelReturns (madviseCalls inputs pid dryRun) →
        readAnonymousRegions inputs pid = .ok regions →
        compressPid inputs pid dryRun = .ok o → o.isRealSuccess = true →
        ∀ r ∈ regions, ∀ a, r.HasByte a → Advised (madviseCalls inputs pid dryRun) a := by
  intro hclaim
  have hkernel : KernelReturns (madviseCalls shortCountInputs 7 false) := by
    intro call hcall
    rw [madviseCalls_shortCountInputs] at hcall
    rw [List.mem_singleton.mp hcall]
    decide
  obtain ⟨call, hcall, piece, hpiece, hlo, hhi⟩ :=
    hclaim shortCountInputs 7 false _ _ hkernel read_shortCountInputs
      compressPid_shortCountInputs (by decide)
      (0x1000, 0x2000) List.mem_cons_self 0x2000 (by decide)
  rw [madviseCalls_shortCountInputs] at hcall
  have hone : advisedInBatch 4096 [(0x1000, 0x2000)] = [(0x1000, 4096)] := by decide
  rw [List.mem_singleton.mp hcall, hone] at hpiece
  rw [List.mem_singleton.mp hpiece] at hhi
  exact absurd hhi (by decide)

/-- One private anonymous page, which the kernel takes in full. -/
def onePageInputs : CompressInputs where
  smaps := .ok "1000-2000 rw-p 00000000 00:00 0 \nAnonymous: 4 kB\n".toList
  madvise := fun _ => 4096

theorem read_onePageInputs (pid : UInt32) :
    readAnonymousRegions onePageInputs pid = .ok [(0x1000, 0x1000)] := by
  have hparse : parseAnonRegions
      "1000-2000 rw-p 00000000 00:00 0 \nAnonymous: 4 kB\n".toList = [(0x1000, 0x1000)] := by
    decide
  simp only [readAnonymousRegions, onePageInputs, hparse]

end BsslRam.Compressor
