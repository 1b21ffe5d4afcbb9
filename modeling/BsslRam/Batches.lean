import BsslRam.Compressor
import BsslRam.Lib.Word

/-!
# What the batches add up to

`compress_pid` of `daemon/src/compressor.rs` keeps its accounts in two places.  The total
that it asks for is a sum over the regions.  What the kernel has advised is a sum over the
batches, of which the rejected ones contribute nothing.  The difference of the two is what
the kernel skipped, and it is a saturating one, which would hide a mismatch.

`bytesAdvised_exact` is the invariant of the batch loop: as long as the kernel never
reports more than it was given, the second sum stays within the first and does not wrap.
`batches_balance` puts the accounts together.
-/

namespace BsslRam.Batches

open BsslRam.Lib BsslRam.Compressor

/-! ## The results of the kernel -/

/-- The return values of the calls, in order. -/
def kernelResults (calls : List MadviseCall) : List Int := calls.map MadviseCall.ret

/-- The sum of the results that are not negative. -/
def acceptedBytes (results : List Int) : Int := (results.filter (fun ret => decide (0 ≤ ret))).sum

/-- Each result is negative, or between 0 and the byte total of what the call was given. -/
def ResultsFit (calls : List MadviseCall) : Prop :=
  ∀ call ∈ calls, call.ret < 0 ∨ 0 ≤ call.ret ∧ call.ret ≤ bytesOf call.iovs

theorem acceptedBytes_append (results : List Int) (ret : Int) :
    acceptedBytes (results ++ [ret]) =
      acceptedBytes results + if ret < 0 then 0 else ret := by
  unfold acceptedBytes
  by_cases hret : ret < 0
  · simp [List.filter_append, hret]
  · simp [List.filter_append, hret, Int.not_lt.mp hret]

/-! ## The batch loop -/

/-- The byte total of everything that the calls were given. -/
def submittedBytes (calls : List MadviseCall) : Nat := bytesOf (calls.map MadviseCall.iovs).flatten

/-- What a turn of the loop adds: one call, and its count unless it was rejected. -/
theorem adviseBatch_eq (madvise : Nat → Int) (acc : BatchTotals) (chunk : List Region) :
    ∃ call : MadviseCall, call.iovs = chunk ∧ call.ret = madvise acc.batchesDone ∧
      (adviseBatch madvise acc chunk).calls = acc.calls ++ [call] ∧
      (adviseBatch madvise acc chunk).bytesAdvised =
        acc.bytesAdvised + if call.ret < 0 then 0 else UInt64.ofNat call.ret.toNat := by
  refine ⟨{ iovs := chunk, ret := madvise acc.batchesDone }, rfl, rfl, ?_, ?_⟩
  · unfold adviseBatch
    dsimp only
    split <;> rfl
  · unfold adviseBatch
    dsimp only
    split <;> simp

/-- The running total is the sum of the accepted results, and no larger than what was
submitted so far. -/
theorem bytesAdvised_exact {madvise : Nat → Int} {batches : List (List Region)}
    (hfit : ResultsFit (batches.foldl (adviseBatch madvise) {}).calls)
    (hsize : submittedBytes (batches.foldl (adviseBatch madvise) {}).calls < 2 ^ 64) :
    ((batches.foldl (adviseBatch madvise) {}).bytesAdvised.toNat : Int) =
        acceptedBytes (kernelResults (batches.foldl (adviseBatch madvise) {}).calls) ∧
      (batches.foldl (adviseBatch madvise) {}).bytesAdvised.toNat ≤
        submittedBytes (batches.foldl (adviseBatch madvise) {}).calls := by
  induction batches using List.reverseRecOn with
  | nil => exact ⟨rfl, Nat.le_refl 0⟩
  | append_singleton batches batch ih =>
    rw [List.foldl_append, List.foldl_cons, List.foldl_nil] at hfit hsize ⊢
    generalize batches.foldl (adviseBatch madvise) {} = acc at ih hfit hsize ⊢
    obtain ⟨call, -, -, hcalls, hadvised⟩ := adviseBatch_eq madvise acc batch
    have hsplit : submittedBytes (acc.calls ++ [call]) =
        submittedBytes acc.calls + bytesOf call.iovs := by
      simp [submittedBytes, bytesOf_append]
    rw [hcalls] at hfit hsize ⊢
    rw [hsplit] at hsize ⊢
    obtain ⟨hsum, hle⟩ := ih (fun c hc => hfit c (List.mem_append_left _ hc)) (by omega)
    rw [kernelResults, List.map_append, List.map_singleton, acceptedBytes_append, hadvised,
      UInt64.toNat_add, ← kernelResults, ← hsum]
    rcases hfit call (List.mem_append_right _ (List.mem_singleton.mpr rfl)) with
      hneg | ⟨hnonneg, htop⟩
    · rw [if_pos hneg, if_pos hneg, UInt64.toNat_zero]
      omega
    · -- the result fits into a word, and so does the new total
      have hret : (UInt64.ofNat call.ret.toNat).toNat = call.ret.toNat :=
        UInt64.toNat_ofNat_of_lt' (by
          rw [UInt64.size]
          omega)
      rw [if_neg (by omega), if_neg (by omega), hret]
      omega

/-- The total of the request. -/
theorem toNat_totalRequested {regions : List Region} (hsize : bytesOf regions < 2 ^ 64) :
    (regions.map Prod.snd).sum.toNat = bytesOf regions := by
  have hsizes : (regions.map Prod.snd).map UInt64.toNat = regions.map (fun r => r.2.toNat) := by
    rw [List.map_map]
    rfl
  rw [toNat_sum, hsizes]
  exact Nat.mod_eq_of_lt hsize

/-- The calls of the first turns are the first calls. -/
theorem calls_take (madvise : Nat → Int) (batches : List (List Region)) (k : Nat) :
    ((batches.take k).foldl (adviseBatch madvise) {}).calls =
      (batches.foldl (adviseBatch madvise) {}).calls.take k := by
  rw [calls_foldl, calls_foldl]
  refine List.ext_getElem? (fun i => ?_)
  rw [List.getElem?_mapIdx, List.getElem?_take, List.getElem?_take, List.getElem?_mapIdx]
  split <;> rfl

theorem submittedBytes_take_le (calls : List MadviseCall) (k : Nat) :
    submittedBytes (calls.take k) ≤ submittedBytes calls := by
  have hsplit := congrArg submittedBytes (List.take_append_drop k calls)
  simp only [submittedBytes, List.map_append, List.flatten_append, bytesOf_append] at hsplit ⊢
  omega

/-- One system call takes what a call is given, and no call is given nothing. -/
theorem length_iovs_of_mem {madvise : Nat → Int} {regions : List Region} {call : MadviseCall}
    (hcall : call ∈ (batchLoop madvise regions).calls) :
    call.iovs ≠ [] ∧ call.iovs.length ≤ IOV_MAX := by
  have hchunk : call.iovs ∈ batchesOf regions :=
    iovs_batchLoop madvise regions ▸ List.mem_map_of_mem hcall
  obtain ⟨hpos, htop⟩ := Chunks.length_of_mem_chunks (by decide) hchunk
  exact ⟨List.length_pos_iff.mp hpos, htop⟩

/-- The running total is exact after every turn. -/
theorem bytesAdvised_take {madvise : Nat → Int} {batches : List (List Region)}
    (hfit : ResultsFit (batches.foldl (adviseBatch madvise) {}).calls)
    (hsize : submittedBytes (batches.foldl (adviseBatch madvise) {}).calls < 2 ^ 64) (k : Nat) :
    (((batches.take k).foldl (adviseBatch madvise) {}).bytesAdvised.toNat : Int) =
      acceptedBytes ((kernelResults (batches.foldl (adviseBatch madvise) {}).calls).take k) := by
  have htake := calls_take madvise batches k
  have hpart := (submittedBytes_take_le _ k).trans_lt hsize
  have hfirst := bytesAdvised_exact (htake ▸ fun c hc => hfit c (List.mem_of_mem_take hc))
    (htake ▸ hpart)
  rw [hfirst.1, htake, kernelResults, kernelResults, List.map_take]

/-- The failed batches are the calls that came back negative. -/
theorem adviseRegions_batchesFailed_calls (madvise : Nat → Int) (regions : List Region) :
    (adviseRegions madvise regions).batchesFailed =
      (kernelResults (batchLoop madvise regions).calls).countP (fun ret => decide (ret < 0)) := by
  have hresults : kernelResults (batchLoop madvise regions).calls =
      (List.range (batchesOf regions).length).map madvise := by
    refine List.ext_getElem (by simp [kernelResults, length_calls_batchLoop]) (fun i hi hi' => ?_)
    simp only [kernelResults, List.getElem_map, List.getElem_range]
    exact ret_batchLoop (List.getElem?_eq_getElem _)
  rw [hresults, List.countP_map, adviseRegions_batchesFailed]
  rfl

/-- As long as no more is advised than was asked for, the saturating difference is an exact
one. -/
theorem bytesAdvised_add_skipped (madvise : Nat → Int) {regions : List Region}
    (hsize : bytesOf regions < 2 ^ 64)
    (hle : (adviseRegions madvise regions).bytesAdvised.toNat ≤ bytesOf regions) :
    (adviseRegions madvise regions).bytesAdvised.toNat +
      (adviseRegions madvise regions).bytesSkippedByKernel.toNat = bytesOf regions := by
  have hskipped : (adviseRegions madvise regions).bytesSkippedByKernel =
      saturatingSub (regions.map Prod.snd).sum (adviseRegions madvise regions).bytesAdvised := rfl
  rw [hskipped, toNat_saturatingSub, toNat_totalRequested hsize]
  exact Nat.add_sub_cancel' hle

/-- What the kernel is given, call by call, are the regions, cut into pieces that one system
call takes.  The loop comes to each of them, whatever the kernel said about the ones before.
It counts the rejected ones, its running total never wraps, and what was advised and what was
skipped together are the size of the regions. -/
theorem batches_balance (madvise : Nat → Int) (regions : List Region)
    (hsize : bytesOf regions < 2 ^ 64)
    (hfit : ResultsFit (batchLoop madvise regions).calls) :
    let calls := (batchLoop madvise regions).calls
    let results := kernelResults calls
    let outcome := adviseRegions madvise regions
    (∀ inputs pid, inputs.madvise = madvise → readAnonymousRegions inputs pid = .ok regions →
      inputs.pidfdOpenError = none →
        compressPid inputs pid false = .ok outcome ∧ madviseCalls inputs pid false = calls) ∧
    (∀ call ∈ calls, call.iovs ≠ [] ∧ call.iovs.length ≤ IOV_MAX) ∧
    (calls.map MadviseCall.iovs).flatten = regions ∧
    (∀ i call, calls[i]? = some call → call.ret = madvise i) ∧
    calls.length = regions.length ⌈/⌉ 1024 ∧
    outcome.batches = calls.length ∧
    outcome.batchesFailed = results.countP (fun ret => decide (ret < 0)) ∧
    (regions.map Prod.snd).sum.toNat = bytesOf regions ∧
    (∀ k, ((((batchesOf regions).take k).foldl (adviseBatch madvise) {}).bytesAdvised.toNat :
      Int) = acceptedBytes (results.take k)) ∧
    (outcome.bytesAdvised.toNat : Int) = acceptedBytes results ∧
    outcome.bytesAdvised.toNat + outcome.bytesSkippedByKernel.toNat = bytesOf regions := by
  intro calls results outcome
  have hiovs : calls.map MadviseCall.iovs = batchesOf regions := iovs_batchLoop madvise regions
  have hflatten : (calls.map MadviseCall.iovs).flatten = regions := by
    rw [hiovs]
    exact Chunks.flatten_chunks IOV_MAX regions
  have hlength : calls.length = (batchesOf regions).length := length_calls_batchLoop madvise regions
  have hsubmitted : submittedBytes calls = bytesOf regions := by rw [submittedBytes, hflatten]
  obtain ⟨hadvised, hle⟩ := bytesAdvised_exact hfit (hsubmitted.trans_lt hsize)
  refine ⟨?_, ?_, hflatten, fun i call => ret_batchLoop, ?_, ?_, ?_, toNat_totalRequested hsize, ?_,
    hadvised, ?_⟩
  · intro inputs pid hmadvise hread hopen
    rw [compressPid_eq_adviseRegions hread hopen, madviseCalls_eq_calls hread hopen, hmadvise]
    exact ⟨rfl, rfl⟩
  · exact fun call => length_iovs_of_mem
  · rw [hlength]
    exact Chunks.length_chunks (by decide) regions
  · rw [hlength]
    exact adviseRegions_batches madvise regions
  · exact adviseRegions_batchesFailed_calls madvise regions
  · exact bytesAdvised_take hfit (hsubmitted.trans_lt hsize)
  · exact bytesAdvised_add_skipped madvise hsize (hsubmitted ▸ hle)

/-- Two pages in one batch, of which the kernel advises one and a half. -/
theorem batches_balance_two_pages :
    let regions : List Region := [(0x1000, 0x1000), (0x4000, 0x1000)]
    (batchLoop (fun _ => 0x1800) regions).calls = [{ iovs := regions, ret := 0x1800 }] ∧
      (adviseRegions (fun _ => 0x1800) regions).bytesAdvised.toNat +
        (adviseRegions (fun _ => 0x1800) regions).bytesSkippedByKernel.toNat = 0x2000 := by
  intro regions
  have hcalls : (batchLoop (fun _ => 0x1800) regions).calls =
      [{ iovs := regions, ret := 0x1800 }] := by decide
  have hfit : ResultsFit (batchLoop (fun _ => 0x1800) regions).calls := by
    intro call hcall
    rw [hcalls] at hcall
    rw [List.mem_singleton.mp hcall]
    exact Or.inr (by decide : (0 : Int) ≤ 0x1800 ∧ (0x1800 : Int) ≤ bytesOf regions)
  obtain ⟨-, -, -, -, -, -, -, -, -, -, hbalance⟩ :=
    batches_balance (fun _ => 0x1800) regions (by decide) hfit
  exact ⟨hcalls, hbalance⟩

end BsslRam.Batches
