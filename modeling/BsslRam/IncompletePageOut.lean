import BsslRam.ScanHistory
import BsslRam.PageOut

/-!
# When a page-out is reported as incomplete

`scan_cycle` of `daemon/src/main.rs` sorts the outcomes of `compress_pid` with two guards: a
real success, then a dry run.  What is left is reported as incomplete, with the words
`process_madvise rejected one or more batches`.  The PID stays unmarked, so that it is tried
again (`retried_of_unmarked`).

A real success needs a batch, though, and a process without private anonymous pages has
none.  Its page-out is reported as incomplete although the kernel was never asked for one,
again in every idle cycle.  `incomplete_iff_rejected_iff` says that this is the only way in
which the report and the rejections can differ.
-/

namespace BsslRam.IncompletePageOut

open BsslRam.Lib BsslRam.Scanner BsslRam.State BsslRam.Compressor BsslRam.ScanCycle
open BsslRam.ScanHistory BsslRam.PageOut BsslRam.Lib.PastTime

/-! ## The report -/

def isIncomplete : Action → Bool
  | .compressIncomplete _ => true
  | _ => false

/-- The ways out that count as errors. -/
def isError : Action → Bool
  | .compressIncomplete _ | .compressFailed _ => true
  | _ => false

def errorsIn (log : List (TargetProcess × Action)) : UInt64 :=
  UInt64.ofNat (log.countP (fun entry => isError entry.2))

/-- Cycle `n` reports an incomplete page-out of `p`. -/
structure ReportedIncomplete (config : Config) (cycles : List Cycle) (p : UInt32) (n : Nat) :
    Prop where
  /-- The report is logged, and the error counter goes up by one for it. -/
  logged : ∃ r tab outcome front back, cycleResult? config cycles n = some r ∧ tab.pid = p ∧
    r.log = front ++ (tab, .compressIncomplete outcome) :: back ∧
    r.stats.errors = (runCycles config (cycles.take n)).stats.errors + errorsIn front + 1 +
      errorsIn back
  /-- The PID is left unmarked. -/
  unmarked : (runCycles config (cycles.take (n + 1))).tracker.isCompressed p = false
  /-- Until a success, every later cycle that finds the PID idle for long enough, large
  enough and without a veto tries again. -/
  retried : ∀ m c, n < m → cycles[m]? = some c →
    (∀ k, n < k → k < m → ¬ Succeeded config cycles p k) →
    (Called config cycles p m ↔ IdleAt config cycles p m ∧
      config.idleCyclesThreshold ≤ UInt32.ofNat (streak (IdleAt config cycles p) m) ∧
      config.minRssMib ≤ c.env.rssMib p ∧
      ∃ tab, c.target? p = some tab ∧ c.env.profileVeto p tab.profile = none)

/-- In cycle `n` the kernel rejects one of the batches of `p`. -/
def Rejected (config : Config) (cycles : List Cycle) (p : UInt32) (n : Nat)
    (inputs : CompressInputs) (regions : List Region) : Prop :=
  Called config cycles p n ∧ ∃ i < (batchesOf regions).length, inputs.madvise i < 0

/-! ## What the branch does -/

theorem errors_record (stats : Stats) (a : Action) :
    (stats.record a).errors = stats.errors + if isError a then 1 else 0 := by
  cases a <;> simp [Stats.record, isError]

theorem errors_foldl (log : List (TargetProcess × Action)) (stats : Stats) :
    (log.foldl (fun stats entry => stats.record entry.2) stats).errors =
      stats.errors + errorsIn log := by
  induction log generalizing stats with
  | nil => simp [errorsIn]
  | cons entry log ih =>
    rw [List.foldl_cons, ih, errors_record, errorsIn, errorsIn, List.countP_cons, UInt64.ofNat_add,
      UInt64.add_assoc, UInt64.add_comm (UInt64.ofNat _)]
    cases isError entry.2 <;> rfl

theorem errorsIn_append_cons (front back : List (TargetProcess × Action)) {tab : TargetProcess}
    {a : Action} (ha : isError a = true) :
    errorsIn (front ++ (tab, a) :: back) = errorsIn front + 1 + errorsIn back := by
  have hone : UInt64.ofNat 1 = 1 := rfl
  rw [errorsIn, List.countP_append, List.countP_cons, if_pos ha, UInt64.ofNat_add, UInt64.ofNat_add,
    errorsIn, errorsIn, UInt64.add_assoc, UInt64.add_comm 1, hone]

theorem errors_scanCycle (config : Config) (tracker : CpuTracker) (stats : Stats) (c : Cycle) :
    (scanCycle config tracker stats c).stats.errors =
      stats.errors + errorsIn (scanCycle config tracker stats c).log :=
  errors_foldl _ _

section Branch

variable (config : Config) {cycles : List Cycle} (p : UInt32) {n : Nat}

/-- In a cycle that calls `compress_pid(p)`, the result of the call decides. -/
theorem did_iff_of_called {c : Cycle} (hc : cycles[n]? = some c)
    (hcalled : Called config cycles p n) (test : Action → Bool) :
    Did test config cycles p n ↔
      test (outcomeAction (c.env.compressPid p config.dryRun)) = true := by
  obtain ⟨a, haction, hcalls⟩ := (did_iff config p hc Action.callsCompressPid).mp hcalled
  have ha : a = outcomeAction (c.env.compressPid p config.dryRun) := by
    obtain ⟨tab, htab, hscan⟩ := Option.map_eq_some_iff.mp haction
    obtain ⟨-, rfl⟩ := Cycle.target?_pid htab
    rw [← hscan] at hcalls ⊢
    unfold PidView.scan at hcalls ⊢
    cases hsnap : c.env.snapshot tab.pid with
    | none =>
      rw [hsnap] at hcalls
      cases hcalls
    | some reading =>
      rw [hsnap] at hcalls
      rcases judge_cases config c.env tab _ _ _ with ⟨hnot, -⟩ | hjudge
      · rw [hnot] at hcalls
        cases hcalls
      · exact hjudge
  rw [did_iff config p hc, haction, ← ha]
  simp only [Option.some.injEq, exists_eq_left']

/-- The flag stays down as long as no page-out succeeds. -/
theorem isCompressed_eq_false {m : Nat} (hlt : n < m) (hm : m ≤ cycles.length)
    (hflag : (viewAt config cycles p (n + 1)).isCompressed = false)
    (hnone : ∀ k, n < k → k < m → ¬ Succeeded config cycles p k) :
    (viewAt config cycles p m).isCompressed = false := by
  induction m, hlt using Nat.le_induction with
  | base => exact hflag
  | succ m hnm ih =>
    have hbefore := ih (by omega) (fun k hlo hhi => hnone k hlo (by omega))
    rw [Bool.eq_false_iff, Ne, isCompressed_step config p (by omega), hbefore]
    simp [hnone m (by omega) (by omega)]

theorem retried_of_unmarked (hflag : (viewAt config cycles p (n + 1)).isCompressed = false)
    {m : Nat} {c : Cycle} (hlt : n < m) (hc : cycles[m]? = some c)
    (hnone : ∀ k, n < k → k < m → ¬ Succeeded config cycles p k) :
    Called config cycles p m ↔ IdleAt config cycles p m ∧
      config.idleCyclesThreshold ≤ UInt32.ofNat (streak (IdleAt config cycles p) m) ∧
      config.minRssMib ≤ c.env.rssMib p ∧
      ∃ tab, c.target? p = some tab ∧ c.env.profileVeto p tab.profile = none := by
  have hm := (List.getElem?_eq_some_iff.mp hc).1
  have hdown := isCompressed_eq_false config p hlt (Nat.le_of_lt hm) hflag hnone
  rw [called_iff_streak config p hc, hdown]
  simp

/-- A cycle that reports an incomplete page-out of `p` has called `compress_pid(p)`, and has
not marked it. -/
theorem called_of_incomplete (h : Did isIncomplete config cycles p n) :
    Called config cycles p n ∧ ¬ Succeeded config cycles p n := by
  obtain ⟨c, hc⟩ := exists_cycle_of_did h
  obtain ⟨a, haction, hincomplete⟩ := (did_iff config p hc isIncomplete).mp h
  cases a with
  | compressIncomplete outcome =>
    refine ⟨(did_iff config p hc _).mpr ⟨_, haction, rfl⟩, fun hsuccess => ?_⟩
    obtain ⟨a, haction', htest⟩ := (did_iff config p hc _).mp hsuccess
    rw [haction] at haction'
    cases haction'
    cases htest
  | _ => cases hincomplete

theorem unmarked_of_incomplete (h : Did isIncomplete config cycles p n) :
    (viewAt config cycles p (n + 1)).isCompressed = false := by
  obtain ⟨c, hc⟩ := exists_cycle_of_did h
  obtain ⟨hcalled, hfail⟩ := called_of_incomplete config p h
  have hdown := ((called_iff_streak config p hc).mp hcalled).2.2.1
  rw [Bool.eq_false_iff, Ne, isCompressed_step config p (List.getElem?_eq_some_iff.mp hc).1]
  exact not_or.mpr ⟨hfail, hdown⟩

/-- Everything else about the report follows from the branch. -/
theorem reportedIncomplete_iff :
    ReportedIncomplete config cycles p n ↔ Did isIncomplete config cycles p n := by
  constructor
  · intro h
    obtain ⟨r, tab, outcome, front, back, hr, hpid, hlog, -⟩ := h.logged
    refine ⟨r, hr, tab, .compressIncomplete outcome, ?_, hpid, rfl⟩
    rw [hlog]
    exact List.mem_append_right _ List.mem_cons_self
  · intro h
    have hflag := unmarked_of_incomplete config p h
    obtain ⟨r, hr, tab, a, hmem, hpid, hincomplete⟩ := h
    refine ⟨?_, hflag, fun m c hlt hc hnone => retried_of_unmarked config p hflag hlt hc hnone⟩
    obtain ⟨c, hc, hscan⟩ := Option.map_eq_some_iff.mp hr
    obtain ⟨front, back, hlog⟩ := List.append_of_mem hmem
    have herrors : r.stats.errors =
        (runCycles config (cycles.take n)).stats.errors + errorsIn r.log := by
      rw [← hscan]
      exact errors_scanCycle config _ _ c
    cases a with
    | compressIncomplete outcome =>
      refine ⟨r, tab, outcome, front, back, hr, hpid, hlog, ?_⟩
      rw [herrors, hlog, errorsIn_append_cons front back rfl, ← UInt64.add_assoc,
        ← UInt64.add_assoc]
    | _ => cases hincomplete

end Branch

/-! ## The report against the rejections -/

theorem isIncomplete_outcomeAction {outcome : CompressOutcome} (hlive : outcome.wasDryRun = false) :
    isIncomplete (outcomeAction (.ok outcome)) = true ↔ ¬ outcome.isRealSuccess = true := by
  cases hreal : outcome.isRealSuccess with
  | true => simp [outcomeAction, hreal, isIncomplete]
  | false => simp [outcomeAction, hreal, hlive, isIncomplete]

/-- The report of an incomplete page-out and a rejected batch go together, unless
`compress_pid` is called on a process without a region to page out. -/
theorem incomplete_iff_rejected_iff (config : Config) (hlive : config.dryRun = false)
    (cycles : List Cycle) (p : UInt32) (n : Nat) (c : RealCycle)
    (hc : cycles[n]? = some c.toCycle) (smaps : List Char)
    (hread : (c.inputs p).smaps = .ok smaps) (hopen : (c.inputs p).pidfdOpenError = none) :
    (ReportedIncomplete config cycles p n ↔
        Rejected config cycles p n (c.inputs p) (parseAnonRegions smaps)) ↔
      (Called config cycles p n → parseAnonRegions smaps ≠ []) := by
  rw [reportedIncomplete_iff]
  by_cases hcalled : Called config cycles p n
  · have hregions : readAnonymousRegions (c.inputs p) p = .ok (parseAnonRegions smaps) := by
      rw [readAnonymousRegions, hread]
    have hresult : c.env.compressPid p config.dryRun =
        .ok (adviseRegions (c.inputs p).madvise (parseAnonRegions smaps)) := by
      rw [c.real, hlive]
      exact compressPid_eq_adviseRegions hregions hopen
    have hbatches : batchesOf (parseAnonRegions smaps) ≠ [] ↔ parseAnonRegions smaps ≠ [] :=
      not_congr (Chunks.chunks_eq_nil_iff _ _)
    rw [did_iff_of_called config p hc hcalled, hresult, isIncomplete_outcomeAction rfl,
      adviseRegions_isRealSuccess, hbatches, Rejected, and_iff_right hcalled,
      forall_prop_of_true hcalled]
    by_cases hnil : parseAnonRegions smaps = []
    · -- no batch, and so nothing that could be rejected
      rw [hnil]
      simp [batchesOf, Chunks.chunks, Chunks.chunksFrom]
    · simp [hnil]
  · have hno : ¬ Did isIncomplete config cycles p n := fun h =>
      hcalled (called_of_incomplete config p h).1
    exact iff_of_true (iff_of_false hno (fun h => hcalled h.1)) (fun h => absurd h hcalled)

/-! ## Two cycles of one process -/

/-- A cycle with process 7 alone, whose CPU time stands still. -/
def soloReal (inputs : CompressInputs) : RealCycle where
  toCycle := soloCycle 7 0 (fun pid dryRun => compressPid inputs pid dryRun)
  inputs := fun _ => inputs
  real := rfl

/-- Two such cycles. -/
def twoCycles (inputs : CompressInputs) : List Cycle :=
  [(soloReal inputs).toCycle, (soloReal inputs).toCycle]

/-- With a threshold of one cycle, the second sight of the process reaches `compress_pid`. -/
theorem called_twoCycles (inputs : CompressInputs) :
    Called { idleCyclesThreshold := 1 } (twoCycles inputs) 7 1 := by
  have hobs : ∀ k, k ≤ 1 → observed (twoCycles inputs) 7 k =
      some { pid := 7, starttime := 1, cpuNs := 0 } := by
    intro k hk
    obtain rfl | rfl : k = 0 ∨ k = 1 := by omega
    · exact observed_soloCycle rfl
    · exact observed_soloCycle rfl
  apply called_of_flat (m := 0)
  · exact fun k _ hk => hobs k hk
  · exact fun hpos => absurd hpos (Nat.lt_irrefl 0)
  · rfl
  · exact le_u64Max _
  · intro tab _
    rfl

/-- One private anonymous page, which the kernel does not take. -/
def rejectedInputs : CompressInputs := { onePageInputs with madvise := fun _ => -1 }

theorem incomplete_iff_rejected_iff_one_page :
    ReportedIncomplete { idleCyclesThreshold := 1 } (twoCycles rejectedInputs) 7 1 := by
  have hparse : parseAnonRegions
      "1000-2000 rw-p 00000000 00:00 0 \nAnonymous: 4 kB\n".toList = [(0x1000, 0x1000)] :=
    Except.ok.inj (read_onePageInputs 7)
  refine ((incomplete_iff_rejected_iff { idleCyclesThreshold := 1 } rfl
    (twoCycles rejectedInputs) 7 1 (soloReal rejectedInputs) rfl _ rfl rfl).mpr (fun _ => ?_)).mpr
    ⟨called_twoCycles rejectedInputs, 0, ?_, by decide⟩
  · rw [hparse]
    exact List.cons_ne_nil _ _
  · rw [hparse]
    decide

/-- One private anonymous page, which is in the swap already. -/
def swappedOutInputs : CompressInputs where
  smaps := .ok "1000-2000 rw-p 00000000 00:00 0 \nAnonymous: 0 kB\n".toList
  madvise := fun _ => 0

/-- There is nothing to page out, the kernel rejects nothing, and the page-out is reported as
incomplete. -/
theorem incomplete_without_batches :
    readAnonymousRegions swappedOutInputs 7 = .ok [] ∧ swappedOutInputs.pidfdOpenError = none ∧
    ReportedIncomplete { idleCyclesThreshold := 1 } (twoCycles swappedOutInputs) 7 1 ∧
    ¬ Rejected { idleCyclesThreshold := 1 } (twoCycles swappedOutInputs) 7 1
      swappedOutInputs [] := by
  have hparse : parseAnonRegions
      "1000-2000 rw-p 00000000 00:00 0 \nAnonymous: 0 kB\n".toList = [] := by decide
  have hregions : ∀ pid, readAnonymousRegions swappedOutInputs pid = .ok [] := by
    intro pid
    simp only [readAnonymousRegions, swappedOutInputs, hparse]
  refine ⟨hregions 7, rfl, ?_, ?_⟩
  · have hresult : (soloReal swappedOutInputs).env.compressPid 7 false =
        .ok (adviseRegions swappedOutInputs.madvise []) :=
      compressPid_eq_adviseRegions (hregions 7) rfl
    have hcycle : (twoCycles swappedOutInputs)[1]? = some (soloReal swappedOutInputs).toCycle := rfl
    rw [reportedIncomplete_iff, did_iff_of_called _ 7 hcycle (called_twoCycles _), hresult,
      isIncomplete_outcomeAction rfl, adviseRegions_isRealSuccess]
    simp [batchesOf, Chunks.chunks, Chunks.chunksFrom]
  · rintro ⟨_, i, hi, _⟩
    exact absurd hi (Nat.not_lt_zero i)

end BsslRam.IncompletePageOut
