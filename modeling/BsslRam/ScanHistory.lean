import BsslRam.ScanCycle
import BsslRam.Lib.PastTime

/-!
# Runs of scan cycles, and what the tracker remembers of them

The tracker is a monitor: after any number of cycles, what it holds for a PID
is a function of the observations of that PID so far.  This module says which
function.  The observations of one PID fall into epochs, blocks of consecutive
cycles in which the PID is a target with a snapshot and the start time does not
change.  Inside an epoch the tracker sees the differences of successive CPU
times.

* The idle counter is the length of the last streak of idle deltas in the
  current epoch, modulo `2 ^ 32` (`idleCycles_viewAt`).
* The anti-recompression flag says that `compress_pid` succeeded in the current
  epoch and that no delta since then was a wakeup (`isCompressed_viewAt`).

`called_iff_streak` combines the two into the exact condition for a call of
`compress_pid`, and `called_iff_history` states that condition over the
observations alone.
-/

namespace BsslRam.ScanHistory

open BsslRam.Lib BsslRam.Scanner BsslRam.State BsslRam.Compressor BsslRam.ScanCycle
open BsslRam.Lib.PastTime

/-! ## Runs -/

/-- What one cycle hands to the next. -/
structure RunState where
  tracker : CpuTracker := CpuTracker.new
  stats : Stats := {}

def RunState.scan (config : Config) (s : RunState) (c : Cycle) : CycleResult :=
  scanCycle config s.tracker s.stats c

def RunState.next (config : Config) (s : RunState) (c : Cycle) : RunState :=
  { tracker := (s.scan config c).tracker, stats := (s.scan config c).stats }

/-- The state after a list of cycles, from a fresh tracker. -/
def runCycles (config : Config) (cycles : List Cycle) : RunState :=
  cycles.foldl (RunState.next config) {}

/-- What cycle `n` of the run does. -/
def cycleResult? (config : Config) (cycles : List Cycle) (n : Nat) : Option CycleResult :=
  cycles[n]?.map ((runCycles config (cycles.take n)).scan config)

/-- Cycle `n` ends with an action for `p` that satisfies `test`. -/
def Did (test : Action → Bool) (config : Config) (cycles : List Cycle) (p : UInt32)
    (n : Nat) : Prop :=
  ∃ r, cycleResult? config cycles n = some r ∧
    ∃ tab a, (tab, a) ∈ r.log ∧ tab.pid = p ∧ test a = true

/-- `compress_pid(p)` is called in cycle `n`. -/
def Called := Did Action.callsCompressPid

/-- `compress_pid(p)` is a real success in cycle `n`. -/
def Succeeded := Did Action.isSuccess

theorem called_of_succeeded {config : Config} {cycles : List Cycle} {p : UInt32} {n : Nat}
    (h : Succeeded config cycles p n) : Called config cycles p n := by
  obtain ⟨r, hr, tab, a, hmem, hpid, hsuccess⟩ := h
  exact ⟨r, hr, tab, a, hmem, hpid, Action.callsCompressPid_of_isSuccess hsuccess⟩

/-- Only a cycle of the run does anything. -/
theorem exists_cycle_of_did {test : Action → Bool} {config : Config} {cycles : List Cycle}
    {p : UInt32} {n : Nat} (h : Did test config cycles p n) : ∃ c, cycles[n]? = some c := by
  obtain ⟨r, hr, -⟩ := h
  obtain ⟨c, hc, -⟩ := Option.map_eq_some_iff.mp hr
  exact ⟨c, hc⟩

/-! ## Observations -/

/-- The snapshot of `p` in a cycle that has `p` as a target. -/
def snapshotOf (c : Cycle) (p : UInt32) : Option ProcSnapshot :=
  (c.target? p).bind (fun _ => (c.env.snapshot p).map (fun reading =>
    { pid := p, starttime := reading.1, cpuNs := reading.2 }))

/-- The snapshot of `p` in cycle `k`. -/
def observed (cycles : List Cycle) (p : UInt32) (k : Nat) : Option ProcSnapshot :=
  cycles[k]?.bind (fun c => snapshotOf c p)

/-- The cycles `m` to `n` lie in one epoch of `p`. -/
def SameEpoch (cycles : List Cycle) (p : UInt32) (m n : Nat) : Prop :=
  m ≤ n ∧ ∃ starttime, ∀ k, m ≤ k → k ≤ n →
    ∃ snap, observed cycles p k = some snap ∧ snap.starttime = starttime

/-- The truncated difference of the CPU times of cycles `k - 1` and `k`. -/
def deltaAt (cycles : List Cycle) (p : UInt32) (k : Nat) : UInt64 :=
  match observed cycles p (k - 1), observed cycles p k with
  | some prev, some snap => saturatingSub snap.cpuNs prev.cpuNs
  | _, _ => u64Max

/-- A delta above the wakeup bar that is not the sentinel. -/
def WokeAt (config : Config) (cycles : List Cycle) (p : UInt32) (k : Nat) : Prop :=
  config.wakeupDeltaNs < deltaAt cycles p k ∧ deltaAt cycles p k ≠ u64Max

/-- Cycles `k - 1` and `k` both observe `p`, with the same start time. -/
def Linked (cycles : List Cycle) (p : UInt32) (k : Nat) : Prop :=
  0 < k ∧ ∃ prev snap, observed cycles p (k - 1) = some prev ∧ observed cycles p k = some snap ∧
    prev.starttime = snap.starttime

instance (cycles : List Cycle) (p : UInt32) (k : Nat) : Decidable (Linked cycles p k) :=
  match hprev : observed cycles p (k - 1), hsnap : observed cycles p k with
  | some prev, some snap =>
      decidable_of_iff (0 < k ∧ prev.starttime = snap.starttime) (by
        unfold Linked
        simp only [hprev, hsnap, Option.some.injEq, exists_and_left, exists_eq_left'])
  | none, _ => isFalse (by
      unfold Linked
      simp [hprev])
  | some _, none => isFalse (by
      unfold Linked
      simp [hsnap])

/-- Cycle `k` continues the epoch with an idle delta. -/
def IdleAt (config : Config) (cycles : List Cycle) (p : UInt32) (k : Nat) : Prop :=
  Linked cycles p k ∧ deltaAt cycles p k ≤ config.cpuDeltaNs

instance (config : Config) (cycles : List Cycle) (p : UInt32) :
    DecidablePred (IdleAt config cycles p) :=
  fun _ => inferInstanceAs (Decidable (_ ∧ _))

/-- An epoch is an observed cycle followed by linked ones. -/
theorem sameEpoch_iff (cycles : List Cycle) (p : UInt32) (m n : Nat) :
    SameEpoch cycles p m n ↔
      m ≤ n ∧ (∃ snap, observed cycles p m = some snap) ∧
        ∀ k, m < k → k ≤ n → Linked cycles p k := by
  constructor
  · intro h
    rcases h with ⟨hmn, starttime, hobs⟩
    obtain ⟨first, hfirst, -⟩ := hobs m (Nat.le_refl m) hmn
    refine ⟨hmn, ⟨first, hfirst⟩, fun k hlo hhi => ?_⟩
    obtain ⟨prev, hprev, hpst⟩ := hobs (k - 1) (by omega) (by omega)
    obtain ⟨snap, hsnap, hsst⟩ := hobs k (by omega) hhi
    exact ⟨by omega, prev, snap, hprev, hsnap, hpst.trans hsst.symm⟩
  · intro h
    rcases h with ⟨hmn, ⟨first, hfirst⟩, hlinked⟩
    refine ⟨hmn, first.starttime, fun k hlo hhi => ?_⟩
    -- walk from `m` to `k` along the links
    induction k, hlo using Nat.le_induction with
    | base => exact ⟨first, hfirst, rfl⟩
    | succ k hmk ih =>
      obtain ⟨before, hbefore, hst⟩ := ih (by omega)
      obtain ⟨-, prev, snap, hprev, hsnap, heq⟩ := hlinked (k + 1) (by omega) hhi
      rw [Nat.add_sub_cancel, hbefore] at hprev
      cases hprev
      exact ⟨snap, hsnap, heq.symm.trans hst⟩

/-! ## One PID along a run -/

section Run

variable (config : Config) (cycles : List Cycle) (p : UInt32)

/-- The tracker entries of `p` before cycle `n`. -/
def viewAt (n : Nat) : PidView := (runCycles config (cycles.take n)).tracker.view p

variable {cycles}

theorem viewAt_zero : viewAt config cycles p 0 = PidView.empty := by
  unfold viewAt
  exact CpuTracker.view_new p

/-- One cycle of the run is one step of the PID. -/
theorem viewAt_succ {n : Nat} {c : Cycle} (hc : cycles[n]? = some c) :
    viewAt config cycles p (n + 1) = c.stepView config p (viewAt config cycles p n) := by
  unfold viewAt
  have hrun : runCycles config (cycles.take (n + 1)) =
      (runCycles config (cycles.take n)).next config c := by
    unfold runCycles
    rw [List.take_add_one, hc, Option.toList_some, List.foldl_append, List.foldl_cons,
      List.foldl_nil]
  rw [hrun]
  exact scanCycle_view config _ (runCycles config (cycles.take n)).stats c p

/-- What cycle `n` does about `p` is decided by the entries of `p`. -/
theorem did_iff {n : Nat} {c : Cycle} (hc : cycles[n]? = some c) (test : Action → Bool) :
    Did test config cycles p n ↔
      ∃ a, c.action? config p (viewAt config cycles p n) = some a ∧ test a = true := by
  have hlog := mem_scanCycle_log config (runCycles config (cycles.take n)).tracker
    (runCycles config (cycles.take n)).stats c p
  unfold Did cycleResult? viewAt
  rw [← exists_logged_iff hlog test]
  simp only [hc, Option.map_some, Option.some.injEq, exists_eq_left', RunState.scan]

/-- A cycle that does not observe `p` forgets it, and does nothing about it. -/
theorem viewAt_succ_of_not_observed {n : Nat} {c : Cycle} (hc : cycles[n]? = some c)
    (hobs : observed cycles p n = none) :
    viewAt config cycles p (n + 1) = PidView.empty ∧
      (c.action? config p (viewAt config cycles p n)).getD .skipExited = .skipExited := by
  rw [viewAt_succ config p hc]
  unfold Cycle.stepView Cycle.action?
  cases htab : c.target? p with
  | none => exact ⟨rfl, rfl⟩
  | some tab =>
    obtain ⟨-, hpid⟩ := Cycle.target?_pid htab
    have hgone : c.env.snapshot tab.pid = none := by
      simpa [observed, snapshotOf, hc, htab, hpid] using hobs
    simp only [PidView.scan, hgone, Option.map_some, Option.getD_some, and_self]

/-- A cycle that observes `p` runs `update` on it and then the ladder of checks. -/
theorem scan_of_observed {n : Nat} {c : Cycle} (hc : cycles[n]? = some c)
    {snap : ProcSnapshot} (hobs : observed cycles p n = some snap) (v : PidView) :
    ∃ tab, c.target? p = some tab ∧
      PidView.scan config c.env tab v =
        let u := v.update snap config.cpuDeltaNs config.wakeupDeltaNs
        let a := judge config c.env tab u.1 u.2.idleCycles u.2.isCompressed
        (a, if a.isSuccess then u.2.markCompressed else u.2) := by
  rw [observed, hc, Option.bind_some, snapshotOf, Option.bind_eq_some_iff] at hobs
  obtain ⟨tab, htab, hsnap⟩ := hobs
  obtain ⟨reading, hreading, hmk⟩ := Option.map_eq_some_iff.mp hsnap
  obtain ⟨-, hpid⟩ := Cycle.target?_pid htab
  refine ⟨tab, htab, ?_⟩
  rw [PidView.scan, hpid, hreading, ← hmk]

/-- The stored snapshot is that of the previous cycle. -/
theorem snapshot_viewAt_succ {n : Nat} (hn : n < cycles.length) :
    (viewAt config cycles p (n + 1)).snapshot = observed cycles p n := by
  have hc := List.getElem?_eq_getElem hn
  cases hobs : observed cycles p n with
  | none => rw [(viewAt_succ_of_not_observed config p hc hobs).1]; rfl
  | some snap =>
    obtain ⟨tab, htab, hscan⟩ := scan_of_observed config p hc hobs (viewAt config cycles p n)
    rw [viewAt_succ config p hc, Cycle.stepView, htab]
    simp only [hscan, apply_ite PidView.snapshot, PidView.snapshot_markCompressed,
      PidView.update_snapshot, ite_self]

/-- The reuse guard lets the entries of `p` through in a cycle that continues
the epoch, and only then. -/
theorem guardReuse_viewAt {n : Nat} {snap : ProcSnapshot}
    (hobs : observed cycles p n = some snap) :
    (viewAt config cycles p n).guardReuse snap =
      if Linked cycles p n then viewAt config cycles p n else PidView.empty := by
  cases n with
  | zero =>
    have hnot : ¬ Linked cycles p 0 := fun h => absurd h.1 (by omega)
    rw [if_neg hnot, viewAt_zero]
    rfl
  | succ n =>
    obtain ⟨c, hc, -⟩ := Option.bind_eq_some_iff.mp hobs
    have hn : n + 1 < cycles.length := (List.getElem?_eq_some_iff.mp hc).1
    have hstored := snapshot_viewAt_succ config p (show n < cycles.length by omega)
    unfold PidView.guardReuse
    rw [hstored]
    cases hprev : observed cycles p n with
    | none =>
      have hgone := viewAt_succ_of_not_observed config p
        (List.getElem?_eq_getElem (show n < cycles.length by omega)) hprev
      rw [hgone.1, ite_self]
    | some prev =>
      have hlinked : Linked cycles p (n + 1) ↔ prev.starttime = snap.starttime := by
        unfold Linked
        simp [hprev, hobs]
      by_cases hst : prev.starttime = snap.starttime
      · simp [hst, hlinked]
      · simp [hst, hlinked]

/-- The delta that `update` computes. -/
theorem delta_viewAt {n : Nat} {snap : ProcSnapshot}
    (hobs : observed cycles p n = some snap) :
    ((viewAt config cycles p n).guardReuse snap).delta snap =
      if Linked cycles p n then deltaAt cycles p n else u64Max := by
  rw [guardReuse_viewAt config p hobs]
  by_cases hlinked : Linked cycles p n
  · rw [if_pos hlinked, if_pos hlinked]
    obtain ⟨hpos, prev, snap', hprev, hsnap, -⟩ := hlinked
    obtain ⟨m, rfl⟩ : ∃ m, n = m + 1 := ⟨n - 1, by omega⟩
    rw [Nat.add_sub_cancel] at hprev
    obtain ⟨c, hc, -⟩ := Option.bind_eq_some_iff.mp hprev
    unfold PidView.delta deltaAt
    rw [snapshot_viewAt_succ config p (List.getElem?_eq_some_iff.mp hc).1,
      Nat.add_sub_cancel, hprev, hobs]
  · rw [if_neg hlinked, if_neg hlinked]
    rfl

variable (cycles) in
/-- The entries of `p` right after `update` in a cycle that observes `snap`, with
the verdict. -/
def updateAt (n : Nat) (snap : ProcSnapshot) : Bool × PidView :=
  (viewAt config cycles p n).update snap config.cpuDeltaNs config.wakeupDeltaNs

variable (cycles) in
/-- What the ladder of checks then says. -/
def judgeAt (n : Nat) (snap : ProcSnapshot) (c : Cycle) (tab : TargetProcess) : Action :=
  judge config c.env tab (updateAt config cycles p n snap).1
    (updateAt config cycles p n snap).2.idleCycles
    (updateAt config cycles p n snap).2.isCompressed

section Update

variable {n : Nat} {snap : ProcSnapshot} (hobs : observed cycles p n = some snap)

include hobs

/-- The delta is within the idle bar in an idle cycle only: a first observation
has the sentinel delta, which no bar reaches. -/
theorem delta_le_iff :
    ((viewAt config cycles p n).guardReuse snap).delta snap ≤ config.cpuDeltaNs ↔
      IdleAt config cycles p n := by
  rw [delta_viewAt config p hobs]
  unfold IdleAt
  by_cases hlinked : Linked cycles p n
  · rw [if_pos hlinked, and_iff_right hlinked]
  · rw [if_neg hlinked]
    exact iff_of_false (not_u64Max_le_cpuDeltaNs config) (fun h => hlinked h.1)

theorem updateAt_isIdle :
    (updateAt config cycles p n snap).1 = true ↔ IdleAt config cycles p n := by
  unfold updateAt
  rw [PidView.update_isIdle, decide_eq_true_eq, delta_le_iff config p hobs]

theorem updateAt_idleCycles :
    (updateAt config cycles p n snap).2.idleCycles =
      if IdleAt config cycles p n then (viewAt config cycles p n).idleCycles + 1 else 0 := by
  unfold updateAt
  rw [PidView.update_idleCycles]
  by_cases hidle : IdleAt config cycles p n
  · rw [if_pos hidle, if_pos ((delta_le_iff config p hobs).mpr hidle),
      guardReuse_viewAt config p hobs, if_pos hidle.1]
  · rw [if_neg hidle, if_neg (fun h => hidle ((delta_le_iff config p hobs).mp h))]

theorem updateAt_isCompressed :
    (updateAt config cycles p n snap).2.isCompressed = true ↔
      (Linked cycles p n ∧ ¬ WokeAt config cycles p n) ∧
        (viewAt config cycles p n).isCompressed = true := by
  unfold updateAt WokeAt
  rw [PidView.update_isCompressed, delta_viewAt config p hobs, guardReuse_viewAt config p hobs]
  by_cases hlinked : Linked cycles p n
  · simp only [if_pos hlinked, and_iff_right hlinked]
  · simp [hlinked]

end Update

/-- A cycle that observes `p`: `update`, then the ladder of checks, then the flag
on a success. -/
theorem step_of_observed {n : Nat} {c : Cycle} (hc : cycles[n]? = some c)
    {snap : ProcSnapshot} (hobs : observed cycles p n = some snap) :
    ∃ tab, c.target? p = some tab ∧
      viewAt config cycles p (n + 1) =
        (if (judgeAt config cycles p n snap c tab).isSuccess
          then (updateAt config cycles p n snap).2.markCompressed
          else (updateAt config cycles p n snap).2) ∧
      ∀ test, Did test config cycles p n ↔ test (judgeAt config cycles p n snap c tab) = true := by
  obtain ⟨tab, htab, hscan⟩ := scan_of_observed config p hc hobs (viewAt config cycles p n)
  refine ⟨tab, htab, ?_, fun test => ?_⟩
  · rw [viewAt_succ config p hc, Cycle.stepView, htab]
    exact congrArg Prod.snd hscan
  · rw [did_iff config p hc, Cycle.action?, htab, Option.map_some]
    simp only [hscan, Option.some.injEq, exists_eq_left']
    exact Iff.rfl

theorem not_linked_of_not_observed {n : Nat} (hobs : observed cycles p n = none) :
    ¬ Linked cycles p n := by
  intro ⟨_, prev, snap, _, hsnap, _⟩
  rw [hobs] at hsnap
  cases hsnap

theorem not_did_of_not_observed {n : Nat} {c : Cycle} (hc : cycles[n]? = some c)
    (hobs : observed cycles p n = none) {test : Action → Bool}
    (hskip : test .skipExited = false) : ¬ Did test config cycles p n := by
  have hnothing := (viewAt_succ_of_not_observed config p hc hobs).2
  rw [did_iff config p hc]
  intro ⟨a, ha, htest⟩
  rw [ha, Option.getD_some] at hnothing
  rw [hnothing, hskip] at htest
  cases htest

/-- The step law of the idle counter. -/
theorem idleCycles_step {n : Nat} (hn : n < cycles.length) :
    (viewAt config cycles p (n + 1)).idleCycles =
      if IdleAt config cycles p n then (viewAt config cycles p n).idleCycles + 1 else 0 := by
  have hc := List.getElem?_eq_getElem hn
  cases hobs : observed cycles p n with
  | none =>
    rw [(viewAt_succ_of_not_observed config p hc hobs).1,
      if_neg (fun h : IdleAt config cycles p n => not_linked_of_not_observed p hobs h.1)]
    rfl
  | some snap =>
    obtain ⟨tab, -, hnext, -⟩ := step_of_observed config p hc hobs
    rw [hnext, ← updateAt_idleCycles config p hobs, apply_ite PidView.idleCycles,
      PidView.idleCycles_markCompressed, ite_self]

/-- The step law of the flag. -/
theorem isCompressed_step {n : Nat} (hn : n < cycles.length) :
    (viewAt config cycles p (n + 1)).isCompressed = true ↔
      Succeeded config cycles p n ∨ (Linked cycles p n ∧ ¬ WokeAt config cycles p n) ∧
        (viewAt config cycles p n).isCompressed = true := by
  have hc := List.getElem?_eq_getElem hn
  cases hobs : observed cycles p n with
  | none =>
    rw [(viewAt_succ_of_not_observed config p hc hobs).1]
    have hnot := not_linked_of_not_observed p hobs
    have hfail : ¬ Succeeded config cycles p n := not_did_of_not_observed config p hc hobs rfl
    simp [hnot, hfail]
  | some snap =>
    obtain ⟨tab, -, hnext, hdid⟩ := step_of_observed config p hc hobs
    unfold Succeeded
    rw [hnext, hdid, ← updateAt_isCompressed config p hobs]
    split
    · rename_i hsuccess
      exact iff_of_true (PidView.isCompressed_markCompressed _) (Or.inl hsuccess)
    · rename_i hsuccess
      rw [or_iff_right hsuccess]

/-- A success is a call that came back as a real success. -/
theorem succeeded_iff_called {n : Nat} {c : Cycle} (hc : cycles[n]? = some c) :
    Succeeded config cycles p n ↔
      Called config cycles p n ∧ ∃ outcome, c.env.compressPid p config.dryRun = .ok outcome ∧
        outcome.isRealSuccess = true := by
  cases hobs : observed cycles p n with
  | none =>
    have hfail : ¬ Called config cycles p n := not_did_of_not_observed config p hc hobs rfl
    exact iff_of_false (fun h => hfail (called_of_succeeded h)) (fun h => hfail h.1)
  | some snap =>
    obtain ⟨tab, htab, -, hdid⟩ := step_of_observed config p hc hobs
    obtain ⟨-, hpid⟩ := Cycle.target?_pid htab
    unfold Succeeded Called
    rw [hdid, hdid, judgeAt, judge_isSuccess, hpid]

/-- The idle counter counts the last streak of idle cycles in the epoch. -/
theorem idleCycles_viewAt {n : Nat} (hn : n < cycles.length) :
    (viewAt config cycles p (n + 1)).idleCycles =
      UInt32.ofNat (streak (IdleAt config cycles p) n) := by
  induction n with
  | zero =>
    have hnot : ¬ IdleAt config cycles p 0 := fun h => absurd h.1.1 (by omega)
    rw [idleCycles_step config p hn, if_neg hnot, streak]
    rfl
  | succ n ih =>
    rw [idleCycles_step config p hn, ih (by omega), streak]
    split
    · rw [UInt32.ofNat_add]
      rfl
    · rfl

/-- The flag says that a page-out succeeded in the epoch, with no wakeup since. -/
theorem isCompressed_viewAt {n : Nat} (hn : n < cycles.length) :
    (viewAt config cycles p (n + 1)).isCompressed = true ↔
      Since (Succeeded config cycles p)
        (fun k => Linked cycles p k ∧ ¬ WokeAt config cycles p k) n := by
  induction n with
  | zero =>
    rw [isCompressed_step config p hn, viewAt_zero, since_zero]
    simp
  | succ n ih => rw [isCompressed_step config p hn, ih (by omega), since_succ]

/-- When `compress_pid` is called, for runs of any length: the counter is the
streak modulo `2 ^ 32`. -/
theorem called_iff_streak {n : Nat} {c : Cycle} (hc : cycles[n]? = some c) :
    Called config cycles p n ↔
      IdleAt config cycles p n ∧
        config.idleCyclesThreshold ≤ UInt32.ofNat (streak (IdleAt config cycles p) n) ∧
        ¬ ((Linked cycles p n ∧ ¬ WokeAt config cycles p n) ∧
            (viewAt config cycles p n).isCompressed = true) ∧
        config.minRssMib ≤ c.env.rssMib p ∧
        ∃ tab, c.target? p = some tab ∧ c.env.profileVeto p tab.profile = none := by
  have hn : n < cycles.length := (List.getElem?_eq_some_iff.mp hc).1
  cases hobs : observed cycles p n with
  | none =>
    have hfail : ¬ Called config cycles p n := not_did_of_not_observed config p hc hobs rfl
    exact iff_of_false hfail (fun h => not_linked_of_not_observed p hobs h.1.1)
  | some snap =>
    obtain ⟨tab, htab, -, hdid⟩ := step_of_observed config p hc hobs
    obtain ⟨-, hpid⟩ := Cycle.target?_pid htab
    unfold Called
    rw [hdid, judgeAt, judge_callsCompressPid, hpid, ← idleCycles_viewAt config p hn,
      idleCycles_step config p hn, ← updateAt_idleCycles config p hobs,
      ← updateAt_isCompressed config p hobs, ← updateAt_isIdle config p hobs, htab]
    simp only [Option.some.injEq, exists_eq_left']

end Run

/-! ## The decision as a predicate on the history -/

/-- A streak of at least `max 1 k` idle cycles is an epoch with `max 1 k` idle
deltas at its end. -/
theorem idle_streak_iff (config : Config) (cycles : List Cycle) (p : UInt32) (n k : Nat) :
    IdleAt config cycles p n ∧ k ≤ streak (IdleAt config cycles p) n ↔
      ∃ m, m + max 1 k = n ∧ SameEpoch cycles p m n ∧
        ∀ i, m < i → i ≤ n → deltaAt cycles p i ≤ config.cpuDeltaNs := by
  have hone : IdleAt config cycles p n ↔ 1 ≤ streak (IdleAt config cycles p) n := by
    rw [le_streak_iff]
    constructor
    · intro hidle
      have hpos : 0 < n := hidle.1.1
      refine ⟨hpos, fun i hlo hhi => ?_⟩
      rwa [show i = n by omega]
    · intro ⟨hpos, hall⟩
      exact hall n (by omega) (Nat.le_refl n)
  have hmax : IdleAt config cycles p n ∧ k ≤ streak (IdleAt config cycles p) n ↔
      max 1 k ≤ streak (IdleAt config cycles p) n := by
    rw [hone]
    omega
  rw [hmax, le_streak_iff]
  constructor
  · intro ⟨hle, hall⟩
    refine ⟨n - max 1 k, by omega, ?_, fun i hlo hhi => (hall i hlo hhi).2⟩
    rw [sameEpoch_iff]
    -- the first link of the streak also shows its first observation
    obtain ⟨-, prev, snap, hprev, -⟩ := (hall (n - max 1 k + 1) (by omega) (by omega)).1
    exact ⟨by omega, ⟨prev, hprev⟩, fun i hlo hhi => (hall i hlo hhi).1⟩
  · intro ⟨m, hm, hepoch, hall⟩
    rw [sameEpoch_iff] at hepoch
    refine ⟨by omega, fun i hlo hhi => ?_⟩
    exact ⟨hepoch.2.2 i (by omega) hhi, hall i (by omega) hhi⟩

/-- A success of an earlier cycle of the same epoch with no wakeup since is what
keeps the flag set in cycle `n`. -/
theorem flag_iff (config : Config) {cycles : List Cycle} (p : UInt32) {n : Nat}
    (hn : n < cycles.length) :
    (Linked cycles p n ∧ ¬ WokeAt config cycles p n) ∧
        (viewAt config cycles p n).isCompressed = true ↔
      ∃ j, j < n ∧ SameEpoch cycles p j n ∧ Succeeded config cycles p j ∧
        ∀ k, j < k → k ≤ n → ¬ WokeAt config cycles p k := by
  cases n with
  | zero =>
    constructor
    · intro ⟨⟨hlinked, _⟩, _⟩
      exact absurd hlinked.1 (by omega)
    · intro ⟨j, hj, _⟩
      exact absurd hj (by omega)
  | succ n =>
    rw [isCompressed_viewAt config p (show n < cycles.length by omega)]
    constructor
    · intro ⟨hlast, j, hj, hsuccess, hkeep⟩
      have hall : ∀ k, j < k → k ≤ n + 1 →
          Linked cycles p k ∧ ¬ WokeAt config cycles p k := by
        intro k hlo hhi
        rcases Nat.lt_or_ge n k with hlt | hge
        · rwa [show k = n + 1 by omega]
        · exact hkeep k hlo hge
      obtain ⟨-, prev, snap, hprev, -⟩ := (hall (j + 1) (by omega) (by omega)).1
      refine ⟨j, by omega, ?_, hsuccess, fun k hlo hhi => (hall k hlo hhi).2⟩
      rw [sameEpoch_iff]
      exact ⟨by omega, ⟨prev, hprev⟩, fun k hlo hhi => (hall k hlo hhi).1⟩
    · intro ⟨j, hj, hepoch, hsuccess, hquiet⟩
      rw [sameEpoch_iff] at hepoch
      have hlink := hepoch.2.2
      exact ⟨⟨hlink (n + 1) (by omega) (by omega), hquiet (n + 1) (by omega) (by omega)⟩,
        j, by omega, hsuccess,
        fun k hlo hhi => ⟨hlink k hlo (by omega), hquiet k hlo (by omega)⟩⟩

/-- The decision of `scan_cycle` over a run of fewer than `2 ^ 32` cycles:
`compress_pid(p)` is called in cycle `n` when the last
`max 1 idle_cycles_threshold` deltas of the epoch exist and are idle, no earlier
success of the epoch is still in force, the RSS is at or above the floor, and
no veto stands. -/
theorem called_iff_history (config : Config) (cycles : List Cycle)
    (hlen : cycles.length < 2 ^ 32) (p : UInt32) (n : Nat) (c : Cycle)
    (hc : cycles[n]? = some c) :
    Called config cycles p n ↔
      (∃ m, m + max 1 config.idleCyclesThreshold.toNat = n ∧ SameEpoch cycles p m n ∧
        ∀ k, m < k → k ≤ n → deltaAt cycles p k ≤ config.cpuDeltaNs) ∧
      (¬ ∃ j, j < n ∧ SameEpoch cycles p j n ∧ Succeeded config cycles p j ∧
        ∀ k, j < k → k ≤ n →
          ¬ (config.wakeupDeltaNs < deltaAt cycles p k ∧ deltaAt cycles p k ≠ u64Max)) ∧
      config.minRssMib ≤ c.env.rssMib p ∧
      ∃ tab, c.target? p = some tab ∧ c.env.profileVeto p tab.profile = none := by
  have hn : n < cycles.length := (List.getElem?_eq_some_iff.mp hc).1
  have hstreak : streak (IdleAt config cycles p) n ≤ n := streak_le n
  have hcount : config.idleCyclesThreshold ≤ UInt32.ofNat (streak (IdleAt config cycles p) n) ↔
      config.idleCyclesThreshold.toNat ≤ streak (IdleAt config cycles p) n := by
    have hsize : streak (IdleAt config cycles p) n < UInt32.size := by
      unfold UInt32.size
      omega
    rw [UInt32.le_iff_toNat_le, UInt32.toNat_ofNat_of_lt' hsize]
  rw [called_iff_streak config p hc, hcount, flag_iff config p hn, ← and_assoc,
    idle_streak_iff]
  exact Iff.rfl

/-- Behind a call there is an epoch that ends with enough idle cycles. -/
theorem idle_epoch_of_called {config : Config} {cycles : List Cycle} {p : UInt32} {n : Nat}
    (h : Called config cycles p n) :
    ∃ m, m + max 1 config.idleCyclesThreshold.toNat = n ∧ SameEpoch cycles p m n ∧
      ∀ i, m < i → i ≤ n → deltaAt cycles p i ≤ config.cpuDeltaNs := by
  obtain ⟨c, hc⟩ := exists_cycle_of_did h
  obtain ⟨hidle, hcount, _⟩ := (called_iff_streak config p hc).mp h
  rw [UInt32.le_iff_toNat_le, UInt32.toNat_ofNat'] at hcount
  have hstreak := Nat.le_trans hcount (Nat.mod_le _ _)
  exact (idle_streak_iff config cycles p n _).mp ⟨hidle, hstreak⟩

/-- A call needs an idle streak, which a PID that appears in cycle `m` has not had
before. -/
theorem le_of_called_after_first (config : Config) {cycles : List Cycle} {p : UInt32} {m j : Nat}
    (hfirst : 0 < m → observed cycles p (m - 1) = none)
    (hepoch : ∃ n, m ≤ n ∧ SameEpoch cycles p j n)
    (hcalled : Called config cycles p j) : m + max 1 config.idleCyclesThreshold.toNat ≤ j := by
  obtain ⟨n, hmn, hepoch⟩ := hepoch
  obtain ⟨m', hm', hepoch', _⟩ := idle_epoch_of_called hcalled
  by_contra hlt
  -- the cycle before `m` is in the streak, or between the call and `m`
  have hbefore : ∃ snap, observed cycles p (m - 1) = some snap := by
    rcases Nat.lt_or_ge j (m - 1) with hearly | hlate
    · obtain ⟨snap, hsnap, _⟩ := hepoch.2.choose_spec (m - 1) (by omega) (by omega)
      exact ⟨snap, hsnap⟩
    · obtain ⟨snap, hsnap, _⟩ := hepoch'.2.choose_spec (m - 1) (by omega) hlate
      exact ⟨snap, hsnap⟩
  obtain ⟨snap, hsnap⟩ := hbefore
  rw [hfirst (by omega)] at hsnap
  cases hsnap

theorem idleAt_of_flat (config : Config) {cycles : List Cycle} {p : UInt32} {k : Nat}
    (hpos : 0 < k)
    (hprev : observed cycles p (k - 1) = some { pid := p, starttime := 1, cpuNs := 0 })
    (hobs : observed cycles p k = some { pid := p, starttime := 1, cpuNs := 0 }) :
    IdleAt config cycles p k := by
  refine ⟨⟨hpos, _, _, hprev, hobs, rfl⟩, ?_⟩
  unfold deltaAt
  rw [hprev, hobs]
  show saturatingSub 0 0 ≤ config.cpuDeltaNs
  rw [saturatingSub_zero]
  exact UInt64.zero_le

theorem target_of_observed {cycles : List Cycle} {p : UInt32} {n : Nat} {c : Cycle}
    {snap : ProcSnapshot} (hc : cycles[n]? = some c) (hobs : observed cycles p n = some snap) :
    ∃ tab, c.target? p = some tab := by
  rw [observed, hc, Option.bind_some, snapshotOf, Option.bind_eq_some_iff] at hobs
  obtain ⟨tab, htab, _⟩ := hobs
  exact ⟨tab, htab⟩

/-- A process that is seen from cycle `m` on and uses no CPU is called as soon as
it has been idle for long enough. -/
theorem called_of_flat (config : Config) {cycles : List Cycle} {p : UInt32} {m : Nat} {c : Cycle}
    (hflat : ∀ k, m ≤ k → k ≤ m + max 1 config.idleCyclesThreshold.toNat →
      observed cycles p k = some { pid := p, starttime := 1, cpuNs := 0 })
    (hfirst : 0 < m → observed cycles p (m - 1) = none)
    (hc : cycles[m + max 1 config.idleCyclesThreshold.toNat]? = some c)
    (hrss : config.minRssMib ≤ c.env.rssMib p)
    (hveto : ∀ tab, c.target? p = some tab → c.env.profileVeto p tab.profile = none) :
    Called config cycles p (m + max 1 config.idleCyclesThreshold.toNat) := by
  obtain ⟨n, hn⟩ : ∃ n, n = m + max 1 config.idleCyclesThreshold.toNat := ⟨_, rfl⟩
  rw [← hn] at hc hflat ⊢
  have hlen : n < cycles.length := (List.getElem?_eq_some_iff.mp hc).1
  have hidle : ∀ k, m < k → k ≤ n → IdleAt config cycles p k := by
    intro k hlo hhi
    exact idleAt_of_flat config (by omega) (hflat (k - 1) (by omega) (by omega))
      (hflat k (by omega) hhi)
  have hstart : ¬ Linked cycles p m := by
    intro hlinked
    obtain ⟨hpos, prev, _, hprev, _, _⟩ := hlinked
    rw [hfirst hpos] at hprev
    cases hprev
  -- the streak begins right after `m`
  have hstreak : streak (IdleAt config cycles p) n = max 1 config.idleCyclesThreshold.toNat := by
    apply Nat.le_antisymm
    · by_contra hlong
      rw [Nat.not_le, ← Nat.succ_le_iff, le_streak_iff] at hlong
      exact hstart (hlong.2 m (by omega) (by omega)).1
    · rw [le_streak_iff]
      exact ⟨by omega, fun i hlo hhi => hidle i (by omega) hhi⟩
  have hcount : config.idleCyclesThreshold ≤
      UInt32.ofNat (max 1 config.idleCyclesThreshold.toNat) := by
    have hlt := UInt32.toNat_lt config.idleCyclesThreshold
    rw [UInt32.le_iff_toNat_le, UInt32.toNat_ofNat']
    omega
  obtain ⟨tab, htab⟩ := target_of_observed hc (hflat n (by omega) (Nat.le_refl n))
  rw [called_iff_streak config p hc, hstreak]
  refine ⟨hidle n (by omega) (Nat.le_refl n), hcount, ?_, hrss, tab, htab, hveto tab htab⟩
  intro hflag
  obtain ⟨j, hj, hepoch, hsuccess, _⟩ := (flag_iff config p hlen).mp hflag
  have hle := le_of_called_after_first config hfirst ⟨n, by omega, hepoch⟩
    (called_of_succeeded hsuccess)
  omega

/-- A cycle with the single target `p`, no veto, and the same start time always. -/
def soloCycle (p : UInt32) (cpuNs : UInt64)
    (compressPid : UInt32 → Bool → Except Error CompressOutcome) : Cycle where
  targets := [{ pid := p, profile := "firefox" }]
  env :=
    { snapshot := fun _ => some (1, cpuNs)
      rssMib := fun _ => u64Max
      profileVeto := fun _ _ => none
      compressPid }
  nodup := List.nodup_singleton p

theorem observed_soloCycle {cycles : List Cycle} {n : Nat} {p : UInt32} {cpuNs : UInt64}
    {compressPid : UInt32 → Bool → Except Error CompressOutcome}
    (hc : cycles[n]? = some (soloCycle p cpuNs compressPid)) :
    observed cycles p n = some { pid := p, starttime := 1, cpuNs } := by
  simp [observed, hc, snapshotOf, soloCycle, Cycle.target?]

/-- With a threshold of one cycle, the second sight of a PID whose CPU time stands
still reaches `compress_pid`. -/
theorem called_iff_history_second_sight :
    let config : Config := { idleCyclesThreshold := 1 }
    let c := soloCycle 7 0 (fun _ _ => .error [])
    [c, c].length < 2 ^ 32 ∧ [c, c][1]? = some c ∧ Called config [c, c] 7 1 := by
  intro config c
  refine ⟨by decide, rfl, ?_⟩
  have hobs : ∀ k, k < 2 → observed [c, c] 7 k = some ⟨7, 1, 0⟩ := by
    intro k hk
    obtain rfl | rfl : k = 0 ∨ k = 1 := by omega
    · exact observed_soloCycle rfl
    · exact observed_soloCycle rfl
  refine (called_iff_history config [c, c] (by decide) 7 1 c rfl).mpr ⟨?_, ?_, ?_, ?_⟩
  · refine ⟨0, rfl, ⟨by omega, 1, fun k _ hk => ⟨_, hobs k (by omega), rfl⟩⟩, fun k hlo hhi => ?_⟩
    obtain rfl : k = 1 := by omega
    unfold deltaAt
    rw [hobs 1 (by omega), hobs (1 - 1) (by omega)]
    decide
  · intro ⟨j, hj, _, hsuccess, _⟩
    -- the first sight is never idle, so nothing was called in cycle 0
    obtain rfl : j = 0 := by omega
    obtain ⟨hidle, -⟩ := (@called_iff_streak config [c, c] 7 0 c rfl).mp
      (called_of_succeeded hsuccess)
    exact absurd hidle.1.1 (by omega)
  · decide
  · exact ⟨⟨7, "firefox"⟩, rfl, rfl⟩

end BsslRam.ScanHistory
