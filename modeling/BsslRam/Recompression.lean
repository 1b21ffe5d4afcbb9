import BsslRam.ScanHistory

/-!
# Repeated page-outs of an idle process

The anti-recompression flag keeps the daemon from paging out a process again
while it stays idle.  Two independent thresholds are involved.  The idle verdict
compares a delta with `cpu_delta_threshold`, and the flag is cleared by a delta
above `wakeup_delta_threshold`.  No code relates the two.

`atMostOneSuccess_iff` says for which configurations the flag does its job: the
idle bar must not be above the wakeup bar.  Otherwise a delta between the two
bars is an idle cycle that clears the flag.
-/

namespace BsslRam.Recompression

open BsslRam.Lib BsslRam.Scanner BsslRam.State BsslRam.Compressor BsslRam.ScanCycle
open BsslRam.ScanHistory BsslRam.Lib.PastTime

/-- Over every block of cycles of one epoch with idle deltas only, at most one call of
`compress_pid` is a real success. -/
def AtMostOneSuccess (config : Config) (cycles : List Cycle) : Prop :=
  ∀ p m n, SameEpoch cycles p m n →
    (∀ k, m < k → k ≤ n → deltaAt cycles p k ≤ config.cpuDeltaNs) →
    ∀ i j, m ≤ i → i < j → j ≤ n →
      Succeeded config cycles p i → ¬ Succeeded config cycles p j

/-- The cycles of a run, without the answers of the kernel behind `compress_pid`. -/
def plain (cycles : List RealCycle) : List Cycle := cycles.map RealCycle.toCycle

/-! ## Where the flag does its job -/

/-- A dry run has no successes. -/
theorem not_succeeded_of_dryRun {config : Config} (hdry : config.dryRun = true)
    (cycles : List RealCycle) (p : UInt32) (n : Nat) :
    ¬ Succeeded config (plain cycles) p n := by
  intro hsuccess
  obtain ⟨c, hc⟩ := exists_cycle_of_did hsuccess
  have hplain : cycles[n]?.map RealCycle.toCycle = some c := by
    rw [← hc, plain, List.getElem?_map]
  obtain ⟨real, -, hreal⟩ := Option.map_eq_some_iff.mp hplain
  obtain ⟨-, outcome, hout, hok⟩ := (succeeded_iff_called config p hc).mp hsuccess
  rw [← hreal, real.real, hdry] at hout
  rw [compressPid_dryRun hout] at hok
  cases hok

/-- With the idle bar at or below the wakeup bar, an idle delta clears no flag. -/
theorem not_wokeAt_of_idle {config : Config} (hle : config.cpuDeltaNs ≤ config.wakeupDeltaNs)
    {cycles : List Cycle} {p : UInt32} {k : Nat}
    (hidle : deltaAt cycles p k ≤ config.cpuDeltaNs) : ¬ WokeAt config cycles p k := by
  intro hwoke
  have hlt := UInt64.lt_iff_toNat_lt.mp hwoke.1
  have hbar := UInt64.le_iff_toNat_le.mp hle
  have hdelta := UInt64.le_iff_toNat_le.mp hidle
  omega

theorem atMostOneSuccess_of_le {config : Config}
    (hle : config.cpuDeltaNs ≤ config.wakeupDeltaNs) (cycles : List Cycle) :
    AtMostOneSuccess config cycles := by
  intro p m n hepoch hidle i j hmi hij hjn hfirst hsecond
  have hcalled := called_of_succeeded hsecond
  obtain ⟨c, hc⟩ := exists_cycle_of_did hsecond
  have hj : j < cycles.length := (List.getElem?_eq_some_iff.mp hc).1
  obtain ⟨-, -, hnotFlagged, -⟩ := (called_iff_streak config p hc).mp hcalled
  -- the first success is in the same epoch and nothing has cleared its flag
  refine hnotFlagged ((flag_iff config p hj).mpr ⟨i, hij, ?_, hfirst, fun k hlo hhi => ?_⟩)
  · obtain ⟨hmn, starttime, hobs⟩ := hepoch
    exact ⟨by omega, starttime, fun k hlo hhi => hobs k (by omega) (by omega)⟩
  · exact not_wokeAt_of_idle hle (hidle k (by omega) (by omega))

/-! ## A process between the two bars -/

theorem onePageInputs_success (pid : UInt32) :
    ∃ outcome, compressPid onePageInputs pid false = .ok outcome ∧
      outcome.isRealSuccess = true := by
  exact ⟨adviseRegions onePageInputs.madvise [(0x1000, 0x1000)],
    compressPid_eq_adviseRegions (read_onePageInputs pid) rfl, by decide⟩

/-- A cycle in which PID 7 has this CPU time and can be paged out. -/
def pageOutCycle (cpuNs : UInt64) : RealCycle where
  toCycle := soloCycle 7 cpuNs (fun pid dryRun => compressPid onePageInputs pid dryRun)
  inputs := fun _ => onePageInputs
  real := rfl

/-- The process uses nothing up to the cycle `rise`, and `d` in that cycle. -/
def lateUse (d : UInt64) (rise k : Nat) : UInt64 := if k < rise then 0 else d

def lateUseRun (d : UInt64) (rise length : Nat) : List RealCycle :=
  (List.range length).map (fun k => pageOutCycle (lateUse d rise k))

section LateUse

variable {d : UInt64} {rise length : Nat}

theorem plain_lateUseRun {k : Nat} (hk : k < length) :
    (plain (lateUseRun d rise length))[k]? = some (pageOutCycle (lateUse d rise k)).toCycle := by
  unfold plain lateUseRun
  rw [List.getElem?_map, List.getElem?_map, List.getElem?_range hk, Option.map_some,
    Option.map_some]

theorem observed_lateUseRun {k : Nat} (hk : k < length) :
    observed (plain (lateUseRun d rise length)) 7 k =
      some { pid := 7, starttime := 1, cpuNs := lateUse d rise k } :=
  observed_soloCycle (plain_lateUseRun hk)

theorem deltaAt_lateUseRun {k : Nat} (hpos : 0 < k) (hk : k < length) :
    deltaAt (plain (lateUseRun d rise length)) 7 k = if k = rise then d else 0 := by
  have hdelta : deltaAt (plain (lateUseRun d rise length)) 7 k =
      saturatingSub (lateUse d rise k) (lateUse d rise (k - 1)) := by
    unfold deltaAt
    rw [observed_lateUseRun hk, observed_lateUseRun (show k - 1 < length by omega)]
  rw [hdelta]
  unfold lateUse
  rcases Nat.lt_trichotomy k rise with hbefore | heq | hafter
  · rw [if_pos hbefore, if_pos (show k - 1 < rise by omega), if_neg (show k ≠ rise by omega),
      saturatingSub_self]
  · rw [if_neg (show ¬ k < rise by omega), if_pos (show k - 1 < rise by omega), if_pos heq,
      saturatingSub_zero]
  · rw [if_neg (show ¬ k < rise by omega), if_neg (show ¬ k - 1 < rise by omega),
      if_neg (show k ≠ rise by omega), saturatingSub_self]

theorem linked_lateUseRun {k : Nat} (hpos : 0 < k) (hk : k < length) :
    Linked (plain (lateUseRun d rise length)) 7 k :=
  ⟨hpos, _, _, observed_lateUseRun (show k - 1 < length by omega), observed_lateUseRun hk, rfl⟩

theorem sameEpoch_lateUseRun {n : Nat} (hn : n < length) :
    SameEpoch (plain (lateUseRun d rise length)) 7 0 n :=
  ⟨Nat.zero_le n, 1, fun k _ hhi => ⟨_, observed_lateUseRun (by omega), rfl⟩⟩

variable {config : Config} (hidle : d ≤ config.cpuDeltaNs)

include hidle

theorem deltaAt_lateUseRun_le {k : Nat} (hpos : 0 < k) (hk : k < length) :
    deltaAt (plain (lateUseRun d rise length)) 7 k ≤ config.cpuDeltaNs := by
  rw [deltaAt_lateUseRun hpos hk]
  split
  · exact hidle
  · exact UInt64.zero_le

/-- The idle counter counts every cycle of the run. -/
theorem streak_lateUseRun {k : Nat} (hk : k < length) :
    streak (IdleAt config (plain (lateUseRun d rise length)) 7) k = k := by
  apply Nat.le_antisymm (streak_le k)
  rw [le_streak_iff]
  refine ⟨Nat.le_refl k, fun i hlo hhi => ?_⟩
  exact ⟨linked_lateUseRun (by omega) (by omega), deltaAt_lateUseRun_le hidle (by omega) (by omega)⟩

/-- Where the counter has reached its threshold, only the flag stops the page-out. -/
theorem succeeded_lateUseRun (hdry : config.dryRun = false) {k : Nat} (hpos : 0 < k)
    (hk : k < length) (hcount : config.idleCyclesThreshold ≤ UInt32.ofNat k)
    (hfree : ¬ ((Linked (plain (lateUseRun d rise length)) 7 k ∧
        ¬ WokeAt config (plain (lateUseRun d rise length)) 7 k) ∧
      (viewAt config (plain (lateUseRun d rise length)) 7 k).isCompressed = true)) :
    Succeeded config (plain (lateUseRun d rise length)) 7 k := by
  rw [succeeded_iff_called config 7 (plain_lateUseRun hk),
    called_iff_streak config 7 (plain_lateUseRun hk), streak_lateUseRun hidle hk]
  refine ⟨⟨⟨linked_lateUseRun hpos hk, deltaAt_lateUseRun_le hidle hpos hk⟩, hcount, hfree,
    le_u64Max _, ⟨7, "firefox"⟩, rfl, rfl⟩, ?_⟩
  rw [hdry]
  exact onePageInputs_success 7

/-- The process is paged out by the time the counter reaches its threshold. -/
theorem exists_succeeded_lateUseRun (hdry : config.dryRun = false) {k : Nat} (hpos : 0 < k)
    (hk : k < length) (hcount : config.idleCyclesThreshold ≤ UInt32.ofNat k) :
    ∃ i ≤ k, Succeeded config (plain (lateUseRun d rise length)) 7 i := by
  by_contra hnone
  refine hnone ⟨k, Nat.le_refl k, succeeded_lateUseRun hidle hdry hpos hk hcount ?_⟩
  intro hflag
  have hlength : k < (plain (lateUseRun d rise length)).length :=
    (List.getElem?_eq_some_iff.mp (plain_lateUseRun hk)).1
  obtain ⟨i, hi, -, hsuccess, -⟩ := (flag_iff config 7 hlength).mp hflag
  exact hnone ⟨i, Nat.le_of_lt hi, hsuccess⟩

/-- The use is a wakeup and an idle delta, so the process is paged out once more. -/
theorem not_atMostOneSuccess_lateUseRun (hdry : config.dryRun = false)
    (hwake : config.wakeupDeltaNs < d) (hmax : d ≠ u64Max) {first : Nat} (hpos : 0 < first)
    (hlate : first < rise) (hlength : rise < length)
    (hfirst : config.idleCyclesThreshold ≤ UInt32.ofNat first)
    (hrise : config.idleCyclesThreshold ≤ UInt32.ofNat rise) :
    ¬ AtMostOneSuccess config (plain (lateUseRun d rise length)) := by
  intro honce
  obtain ⟨i, hi, hsuccess⟩ :
      ∃ i ≤ first, Succeeded config (plain (lateUseRun d rise length)) 7 i :=
    exists_succeeded_lateUseRun hidle hdry hpos (by omega) hfirst
  have hwoke : WokeAt config (plain (lateUseRun d rise length)) 7 rise := by
    unfold WokeAt
    rw [deltaAt_lateUseRun (by omega) hlength, if_pos rfl]
    exact ⟨hwake, hmax⟩
  refine honce 7 0 rise (sameEpoch_lateUseRun hlength) (fun k hlo hhi => ?_) i rise (by omega)
    (by omega) (Nat.le_refl rise) hsuccess ?_
  · exact deltaAt_lateUseRun_le hidle hlo (by omega)
  · exact succeeded_lateUseRun hidle hdry (by omega) hlength hrise (fun hflag => hflag.1.2 hwoke)

end LateUse

/-! ## The configurations that page out once -/

/-- Every run keeps to one success per idle epoch exactly when page-outs are not
real or the idle bar is at or below the wakeup bar. -/
theorem atMostOneSuccess_iff (config : Config) :
    (∀ cycles : List RealCycle, AtMostOneSuccess config (plain cycles)) ↔
      config.dryRun = true ∨ config.cpuDeltaNs ≤ config.wakeupDeltaNs := by
  constructor
  · intro honce
    by_contra hneither
    rw [not_or, Bool.not_eq_true, UInt64.not_le] at hneither
    -- the first cycle that reaches the threshold, and the one where the counter has wrapped
    obtain ⟨first, hfirst⟩ : ∃ first, first = max 1 config.idleCyclesThreshold.toNat := ⟨_, rfl⟩
    have hlt := config.idleCyclesThreshold.toNat_lt
    have hcount : config.idleCyclesThreshold ≤ UInt32.ofNat first := by
      rw [UInt32.le_iff_toNat_le, UInt32.toNat_ofNat_of_lt' (by unfold UInt32.size; omega)]
      omega
    have hwrapped : UInt32.ofNat (first + 2 ^ 32) = UInt32.ofNat first := by
      apply UInt32.toNat.inj
      rw [UInt32.toNat_ofNat', UInt32.toNat_ofNat']
      omega
    refine not_atMostOneSuccess_lateUseRun (d := config.cpuDeltaNs) (UInt64.le_refl _) hneither.1
      hneither.2 (mul_TICK_NS_ne_max _) (show 0 < first by omega)
      (show first < first + 2 ^ 32 by omega) (Nat.lt_succ_self _) hcount ?_ (honce _)
    rw [hwrapped]
    exact hcount
  · intro hcond cycles
    rcases hcond with hdry | hle
    · intro p m n _ _ i j _ _ _ hsuccess
      exact absurd hsuccess (not_succeeded_of_dryRun hdry cycles p i)
    · exact atMostOneSuccess_of_le hle (plain cycles)

/-- An idle bar of two ticks over a wakeup bar of one: a PID that uses nothing in cycle 1 and
two ticks in cycle 2 is idle in both and is paged out in both. -/
theorem idle_process_paged_out_twice :
    let config : Config :=
      { idleCyclesThreshold := 1, cpuDeltaThreshold := 2, wakeupDeltaThreshold := 1 }
    ¬ AtMostOneSuccess config (plain (lateUseRun 20000000 2 3)) := by
  intro config
  have hidle : (20000000 : UInt64) ≤ config.cpuDeltaNs := by decide
  exact not_atMostOneSuccess_lateUseRun hidle rfl (by decide) (by decide) (show 0 < 1 by decide)
    (by decide) (by decide) (by decide) (by decide)

end BsslRam.Recompression
