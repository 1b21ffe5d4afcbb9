import BsslRam.ProcNames

/-!
# A higher idle threshold

`cpu_delta_threshold` is a number of ticks, and a process with a CPU delta of at most so many
ticks counts as idle.  Two runs of `scan_cycle` with the same targets and the same contents
of `/proc/PID/stat` see the same CPU times, whatever else they are told, so their idle
counters can differ only by their thresholds (`observed_eq`).

The comparison is made in nanoseconds.  The factor is 10 million, the product is taken modulo
`2 ^ 64`, and from about 58 years on a higher threshold can be a lower bar.  The counter is a
`u32`, and after `2 ^ 32` idle cycles it starts again at zero.  A process that is idle for
longer then has the lower counter.  `never_busier_iff` says that these are the two ways to
look busier under the higher threshold, and that each of them is there.
-/

namespace BsslRam.IdleThreshold

open BsslRam.Lib BsslRam.Lib.Text BsslRam.Lib.Utf8 BsslRam.Scanner BsslRam.State
open BsslRam.ScanCycle BsslRam.ScanHistory BsslRam.ProcStat BsslRam.ProcNames BsslRam.Lib.PastTime

/-! ## Two runs -/

/-- A cycle without the BPF tracker: the CPU times are those of `/proc/PID/stat`. -/
structure StatCycle extends Cycle where
  stat : UInt32 → Option File
  reads : ∀ p, env.snapshot p = (stat p).bind buildSnapshot

def plain (cs : List StatCycle) : List Cycle := cs.map StatCycle.toCycle

/-- The same targets, and the same contents of their files. -/
def SameStat (c c' : StatCycle) : Prop := c.targets = c'.targets ∧ c.stat = c'.stat

def withThreshold (config : Config) (ticks : UInt64) : Config :=
  { config with cpuDeltaThreshold := ticks }

/-- The idle counter of `p` after `n` cycles. -/
def counterAfter (config : Config) (cs : List StatCycle) (n : Nat) (p : UInt32) : UInt32 :=
  (runCycles config ((plain cs).take n)).tracker.idleCycles p

/-- In runs of at most `limit` cycles, no process looks busier under the threshold `b` than
under `a`. -/
def NeverBusier (config : Config) (a b : UInt64) (limit : Nat) : Prop :=
  ∀ cs cs' : List StatCycle, List.Forall₂ SameStat cs cs' → cs.length ≤ limit →
    ∀ n ≤ cs.length, ∀ p,
      counterAfter (withThreshold config a) cs n p ≤ counterAfter (withThreshold config b) cs' n p

/-- A number of ticks in nanoseconds, as far as a `u64` holds it. -/
def wrappedNs (ticks : UInt64) : Nat := ticks.toNat * 10000000 % 2 ^ 64

theorem toNat_mul_TICK_NS (ticks : UInt64) : (ticks * TICK_NS).toNat = wrappedNs ticks := by
  have htick : TICK_NS.toNat = 10000000 := by decide
  rw [UInt64.toNat_mul, htick, wrappedNs]

theorem le_cpuDeltaNs_iff (config : Config) (ticks : UInt64) (delta : UInt64) :
    delta ≤ (withThreshold config ticks).cpuDeltaNs ↔ delta.toNat ≤ wrappedNs ticks := by
  rw [UInt64.le_iff_toNat_le, ← toNat_mul_TICK_NS]
  rfl

/-! ## What the runs share -/

section Shared

variable {cs cs' : List StatCycle}

theorem snapshotOf_eq {c c' : StatCycle} (h : SameStat c c') (p : UInt32) :
    snapshotOf c.toCycle p = snapshotOf c'.toCycle p := by
  unfold snapshotOf Cycle.target?
  rw [h.1, c.reads, c'.reads, h.2]

/-- Both runs observe the same snapshots. -/
theorem observed_eq (h : List.Forall₂ SameStat cs cs') (p : UInt32) (k : Nat) :
    observed (plain cs) p k = observed (plain cs') p k := by
  induction h generalizing k with
  | nil => rfl
  | cons hhead _ ih =>
    cases k with
    | zero => exact snapshotOf_eq hhead p
    | succ k => exact ih k

/-- An idle cycle of one run is one of the other, if the bar is not lower there. -/
theorem idleAt_of_le (h : List.Forall₂ SameStat cs cs') (config : Config) {a b : UInt64}
    (hle : wrappedNs a ≤ wrappedNs b) {p : UInt32} {k : Nat}
    (hidle : IdleAt (withThreshold config a) (plain cs) p k) :
    IdleAt (withThreshold config b) (plain cs') p k := by
  have hdelta : deltaAt (plain cs) p k = deltaAt (plain cs') p k := by
    unfold deltaAt
    rw [observed_eq h, observed_eq h]
  obtain ⟨⟨hpos, prev, snap, hprev, hsnap, hst⟩, hbar⟩ := hidle
  refine ⟨⟨hpos, prev, snap, ?_, ?_, hst⟩, ?_⟩
  · rw [← observed_eq h, hprev]
  · rw [← observed_eq h, hsnap]
  · rw [le_cpuDeltaNs_iff] at hbar ⊢
    rw [← hdelta]
    exact Nat.le_trans hbar hle

theorem streak_le_of_le (h : List.Forall₂ SameStat cs cs') (config : Config) {a b : UInt64}
    (hle : wrappedNs a ≤ wrappedNs b) (p : UInt32) (k : Nat) :
    streak (IdleAt (withThreshold config a) (plain cs) p) k ≤
      streak (IdleAt (withThreshold config b) (plain cs') p) k :=
  streak_mono (fun _ _ => idleAt_of_le h config hle)

theorem sameStat_symm (h : List.Forall₂ SameStat cs cs') : List.Forall₂ SameStat cs' cs :=
  h.flip.imp (fun _ _ hsame => ⟨hsame.1.symm, hsame.2.symm⟩)

end Shared

/-- The counter after a cycle is the streak, modulo `2 ^ 32`. -/
theorem counterAfter_succ (config : Config) {cs : List StatCycle} {n : Nat} (hn : n < cs.length)
    (p : UInt32) :
    counterAfter config cs (n + 1) p = UInt32.ofNat (streak (IdleAt config (plain cs) p) n) :=
  idleCycles_viewAt config p (by rwa [plain, List.length_map])

theorem neverBusier_iff_streak (config : Config) (a b : UInt64) (limit : Nat) :
    NeverBusier config a b limit ↔ ∀ cs cs' : List StatCycle, List.Forall₂ SameStat cs cs' →
      cs.length ≤ limit → ∀ n < cs.length, ∀ p,
        UInt32.ofNat (streak (IdleAt (withThreshold config a) (plain cs) p) n) ≤
          UInt32.ofNat (streak (IdleAt (withThreshold config b) (plain cs') p) n) := by
  constructor
  · intro h cs cs' hsame hlength n hn p
    have hcounter := h cs cs' hsame hlength (n + 1) hn p
    rwa [counterAfter_succ _ hn, counterAfter_succ _ (hsame.length_eq ▸ hn)] at hcounter
  · intro h cs cs' hsame hlength n hn p
    cases n with
    | zero =>
      have hzero : counterAfter (withThreshold config a) cs 0 p = 0 :=
        congrArg PidView.idleCycles (viewAt_zero (withThreshold config a) p)
      rw [hzero]
      exact UInt32.zero_le
    | succ n =>
      rw [counterAfter_succ _ hn, counterAfter_succ _ (hsame.length_eq ▸ hn)]
      exact h cs cs' hsame hlength n hn p

/-! ## Where the counters keep their order -/

section Keeps

variable (config : Config) {a b : UInt64}

theorem neverBusier_of_eq (h : wrappedNs a = wrappedNs b) (limit : Nat) :
    NeverBusier config a b limit := by
  rw [neverBusier_iff_streak]
  intro cs cs' hsame _ n _ p
  have hstreak := Nat.le_antisymm (streak_le_of_le hsame config h.le p n)
    (streak_le_of_le (sameStat_symm hsame) config h.ge p n)
  rw [hstreak]
  exact UInt32.le_refl _

theorem neverBusier_of_le (h : wrappedNs a ≤ wrappedNs b) {limit : Nat} (hlimit : limit ≤ 2 ^ 32) :
    NeverBusier config a b limit := by
  rw [neverBusier_iff_streak]
  intro cs cs' hsame hlength n hn p
  have hstreak := streak_le_of_le hsame config h p n
  -- the longer streak still fits into the counter
  have hfits : streak (IdleAt (withThreshold config b) (plain cs') p) n < UInt32.size :=
    Nat.lt_of_le_of_lt (streak_le n) (by rw [UInt32.size]; omega)
  rw [UInt32.le_iff_toNat_le, UInt32.toNat_ofNat_of_lt' hfits,
    UInt32.toNat_ofNat_of_lt' (Nat.lt_of_le_of_lt hstreak hfits)]
  exact hstreak

/-- A first sight is never idle. -/
theorem neverBusier_of_short {limit : Nat} (hlimit : limit ≤ 1) : NeverBusier config a b limit := by
  rw [neverBusier_iff_streak]
  intro cs cs' hsame hlength n hn p
  obtain rfl : n = 0 := by omega
  exact UInt32.zero_le

end Keeps

/-! ## A process with a burst -/

/-- The fields of `stat` with these values, and zeros otherwise. -/
def tickFields (starttime utime stime : UInt64) : List (List Char) :=
  List.replicate 11 ['0'] ++ Nat.toDigits 10 utime.toNat :: Nat.toDigits 10 stime.toNat ::
    (List.replicate 6 ['0'] ++ [Nat.toDigits 10 starttime.toNat])

theorem mem_tickFields {starttime utime stime : UInt64} {f : List Char}
    (h : f ∈ tickFields starttime utime stime) : ∃ n, IsDecimal f n := by
  have hzero : IsDecimal ['0'] 0 := isDecimal_toDigits 0
  simp only [tickFields, List.mem_append, List.mem_cons, List.mem_replicate, List.not_mem_nil,
    or_false] at h
  rcases h with ⟨-, rfl⟩ | rfl | rfl | ⟨-, rfl⟩ | rfl
  · exact ⟨0, hzero⟩
  · exact ⟨_, isDecimal_toDigits _⟩
  · exact ⟨_, isDecimal_toDigits _⟩
  · exact ⟨0, hzero⟩
  · exact ⟨_, isDecimal_toDigits _⟩

theorem statFields_tickFields (starttime utime stime : UInt64) :
    StatFields (tickFields starttime utime stime) := by
  refine ⟨by simp [tickFields], ?_, ?_⟩
  · intro f hf
    obtain ⟨n, hn⟩ := mem_tickFields hf
    exact hn.isWord
  · intro f hf
    obtain ⟨n, hn⟩ := mem_tickFields hf
    exact hn.not_mem (by decide)

theorem byteLen_statLine_lt (starttime utime stime : UInt64) :
    byteLen (statLine 7 ['a'] (tickFields starttime utime stime) ['\n']) < 2 ^ 63 := by
  have hlength : ∀ v : UInt64, (Nat.toDigits 10 v.toNat).length ≤ 20 := fun v =>
    Nat.toDigits_length 10 v.toNat 20 (by decide) (Nat.lt_trans v.toNat_lt (by decide))
  have hstart := hlength starttime
  have hutime := hlength utime
  have hstime := hlength stime
  have hpid : (showNat 10 1 7).length = 1 := by decide
  refine Nat.lt_of_le_of_lt (byteLen_le _) ?_
  simp [statLine, tickFields, List.intercalate, List.intersperse, List.replicate, hpid]
  omega

/-- A file with these values. -/
def statFile (starttime utime stime : UInt64) : File where
  bytes := encode (statLine 7 ['a'] (tickFields starttime utime stime) ['\n'])
  fits := by
    rw [length_encode]
    exact byteLen_statLine_lt starttime utime stime

theorem buildSnapshot_statFile (starttime utime stime : UInt64) :
    buildSnapshot (statFile starttime utime stime) =
      some (starttime, (utime + stime) * TICK_NS) := by
  have hdecode : decode (statFile starttime utime stime).bytes =
      some (statLine 7 ['a'] (tickFields starttime utime stime) ['\n']) := decode_encode _
  obtain ⟨str, htext, hchars⟩ := File.text_of_decode hdecode
  have htail : StatTail ['\n'] := ⟨by simp [isWhitespace]⟩
  have h₁₄ : (tickFields starttime utime stime)[11]? = some (Nat.toDigits 10 utime.toNat) := by
    simp [tickFields]
  have h₁₅ : (tickFields starttime utime stime)[12]? = some (Nat.toDigits 10 stime.toNat) := by
    simp [tickFields]
  have h₂₂ : (tickFields starttime utime stime)[19]? = some (Nat.toDigits 10 starttime.toNat) := by
    simp [tickFields]
  have hparse := parseProcStats_statLine hchars (statFields_tickFields starttime utime stime) htail
    h₁₄ h₁₅ h₂₂ (isDecimal_toDigits _) (isDecimal_toDigits _) (isDecimal_toDigits _)
  rw [buildSnapshot, readProcStats, htext, Option.bind_some, hparse]
  rfl

/-- A cycle over these files, in which no page-out succeeds. -/
def fileCycle (targets : List TargetProcess) (nodup : (targets.map TargetProcess.pid).Nodup)
    (stat : UInt32 → Option File) : StatCycle where
  targets
  env :=
    { snapshot := fun p => (stat p).bind buildSnapshot
      rssMib := fun _ => 0
      profileVeto := fun _ _ => none
      compressPid := fun _ _ => .error [] }
  nodup
  stat
  reads := fun _ => rfl

/-- A cycle with process 7 alone, which has used so many ticks. -/
def tickCycle (ticks : UInt64) : StatCycle :=
  fileCycle [{ pid := 7, profile := "firefox" }] (List.nodup_singleton _)
    (fun _ => some (statFile 1 ticks 0))

/-- The process uses so many ticks between the first two cycles, and no more for `m - 1`
cycles. -/
def burst (ticks : UInt64) (m : Nat) : List StatCycle :=
  tickCycle 0 :: List.replicate m (tickCycle ticks)

theorem snapshotOf_tickCycle (ticks : UInt64) :
    snapshotOf (tickCycle ticks).toCycle 7 = some ⟨7, 1, ticks * TICK_NS⟩ := by
  have hsnap : (tickCycle ticks).env.snapshot 7 = some (1, ticks * TICK_NS) := by
    rw [(tickCycle ticks).reads]
    simp only [tickCycle, fileCycle, Option.bind_some, buildSnapshot_statFile, UInt64.add_zero]
  have htarget : (tickCycle ticks).target? 7 = some { pid := 7, profile := "firefox" } := rfl
  rw [snapshotOf, htarget, hsnap]
  rfl

section Burst

variable (ticks : UInt64) {m : Nat}

theorem observed_burst_zero : observed (plain (burst ticks m)) 7 0 = some ⟨7, 1, 0⟩ := by
  have hzero : (0 : UInt64) * TICK_NS = 0 := by decide
  rw [observed, burst, plain, List.map_cons, List.getElem?_cons_zero, Option.bind_some,
    snapshotOf_tickCycle, hzero]

theorem observed_burst_succ {k : Nat} (hk : k < m) :
    observed (plain (burst ticks m)) 7 (k + 1) = some ⟨7, 1, ticks * TICK_NS⟩ := by
  rw [observed, burst, plain, List.map_cons, List.getElem?_cons_succ, List.map_replicate,
    List.getElem?_replicate, if_pos hk, Option.bind_some, snapshotOf_tickCycle]

/-- The burst counts as idle under a bar that is high enough. -/
theorem idleAt_burst_one (config : Config) (hm : 0 < m) :
    IdleAt config (plain (burst ticks m)) 7 1 ↔ ticks * TICK_NS ≤ config.cpuDeltaNs := by
  have hprev := @observed_burst_zero ticks m
  have hobs := observed_burst_succ ticks hm
  have hdelta : deltaAt (plain (burst ticks m)) 7 1 = ticks * TICK_NS := by
    unfold deltaAt
    rw [hobs, hprev]
    exact saturatingSub_zero _
  rw [IdleAt, hdelta]
  exact and_iff_right ⟨Nat.one_pos, _, _, hprev, hobs, rfl⟩

/-- After the burst the process is idle under any bar. -/
theorem idleAt_burst_succ (config : Config) {k : Nat} (hk : k + 1 < m) :
    IdleAt config (plain (burst ticks m)) 7 (k + 2) := by
  have hprev := observed_burst_succ ticks (show k < m by omega)
  have hobs := observed_burst_succ ticks hk
  refine ⟨⟨by omega, _, _, hprev, hobs, rfl⟩, ?_⟩
  have hdelta : deltaAt (plain (burst ticks m)) 7 (k + 2) = 0 := by
    unfold deltaAt
    rw [hobs, Nat.add_sub_assoc (by decide), hprev]
    apply UInt64.toNat.inj
    rw [toNat_saturatingSub, Nat.sub_self, UInt64.toNat_zero]
  rw [hdelta]
  exact UInt64.zero_le

/-- The streak starts with the burst or right after it. -/
theorem streak_burst (config : Config) (bar : UInt64) {k : Nat} (hk : k < m) :
    streak (IdleAt (withThreshold config bar) (plain (burst ticks m)) 7) (k + 1) =
      if wrappedNs ticks ≤ wrappedNs bar then k + 1 else k := by
  induction k with
  | zero =>
    rw [streak, streak]
    refine if_congr ?_ rfl rfl
    rw [idleAt_burst_one ticks _ hk, le_cpuDeltaNs_iff, toNat_mul_TICK_NS]
  | succ k ih =>
    rw [streak, if_pos (idleAt_burst_succ ticks _ hk), ih (by omega)]
    split <;> rfl

end Burst

theorem sameStat_refl (cs : List StatCycle) : List.Forall₂ SameStat cs cs :=
  List.forall₂_same.mpr (fun _ _ => ⟨rfl, rfl⟩)

/-! ## Where they do not -/

section Breaks

variable (config : Config) {a b : UInt64} {limit : Nat}

/-- A burst as long as the bar under `a`. -/
theorem wrappedNs_le_of_neverBusier (h : NeverBusier config a b limit) (hlimit : 2 ≤ limit) :
    wrappedNs a ≤ wrappedNs b := by
  by_contra hlt
  rw [neverBusier_iff_streak] at h
  have hcounter := h (burst a 1) (burst a 1) (sameStat_refl _) hlimit 1 (by simp [burst]) 7
  rw [streak_burst a config a Nat.one_pos, streak_burst a config b Nat.one_pos,
    if_pos (Nat.le_refl _), if_neg hlt] at hcounter
  exact absurd hcounter (by decide)

/-- A burst as long as the bar under `b`, and then no more for `2 ^ 32 - 1` cycles. -/
theorem limit_le_of_neverBusier (h : NeverBusier config a b limit)
    (hlt : wrappedNs a < wrappedNs b) : limit ≤ 2 ^ 32 := by
  by_contra hlimit
  rw [neverBusier_iff_streak] at h
  have hlong : (burst b (2 ^ 32)).length = 2 ^ 32 + 1 := by
    rw [burst, List.length_cons, List.length_replicate]
  have hlast : 2 ^ 32 - 1 < 2 ^ 32 := by omega
  have hcounter := h (burst b (2 ^ 32)) (burst b (2 ^ 32)) (sameStat_refl _) (by omega)
    (2 ^ 32 - 1 + 1) (by omega) 7
  rw [streak_burst b config a hlast, streak_burst b config b hlast, if_neg (Nat.not_le.mpr hlt),
    if_pos (Nat.le_refl _), UInt32.le_iff_toNat_le, UInt32.toNat_ofNat',
    UInt32.toNat_ofNat'] at hcounter
  omega

end Breaks

/-- In runs of at most `limit` cycles no process looks busier under the threshold `b` than
under `a`, if the two are the same bar in nanoseconds, or in order with runs that are too
short for the counter to wrap; and not otherwise, unless there is no second cycle.  In runs
of any length only the same bar will do. -/
theorem never_busier_iff (config : Config) (a b : UInt64) :
    (∀ limit, NeverBusier config a b limit ↔
      limit ≤ 1 ∨ a.toNat * 10000000 % 2 ^ 64 = b.toNat * 10000000 % 2 ^ 64 ∨
        a.toNat * 10000000 % 2 ^ 64 < b.toNat * 10000000 % 2 ^ 64 ∧ limit ≤ 2 ^ 32) ∧
    ((∀ limit, NeverBusier config a b limit) ↔
      a.toNat * 10000000 % 2 ^ 64 = b.toNat * 10000000 % 2 ^ 64) := by
  have hbounded : ∀ limit, NeverBusier config a b limit ↔
      limit ≤ 1 ∨ wrappedNs a = wrappedNs b ∨ wrappedNs a < wrappedNs b ∧ limit ≤ 2 ^ 32 := by
    intro limit
    constructor
    · intro h
      rcases Nat.lt_or_ge 1 limit with hlong | hshort
      · rcases (wrappedNs_le_of_neverBusier config h hlong).eq_or_lt with heq | hlt
        · exact Or.inr (Or.inl heq)
        · exact Or.inr (Or.inr ⟨hlt, limit_le_of_neverBusier config h hlt⟩)
      · exact Or.inl hshort
    · intro h
      rcases h with hshort | heq | ⟨hlt, hlimit⟩
      · exact neverBusier_of_short config hshort
      · exact neverBusier_of_eq config heq limit
      · exact neverBusier_of_le config hlt.le hlimit
  refine ⟨hbounded, fun h => ?_, fun h limit => neverBusier_of_eq config h limit⟩
  rcases (hbounded (2 ^ 32 + 1)).mp (h _) with hshort | heq | ⟨-, hlimit⟩
  · omega
  · exact heq
  · omega

/-- A process that uses two ticks between two cycles is idle under the default threshold of
two ticks.  Under a threshold of 1844674407371 ticks it is active. -/
theorem higher_threshold_busier :
    (2 : UInt64) ≤ 1844674407371 ∧
    counterAfter (withThreshold {} 2) (burst 2 1) 2 7 = 1 ∧
    counterAfter (withThreshold {} 1844674407371) (burst 2 1) 2 7 = 0 := by
  have hlength : 1 < (burst 2 1).length := by simp [burst]
  refine ⟨by decide, ?_, ?_⟩
  · rw [counterAfter_succ _ hlength, streak_burst 2 {} 2 Nat.one_pos, if_pos (Nat.le_refl _)]
    rfl
  · rw [counterAfter_succ _ hlength, streak_burst 2 {} 1844674407371 Nat.one_pos,
      if_neg (by decide)]
    rfl

end BsslRam.IdleThreshold
