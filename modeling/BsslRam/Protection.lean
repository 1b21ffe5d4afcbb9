import BsslRam.ScanHistory

/-!
# Protections only hold page-outs back

Several things stand between an idle process and `compress_pid`: the number of idle cycles,
the RSS floor, the vetoes of the browsers.  An operator who raises one of them, or switches
the signal server on, expects fewer page-outs.  It is not obvious that a run has fewer.  A
page-out that is put off leaves the anti-recompression flag clear, so the stricter run may
page a process out in a cycle in which the other one does not.

`pageOuts_le` says that it is so over every run and for every process.  The flags of the two
runs are latches that the same wakeups clear, and the stricter one is set later.  The wakeup
bar works on the flag itself and goes the other way: `called_of_higher_wakeup` says that a
higher bar only removes calls, in each cycle.
-/

namespace BsslRam.Protection

open BsslRam.Lib BsslRam.Lib.PastTime BsslRam.Scanner BsslRam.State BsslRam.ScanCycle
open BsslRam.ScanHistory BsslRam.Compressor

instance (test : Action → Bool) (config : Config) (cycles : List Cycle) (p : UInt32) :
    DecidablePred (Did test config cycles p) := fun n =>
  decidable_of_iff ((cycleResult? config cycles n).any (fun r =>
    r.log.any (fun entry => entry.1.pid == p && test entry.2)) = true) (by
      unfold Did
      simp only [Option.any_eq_true, List.any_eq_true, Bool.and_eq_true, beq_iff_eq, Prod.exists])

instance (config : Config) (cycles : List Cycle) (p : UInt32) :
    DecidablePred (Succeeded config cycles p) :=
  inferInstanceAs (DecidablePred (Did _ _ _ _))

/-- How often `p` is paged out in the first `n` cycles. -/
def pageOuts (config : Config) (cycles : List Cycle) (p : UInt32) (n : Nat) : Nat :=
  n.count (Succeeded config cycles p)

/-- `config'` asks for more before it pages a process out. -/
structure Stricter (config config' : Config) : Prop where
  idleCycles : config.idleCyclesThreshold ≤ config'.idleCyclesThreshold
  minRss : config.minRssMib ≤ config'.minRssMib
  cpuDelta : config'.cpuDeltaThreshold = config.cpuDeltaThreshold
  wakeupDelta : config'.wakeupDeltaThreshold = config.wakeupDeltaThreshold
  dryRun : config'.dryRun = config.dryRun

/-- `c'` is the cycle `c` with more vetoes, and with processes that look smaller. -/
structure Guarded (c c' : Cycle) : Prop where
  targets : c'.targets = c.targets
  snapshot : c'.env.snapshot = c.env.snapshot
  compressPid : c'.env.compressPid = c.env.compressPid
  rssMib : ∀ p, c'.env.rssMib p ≤ c.env.rssMib p
  profileVeto : ∀ p profile, c'.env.profileVeto p profile = none →
    c.env.profileVeto p profile = none

/-! ## What the runs share -/

section Shared

variable {config config' : Config} {cycles cycles' : List Cycle}

theorem exists_guarded (h : List.Forall₂ Guarded cycles cycles') {n : Nat} {c' : Cycle}
    (hc' : cycles'[n]? = some c') : ∃ c, cycles[n]? = some c ∧ Guarded c c' := by
  induction h generalizing n with
  | nil => cases hc'
  | cons hhead _ ih =>
    cases n with
    | zero =>
      cases hc'
      exact ⟨_, rfl, hhead⟩
    | succ n => exact ih hc'

theorem target?_eq {c c' : Cycle} (h : Guarded c c') (p : UInt32) : c'.target? p = c.target? p := by
  unfold Cycle.target?
  rw [h.targets]

/-- Both runs observe the same snapshots. -/
theorem observed_eq (h : List.Forall₂ Guarded cycles cycles') (p : UInt32) :
    observed cycles' p = observed cycles p := by
  funext k
  induction h generalizing k with
  | nil => rfl
  | cons hhead _ ih =>
    cases k with
    | zero =>
      change snapshotOf _ p = snapshotOf _ p
      unfold snapshotOf
      rw [target?_eq hhead, hhead.snapshot]
    | succ k => exact ih k

theorem linked_iff (h : List.Forall₂ Guarded cycles cycles') (p : UInt32) (k : Nat) :
    Linked cycles' p k ↔ Linked cycles p k := by
  unfold Linked
  rw [observed_eq h]

theorem deltaAt_eq (h : List.Forall₂ Guarded cycles cycles') (p : UInt32) (k : Nat) :
    deltaAt cycles' p k = deltaAt cycles p k := by
  unfold deltaAt
  rw [observed_eq h]

theorem idleAt_iff (hstrict : Stricter config config') (h : List.Forall₂ Guarded cycles cycles')
    (p : UInt32) (k : Nat) : IdleAt config' cycles' p k ↔ IdleAt config cycles p k := by
  unfold IdleAt Config.cpuDeltaNs
  rw [linked_iff h, deltaAt_eq h, hstrict.cpuDelta]

theorem streak_eq (hstrict : Stricter config config') (h : List.Forall₂ Guarded cycles cycles')
    (p : UInt32) (n : Nat) :
    streak (IdleAt config' cycles' p) n = streak (IdleAt config cycles p) n :=
  Nat.le_antisymm (streak_mono (fun k _ => (idleAt_iff hstrict h p k).mp))
    (streak_mono (fun k _ => (idleAt_iff hstrict h p k).mpr))

theorem keeps_iff (hstrict : Stricter config config') (h : List.Forall₂ Guarded cycles cycles')
    (p : UInt32) (k : Nat) :
    Linked cycles' p k ∧ ¬ WokeAt config' cycles' p k ↔
      Linked cycles p k ∧ ¬ WokeAt config cycles p k := by
  unfold WokeAt Config.wakeupDeltaNs
  rw [linked_iff h, deltaAt_eq h, hstrict.wakeupDelta]

end Shared

/-! ## The flag and the other checks -/

section Flag

variable {config : Config} {cycles : List Cycle} {p : UInt32} {n : Nat}

/-- The flag holds a call back in cycle `n`: it is set, and `update` does not clear it. -/
def InForce (config : Config) (cycles : List Cycle) (p : UInt32) (n : Nat) : Prop :=
  (Linked cycles p n ∧ ¬ WokeAt config cycles p n) ∧
    (viewAt config cycles p n).isCompressed = true

/-- Every other check of cycle `n` lets the process through. -/
def Due (config : Config) (cycles : List Cycle) (p : UInt32) (n : Nat) : Prop :=
  ∃ c, cycles[n]? = some c ∧ IdleAt config cycles p n ∧
    config.idleCyclesThreshold ≤ UInt32.ofNat (streak (IdleAt config cycles p) n) ∧
    config.minRssMib ≤ c.env.rssMib p ∧
    ∃ tab, c.target? p = some tab ∧ c.env.profileVeto p tab.profile = none

theorem called_iff_due : Called config cycles p n ↔
    Due config cycles p n ∧ ¬ InForce config cycles p n := by
  constructor
  · intro h
    obtain ⟨c, hc⟩ := exists_cycle_of_did h
    obtain ⟨hidle, hwait, hflag, hrss, hveto⟩ := (called_iff_streak config p hc).mp h
    exact ⟨⟨c, hc, hidle, hwait, hrss, hveto⟩, hflag⟩
  · rintro ⟨⟨c, hc, hidle, hwait, hrss, hveto⟩, hflag⟩
    exact (called_iff_streak config p hc).mpr ⟨hidle, hwait, hflag, hrss, hveto⟩

/-- The flag is a latch that a page-out sets. -/
theorem latch (config : Config) (cycles : List Cycle) (p : UInt32) :
    Latch (Succeeded config cycles p) (fun k => Linked cycles p k ∧ ¬ WokeAt config cycles p k)
      (fun k => (viewAt config cycles p k).isCompressed = true) cycles.length where
  start := by
    rw [viewAt_zero]
    exact Bool.false_ne_true
  step _ hn := isCompressed_step config p hn
  once _ _ hmark := (called_iff_due.mp (called_of_succeeded hmark)).2

end Flag

/-! ## More protection -/

section Stricter

variable {config config' : Config} {cycles cycles' : List Cycle} {p : UInt32} {n : Nat}

theorem due_of_stricter (hstrict : Stricter config config')
    (hguarded : List.Forall₂ Guarded cycles cycles') (h : Due config' cycles' p n) :
    Due config cycles p n := by
  obtain ⟨c', hc', hidle, hwait, hrss, tab, htab, hveto⟩ := h
  obtain ⟨c, hc, hcycle⟩ := exists_guarded hguarded hc'
  refine ⟨c, hc, (idleAt_iff hstrict hguarded p n).mp hidle, ?_, ?_, tab, ?_, ?_⟩
  · rw [← streak_eq hstrict hguarded]
    exact UInt32.le_trans hstrict.idleCycles hwait
  · exact UInt64.le_trans hstrict.minRss (UInt64.le_trans hrss (hcycle.rssMib p))
  · rw [← target?_eq hcycle]
    exact htab
  · exact hcycle.profileVeto p tab.profile hveto

/-- Where the stricter run calls, the other one does too, unless it was there before. -/
theorem called_or_inForce (hstrict : Stricter config config')
    (hguarded : List.Forall₂ Guarded cycles cycles') (h : Called config' cycles' p n) :
    Called config cycles p n ∨ InForce config cycles p n := by
  have hdue := due_of_stricter hstrict hguarded (called_iff_due.mp h).1
  by_cases hflag : InForce config cycles p n
  · exact Or.inr hflag
  · exact Or.inl (called_iff_due.mpr ⟨hdue, hflag⟩)

theorem succeeded_or_inForce (hstrict : Stricter config config')
    (hguarded : List.Forall₂ Guarded cycles cycles') (h : Succeeded config' cycles' p n) :
    Succeeded config cycles p n ∨ InForce config cycles p n := by
  obtain ⟨c', hc'⟩ := exists_cycle_of_did h
  obtain ⟨c, hc, hcycle⟩ := exists_guarded hguarded hc'
  obtain ⟨hcalled, outcome, hanswer, hreal⟩ := (succeeded_iff_called config' p hc').mp h
  refine (called_or_inForce hstrict hguarded hcalled).imp_left (fun hcall => ?_)
  rw [succeeded_iff_called config p hc]
  refine ⟨hcall, outcome, ?_, hreal⟩
  rw [← hstrict.dryRun, ← hcycle.compressPid]
  exact hanswer

/-- More idle cycles, a higher RSS floor or more vetoes never lead to more page-outs of a
process, at any point of any run.  A call that only the stricter run makes comes after a
page-out of the other run in the same epoch, with no wakeup in between. -/
theorem pageOuts_le (config config' : Config) (hstrict : Stricter config config')
    (cycles cycles' : List Cycle) (hguarded : List.Forall₂ Guarded cycles cycles') (p : UInt32) :
    (∀ n ≤ cycles.length, pageOuts config' cycles' p n ≤ pageOuts config cycles p n) ∧
    ∀ n, Called config' cycles' p n → Called config cycles p n ∨
      ∃ j, j < n ∧ SameEpoch cycles p j n ∧ Succeeded config cycles p j ∧
        ∀ k, j < k → k ≤ n → ¬ WokeAt config cycles p k := by
  constructor
  · intro n hn
    have hlatch' : Latch (Succeeded config' cycles' p)
        (fun k => Linked cycles p k ∧ ¬ WokeAt config cycles p k)
        (fun k => (viewAt config' cycles' p k).isCompressed = true) cycles.length := by
      have hsame := latch config' cycles' p
      simp only [keeps_iff hstrict hguarded] at hsame
      rw [hguarded.length_eq]
      exact hsame
    exact ((latch config cycles p).count_le hlatch'
      (fun _ _ h => succeeded_or_inForce hstrict hguarded h) hn).1
  · intro n hcalled
    refine (called_or_inForce hstrict hguarded hcalled).imp_right (fun hflag => ?_)
    obtain ⟨c', hc'⟩ := exists_cycle_of_did hcalled
    have hn : n < cycles.length := by
      rw [hguarded.length_eq]
      exact (List.getElem?_eq_some_iff.mp hc').1
    exact (flag_iff config p hn).mp hflag

end Stricter

/-- A browser that plays something while the process is looked at. -/
def vetoed (c : Cycle) : Cycle :=
  { c with env := { c.env with
      profileVeto := fun _ _ => some ⟨"audible-tab", "1 audible tab(s) reported"⟩ } }

theorem guarded_refl (c : Cycle) : Guarded c c :=
  ⟨rfl, rfl, rfl, fun _ => UInt64.le_refl _, fun _ _ h => h⟩

theorem guarded_vetoed (c : Cycle) : Guarded c (vetoed c) :=
  ⟨rfl, rfl, rfl, fun _ => UInt64.le_refl _, fun _ _ h => by cases h⟩

/-- The stricter run waits for a second idle cycle, and the veto there puts its page-out off
to the next one. -/
theorem pageOuts_le_put_off :
    let c := soloCycle 7 0 (fun pid dryRun => compressPid onePageInputs pid dryRun)
    pageOuts { idleCyclesThreshold := 2 } [c, c, vetoed c, c] 7 4 = 1 ∧
      1 ≤ pageOuts { idleCyclesThreshold := 1 } [c, c, c, c] 7 4 := by
  intro c
  have hguarded : List.Forall₂ Guarded [c, c, c, c] [c, c, vetoed c, c] :=
    .cons (guarded_refl c) (.cons (guarded_refl c) (.cons (guarded_vetoed c)
      (.cons (guarded_refl c) .nil)))
  have hone : pageOuts { idleCyclesThreshold := 2 } [c, c, vetoed c, c] 7 4 = 1 := by
    decide +kernel
  have hle := (pageOuts_le { idleCyclesThreshold := 1 } { idleCyclesThreshold := 2 }
    ⟨by decide, by decide, rfl, rfl, rfl⟩ _ _ hguarded 7).1 4 (by decide)
  exact ⟨hone, hone ▸ hle⟩

/-! ## A higher wakeup bar -/

section Wakeup

def withWakeup (config : Config) (ticks : UInt64) : Config :=
  { config with wakeupDeltaThreshold := ticks }

variable {config : Config} {ticks : UInt64} {cycles : List Cycle} {p : UInt32} {n : Nat}

theorem wokeAt_of_higher (hle : config.wakeupDeltaNs ≤ (withWakeup config ticks).wakeupDeltaNs)
    (h : WokeAt (withWakeup config ticks) cycles p n) : WokeAt config cycles p n :=
  ⟨UInt64.lt_of_le_of_lt hle h.1, h.2⟩

/-- The bar has no part in the other checks. -/
theorem due_withWakeup : Due (withWakeup config ticks) cycles p n ↔ Due config cycles p n :=
  Iff.rfl

/-- The flag is in force longer under the higher bar. -/
theorem inForce_of_higher
    (hle : config.wakeupDeltaNs ≤ (withWakeup config ticks).wakeupDeltaNs)
    (hflag : (viewAt config cycles p n).isCompressed = true →
      (viewAt (withWakeup config ticks) cycles p n).isCompressed = true)
    (h : InForce config cycles p n) : InForce (withWakeup config ticks) cycles p n :=
  ⟨⟨h.1.1, fun hwoke => h.1.2 (wokeAt_of_higher hle hwoke)⟩, hflag h.2⟩

/-- A page-out under the lower bar is one under the higher bar, or comes when the flag is
still in force there. -/
theorem flag_of_higher (hle : config.wakeupDeltaNs ≤ (withWakeup config ticks).wakeupDeltaNs)
    (hn : n ≤ cycles.length) (h : (viewAt config cycles p n).isCompressed = true) :
    (viewAt (withWakeup config ticks) cycles p n).isCompressed = true := by
  induction n with
  | zero =>
    rw [viewAt_zero] at h
    cases h
  | succ n ih =>
    have hforce := inForce_of_higher hle (ih (Nat.le_of_succ_le hn))
    rw [isCompressed_step _ p hn] at h ⊢
    rcases h with hsuccess | hkept
    · by_cases hflag : InForce (withWakeup config ticks) cycles p n
      · exact Or.inr hflag
      · left
        have hc := List.getElem?_eq_getElem hn
        obtain ⟨hcalled, hreal⟩ := (succeeded_iff_called config p hc).mp hsuccess
        rw [succeeded_iff_called _ p hc]
        exact ⟨called_iff_due.mpr ⟨due_withWakeup.mpr (called_iff_due.mp hcalled).1, hflag⟩,
          hreal⟩
    · exact Or.inr (hforce hkept)

/-- A higher wakeup bar only removes calls of `compress_pid`, in every cycle of every run. -/
theorem called_of_higher_wakeup (config : Config) (ticks : UInt64)
    (hle : config.wakeupDeltaNs ≤ (withWakeup config ticks).wakeupDeltaNs) (cycles : List Cycle)
    (p : UInt32) (n : Nat) (h : Called (withWakeup config ticks) cycles p n) :
    Called config cycles p n := by
  obtain ⟨c, hc⟩ := exists_cycle_of_did h
  have hn : n < cycles.length := (List.getElem?_eq_some_iff.mp hc).1
  obtain ⟨hdue, hflag⟩ := called_iff_due.mp h
  refine called_iff_due.mpr ⟨due_withWakeup.mp hdue, fun hforce => hflag ?_⟩
  exact inForce_of_higher hle (flag_of_higher hle hn.le) hforce

end Wakeup

/-- PID 7 is paged out in cycle 1, uses 700 ms before cycle 2 and 1500 ms before cycle 4. -/
def twoUses : List Cycle :=
  [0, 0, 700000000, 700000000, 2200000000, 2200000000].map (fun cpuNs =>
    soloCycle 7 cpuNs (fun pid dryRun => compressPid onePageInputs pid dryRun))

/-- With the bar at one second instead of half a second, only the second use clears the flag.
The call in cycle 3 is gone, and the one in cycle 5 is there under both bars. -/
theorem called_of_higher_wakeup_two_uses :
    let config : Config := { idleCyclesThreshold := 1 }
    (Called config twoUses 7 3 ∧ ¬ Called (withWakeup config 100) twoUses 7 3) ∧
      Called (withWakeup config 100) twoUses 7 5 ∧ Called config twoUses 7 5 := by
  intro config
  have honly : Called config twoUses 7 3 ∧ ¬ Called (withWakeup config 100) twoUses 7 3 := by
    unfold Called
    decide +kernel
  have hcalled : Called (withWakeup config 100) twoUses 7 5 := by
    unfold Called
    decide +kernel
  exact ⟨honly, hcalled, called_of_higher_wakeup config 100 (by decide) twoUses 7 5 hcalled⟩

end BsslRam.Protection
