import BsslRam.MainLoop

/-!
# When the drift correction runs

`cn_proc_reseed_every_n_cycles` is documented as the interval of the drift
correction: every `N` scan cycles, the process table is reconciled against a
walk of `/proc`.  Both branches of the loop count cycles with the same `cycle`
variable, but only the timer branch looks whether it is a multiple of `N`.  A
multiple that falls on a PSI wake-up is lost, and the next chance is `N` cycles
later.

`reseeds_every_window_iff` says which sequences of wake-ups keep the documented
interval.  The cycle number is a `u64` that wraps.  The wrap does no harm, since
`0` is a multiple of `N` too and comes no later than the next multiple would
have.
-/

namespace BsslRam.ReseedSchedule

open BsslRam.MainLoop

variable {config : Config}

/-- Pass `n` calls `reseed_drift_correction`, given that there is a table. -/
def ReseedsIn (passes : List (Pass config)) (n : Nat) : Prop :=
  ∃ r, passResult? true passes n = some r ∧ r.reseeds = true

/-- Every window of `cn_proc_reseed_every_n_cycles` consecutive passes has a
drift correction. -/
def ReseedsEveryWindow (passes : List (Pass config)) : Prop :=
  ∀ m, m + config.cnProcReseedEveryNCycles.toNat ≤ passes.length →
    ∃ n, m ≤ n ∧ n < m + config.cnProcReseedEveryNCycles.toNat ∧ ReseedsIn passes n

/-- The value of `cycle` in pass `n`. -/
def cycleNumber (n : Nat) : UInt64 := UInt64.ofNat (n + 1)

/-- No wake-up whose cycle number is a multiple of the interval is a PSI event. -/
def TimerAtMultiples (passes : List (Pass config)) : Prop :=
  ∀ n pass, passes[n]? = some pass → cycleNumber n % config.cnProcReseedEveryNCycles = 0 →
    pass.wake.trigger = .timer

/-! ## The passes that reseed -/

theorem cycle_runLoop (hasTable : Bool) (passes : List (Pass config)) :
    (runLoop hasTable passes).cycle = UInt64.ofNat passes.length := by
  induction passes using List.reverseRecOn with
  | nil => rfl
  | append_singleton passes pass ih =>
    rw [runLoop_append, List.length_append, List.length_singleton, UInt64.ofNat_add, ← ih]
    rfl

theorem reseedsIn_iff (hN : 0 < config.cnProcReseedEveryNCycles) {passes : List (Pass config)}
    {n : Nat} {pass : Pass config} (hpass : passes[n]? = some pass) :
    ReseedsIn passes n ↔ pass.wake.trigger = .timer ∧
      cycleNumber n % config.cnProcReseedEveryNCycles = 0 := by
  have hlen : (passes.take n).length = n := by
    have hn := (List.getElem?_eq_some_iff.mp hpass).1
    rw [List.length_take]
    omega
  have hcycle : (runLoop true (passes.take n)).cycle + 1 = cycleNumber n := by
    rw [cycle_runLoop, hlen, cycleNumber, UInt64.ofNat_add]
    rfl
  unfold ReseedsIn passResult?
  simp only [hpass, Option.map_some, Option.some.injEq, exists_eq_left']
  show reseedDue config true pass.wake.trigger ((runLoop true (passes.take n)).cycle + 1) = true ↔ _
  rw [hcycle]
  cases pass.wake.trigger with
  | timer => simp [reseedDue, hN]
  | psiPressure => simp [reseedDue]

theorem cycleNumber_mod_iff (n : Nat) (N : UInt64) :
    cycleNumber n % N = 0 ↔ (n + 1) % 2 ^ 64 % N.toNat = 0 := by
  rw [← UInt64.toNat_inj, UInt64.toNat_mod, cycleNumber, UInt64.toNat_ofNat']
  rfl

/-- Every window of `N` cycle numbers has a multiple of `N`, also across the wrap. -/
theorem exists_multiple_in_window (m : Nat) {N : Nat} (hN : 0 < N) :
    ∃ n, m ≤ n ∧ n < m + N ∧ (n + 1) % 2 ^ 64 % N = 0 := by
  have hmod := Nat.mod_lt ((m + 1) % 2 ^ 64) hN
  have hdiv := Nat.div_add_mod ((m + 1) % 2 ^ 64) N
  by_cases hzero : (m + 1) % 2 ^ 64 % N = 0
  · exact ⟨m, Nat.le_refl m, by omega, hzero⟩
  · by_cases hwrap : (m + 1) % 2 ^ 64 + (N - (m + 1) % 2 ^ 64 % N) < 2 ^ 64
    · -- the next multiple is below the wrap
      refine ⟨m + (N - (m + 1) % 2 ^ 64 % N), by omega, by omega, ?_⟩
      have hval : (m + (N - (m + 1) % 2 ^ 64 % N) + 1) % 2 ^ 64 =
          N * ((m + 1) % 2 ^ 64 / N + 1) := by
        rw [Nat.mul_add, Nat.mul_one]
        omega
      rw [hval, Nat.mul_mod_right]
    · -- the number wraps to zero before it
      refine ⟨m + (2 ^ 64 - (m + 1) % 2 ^ 64), by omega, by omega, ?_⟩
      have hval : (m + (2 ^ 64 - (m + 1) % 2 ^ 64) + 1) % 2 ^ 64 = 0 := by omega
      rw [hval, Nat.zero_mod]

/-! ## The documented interval -/

theorem reseeds_of_timerAtMultiples (hN : 0 < config.cnProcReseedEveryNCycles)
    {passes : List (Pass config)} (htimer : TimerAtMultiples passes) :
    ReseedsEveryWindow passes := by
  intro m hm
  have hpos : 0 < config.cnProcReseedEveryNCycles.toNat := UInt64.lt_iff_toNat_lt.mp hN
  obtain ⟨n, hmn, hn, hmultiple⟩ := exists_multiple_in_window m hpos
  rw [← cycleNumber_mod_iff] at hmultiple
  have hpass := List.getElem?_eq_getElem (show n < passes.length by omega)
  exact ⟨n, hmn, hn, (reseedsIn_iff hN hpass).mpr ⟨htimer n _ hpass hmultiple, hmultiple⟩⟩

/-- Below the wrap the window that ends at a multiple has no other multiple. -/
theorem timerAtMultiples_of_reseeds (hN : 0 < config.cnProcReseedEveryNCycles)
    {passes : List (Pass config)} (hlen : passes.length < 2 ^ 64)
    (hreseeds : ReseedsEveryWindow passes) : TimerAtMultiples passes := by
  intro n pass hpass hmultiple
  have hn := (List.getElem?_eq_some_iff.mp hpass).1
  have hpos : 0 < config.cnProcReseedEveryNCycles.toNat := UInt64.lt_iff_toNat_lt.mp hN
  have hsmall : ∀ k, k < passes.length → (k + 1) % 2 ^ 64 = k + 1 := by
    intro k hk
    omega
  have hdvd := (cycleNumber_mod_iff n _).mp hmultiple
  rw [hsmall n hn] at hdvd
  have hdvd := Nat.dvd_of_mod_eq_zero hdvd
  have hle := Nat.le_of_dvd (by omega) hdvd
  obtain ⟨k, hlo, hhi, hk⟩ := hreseeds (n + 1 - config.cnProcReseedEveryNCycles.toNat) (by omega)
  have hkpass := List.getElem?_eq_getElem (show k < passes.length by omega)
  obtain ⟨htimer, hkmultiple⟩ := (reseedsIn_iff hN hkpass).mp hk
  have hkdvd := (cycleNumber_mod_iff k _).mp hkmultiple
  rw [hsmall k (by omega)] at hkdvd
  have hkdvd := Nat.dvd_of_mod_eq_zero hkdvd
  -- two multiples of the interval that are less than it apart are one
  have hdiff : n + 1 - (k + 1) = 0 :=
    Nat.eq_zero_of_dvd_of_lt (Nat.dvd_sub hdvd hkdvd) (by omega)
  obtain rfl : k = n := by omega
  rw [hkpass] at hpass
  cases hpass
  exact htimer

/-- Every window of `N` passes has a drift correction when no multiple of `N`
falls on a PSI wake-up; and, in a run that is shorter than the range of the cycle
number, only then. -/
theorem reseeds_every_window_iff (hN : 0 < config.cnProcReseedEveryNCycles)
    (passes : List (Pass config)) :
    (TimerAtMultiples passes → ReseedsEveryWindow passes) ∧
      (passes.length < 2 ^ 64 → (ReseedsEveryWindow passes ↔ TimerAtMultiples passes)) :=
  ⟨fun htimer => reseeds_of_timerAtMultiples hN htimer,
    fun hlen => ⟨fun hreseeds => timerAtMultiples_of_reseeds hN hlen hreseeds,
      fun htimer => reseeds_of_timerAtMultiples hN htimer⟩⟩

/-- A pass of the default configuration that the timer ends. -/
def timerPass : Pass {} := ⟨⟨.timer, scanInterval {}, rfl⟩, emptyCycle⟩

/-- A pass of the default configuration that a PSI event ends. -/
def psiPass : Pass {} := ⟨⟨.psiPressure, 1000000, by decide⟩, emptyCycle⟩

/-- Ten timer wake-ups in the default configuration: one of them reseeds. -/
theorem reseeds_every_window_iff_ten_timers :
    0 < ({} : Config).cnProcReseedEveryNCycles ∧
      ∃ n, n < 10 ∧ ReseedsIn (List.replicate 10 timerPass) n := by
  refine ⟨by decide, ?_⟩
  have htimer : TimerAtMultiples (List.replicate 10 timerPass) := by
    intro n pass hpass _
    rw [List.eq_of_mem_replicate (List.mem_of_getElem? hpass)]
    rfl
  obtain ⟨n, _, hn, hreseeds⟩ :=
    (reseeds_every_window_iff (by decide) (List.replicate 10 timerPass)).1 htimer 0 (by decide)
  exact ⟨n, hn, hreseeds⟩

/-- Nine timer wake-ups and then a PSI event: the tenth cycle is the one that
should reseed, and none does. -/
theorem psi_wake_skips_reseed :
    ¬ ReseedsEveryWindow (List.replicate 9 timerPass ++ [psiPass]) := by
  intro hreseeds
  have htimer := timerAtMultiples_of_reseeds (by decide) (by decide) hreseeds 9 psiPass rfl
    (by decide)
  cases htimer

end BsslRam.ReseedSchedule
