import BsslRam.ScanHistory

/-!
# The main loop and the time between scans

The loop of `main` waits in `tokio::select!` for whichever comes first: a sleep
of `scan_interval_secs`, armed anew on each pass, or a PSI pressure event.  Both
branches run one `scan_cycle`.  Only the timer branch reconciles the process
table, and only the PSI branch counts the event.

The tracker does not know which branch ran: the loop is a run of scan cycles
(`callsIn_iff_called`).  It counts scans, so what a count says about time
depends on the passes.  `called_idle_time_iff` says for which sequences of
wake-ups the documented idle time is kept.
-/

namespace BsslRam.MainLoop

open BsslRam.Lib BsslRam.Scanner BsslRam.State BsslRam.Signals BsslRam.ScanCycle
open BsslRam.ScanHistory BsslRam.Lib.PastTime

/-! ## The loop -/

/-- The branch of the `select!` that ran. -/
inductive ScanTrigger where
  | timer
  | psiPressure
  deriving DecidableEq, Repr

/-- The sleep of one pass. -/
def scanInterval (config : Config) : Duration := Duration.fromSecs config.scanIntervalSecs

/-- A wake-up of the loop, with the time since the previous one.  The timer fires
after the whole interval; a PSI event is seen before the timer fires. -/
structure Wake (config : Config) where
  trigger : ScanTrigger
  elapsed : Duration
  inTime : match trigger with
    | .timer => elapsed = scanInterval config
    | .psiPressure => elapsed ≤ scanInterval config

theorem Wake.elapsed_le {config : Config} (w : Wake config) :
    w.elapsed ≤ scanInterval config := by
  obtain ⟨trigger, elapsed, hin⟩ := w
  cases trigger with
  | timer => exact Nat.le_of_eq hin
  | psiPressure => exact hin

/-- One pass: the wake-up and what the scan then finds. -/
structure Pass (config : Config) where
  wake : Wake config
  scan : Cycle

/-- The variables of `main` that live across passes, and the clock. -/
structure LoopState where
  run : RunState := {}
  cycle : UInt64 := 0
  now : Instant := 0

structure PassResult where
  state : LoopState
  reseeds : Bool
  log : List (TargetProcess × Action)

/-- The PSI branch counts its events. -/
def countEvent (trigger : ScanTrigger) (stats : Stats) : Stats :=
  match trigger with
  | .timer => stats
  | .psiPressure => { stats with psiEvents := stats.psiEvents + 1 }

/-- The timer branch reconciles the process table, if there is one, every so many
cycles. -/
def reseedDue (config : Config) (hasTable : Bool) (trigger : ScanTrigger) (cycle : UInt64) : Bool :=
  match trigger with
  | .timer =>
      hasTable && decide (0 < config.cnProcReseedEveryNCycles) &&
        cycle % config.cnProcReseedEveryNCycles == 0
  | .psiPressure => false

/-- The body of the loop, up to a shutdown signal. -/
def LoopState.pass {config : Config} (hasTable : Bool) (s : LoopState) (pass : Pass config) :
    PassResult :=
  let cycle := s.cycle + 1
  let run := { s.run with stats := countEvent pass.wake.trigger s.run.stats }
  { state := { run := run.next config pass.scan, cycle, now := s.now + pass.wake.elapsed }
    reseeds := reseedDue config hasTable pass.wake.trigger cycle
    log := (run.scan config pass.scan).log }

/-- The loop from its start. -/
def runLoop {config : Config} (hasTable : Bool) (passes : List (Pass config)) : LoopState :=
  passes.foldl (fun s pass => (s.pass hasTable pass).state) {}

def passResult? {config : Config} (hasTable : Bool) (passes : List (Pass config)) (n : Nat) :
    Option PassResult :=
  passes[n]?.map ((runLoop hasTable (passes.take n)).pass hasTable)

/-- Pass `n` calls `compress_pid(p)`. -/
def CallsIn {config : Config} (hasTable : Bool) (passes : List (Pass config)) (p : UInt32)
    (n : Nat) : Prop :=
  ∃ r, passResult? hasTable passes n = some r ∧
    ∃ tab a, (tab, a) ∈ r.log ∧ tab.pid = p ∧ Action.callsCompressPid a = true

/-- The time of pass `n`. -/
def timeAt {config : Config} (passes : List (Pass config)) (n : Nat) : Instant :=
  (runLoop false (passes.take (n + 1))).now

/-- The scan cycles of the passes. -/
def scans {config : Config} (passes : List (Pass config)) : List Cycle := passes.map Pass.scan

/-! ## The loop as a run of scan cycles -/

section Loop

variable {config : Config} (hasTable : Bool)

theorem runLoop_append (passes : List (Pass config)) (pass : Pass config) :
    runLoop hasTable (passes ++ [pass]) = ((runLoop hasTable passes).pass hasTable pass).state := by
  unfold runLoop
  rw [List.foldl_append, List.foldl_cons, List.foldl_nil]

theorem view_pass (s : LoopState) (pass : Pass config) (p : UInt32) :
    (s.pass hasTable pass).state.run.tracker.view p =
      pass.scan.stepView config p (s.run.tracker.view p) :=
  scanCycle_view config s.run.tracker (countEvent pass.wake.trigger s.run.stats) pass.scan p

theorem mem_log_pass (s : LoopState) (pass : Pass config) (p : UInt32) (a : Action) :
    (∃ tab, tab.pid = p ∧ (tab, a) ∈ (s.pass hasTable pass).log) ↔
      pass.scan.action? config p (s.run.tracker.view p) = some a :=
  mem_scanCycle_log config s.run.tracker (countEvent pass.wake.trigger s.run.stats) pass.scan p a

/-- The tracker of the loop is the tracker of its scan cycles. -/
theorem view_runLoop (passes : List (Pass config)) (p : UInt32) :
    (runLoop hasTable passes).run.tracker.view p =
      (runCycles config (scans passes)).tracker.view p := by
  induction passes using List.reverseRecOn with
  | nil => rfl
  | append_singleton passes pass ih =>
    have hrun : runCycles config (scans (passes ++ [pass])) =
        (runCycles config (scans passes)).next config pass.scan := by
      unfold runCycles scans
      rw [List.map_append, List.foldl_append, List.map_singleton, List.foldl_cons, List.foldl_nil]
    rw [runLoop_append, view_pass, ih, hrun]
    exact (scanCycle_view config _ (runCycles config (scans passes)).stats pass.scan p).symm

/-- Which branch ran makes no difference to what a pass does about a PID. -/
theorem callsIn_iff_called (passes : List (Pass config)) (p : UInt32) (n : Nat) :
    CallsIn hasTable passes p n ↔ Called config (scans passes) p n := by
  cases hpass : passes[n]? with
  | none =>
    have hscan : (scans passes)[n]? = none := by rw [scans, List.getElem?_map, hpass]; rfl
    simp [CallsIn, passResult?, hpass, Called, Did, cycleResult?, hscan]
  | some pass =>
    have hscan : (scans passes)[n]? = some pass.scan := by
      rw [scans, List.getElem?_map, hpass]; rfl
    have hview : (runLoop hasTable (passes.take n)).run.tracker.view p =
        viewAt config (scans passes) p n := by
      rw [view_runLoop, viewAt, scans, scans, List.map_take]
    have hlog := mem_log_pass hasTable (runLoop hasTable (passes.take n)) pass p
    unfold Called CallsIn passResult?
    rw [did_iff config p hscan, ← hview, ← exists_logged_iff hlog]
    simp only [hpass, Option.map_some, Option.some.injEq, exists_eq_left']

end Loop

/-! ## Elapsed time -/

section Time

variable {config : Config} {passes : List (Pass config)}

theorem timeAt_succ {n : Nat} {pass : Pass config} (hpass : passes[n + 1]? = some pass) :
    timeAt passes (n + 1) = timeAt passes n + pass.wake.elapsed := by
  unfold timeAt
  rw [List.take_add_one, hpass, Option.toList_some, runLoop_append]
  rfl

theorem timeAt_mono {m n : Nat} (hmn : m ≤ n) (hn : n < passes.length) :
    timeAt passes m ≤ timeAt passes n := by
  induction n, hmn using Nat.le_induction with
  | base => exact Nat.le_refl _
  | succ n hmn ih =>
    rw [timeAt_succ (List.getElem?_eq_getElem hn)]
    exact Nat.le_trans (ih (by omega)) (Nat.le_add_right _ _)

/-- No pass takes longer than the interval. -/
theorem timeAt_le {m n : Nat} (hmn : m ≤ n) (hn : n < passes.length) :
    timeAt passes n ≤ timeAt passes m + (n - m) * scanInterval config := by
  induction n, hmn using Nat.le_induction with
  | base => exact Nat.le_add_right _ _
  | succ n hmn ih =>
    have hstep := timeAt_succ (List.getElem?_eq_getElem hn)
    have hle := (passes[n + 1]).wake.elapsed_le
    calc timeAt passes (n + 1)
        = timeAt passes n + (passes[n + 1]).wake.elapsed := hstep
      _ ≤ (timeAt passes m + (n - m) * scanInterval config) + scanInterval config :=
          Nat.add_le_add (ih (by omega)) hle
      _ = timeAt passes m + (n + 1 - m) * scanInterval config := by
          rw [Nat.succ_sub hmn, Nat.succ_mul, Nat.add_assoc]

/-- The passes after `m` take one interval each when the timer ends all of them. -/
theorem le_timeAt {m n : Nat} (hmn : m ≤ n)
    (hfull : ∀ k pass, m < k → k ≤ n → passes[k]? = some pass →
      pass.wake.elapsed = scanInterval config) (hn : n < passes.length) :
    timeAt passes m + (n - m) * scanInterval config ≤ timeAt passes n := by
  induction n, hmn using Nat.le_induction with
  | base => simp
  | succ n hmn ih =>
    have hpass := List.getElem?_eq_getElem hn
    have hstep := timeAt_succ hpass
    rw [hfull (n + 1) _ (by omega) (Nat.le_refl _) hpass] at hstep
    have hbefore := ih (fun k pass hlo hhi => hfull k pass hlo (by omega)) (by omega)
    rw [hstep, Nat.succ_sub hmn, Nat.succ_mul, ← Nat.add_assoc]
    exact Nat.add_le_add_right hbefore _

/-- One short pass, and the time can no longer be made up. -/
theorem timeAt_lt {m n k : Nat} {pass : Pass config} (hmk : m < k) (hkn : k ≤ n)
    (hn : n < passes.length) (hpass : passes[k]? = some pass)
    (hshort : pass.wake.elapsed < scanInterval config) :
    timeAt passes n < timeAt passes m + (n - m) * scanInterval config := by
  obtain ⟨k, rfl⟩ : ∃ k', k = k' + 1 := ⟨k - 1, by omega⟩
  have hbefore := timeAt_le (show m ≤ k by omega) (show k < passes.length by omega)
  have hafter := timeAt_le hkn hn
  have hstep := timeAt_succ hpass
  have hsplit : n - m = (k - m) + 1 + (n - (k + 1)) := by omega
  calc timeAt passes n
      ≤ timeAt passes k + pass.wake.elapsed + (n - (k + 1)) * scanInterval config := by
        rw [← hstep]
        exact hafter
    _ < timeAt passes k + scanInterval config + (n - (k + 1)) * scanInterval config :=
        Nat.add_lt_add_right (Nat.add_lt_add_left hshort _) _
    _ ≤ timeAt passes m + (n - m) * scanInterval config := by
        rw [hsplit, Nat.add_mul, Nat.add_mul, Nat.one_mul, ← Nat.add_assoc, ← Nat.add_assoc]
        exact Nat.add_le_add_right (Nat.add_le_add_right hbefore _) _

end Time

/-! ## How long a process has been idle when it is paged out -/

/-- At pass `n`, `p` has been observed with one start time and idle deltas only for
at least `d`. -/
def IdleFor {config : Config} (passes : List (Pass config)) (p : UInt32) (n : Nat)
    (d : Duration) : Prop :=
  ∃ m, SameEpoch (scans passes) p m n ∧
    (∀ k, m < k → k ≤ n → deltaAt (scans passes) p k ≤ config.cpuDeltaNs) ∧
    timeAt passes m + d ≤ timeAt passes n

/-- What a call says about the scans, for runs of any length: the counter wraps to
smaller values only. -/
theorem idle_scans_of_callsIn {config : Config} {hasTable : Bool} {passes : List (Pass config)}
    {p : UInt32} {n : Nat} (hcalls : CallsIn hasTable passes p n) :
    n < passes.length ∧
      ∃ m, m + max 1 config.idleCyclesThreshold.toNat = n ∧ SameEpoch (scans passes) p m n ∧
        ∀ k, m < k → k ≤ n → deltaAt (scans passes) p k ≤ config.cpuDeltaNs := by
  have hcalled := (callsIn_iff_called hasTable passes p n).mp hcalls
  obtain ⟨c, hc⟩ := exists_cycle_of_did hcalled
  have hn : n < (scans passes).length := (List.getElem?_eq_some_iff.mp hc).1
  rw [scans, List.length_map] at hn
  exact ⟨hn, idle_epoch_of_called hcalled⟩

/-- Nothing to scan. -/
def emptyCycle : Cycle where
  targets := []
  env :=
    { snapshot := fun _ => none
      rssMib := fun _ => 0
      profileVeto := fun _ _ => none
      compressPid := fun _ _ => .error [] }
  nodup := List.nodup_nil

/-- PID 7 appears at pass `first` and uses no CPU; its `smaps` cannot be read. -/
def appearsAt {config : Config} (first : Nat) (wakes : List (Wake config)) : List (Pass config) :=
  wakes.mapIdx (fun k wake =>
    { wake, scan := if k < first then emptyCycle else soloCycle 7 0 (fun _ _ => .error []) })

section Appears

variable {config : Config} {first : Nat} {wakes : List (Wake config)}

theorem wakes_appearsAt : (appearsAt first wakes).map Pass.wake = wakes := by
  apply List.ext_getElem?
  intro k
  rw [appearsAt, List.getElem?_map, List.getElem?_mapIdx, Option.map_map]
  exact Option.map_id'

theorem scans_appearsAt {k : Nat} (hk : k < wakes.length) :
    (scans (appearsAt first wakes))[k]? =
      some (if k < first then emptyCycle else soloCycle 7 0 (fun _ _ => .error [])) := by
  rw [scans, appearsAt, List.getElem?_map, List.getElem?_mapIdx, List.getElem?_eq_getElem hk]
  rfl

theorem observed_appearsAt {k : Nat} (hk : k < wakes.length) (hfirst : first ≤ k) :
    observed (scans (appearsAt first wakes)) 7 k = some ⟨7, 1, 0⟩ := by
  have hscan := @scans_appearsAt config first wakes k hk
  rw [if_neg (by omega)] at hscan
  exact observed_soloCycle hscan

theorem not_observed_appearsAt {k : Nat} (hk : k < first) :
    observed (scans (appearsAt first wakes)) 7 k = none := by
  by_cases hlen : k < wakes.length
  · have hscan := @scans_appearsAt config first wakes k hlen
    rw [if_pos hk] at hscan
    rw [observed, hscan]
    rfl
  · have hscan : (scans (appearsAt first wakes))[k]? = none := by
      rw [List.getElem?_eq_none_iff, scans, appearsAt, List.length_map, List.length_mapIdx]
      omega
    rw [observed, hscan]
    rfl

/-- The PID is called as soon as it has been observed for long enough. -/
theorem callsIn_appearsAt (hasTable : Bool) (hpos : 0 < config.idleCyclesThreshold.toNat)
    (hn : first + config.idleCyclesThreshold.toNat < wakes.length) :
    CallsIn hasTable (appearsAt first wakes) 7 (first + config.idleCyclesThreshold.toNat) := by
  have hscan := @scans_appearsAt config first wakes _ hn
  rw [if_neg (by omega)] at hscan
  have hmax : max 1 config.idleCyclesThreshold.toNat = config.idleCyclesThreshold.toNat := by
    omega
  rw [callsIn_iff_called, ← hmax]
  rw [← hmax] at hscan hn
  apply called_of_flat config
  · intro k hlo hhi
    exact observed_appearsAt (by omega) hlo
  · intro hfirst
    exact not_observed_appearsAt (by omega)
  · exact hscan
  · exact le_u64Max _
  · intro tab _
    rfl

/-- The PID cannot have been idle for longer than it has been observed. -/
theorem not_idleFor_appearsAt {n k : Nat} {w : Wake config} (hn : n < wakes.length)
    (hfirst : first < k) (hkn : k ≤ n) (hw : wakes[k]? = some w)
    (hshort : w.elapsed < scanInterval config) :
    ¬ IdleFor (appearsAt first wakes) 7 n ((n - first) * scanInterval config) := by
  intro ⟨m, ⟨hmn, starttime, hobs⟩, _, htime⟩
  have hstart : first ≤ m := by
    by_contra hearly
    obtain ⟨snap, hsnap, -⟩ := hobs m (Nat.le_refl m) hmn
    rw [not_observed_appearsAt (by omega)] at hsnap
    cases hsnap
  have hlen : (appearsAt first wakes).length = wakes.length := List.length_mapIdx
  have hpass : ∃ pass, (appearsAt first wakes)[k]? = some pass ∧ pass.wake = w := by
    rw [← Option.map_eq_some_iff, ← List.getElem?_map, wakes_appearsAt, hw]
  obtain ⟨pass, hpass, rfl⟩ := hpass
  have hlt := timeAt_lt hfirst hkn (by omega) hpass hshort
  have hle : timeAt (appearsAt first wakes) first ≤ timeAt (appearsAt first wakes) m :=
    timeAt_mono hstart (by omega)
  exact absurd (Nat.le_trans (Nat.add_le_add_right hle _) htime) (Nat.not_le.mpr hlt)

end Appears

/-- Of every sequence of wake-ups: each call of `compress_pid`, in any environment,
comes after `idle_cycles_threshold` scan intervals of idleness exactly when the
threshold is zero, or there are too few wake-ups to reach it, or every wake-up
after the first comes a whole interval after the one before. -/
theorem called_idle_time_iff (config : Config) (hasTable : Bool) (wakes : List (Wake config)) :
    (∀ passes : List (Pass config), passes.map Pass.wake = wakes →
      ∀ p n, CallsIn hasTable passes p n →
        IdleFor passes p n (config.idleCyclesThreshold.toNat * scanInterval config)) ↔
      config.idleCyclesThreshold = 0 ∨ wakes.length ≤ config.idleCyclesThreshold.toNat ∨
        ∀ w ∈ wakes.tail, w.elapsed = scanInterval config := by
  have hzero : config.idleCyclesThreshold = 0 ↔ config.idleCyclesThreshold.toNat = 0 :=
    ⟨fun h => congrArg UInt32.toNat h, fun h => UInt32.toNat.inj h⟩
  rw [hzero]
  constructor
  · intro hidle
    by_contra hnone
    simp only [not_or, Nat.not_le, not_forall] at hnone
    obtain ⟨hpos, hlong, w, hmem, hshort⟩ := hnone
    obtain ⟨k, hk⟩ := List.mem_iff_getElem?.mp hmem
    rw [List.getElem?_tail] at hk
    have hklen : k + 1 < wakes.length := (List.getElem?_eq_some_iff.mp hk).1
    -- let the PID appear so that its first call spans the short wake-up
    obtain ⟨first, hfirst⟩ : ∃ first, first = k + 1 - config.idleCyclesThreshold.toNat := ⟨_, rfl⟩
    have hn : first + config.idleCyclesThreshold.toNat < wakes.length := by omega
    have hnot := @not_idleFor_appearsAt config first wakes _ (k + 1) w hn (by omega) (by omega) hk
      (Nat.lt_of_le_of_ne w.elapsed_le hshort)
    rw [Nat.add_sub_cancel_left] at hnot
    exact hnot (hidle _ wakes_appearsAt 7 _ (callsIn_appearsAt hasTable (by omega) hn))
  · intro hcond passes hwakes p n hcalls
    have hlen : passes.length = wakes.length := by rw [← hwakes, List.length_map]
    obtain ⟨hn, m, hm, hepoch, hdelta⟩ := idle_scans_of_callsIn hcalls
    refine ⟨m, hepoch, hdelta, ?_⟩
    rcases hcond with hnull | hfew | hfull
    · rw [hnull, Nat.zero_mul]
      exact timeAt_mono (by omega) hn
    · omega
    · have hspan := @le_timeAt config passes m n (by omega) (fun k pass hlo hhi hpass => ?_) hn
      · have hcount : config.idleCyclesThreshold.toNat ≤ n - m := by omega
        exact Nat.le_trans (Nat.add_le_add_left (Nat.mul_le_mul_right _ hcount) _) hspan
      · have hwake : wakes[k]? = some pass.wake := by
          rw [← hwakes, List.getElem?_map, hpass, Option.map_some]
        refine hfull pass.wake (List.mem_iff_getElem?.mpr ⟨k - 1, ?_⟩)
        rw [List.getElem?_tail, Nat.sub_add_cancel (by omega), hwake]

/-- The default configuration with a burst of PSI events: four wake-ups in three
milliseconds, and a PID that was first seen at the first of them is called at the
last. -/
theorem psi_burst_not_idle_time :
    let burst : Wake {} := ⟨.psiPressure, 1000000, by decide⟩
    ¬ ∀ passes : List (Pass {}), passes.map Pass.wake = List.replicate 4 burst →
      ∀ p n, CallsIn true passes p n → IdleFor passes p n (3 * scanInterval {}) := by
  intro burst hidle
  have hcalls := @callsIn_appearsAt {} 0 (List.replicate 4 burst) true (by decide) (by decide)
  have hnot := @not_idleFor_appearsAt {} 0 (List.replicate 4 burst) 3 1 burst (by decide)
    (by decide) (by decide) rfl (by decide)
  exact hnot (hidle _ wakes_appearsAt 7 3 hcalls)

end BsslRam.MainLoop
