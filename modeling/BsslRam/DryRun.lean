import BsslRam.TrackerInvariant

/-!
# The dry run as a preview

Two runs of `scan_cycle` over the same targets, snapshots, RSS values and vetoes, one
with `dry_run` and one without.  In the live run `compress_pid` returns whatever it
likes.  In the dry run it is the function of the compressor, which never reports a
success.

The two trackers move in lockstep.  A turn of the loop reads and writes the snapshot
and the idle counter without a look at the flag, so both maps stay equal, and the flag
map of the dry run stays empty (`Shadow`).  The flag is one rung of the ladder of
checks, so the live run calls `compress_pid` in the turns in which the dry run does and
the flag is not set.

A flag that is set goes back to a call.  So a PID that the dry run selects is selected
now by the live run as well, or was before, and every PID is selected for the first time
in the same cycle of both runs (`dry_run_previews`).
-/

namespace BsslRam.DryRun

open BsslRam.Lib BsslRam.Scanner BsslRam.State BsslRam.Compressor BsslRam.ScanCycle
open BsslRam.TrackerInvariant

/-! ## The two runs -/

/-- One cycle of both runs. -/
structure PreviewPass extends Pass where
  inputs : UInt32 → CompressInputs
  dry : ∀ p, env.compressPid p true = compressPid (inputs p) p true

def plain (cycles : List PreviewPass) : List Pass := cycles.map PreviewPass.toPass

def live (config : Config) : Config := { config with dryRun := false }

def dry (config : Config) : Config := { config with dryRun := true }

/-- What `is_compressed` says in a turn of the loop, after `update`. -/
def flagIn (config : Config) (env : CycleEnv) (tracker : CpuTracker) (tab : TargetProcess) :
    Bool :=
  match env.snapshot tab.pid with
  | none => false
  | some (starttime, cpuNs) =>
      (tracker.update { pid := tab.pid, starttime, cpuNs } config.cpuDeltaNs
        config.wakeupDeltaNs).2.isCompressed tab.pid

/-- A turn of the loop, with the flag at that point. -/
structure Turn where
  tab : TargetProcess
  action : Action
  flag : Bool

def turns (config : Config) (env : CycleEnv) : List TargetProcess → CpuTracker → List Turn
  | [], _ => []
  | tab :: rest, tracker =>
      ⟨tab, (scanTarget config env tracker tab).1, flagIn config env tracker tab⟩ ::
        turns config env rest (scanTarget config env tracker tab).2

theorem turns_log (config : Config) (env : CycleEnv) (targets : List TargetProcess)
    (tracker : CpuTracker) :
    (turns config env targets tracker).map (fun turn => (turn.tab, turn.action)) =
      (scanLoop config env targets tracker).1 := by
  induction targets generalizing tracker with
  | nil => rfl
  | cons tab rest ih =>
    rw [turns, scanLoop, List.map_cons, ih]

theorem turns_tab (config : Config) (env : CycleEnv) (targets : List TargetProcess)
    (tracker : CpuTracker) : (turns config env targets tracker).map Turn.tab = targets := by
  induction targets generalizing tracker with
  | nil => rfl
  | cons tab rest ih => rw [turns, List.map_cons, ih]

/-- The tracker before cycle `n`. -/
def trackerAt (config : Config) (passes : List Pass) (n : Nat) : CpuTracker :=
  (runPasses config (passes.take n)).tracker

/-- The turns of cycle `n`. -/
def turnsAt (config : Config) (passes : List Pass) (n : Nat) : List Turn :=
  (passes[n]?.map (fun c => turns config c.env c.targets (trackerAt config passes n))).getD []

/-- What `scan_cycle` logs in cycle `n`. -/
def logAt (config : Config) (passes : List Pass) (n : Nat) : List (TargetProcess × Action) :=
  let s := runPasses config (passes.take n)
  (passes[n]?.map (fun c => (scanPass config s.tracker s.stats c).log)).getD []

/-- `compress_pid(p)` is called in cycle `n`. -/
def Called (config : Config) (passes : List Pass) (p : UInt32) (n : Nat) : Prop :=
  ∃ turn ∈ turnsAt config passes n, turn.tab.pid = p ∧ turn.action.callsCompressPid = true

/-- The flag of `p` is set when cycle `n` comes to it. -/
def Flagged (config : Config) (passes : List Pass) (p : UInt32) (n : Nat) : Prop :=
  ∃ turn ∈ turnsAt config passes n, turn.tab.pid = p ∧ turn.flag = true

def FirstCalled (config : Config) (passes : List Pass) (p : UInt32) (n : Nat) : Prop :=
  Called config passes p n ∧ ∀ m < n, ¬ Called config passes p m

instance (config : Config) (passes : List Pass) (p : UInt32) (n : Nat) :
    Decidable (Called config passes p n) :=
  inferInstanceAs (Decidable (∃ turn ∈ _, _))

instance (config : Config) (passes : List Pass) (p : UInt32) (n : Nat) :
    Decidable (Flagged config passes p n) :=
  inferInstanceAs (Decidable (∃ turn ∈ _, _))

instance (config : Config) (passes : List Pass) (p : UInt32) (n : Nat) :
    Decidable (FirstCalled config passes p n) :=
  inferInstanceAs (Decidable (_ ∧ _))

/-- The live run calls `compress_pid` in a turn if the dry run does and the flag is not
set. -/
def Previewed (l d : Turn) : Prop :=
  l.tab = d.tab ∧
    (l.action.callsCompressPid = true ↔ d.action.callsCompressPid = true ∧ l.flag = false)

/-- What the dry run says about the live run, after `n` cycles and in cycle `n`. -/
structure Preview (config : Config) (cycles : List PreviewPass) (n : Nat) : Prop where
  /-- The turns of a run are those of its log. -/
  log : ∀ config', (turnsAt config' (plain cycles) n).map (fun turn => (turn.tab, turn.action)) =
    logAt config' (plain cycles) n
  snapshots : (trackerAt (live config) (plain cycles) n).snapshots =
    (trackerAt (dry config) (plain cycles) n).snapshots
  idleCycles : (trackerAt (live config) (plain cycles) n).idleCyclesMap =
    (trackerAt (dry config) (plain cycles) n).idleCyclesMap
  unflagged : (trackerAt (dry config) (plain cycles) n).compressed = ∅
  turns : List.Forall₂ Previewed (turnsAt (live config) (plain cycles) n)
    (turnsAt (dry config) (plain cycles) n)
  /-- A turn is a PID when no PID is a target twice. -/
  calls : (∀ c, cycles[n]? = some c → (c.targets.map TargetProcess.pid).Nodup) →
    ∀ p, Called (live config) (plain cycles) p n ↔
      Called (dry config) (plain cycles) p n ∧ ¬ Flagged (live config) (plain cycles) p n
  firstCall : ∀ p, FirstCalled (live config) (plain cycles) p n ↔
    FirstCalled (dry config) (plain cycles) p n

/-! ## One PID in both runs -/

/-- The entries of one PID in the live run and in the dry run. -/
structure Shadow (l d : PidView) : Prop where
  snapshot : l.snapshot = d.snapshot
  idle : l.idle = d.idle
  unflagged : d.compressed = none

namespace Shadow

variable {l d : PidView}

theorem refl_empty : Shadow PidView.empty PidView.empty := ⟨rfl, rfl, rfl⟩

theorem guardReuse (h : Shadow l d) (snap : ProcSnapshot) :
    Shadow (l.guardReuse snap) (d.guardReuse snap) := by
  unfold PidView.guardReuse
  rw [h.snapshot]
  cases d.snapshot with
  | none => exact h
  | some prev =>
    dsimp only
    split
    · exact refl_empty
    · exact h

theorem delta (h : Shadow l d) (snap : ProcSnapshot) : l.delta snap = d.delta snap := by
  unfold PidView.delta
  rw [h.snapshot]

theorem update (h : Shadow l d) (snap : ProcSnapshot) (cpuNs wakeupNs : UInt64) :
    (l.update snap cpuNs wakeupNs).1 = (d.update snap cpuNs wakeupNs).1 ∧
      Shadow (l.update snap cpuNs wakeupNs).2 (d.update snap cpuNs wakeupNs).2 := by
  have hguard := h.guardReuse snap
  have hdelta := hguard.delta snap
  refine ⟨?_, rfl, ?_, ?_⟩
  · rw [PidView.update_isIdle, PidView.update_isIdle, hdelta]
  · simp only [PidView.update, hdelta, hguard.idle]
  · simp only [PidView.update, hguard.unflagged, ite_self]

theorem markCompressed (h : Shadow l d) : Shadow l.markCompressed d :=
  ⟨h.snapshot, h.idle, h.unflagged⟩

theorem idleCycles (h : Shadow l d) : l.idleCycles = d.idleCycles := by
  unfold PidView.idleCycles
  rw [h.idle]

theorem isCompressed (h : Shadow l d) : d.isCompressed = false := by
  unfold PidView.isCompressed
  rw [h.unflagged]
  rfl

end Shadow

/-- `flagIn` on the entries of one PID. -/
def PidView.flagIn (config : Config) (env : CycleEnv) (tab : TargetProcess) (v : PidView) :
    Bool :=
  match env.snapshot tab.pid with
  | none => false
  | some (starttime, cpuNs) =>
      (v.update { pid := tab.pid, starttime, cpuNs } config.cpuDeltaNs
        config.wakeupDeltaNs).2.isCompressed

theorem flagIn_eq_view (config : Config) (env : CycleEnv) (tracker : CpuTracker)
    (tab : TargetProcess) :
    flagIn config env tracker tab = PidView.flagIn config env tab (tracker.view tab.pid) := by
  unfold flagIn PidView.flagIn
  cases env.snapshot tab.pid with
  | none => rfl
  | some reading =>
    dsimp only
    rw [CpuTracker.isCompressed_eq, CpuTracker.view_update, if_pos rfl]

theorem not_isSuccess_dry (config : Config) {env : CycleEnv} {inputs : UInt32 → CompressInputs}
    (hdry : ∀ p, env.compressPid p true = compressPid (inputs p) p true) (tab : TargetProcess)
    (isIdle : Bool) (cycles : UInt32) (isCompressed : Bool) :
    ¬ (judge (dry config) env tab isIdle cycles isCompressed).isSuccess = true := by
  intro hsuccess
  obtain ⟨_, outcome, hout, hreal⟩ := (judge_isSuccess _ _ _ _ _ _).mp hsuccess
  change env.compressPid tab.pid true = .ok outcome at hout
  rw [hdry] at hout
  rw [compressPid_dryRun hout] at hreal
  cases hreal

/-- The flag is one check among the others. -/
theorem judge_live_iff (config : Config) (env : CycleEnv) (tab : TargetProcess) (isIdle : Bool)
    (cycles : UInt32) (flag : Bool) :
    (judge (live config) env tab isIdle cycles flag).callsCompressPid = true ↔
      (judge (dry config) env tab isIdle cycles false).callsCompressPid = true ∧ flag = false := by
  rw [judge_callsCompressPid, judge_callsCompressPid]
  cases flag with
  | false => exact ⟨fun h => ⟨h, rfl⟩, fun h => h.1⟩
  | true => exact ⟨fun h => absurd rfl h.2.2.1, fun h => by cases h.2⟩

/-- One turn, in both runs. -/
theorem shadow_scan (config : Config) {env : CycleEnv} {inputs : UInt32 → CompressInputs}
    (hdry : ∀ p, env.compressPid p true = compressPid (inputs p) p true) (tab : TargetProcess)
    {l d : PidView} (h : Shadow l d) :
    Shadow (PidView.scan (live config) env tab l).2 (PidView.scan (dry config) env tab d).2 ∧
      ((PidView.scan (live config) env tab l).1.callsCompressPid = true ↔
        (PidView.scan (dry config) env tab d).1.callsCompressPid = true ∧
          PidView.flagIn (live config) env tab l = false) := by
  unfold PidView.scan PidView.flagIn
  cases hsnap : env.snapshot tab.pid with
  | none => exact ⟨Shadow.refl_empty, by simp [Action.callsCompressPid]⟩
  | some reading =>
    obtain ⟨hidle, hupdate⟩ := h.update ⟨tab.pid, reading.1, reading.2⟩ (live config).cpuDeltaNs
      (live config).wakeupDeltaNs
    dsimp only
    constructor
    · rw [if_neg (not_isSuccess_dry config hdry tab _ _ _)]
      split
      · exact hupdate.markCompressed
      · exact hupdate
    · rw [judge_live_iff, hidle, hupdate.idleCycles, ← hupdate.isCompressed]
      exact Iff.rfl

/-! ## The trackers of both runs -/

def Shadows (l d : CpuTracker) : Prop := ∀ p, Shadow (l.view p) (d.view p)

theorem shadows_new : Shadows CpuTracker.new CpuTracker.new := by
  intro p
  rw [CpuTracker.view_new]
  exact Shadow.refl_empty

theorem shadows_retainOnly {l d : CpuTracker} (h : Shadows l d) (pids : List UInt32) :
    Shadows (l.retainOnly pids) (d.retainOnly pids) := by
  intro p
  rw [CpuTracker.view_retainOnly, CpuTracker.view_retainOnly]
  split
  · exact h p
  · exact Shadow.refl_empty

section Loop

variable (config : Config) {env : CycleEnv} {inputs : UInt32 → CompressInputs}
  (hdry : ∀ p, env.compressPid p true = compressPid (inputs p) p true)

include hdry

theorem shadows_scanTarget {l d : CpuTracker} (h : Shadows l d) (tab : TargetProcess) :
    Shadows (scanTarget (live config) env l tab).2 (scanTarget (dry config) env d tab).2 := by
  intro p
  by_cases hp : tab.pid = p
  · rw [← hp, (scanTarget_self (live config) env l tab).2,
      (scanTarget_self (dry config) env d tab).2]
    exact (shadow_scan config hdry tab (h tab.pid)).1
  · rw [scanTarget_other (live config) env l hp, scanTarget_other (dry config) env d hp]
    exact h p

theorem previewed_turn {l d : CpuTracker} (h : Shadows l d) (tab : TargetProcess) :
    Previewed ⟨tab, (scanTarget (live config) env l tab).1, flagIn (live config) env l tab⟩
      ⟨tab, (scanTarget (dry config) env d tab).1, flagIn (dry config) env d tab⟩ := by
  refine ⟨rfl, ?_⟩
  show (scanTarget (live config) env l tab).1.callsCompressPid = true ↔
    (scanTarget (dry config) env d tab).1.callsCompressPid = true ∧
      flagIn (live config) env l tab = false
  rw [(scanTarget_self (live config) env l tab).1, (scanTarget_self (dry config) env d tab).1,
    flagIn_eq_view]
  exact (shadow_scan config hdry tab (h tab.pid)).2

/-- The loop, turn by turn. -/
theorem shadows_scanLoop {l d : CpuTracker} (h : Shadows l d) (targets : List TargetProcess) :
    Shadows (scanLoop (live config) env targets l).2 (scanLoop (dry config) env targets d).2 ∧
      List.Forall₂ Previewed (turns (live config) env targets l)
        (turns (dry config) env targets d) := by
  induction targets generalizing l d with
  | nil => exact ⟨h, .nil⟩
  | cons tab rest ih =>
    obtain ⟨hrest, hturns⟩ := ih (shadows_scanTarget config hdry h tab)
    exact ⟨hrest, .cons (previewed_turn config hdry h tab) hturns⟩

end Loop

/-! ## Where a flag comes from -/

section Origin

variable (config : Config) (env : CycleEnv)

theorem isCompressed_of_guardReuse {v : PidView} {snap : ProcSnapshot}
    (h : (v.guardReuse snap).isCompressed = true) : v.isCompressed = true := by
  unfold PidView.guardReuse at h
  split at h
  · split at h
    · cases h
    · exact h
  · exact h

theorem isCompressed_of_flagIn {tracker : CpuTracker} {tab : TargetProcess}
    (h : flagIn config env tracker tab = true) : tracker.isCompressed tab.pid = true := by
  rw [flagIn_eq_view] at h
  unfold PidView.flagIn at h
  split at h
  · cases h
  · exact isCompressed_of_guardReuse ((PidView.update_isCompressed _ _ _ _).mp h).2

/-- A turn leaves a flag behind only where there was one, or where it called
`compress_pid`. -/
theorem isCompressed_of_scanTarget {tracker : CpuTracker} {tab : TargetProcess} {p : UInt32}
    (h : (scanTarget config env tracker tab).2.isCompressed p = true) :
    tracker.isCompressed p = true ∨
      (tab.pid = p ∧ (scanTarget config env tracker tab).1.callsCompressPid = true) := by
  rw [CpuTracker.isCompressed_eq] at h ⊢
  by_cases hp : tab.pid = p
  · subst hp
    rw [(scanTarget_self config env tracker tab).2] at h
    rw [(scanTarget_self config env tracker tab).1]
    unfold PidView.scan at h ⊢
    cases hsnap : env.snapshot tab.pid with
    | none =>
      rw [hsnap] at h
      cases h
    | some reading =>
      rw [hsnap] at h
      dsimp only at h ⊢
      split at h
      · rename_i hsuccess
        exact Or.inr ⟨rfl, Action.callsCompressPid_of_isSuccess hsuccess⟩
      · exact Or.inl (isCompressed_of_guardReuse ((PidView.update_isCompressed _ _ _ _).mp h).2)
  · rw [scanTarget_other config env tracker hp] at h
    exact Or.inl h

/-- The flag of `p` was there before the loop, or a turn of it called `compress_pid`. -/
def Origin (targets : List TargetProcess) (tracker : CpuTracker) (p : UInt32) : Prop :=
  tracker.isCompressed p = true ∨ ∃ turn ∈ turns config env targets tracker,
    turn.tab.pid = p ∧ turn.action.callsCompressPid = true

theorem origin_cons {tab : TargetProcess} {rest : List TargetProcess} {tracker : CpuTracker}
    {p : UInt32} (h : Origin config env rest (scanTarget config env tracker tab).2 p) :
    Origin config env (tab :: rest) tracker p := by
  rcases h with hflag | hturn
  · rcases isCompressed_of_scanTarget config env hflag with hbefore | hcalls
    · exact Or.inl hbefore
    · exact Or.inr ⟨_, List.mem_cons_self, hcalls⟩
  · obtain ⟨turn, hmem, hturn⟩ := hturn
    exact Or.inr ⟨turn, List.mem_cons_of_mem _ hmem, hturn⟩

theorem origin_of_scanLoop {targets : List TargetProcess} {tracker : CpuTracker} {p : UInt32}
    (h : (scanLoop config env targets tracker).2.isCompressed p = true) :
    Origin config env targets tracker p := by
  induction targets generalizing tracker with
  | nil => exact Or.inl h
  | cons tab rest ih => exact origin_cons config env (ih h)

theorem origin_of_turn {targets : List TargetProcess} {tracker : CpuTracker} {turn : Turn}
    (hmem : turn ∈ turns config env targets tracker) (hflag : turn.flag = true) :
    Origin config env targets tracker turn.tab.pid := by
  induction targets generalizing tracker with
  | nil => cases hmem
  | cons tab rest ih =>
    rcases List.mem_cons.mp hmem with heq | hrest
    · rw [heq] at hflag ⊢
      exact Or.inl (isCompressed_of_flagIn config env hflag)
    · exact origin_cons config env (ih hrest)

end Origin

/-! ## Whole runs -/

section Runs

variable (config : Config)

theorem trackerAt_succ {passes : List Pass} {n : Nat} {c : Pass} (hc : passes[n]? = some c) :
    trackerAt config passes (n + 1) =
      (scanLoop config c.env c.targets (trackerAt config passes n)).2.retainOnly
        (c.targets.map TargetProcess.pid) := by
  unfold trackerAt
  rw [List.take_add_one, hc, Option.toList_some, runPasses_append]
  rfl

theorem trackerAt_succ_of_none {passes : List Pass} {n : Nat} (hc : passes[n]? = none) :
    trackerAt config passes (n + 1) = trackerAt config passes n := by
  unfold trackerAt
  rw [List.take_add_one, hc, Option.toList_none, List.append_nil]

theorem turnsAt_of_some {passes : List Pass} {n : Nat} {c : Pass} (hc : passes[n]? = some c) :
    turnsAt config passes n = turns config c.env c.targets (trackerAt config passes n) := by
  unfold turnsAt
  rw [hc]
  rfl

theorem turnsAt_log (passes : List Pass) (n : Nat) :
    (turnsAt config passes n).map (fun turn => (turn.tab, turn.action)) =
      logAt config passes n := by
  unfold turnsAt logAt
  cases passes[n]? with
  | none => rfl
  | some c => exact turns_log config c.env c.targets _

theorem turnsAt_of_none {passes : List Pass} {n : Nat} (hc : passes[n]? = none) :
    turnsAt config passes n = [] := by
  unfold turnsAt
  rw [hc]
  rfl

theorem getElem?_plain (cycles : List PreviewPass) (n : Nat) :
    (plain cycles)[n]? = cycles[n]?.map PreviewPass.toPass :=
  List.getElem?_map

theorem plain_of_none {cycles : List PreviewPass} {n : Nat} (hc : cycles[n]? = none) :
    (plain cycles)[n]? = none := by
  rw [getElem?_plain, hc]
  rfl

theorem plain_of_some {cycles : List PreviewPass} {n : Nat} {c : PreviewPass}
    (hc : cycles[n]? = some c) : (plain cycles)[n]? = some c.toPass := by
  rw [getElem?_plain, hc]
  rfl

theorem shadows_trackerAt (cycles : List PreviewPass) (n : Nat) :
    Shadows (trackerAt (live config) (plain cycles) n)
      (trackerAt (dry config) (plain cycles) n) := by
  induction n with
  | zero => exact shadows_new
  | succ n ih =>
    cases hc : cycles[n]? with
    | none =>
      rw [trackerAt_succ_of_none _ (plain_of_none hc), trackerAt_succ_of_none _ (plain_of_none hc)]
      exact ih
    | some c =>
      rw [trackerAt_succ _ (plain_of_some hc), trackerAt_succ _ (plain_of_some hc)]
      exact shadows_retainOnly (shadows_scanLoop config c.dry ih c.targets).1 _

theorem forall₂_turnsAt (cycles : List PreviewPass) (n : Nat) :
    List.Forall₂ Previewed (turnsAt (live config) (plain cycles) n)
      (turnsAt (dry config) (plain cycles) n) := by
  cases hc : cycles[n]? with
  | none =>
    rw [turnsAt_of_none _ (plain_of_none hc), turnsAt_of_none _ (plain_of_none hc)]
    exact .nil
  | some c =>
    rw [turnsAt_of_some _ (plain_of_some hc), turnsAt_of_some _ (plain_of_some hc)]
    exact (shadows_scanLoop config c.dry (shadows_trackerAt config cycles n) c.targets).2

/-- A flag goes back to a call in an earlier cycle. -/
theorem called_of_isCompressed {passes : List Pass} {n : Nat} {p : UInt32}
    (h : (trackerAt config passes n).isCompressed p = true) :
    ∃ m < n, Called config passes p m := by
  induction n with
  | zero => cases h
  | succ n ih =>
    have hearlier : (trackerAt config passes n).isCompressed p = true →
        ∃ m < n + 1, Called config passes p m := by
      intro hbefore
      obtain ⟨m, hm, hcalled⟩ := ih hbefore
      exact ⟨m, by omega, hcalled⟩
    cases hc : passes[n]? with
    | none =>
      rw [trackerAt_succ_of_none _ hc] at h
      exact hearlier h
    | some c =>
      rw [trackerAt_succ _ hc, CpuTracker.isCompressed_eq, CpuTracker.view_retainOnly] at h
      split at h
      · rcases origin_of_scanLoop config c.env h with hbefore | hturn
        · exact hearlier hbefore
        · obtain ⟨turn, hmem, hturn⟩ := hturn
          rw [← turnsAt_of_some config hc] at hmem
          exact ⟨n, by omega, turn, hmem, hturn⟩
      · cases h

/-- A set flag in a turn goes back to a call so far. -/
theorem called_of_flag {passes : List Pass} {n : Nat} {turn : Turn}
    (hmem : turn ∈ turnsAt config passes n) (hflag : turn.flag = true) :
    ∃ m < n + 1, Called config passes turn.tab.pid m := by
  cases hc : passes[n]? with
  | none =>
    rw [turnsAt_of_none _ hc] at hmem
    cases hmem
  | some c =>
    rw [turnsAt_of_some _ hc] at hmem
    rcases origin_of_turn config c.env hmem hflag with hbefore | hturn
    · obtain ⟨m, hm, hcalled⟩ := called_of_isCompressed config hbefore
      exact ⟨m, by omega, hcalled⟩
    · obtain ⟨turn', hmem', hturn'⟩ := hturn
      rw [← turnsAt_of_some config hc] at hmem'
      exact ⟨n, by omega, turn', hmem', hturn'⟩

/-- With distinct targets a PID has one turn in a cycle. -/
theorem turn_unique {passes : List Pass} {n : Nat}
    (hnodup : ∀ c, passes[n]? = some c → (c.targets.map TargetProcess.pid).Nodup)
    {turn turn' : Turn} (hmem : turn ∈ turnsAt config passes n)
    (hmem' : turn' ∈ turnsAt config passes n) (hpid : turn.tab.pid = turn'.tab.pid) :
    turn = turn' := by
  cases hc : passes[n]? with
  | none =>
    rw [turnsAt_of_none _ hc] at hmem
    cases hmem
  | some c =>
    rw [turnsAt_of_some _ hc] at hmem hmem'
    have hpids : ((turns config c.env c.targets (trackerAt config passes n)).map
        (fun turn => turn.tab.pid)).Nodup := by
      have hmap := hnodup c hc
      rw [← turns_tab config c.env c.targets (trackerAt config passes n), List.map_map] at hmap
      exact hmap
    exact List.inj_on_of_nodup_map hpids hmem hmem' hpid

end Runs

/-! ## The preview -/

section Preview

variable (config : Config) (cycles : List PreviewPass)

theorem exists_right_of_forall₂ {α β : Type} {R : α → β → Prop} {as : List α} {bs : List β}
    (h : List.Forall₂ R as bs) {a : α} (ha : a ∈ as) : ∃ b ∈ bs, R a b := by
  induction h with
  | nil => cases ha
  | cons hr _ ih =>
    rcases List.mem_cons.mp ha with heq | hrest
    · exact ⟨_, List.mem_cons_self, heq ▸ hr⟩
    · obtain ⟨b, hb, hab⟩ := ih hrest
      exact ⟨b, List.mem_cons_of_mem _ hb, hab⟩

theorem called_dry_of_live {p : UInt32} {n : Nat}
    (h : Called (live config) (plain cycles) p n) : Called (dry config) (plain cycles) p n := by
  obtain ⟨l, hl, hpid, hcalls⟩ := h
  obtain ⟨d, hd, htab, hiff⟩ := exists_right_of_forall₂ (forall₂_turnsAt config cycles n) hl
  exact ⟨d, hd, htab ▸ hpid, (hiff.mp hcalls).1⟩

/-- A turn in which the dry run calls `compress_pid`, in the live run. -/
theorem exists_live_turn {p : UInt32} {n : Nat} (h : Called (dry config) (plain cycles) p n) :
    ∃ l ∈ turnsAt (live config) (plain cycles) n, l.tab.pid = p ∧
      (l.flag = false → l.action.callsCompressPid = true) := by
  obtain ⟨d, hd, hpid, hcalls⟩ := h
  obtain ⟨l, hl, htab, hiff⟩ :=
    exists_right_of_forall₂ (forall₂_turnsAt config cycles n).flip hd
  exact ⟨l, hl, by rw [htab, hpid], fun hflag => hiff.mpr ⟨hcalls, hflag⟩⟩

/-- Both runs have selected the same PIDs after any number of cycles. -/
theorem called_before_iff (p : UInt32) (n : Nat) :
    (∃ m < n, Called (live config) (plain cycles) p m) ↔
      ∃ m < n, Called (dry config) (plain cycles) p m := by
  constructor
  · intro h
    obtain ⟨m, hm, hcalled⟩ := h
    exact ⟨m, hm, called_dry_of_live config cycles hcalled⟩
  · intro h
    obtain ⟨m, hm, hcalled⟩ := h
    obtain ⟨l, hl, rfl, hcalls⟩ := exists_live_turn config cycles hcalled
    cases hflag : l.flag with
    | false => exact ⟨m, hm, l, hl, rfl, hcalls hflag⟩
    | true =>
      obtain ⟨k, hk, hearlier⟩ := called_of_flag (live config) hl hflag
      exact ⟨k, by omega, hearlier⟩

theorem firstCalled_iff_before (config : Config) (passes : List Pass) (p : UInt32) (n : Nat) :
    FirstCalled config passes p n ↔
      (∃ m < n + 1, Called config passes p m) ∧ ¬ ∃ m < n, Called config passes p m := by
  constructor
  · intro h
    refine ⟨⟨n, by omega, h.1⟩, ?_⟩
    intro hbefore
    obtain ⟨m, hm, hcalled⟩ := hbefore
    exact h.2 m hm hcalled
  · intro h
    obtain ⟨m, hm, hcalled⟩ := h.1
    have hnone : ∀ k < n, ¬ Called config passes p k := fun k hk hk' => h.2 ⟨k, hk, hk'⟩
    have hmn : m = n := by
      by_contra hne
      exact hnone m (by omega) hcalled
    rw [hmn] at hcalled
    exact ⟨hcalled, hnone⟩

theorem firstCalled_iff (p : UInt32) (n : Nat) :
    FirstCalled (live config) (plain cycles) p n ↔ FirstCalled (dry config) (plain cycles) p n := by
  rw [firstCalled_iff_before, firstCalled_iff_before, called_before_iff, called_before_iff]

theorem called_live_iff {n : Nat}
    (hnodup : ∀ c, cycles[n]? = some c → (c.targets.map TargetProcess.pid).Nodup) (p : UInt32) :
    Called (live config) (plain cycles) p n ↔
      Called (dry config) (plain cycles) p n ∧ ¬ Flagged (live config) (plain cycles) p n := by
  constructor
  · intro h
    refine ⟨called_dry_of_live config cycles h, ?_⟩
    intro hflagged
    obtain ⟨l, hl, hpid, hcalls⟩ := h
    obtain ⟨l', hl', hpid', hflag⟩ := hflagged
    obtain ⟨d, _, _, hiff⟩ := exists_right_of_forall₂ (forall₂_turnsAt config cycles n) hl
    have hplain : ∀ c, (plain cycles)[n]? = some c → (c.targets.map TargetProcess.pid).Nodup := by
      intro c hc
      rw [getElem?_plain] at hc
      obtain ⟨preview, hpreview, rfl⟩ := Option.map_eq_some_iff.mp hc
      exact hnodup preview hpreview
    have hsame := turn_unique (live config) hplain hl hl' (hpid.trans hpid'.symm)
    rw [← hsame, (hiff.mp hcalls).2] at hflag
    cases hflag
  · intro h
    obtain ⟨l, hl, hpid, hcalls⟩ := exists_live_turn config cycles h.1
    refine ⟨l, hl, hpid, hcalls ?_⟩
    cases hflag : l.flag with
    | false => rfl
    | true => exact absurd ⟨l, hl, hpid, hflag⟩ h.2

theorem dry_run_previews (n : Nat) : Preview config cycles n where
  log := fun config' => turnsAt_log config' (plain cycles) n
  snapshots := Std.ExtTreeMap.ext_getElem? fun p => (shadows_trackerAt config cycles n p).snapshot
  idleCycles := Std.ExtTreeMap.ext_getElem? fun p => (shadows_trackerAt config cycles n p).idle
  unflagged := Std.ExtTreeMap.ext_getElem? fun p => by
    rw [Std.ExtTreeMap.getElem?_empty]
    exact (shadows_trackerAt config cycles n p).unflagged
  turns := forall₂_turnsAt config cycles n
  calls := called_live_iff config cycles
  firstCall := fun p => firstCalled_iff config cycles p n

end Preview

/-- A process that is always idle, and of which a live call pages one page out. -/
def idlePass : PreviewPass where
  targets := [{ pid := 7, profile := "firefox" }]
  env :=
    { snapshot := fun _ => some (100, 0)
      rssMib := fun _ => 100
      profileVeto := fun _ _ => none
      compressPid := compressPid onePageInputs }
  inputs := fun _ => onePageInputs
  dry := fun _ => rfl

/-- Compresses after one idle cycle. -/
def hasty : Config := { idleCyclesThreshold := 1 }

def idleRun : List PreviewPass := List.replicate 3 idlePass

/-- The first call is in the second cycle of both runs.  In the third one the dry run calls
again, and in the live run the flag is set. -/
theorem dry_run_previews_third_cycle :
    Called (dry hasty) (plain idleRun) 7 2 ∧ Flagged (live hasty) (plain idleRun) 7 2 ∧
      ¬ Called (live hasty) (plain idleRun) 7 2 ∧
      FirstCalled (live hasty) (plain idleRun) 7 1 := by
  have hcalled : Called (dry hasty) (plain idleRun) 7 2 := by decide +kernel
  have hflagged : Flagged (live hasty) (plain idleRun) 7 2 := by decide +kernel
  have hfirst : FirstCalled (dry hasty) (plain idleRun) 7 1 := by decide +kernel
  have hnodup : ∀ c, idleRun[2]? = some c → (c.targets.map TargetProcess.pid).Nodup := by
    intro c hc
    cases hc
    exact List.nodup_singleton _
  refine ⟨hcalled, hflagged, fun hlive => ?_,
    ((dry_run_previews hasty idleRun 1).firstCall 7).mpr hfirst⟩
  exact (((dry_run_previews hasty idleRun 2).calls hnodup 7).mp hlive).2 hflagged

end BsslRam.DryRun
