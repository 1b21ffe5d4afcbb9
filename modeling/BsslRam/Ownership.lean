import BsslRam.ScanHistory
import BsslRam.TableSync

/-!
# Whose processes are paged out

`SECURITY.md` says that the daemon never targets a PID whose effective UID
differs from its own.  Here `/proc` has the owner of each process beside its
command line, and changes arbitrarily between any two reads.  Targets come from
a walk of `/proc` in each cycle, or from the process table, which is seeded once
and then fed by events and by the drift correction.

`History` is what the daemon reads of `/proc` on either path, together with the
processes that are there when `compress_pid` is called.  No function on the way
from a command line to the system call reads the owner.  So a process of another
user is paged out as soon as discovery lists its PID for long enough, and
`madvises_own_iff` says that this is the only condition.
-/

namespace BsslRam.Ownership

open BsslRam.Lib BsslRam.Scanner BsslRam.State BsslRam.Compressor BsslRam.ScanCycle
open BsslRam.ScanHistory BsslRam.ProcessTable BsslRam.TableSync

/-! ## Discovery -/

/-- A process as `/proc` shows it. -/
structure Proc where
  euid : UInt32
  cmdline : List UInt8

/-- The live processes, by PID. -/
abbrev World := Map UInt32 Proc

/-- The part of `/proc` that discovery reads. -/
def procFs (w : World) : ProcFs := w.map (fun _ proc => proc.cmdline)

/-- What happens to the process table between two cycles, in the two threads that
write it.  A step that reads `/proc` has the processes of that moment. -/
inductive TableOp where
  -- the reader thread: take an event and classify, then write
  | receive (event : ProcEvent) (w : World)
  | write
  -- `reseed_drift_correction`
  | list (w : World)
  | copyKeys
  | classify (pid : UInt32) (w : World)
  | commit

/-- The table and what its two writers hold in their hands. -/
structure TableState where
  table : Table := ∅
  inflight : Inflight := none
  reseed : Reseed := .idle

/-- `apply_event` up to its write.  A fork writes nothing. -/
def readEvent (profiles : List BrowserProfile) (w : World) : ProcEvent → Inflight
  | .fork _ _ => none
  | .exec pid => some (pid, classifyPid profiles (procFs w) pid)
  | .exit pid => some (pid, none)

/-- One step.  A step whose turn it is not does nothing. -/
def TableState.apply (profiles : List BrowserProfile) (s : TableState) : TableOp → TableState
  | .receive event w =>
      match s.inflight with
      | none => { s with inflight := readEvent profiles w event }
      | some _ => s
  | .write =>
      match s.inflight with
      | none => s
      | some (pid, record) => { s with table := writeEvent s.table pid record, inflight := none }
  | .list w =>
      match s.reseed with
      | .idle => { s with reseed := .listed w.keys }
      | _ => s
  | .copyKeys =>
      match s.reseed with
      | .listed livePids =>
          { s with
            reseed := .classifying (s.table.keys.filter (fun p => !livePids.contains p))
              (livePids.filter (fun p => !s.table.contains p)) [] }
      | _ => s
  | .classify pid w =>
      match s.reseed with
      | .classifying phantoms candidates newRecords =>
          if pid ∈ candidates then
            let record := classifyPid profiles (procFs w) pid
            { s with
              reseed := .classifying phantoms (candidates.erase pid)
                (newRecords ++ (record.map (fun r => (pid, r))).toList) }
          else s
      | _ => s
  | .commit =>
      match s.reseed with
      | .classifying phantoms [] newRecords =>
          { s with table := (commitReseed s.table phantoms newRecords).1, reseed := .idle }
      | _ => s

/-- `seed_from_proc`, with the processes at the moment of each read. -/
def seeded (profiles : List BrowserProfile) (reads : List (UInt32 × World)) : TableState where
  table := reads.foldl (fun table read => seedEntry profiles (procFs read.2) table read.1) ∅

/-- One cycle: the steps of the table since the last one, what a walk reads, and
the processes when `compress_pid` is called.  The walk and the calls meet each PID
once, so their maps have each process as it is at that moment. -/
structure Moment where
  ops : List TableOp
  walk : World
  calls : World

/-- What the daemon meets in a run.  Without a seed there is no process table. -/
structure History where
  seed : Option (List (UInt32 × World))
  moments : List Moment

/-- `collect_targets`. -/
def collectTargets (config : Config) (table : Option TableState) (walk : World) :
    List TargetProcess :=
  match table with
  | some s => liveTargets s.table
  | none => scanTargets config.profiles (procFs walk)

namespace History

variable (config : Config) (h : History)

/-- The process table in cycle `n`. -/
def tableAt (n : Nat) : Option TableState :=
  h.seed.map (fun reads =>
    ((h.moments.take (n + 1)).flatMap Moment.ops).foldl (TableState.apply config.profiles)
      (seeded config.profiles reads))

/-- The targets of cycle `n`. -/
def targetsAt (n : Nat) : List TargetProcess :=
  match h.moments[n]? with
  | some moment => collectTargets config (h.tableAt config n) moment.walk
  | none => []

/-- Discovery lists `p` in cycle `n` and in the cycles before it that the idle
threshold asks for. -/
def ListedThrough (p : UInt32) (n : Nat) : Prop :=
  max 1 config.idleCyclesThreshold.toNat ≤ n ∧
    ∀ k, n ≤ k + max 1 config.idleCyclesThreshold.toNat → k ≤ n →
      p ∈ (h.targetsAt config k).map TargetProcess.pid

end History

/-- The process under `p`, if there is one, belongs to the user. -/
def OwnedBy (euid : UInt32) (w : World) (p : UInt32) : Prop :=
  ∀ proc, w[p]? = some proc → proc.euid = euid

/-! ## Runs over a history -/

/-- `compress_pid` gets to its first `process_madvise`. -/
def issuesMadvise (inputs : CompressInputs) (pid : UInt32) (dryRun : Bool) : Bool :=
  match compressPid inputs pid dryRun with
  | .ok outcome => decide (0 < outcome.batches)
  | .error _ => false

/-- Scan cycles with the targets of the history.  The snapshots, the RSS, the vetoes
and what the kernel answers to `compress_pid` are arbitrary. -/
def RunOf (config : Config) (h : History) (cycles : List RealCycle) : Prop :=
  cycles.length = h.moments.length ∧
    ∀ n c, cycles[n]? = some c → c.targets = h.targetsAt config n

/-- `process_madvise` is issued on `p` in cycle `n`. -/
def Madvises (config : Config) (cycles : List RealCycle) (p : UInt32) (n : Nat) : Prop :=
  Called config (cycles.map RealCycle.toCycle) p n ∧
    ∃ c, cycles[n]? = some c ∧ issuesMadvise (c.inputs p) p config.dryRun = true

theorem not_issuesMadvise_dryRun (inputs : CompressInputs) (pid : UInt32) :
    issuesMadvise inputs pid true = false := by
  unfold issuesMadvise
  cases hread : readAnonymousRegions inputs pid with
  | error e => rw [compressPid_of_read_error hread]
  | ok regions =>
    rw [compressPid_eq_preview hread]
    rfl

theorem issuesMadvise_onePage (pid : UInt32) : issuesMadvise onePageInputs pid false = true := by
  unfold issuesMadvise
  rw [compressPid_eq_adviseRegions (read_onePageInputs pid) rfl]
  show decide (0 < (adviseRegions onePageInputs.madvise [(0x1000, 0x1000)]).batches) = true
  decide

theorem nodup_collectTargets (config : Config) (table : Option TableState) (walk : World) :
    ((collectTargets config table walk).map TargetProcess.pid).Nodup := by
  cases table with
  | some s =>
    apply Map.nodup_keys_filterMap
    intro entry tab htab
    obtain ⟨profile, _, rfl⟩ := Option.map_eq_some_iff.mp htab
    rfl
  | none =>
    apply Map.nodup_keys_filterMap
    intro entry tab htab
    obtain ⟨profile, _, rfl⟩ := Option.map_eq_some_iff.mp htab
    rfl

theorem nodup_targetsAt (config : Config) (h : History) (n : Nat) :
    ((h.targetsAt config n).map TargetProcess.pid).Nodup := by
  unfold History.targetsAt
  cases h.moments[n]? with
  | some moment => exact nodup_collectTargets config _ _
  | none => exact List.nodup_nil

/-! ## A call needs a target that stays -/

theorem listed_of_observed {cycles : List Cycle} {p : UInt32} {k : Nat} {snap : ProcSnapshot}
    (hobs : observed cycles p k = some snap) :
    ∃ c, cycles[k]? = some c ∧ p ∈ c.targets.map TargetProcess.pid := by
  obtain ⟨c, hc, _⟩ := Option.bind_eq_some_iff.mp hobs
  obtain ⟨tab, htab⟩ := target_of_observed hc hobs
  obtain ⟨hmem, hpid⟩ := Cycle.target?_pid htab
  exact ⟨c, hc, List.mem_map.mpr ⟨tab, hmem, hpid⟩⟩

/-- A PID on which `compress_pid` is called was listed for long enough. -/
theorem listedThrough_of_called {config : Config} {h : History} {cycles : List RealCycle}
    (hrun : RunOf config h cycles) {p : UInt32} {n : Nat}
    (hcalled : Called config (cycles.map RealCycle.toCycle) p n) : h.ListedThrough config p n := by
  obtain ⟨m, hm, ⟨_, starttime, hobs⟩, _⟩ := idle_epoch_of_called hcalled
  refine ⟨by omega, ?_⟩
  intro k hlo hhi
  obtain ⟨snap, hsnap, _⟩ := hobs k (by omega) hhi
  obtain ⟨c, hc, hmem⟩ := listed_of_observed hsnap
  rw [List.getElem?_map] at hc
  obtain ⟨real, hreal, rfl⟩ := Option.map_eq_some_iff.mp hc
  rw [← hrun.2 k real hreal]
  exact hmem

/-- The run in which `p` is seen from cycle `m` on, uses no CPU and has one page. -/
def idleCycle (config : Config) (h : History) (p : UInt32) (m k : Nat) : RealCycle where
  targets := h.targetsAt config k
  env :=
    { snapshot := fun q => if m ≤ k ∧ q = p then some (1, 0) else none
      rssMib := fun _ => u64Max
      profileVeto := fun _ _ => none
      compressPid := fun pid dryRun => compressPid onePageInputs pid dryRun }
  nodup := nodup_targetsAt config h k
  inputs := fun _ => onePageInputs
  real := rfl

def idleRun (config : Config) (h : History) (p : UInt32) (m : Nat) : List RealCycle :=
  (List.range h.moments.length).map (idleCycle config h p m)

section IdleRun

variable {config : Config} {h : History} {p : UInt32} {m k : Nat}

theorem idleRun_get (hk : k < h.moments.length) :
    (idleRun config h p m)[k]? = some (idleCycle config h p m k) := by
  rw [idleRun, List.getElem?_map, List.getElem?_range hk, Option.map_some]

theorem runOf_idleRun : RunOf config h (idleRun config h p m) := by
  have hlen : (idleRun config h p m).length = h.moments.length := by
    rw [idleRun, List.length_map, List.length_range]
  refine ⟨hlen, ?_⟩
  intro n c hc
  have hn := (List.getElem?_eq_some_iff.mp hc).1
  rw [idleRun_get (by omega)] at hc
  cases hc
  rfl

theorem observed_idleRun (hmem : p ∈ (h.targetsAt config k).map TargetProcess.pid) (hmk : m ≤ k)
    (hk : k < h.moments.length) :
    observed ((idleRun config h p m).map RealCycle.toCycle) p k =
      some { pid := p, starttime := 1, cpuNs := 0 } := by
  obtain ⟨tab, htab, rfl⟩ := List.mem_map.mp hmem
  have htarget : (idleCycle config h tab.pid m k).target? tab.pid = some tab :=
    Cycle.target?_of_mem htab
  rw [observed, List.getElem?_map, idleRun_get hk]
  show snapshotOf (idleCycle config h tab.pid m k).toCycle tab.pid = _
  rw [snapshotOf, htarget]
  show Option.map _ (if m ≤ k ∧ tab.pid = tab.pid then some (1, 0) else none) = _
  rw [if_pos ⟨hmk, rfl⟩]
  rfl

theorem not_observed_idleRun (hkm : k < m) :
    observed ((idleRun config h p m).map RealCycle.toCycle) p k = none := by
  rw [observed, List.getElem?_map]
  cases hget : (idleRun config h p m)[k]? with
  | none => rfl
  | some c =>
    have hk : k < h.moments.length := by
      have hlen := (List.getElem?_eq_some_iff.mp hget).1
      rw [idleRun, List.length_map, List.length_range] at hlen
      exact hlen
    rw [idleRun_get hk] at hget
    cases hget
    show ((idleCycle config h p m k).target? p).bind
      (fun _ => (if m ≤ k ∧ p = p then some (1, 0) else none).map _) = none
    rw [if_neg (fun hand => absurd hand.1 (by omega))]
    cases (idleCycle config h p m k).target? p <;> rfl

/-- A PID that is listed for long enough can be paged out. -/
theorem madvises_idleRun {n : Nat} (hdry : config.dryRun = false) (hn : n < h.moments.length)
    (hlisted : h.ListedThrough config p n) :
    Madvises config (idleRun config h p (n - max 1 config.idleCyclesThreshold.toNat)) p n := by
  obtain ⟨hle, hall⟩ := hlisted
  obtain ⟨m, hm⟩ : ∃ m, m + max 1 config.idleCyclesThreshold.toNat = n :=
    ⟨n - max 1 config.idleCyclesThreshold.toNat, by omega⟩
  rw [show n - max 1 config.idleCyclesThreshold.toNat = m by omega]
  have hget := @idleRun_get config h p m n hn
  constructor
  · rw [← hm]
    apply called_of_flat config
    · intro k hlo hhi
      exact observed_idleRun (hall k (by omega) (by omega)) hlo (by omega)
    · intro hpos
      exact not_observed_idleRun (by omega)
    · rw [hm, List.getElem?_map, hget, Option.map_some]
    · exact le_u64Max _
    · intro tab _
      rfl
  · refine ⟨_, hget, ?_⟩
    rw [hdry]
    exact issuesMadvise_onePage p

end IdleRun

/-! ## The owner -/

/-- Over every history of `/proc`: `process_madvise` is issued on processes of the
daemon's own user alone, in all environments, exactly when the daemon is in dry
run, or no process of another user is under a PID that discovery has listed in the
last `max 1 idle_cycles_threshold + 1` cycles. -/
theorem madvises_own_iff (config : Config) (euid : UInt32) (h : History) :
    (∀ cycles, RunOf config h cycles → ∀ p n moment, h.moments[n]? = some moment →
        Madvises config cycles p n → OwnedBy euid moment.calls p) ↔
      config.dryRun = true ∨ ∀ p n moment, h.moments[n]? = some moment →
        h.ListedThrough config p n → OwnedBy euid moment.calls p := by
  constructor
  · intro hown
    cases hdry : config.dryRun with
    | true => exact Or.inl rfl
    | false =>
      right
      intro p n moment hmoment hlisted
      have hn := (List.getElem?_eq_some_iff.mp hmoment).1
      exact hown _ runOf_idleRun p n moment hmoment (madvises_idleRun hdry hn hlisted)
  · intro hcond cycles hrun p n moment hmoment hmadvises
    obtain ⟨hcalled, c, _, hissues⟩ := hmadvises
    rcases hcond with hdry | howned
    · rw [hdry, not_issuesMadvise_dryRun] at hissues
      cases hissues
    · exact howned p n moment hmoment (listedThrough_of_called hrun hcalled)

/-- A Firefox tab of user 1001. -/
def foreignTab : World :=
  Std.ExtTreeMap.insert ∅ 7
    { euid := 1001, cmdline := "/usr/lib/firefox/firefox -isForBrowser tab".toUTF8.toList }

/-- The tab is there all the time, and the daemon walks `/proc`. -/
def foreignHistory : History where
  seed := none
  moments := List.replicate 4 ⟨[], foreignTab, foreignTab⟩

/-- The default configuration, run by user 1000: the tab of user 1001 is paged out
in the fourth cycle. -/
theorem foreign_tab_paged_out :
    ∃ cycles, RunOf {} foreignHistory cycles ∧ Madvises {} cycles 7 3 ∧
      ¬ OwnedBy 1000 foreignTab 7 := by
  refine ⟨_, runOf_idleRun, madvises_idleRun rfl (by decide) ⟨by decide, ?_⟩, ?_⟩
  · intro k _ hk
    have hmoment : foreignHistory.moments[k]? = some ⟨[], foreignTab, foreignTab⟩ := by
      rw [foreignHistory, List.getElem?_replicate, if_pos (by omega)]
    have htargets : foreignHistory.targetsAt {} k =
        scanTargets defaultProfiles (procFs foreignTab) := by
      rw [History.targetsAt, hmoment]
      rfl
    rw [htargets]
    decide +kernel
  · intro howned
    have hproc : (foreignTab[(7 : UInt32)]?).map Proc.euid = some 1001 := by decide +kernel
    obtain ⟨proc, hget, heuid⟩ := Option.map_eq_some_iff.mp hproc
    rw [howned proc hget] at heuid
    exact absurd heuid (by decide)

end BsslRam.Ownership
