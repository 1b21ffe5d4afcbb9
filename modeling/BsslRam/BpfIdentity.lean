import BsslRam.BpfTracker

/-!
# The start time as the identity of a process

The BPF tracker hands the daemon a start time with every snapshot, and
`CpuTracker::update` takes a change of it under one PID as the sign that
another process has the PID now.  The start time comes from `task_birth`, which
is written when there is no entry and deleted by `forget` alone.  The scan calls
`forget` only when a lookup has failed already.

So the first snapshot of a PID fixes its start time for good.  From then on
both lookups succeed, `forget` is never reached for the PID again, and the
program never overwrites a birth.  `Inv.kept` is this fact, and the rest
follows from it.  The snapshots of a PID tell its processes apart only as long
as there is one process to tell, so a process that was sampled must not exit before
the next scan.  And a snapshot is of a live process only if nobody has given the PID up
since its entries were made (`snapshots_identify_iff`).
-/

namespace BsslRam.BpfIdentity

open BsslRam.Lib BsslRam.Scanner BsslRam.State BsslRam.ScanCycle BsslRam.PageOut
open BsslRam.BpfTracker

/-! ## What the nonce is for -/

/-- The last snapshot of a PID. -/
def lastSnapshot (p : UInt32) : List Occurrence → Option Taken
  | [] => none
  | .snapshot t :: older => if t.pid = p then some t else lastSnapshot p older
  | _ :: older => lastSnapshot p older

/-- Snapshots are of live processes, they tell the processes of a PID apart, and
the tracker never carries the entries of one process over to another. -/
structure Identifies (history : List Occurrence) : Prop where
  live : ∀ t, .snapshot t ∈ history → t.owner.isSome = true
  nonce : ∀ t u, .snapshot t ∈ history → .snapshot u ∈ history → t.pid = u.pid →
    (t.starttime = u.starttime ↔ t.owner = u.owner)
  fresh : ∀ t older, .snapshot t :: older <:+ history → t.carried ≠ PidView.empty →
    (lastSnapshot t.pid older).map Taken.owner = some t.owner

/-- The process that had the PID at a snapshot has exited since. -/
def Orphaned (p : UInt32) (history : List Occurrence) : Prop :=
  ∃ older, .exited p :: older <:+ history ∧ ∃ t, .snapshot t ∈ older ∧ t.pid = p

/-- A process of the PID has exited, and no other one has got the PID since. -/
def Vacated (p : UInt32) : List Occurrence → Prop
  | [] => False
  | .exited q :: older => q = p ∨ Vacated p older
  | .spawned q _ :: older => q ≠ p ∧ Vacated p older
  | _ :: older => Vacated p older

/-- No exit comes between the entries that a scan finds and the scan: the PID was not given up,
and its process has not exited since an earlier snapshot. -/
def FindsOwn (s : Sys) : Event → Prop
  | .scan tab _ =>
      (s.maps.runtimeNs tab.pid).isSome = true → (s.maps.starttimeNs tab.pid).isSome = true →
        ¬ Vacated tab.pid s.history ∧ ¬ Orphaned tab.pid s.history
  | _ => True

@[simp] theorem not_orphaned_nil (p : UInt32) : ¬ Orphaned p [] := by
  intro h
  obtain ⟨older, hsuffix, _⟩ := h
  exact absurd (List.suffix_nil.mp hsuffix) (by simp)

theorem orphaned_cons {p : UInt32} {o : Occurrence} {history : List Occurrence} :
    Orphaned p (o :: history) ↔
      (o = .exited p ∧ ∃ t, .snapshot t ∈ history ∧ t.pid = p) ∨ Orphaned p history := by
  constructor
  · intro h
    obtain ⟨older, hsuffix, hsampled⟩ := h
    rcases List.suffix_cons_iff.mp hsuffix with heq | hrest
    · cases heq
      exact Or.inl ⟨rfl, hsampled⟩
    · exact Or.inr ⟨older, hrest, hsampled⟩
  · intro h
    rcases h with h | h
    · obtain ⟨rfl, hsampled⟩ := h
      exact ⟨history, List.suffix_refl _, hsampled⟩
    · obtain ⟨older, hrest, hsampled⟩ := h
      exact ⟨older, List.suffix_cons_iff.mpr (Or.inr hrest), hsampled⟩

theorem lastSnapshot_isSome {p : UInt32} {history : List Occurrence}
    (h : ∃ t, .snapshot t ∈ history ∧ t.pid = p) :
    ∃ u, lastSnapshot p history = some u ∧ .snapshot u ∈ history ∧ u.pid = p := by
  obtain ⟨t, hmem, hpid⟩ := h
  induction history with
  | nil => cases hmem
  | cons o older ih =>
    have hlift : (∃ u, lastSnapshot p older = some u ∧ .snapshot u ∈ older ∧ u.pid = p) →
        ∃ u, lastSnapshot p older = some u ∧ .snapshot u ∈ o :: older ∧ u.pid = p := by
      intro hu
      obtain ⟨u, hlast, hu, hpid⟩ := hu
      exact ⟨u, hlast, List.mem_cons_of_mem _ hu, hpid⟩
    cases o with
    | snapshot u =>
      by_cases hu : u.pid = p
      · exact ⟨u, by rw [lastSnapshot, if_pos hu], List.mem_cons_self, hu⟩
      · have hne : Occurrence.snapshot t ≠ .snapshot u := by
          intro heq
          cases heq
          exact hu hpid
        have holder := (List.mem_cons.mp hmem).resolve_left hne
        rw [lastSnapshot, if_neg hu]
        exact hlift (ih holder)
    | spawned q st => exact hlift (ih ((List.mem_cons.mp hmem).resolve_left (by simp)))
    | exited q => exact hlift (ih ((List.mem_cons.mp hmem).resolve_left (by simp)))
    | switched prev next => exact hlift (ih ((List.mem_cons.mp hmem).resolve_left (by simp)))
    | forgotten q => exact hlift (ih ((List.mem_cons.mp hmem).resolve_left (by simp)))

/-- An occurrence that is no snapshot changes nothing. -/
theorem identifies_cons_other {o : Occurrence} {history : List Occurrence}
    (ho : ∀ t, o ≠ .snapshot t) : Identifies (o :: history) ↔ Identifies history := by
  have hmem : ∀ t, .snapshot t ∈ o :: history ↔ .snapshot t ∈ history := by
    intro t
    rw [List.mem_cons]
    exact or_iff_right (Ne.symm (ho t))
  have hsuffix : ∀ t older, .snapshot t :: older <:+ o :: history ↔
      .snapshot t :: older <:+ history := by
    intro t older
    rw [List.suffix_cons_iff]
    refine or_iff_right ?_
    intro heq
    exact ho t (List.cons.inj heq).1.symm
  constructor
  · intro h
    exact ⟨fun t ht => h.live t ((hmem t).mpr ht),
      fun t u ht hu => h.nonce t u ((hmem t).mpr ht) ((hmem u).mpr hu),
      fun t older ht => h.fresh t older ((hsuffix t older).mpr ht)⟩
  · intro h
    exact ⟨fun t ht => h.live t ((hmem t).mp ht),
      fun t u ht hu => h.nonce t u ((hmem t).mp ht) ((hmem u).mp hu),
      fun t older ht => h.fresh t older ((hsuffix t older).mp ht)⟩

/-- A snapshot has to agree with the earlier ones of its PID. -/
theorem identifies_cons_snapshot {t : Taken} {history : List Occurrence}
    (h : Identifies history) :
    Identifies (.snapshot t :: history) ↔
      t.owner.isSome = true ∧
        (∀ u, .snapshot u ∈ history → t.pid = u.pid →
          (t.starttime = u.starttime ↔ t.owner = u.owner)) ∧
        (t.carried ≠ PidView.empty →
          (lastSnapshot t.pid history).map Taken.owner = some t.owner) := by
  constructor
  · intro h'
    exact ⟨h'.live t List.mem_cons_self,
      fun u hu => h'.nonce t u List.mem_cons_self (List.mem_cons_of_mem _ hu),
      h'.fresh t history (List.suffix_refl _)⟩
  · intro h'
    obtain ⟨hlive, hnonce, hfresh⟩ := h'
    refine ⟨?_, ?_, ?_⟩
    · intro u hu
      rcases List.mem_cons.mp hu with heq | hu
      · cases heq
        exact hlive
      · exact h.live u hu
    · intro u v hu hv hpid
      rcases List.mem_cons.mp hu with heq | hu
      · cases heq
        rcases List.mem_cons.mp hv with heq | hv
        · cases heq
          exact Iff.intro (fun _ => rfl) (fun _ => rfl)
        · exact hnonce v hv hpid
      · rcases List.mem_cons.mp hv with heq | hv
        · cases heq
          have hflip := hnonce u hu hpid.symm
          rw [eq_comm, hflip, eq_comm]
        · exact h.nonce u v hu hv hpid
    · intro u older hsuffix
      rcases List.suffix_cons_iff.mp hsuffix with heq | hrest
      · cases heq
        exact hfresh
      · exact h.fresh u older hrest

/-! ## One scan -/

section Scan

variable {config : Config} {s : Sys} {tab : TargetProcess} {env : CycleEnv}

theorem scan_of_none (h : s.maps.buildSnapshot tab.pid = none) :
    s.scan config tab env =
      { s with
        tracker := s.tracker.remove tab.pid
        seen := tab.pid :: s.seen
        maps := s.maps.forget tab.pid
        history := .forgotten tab.pid :: s.history } := by
  simp [Sys.scan, h, scanTarget]

theorem scan_history_of_some {snap : ProcSnapshot} (h : s.maps.buildSnapshot tab.pid = some snap) :
    (s.scan config tab env).history =
      .snapshot
        { pid := tab.pid
          starttime := snap.starttime
          owner := s.kernel.procs tab.pid
          carried := (s.tracker.view tab.pid).guardReuse snap } :: s.history := by
  simp [Sys.scan, h]

theorem scan_kernel : (s.scan config tab env).kernel = s.kernel := by
  unfold Sys.scan
  cases s.maps.buildSnapshot tab.pid <;> rfl

theorem scan_maps_of_some {snap : ProcSnapshot} (h : s.maps.buildSnapshot tab.pid = some snap) :
    (s.scan config tab env).maps = s.maps := by
  simp [Sys.scan, h]

theorem scan_view_other {p : UInt32} (hp : tab.pid ≠ p) :
    (s.scan config tab env).tracker.view p = s.tracker.view p := by
  unfold Sys.scan
  cases s.maps.buildSnapshot tab.pid with
  | none => exact scanTarget_other config _ s.tracker hp
  | some snap => exact scanTarget_other config _ s.tracker hp

end Scan

/-! ## What every run keeps -/

/-- The invariant of all runs. -/
structure Inv (s : Sys) : Prop where
  /-- The entries of a PID that was sampled stay, and the birth among them is the
  start time of all its snapshots. -/
  kept : ∀ t, .snapshot t ∈ s.history →
    (s.maps.runtimeNs t.pid).isSome = true ∧ s.maps.starttimeNs t.pid = some t.starttime
  tracked : ∀ p, s.tracker.view p ≠ PidView.empty → ∃ t, .snapshot t ∈ s.history ∧ t.pid = p
  used : ∀ t st, .snapshot t ∈ s.history → t.owner = some st → s.kernel.used t.pid st
  same : ∀ t st, .snapshot t ∈ s.history → t.owner = some st → ¬ Orphaned t.pid s.history →
    s.kernel.procs t.pid = some st
  replaced : ∀ p, Orphaned p s.history → ∃ t, .snapshot t ∈ s.history ∧ t.pid = p ∧
    ∀ st, t.owner = some st → s.kernel.procs p ≠ some st
  /-- A birth was written for a process of the PID. -/
  born : ∀ p, (s.maps.starttimeNs p).isSome = true →
    (s.kernel.procs p).isSome = true ∨ Vacated p s.history
  vacated : ∀ p, Vacated p s.history → s.kernel.procs p = none

/-- A PID with a birth is in use unless it was given up. -/
theorem Inv.live_iff {s : Sys} (h : Inv s) {p : UInt32}
    (hbirth : (s.maps.starttimeNs p).isSome = true) :
    (s.kernel.procs p).isSome = true ↔ ¬ Vacated p s.history := by
  constructor
  · intro hlive hvacated
    rw [h.vacated p hvacated] at hlive
    cases hlive
  · exact (h.born p hbirth).resolve_right

/-- The program never changes a birth and never drops a runtime. -/
theorem kept_handleSchedSwitch {m : Maps} {p : UInt32} {birth : UInt64}
    (hruntime : (m.runtimeNs p).isSome = true) (hbirth : m.starttimeNs p = some birth)
    (now : UInt64) (prev next : Task) :
    ((m.handleSchedSwitch now prev next).runtimeNs p).isSome = true ∧
      (m.handleSchedSwitch now prev next).starttimeNs p = some birth := by
  unfold Maps.runtimeNs Maps.starttimeNs at *
  rw [Maps.handleSchedSwitch_taskRuntime, Maps.handleSchedSwitch_taskBirth]
  constructor
  · split
    · split
      · rfl
      · exact hruntime
    · exact hruntime
  · split
    · rw [hbirth]
      rfl
    · exact hbirth

/-- Every birth that it writes is that of a task which runs. -/
theorem born_handleSchedSwitch {s : Sys} {now : UInt64} {prev next : Task} {p : UInt32}
    (hnext : s.Runnable next)
    (h : ((s.maps.handleSchedSwitch now prev next).starttimeNs p).isSome = true) :
    (s.maps.starttimeNs p).isSome = true ∨ (s.kernel.procs p).isSome = true := by
  unfold Maps.starttimeNs at h ⊢
  rw [Maps.handleSchedSwitch_taskBirth] at h
  split at h
  · rename_i hin
    right
    rcases hnext with hidle | ⟨st, hlive, -⟩
    · exact absurd (hin.1.symm.trans hidle) hin.2.1
    · rw [← hin.1, hlive]
      rfl
  · exact Or.inl h

theorem inv_initial {s : Sys} (h : s.Initial) : Inv s := by
  obtain ⟨hmaps, htracker, _, hhistory⟩ := h
  have hnone : ∀ t, ¬ .snapshot t ∈ s.history := by
    intro t
    rw [hhistory]
    exact List.not_mem_nil
  refine ⟨fun t ht => absurd ht (hnone t), ?_, fun t _ ht => absurd ht (hnone t),
    fun t _ ht => absurd ht (hnone t), ?_, ?_, ?_⟩
  · intro p hview
    rw [htracker, CpuTracker.view_new] at hview
    exact absurd rfl hview
  · intro p horphan
    rw [hhistory] at horphan
    exact absurd horphan (not_orphaned_nil p)
  · intro p hbirth
    rw [hmaps] at hbirth
    cases hbirth
  · intro p hvacated
    rw [hhistory] at hvacated
    cases hvacated

section Steps

variable {s : Sys}

theorem inv_spawn (h : Inv s) {p : UInt32} {st : UInt64} (hfree : s.kernel.procs p = none)
    (hnew : ¬ s.kernel.used p st) :
    Inv { s with kernel := s.kernel.spawn p st, history := .spawned p st :: s.history } := by
  have hmem : ∀ t, .snapshot t ∈ Occurrence.spawned p st :: s.history ↔
      .snapshot t ∈ s.history := by
    intro t
    simp
  have horphan : ∀ q, Orphaned q (.spawned p st :: s.history) ↔ Orphaned q s.history := by
    intro q
    simp [orphaned_cons]
  refine ⟨?_, ?_, ?_, ?_, ?_, ?_, ?_⟩
  · intro t ht
    exact h.kept t ((hmem t).mp ht)
  · intro q hview
    obtain ⟨t, ht, hpid⟩ := h.tracked q hview
    exact ⟨t, (hmem t).mpr ht, hpid⟩
  · intro t st' ht howner
    exact Or.inl (h.used t st' ((hmem t).mp ht) howner)
  · intro t st' ht howner hnot
    have hlive := h.same t st' ((hmem t).mp ht) howner (fun ho => hnot ((horphan _).mpr ho))
    show (s.kernel.spawn p st).procs t.pid = some st'
    rw [Kernel.procs_spawn, if_neg, hlive]
    intro heq
    rw [heq, hfree] at hlive
    cases hlive
  · intro q ho
    obtain ⟨t, ht, hpid, hne⟩ := h.replaced q ((horphan q).mp ho)
    refine ⟨t, (hmem t).mpr ht, hpid, ?_⟩
    intro st' howner hlive
    rw [Kernel.procs_spawn] at hlive
    split at hlive
    · -- the new start time was never used under the PID
      rename_i heq
      cases hlive
      have hused := h.used t st ht howner
      rw [hpid, heq] at hused
      exact hnew hused
    · exact hne st' howner hlive
  · intro q hbirth
    show ((s.kernel.spawn p st).procs q).isSome = true ∨ p ≠ q ∧ Vacated q s.history
    rw [Kernel.procs_spawn]
    split
    · exact Or.inl rfl
    · rename_i hne
      exact (h.born q hbirth).imp_right (fun hvacated => ⟨Ne.symm hne, hvacated⟩)
  · intro q hvacated
    obtain ⟨hne, hbefore⟩ : p ≠ q ∧ Vacated q s.history := hvacated
    show (s.kernel.spawn p st).procs q = none
    rw [Kernel.procs_spawn, if_neg (Ne.symm hne), h.vacated q hbefore]

theorem inv_exit (h : Inv s) (p : UInt32) :
    Inv { s with kernel := s.kernel.exit p, history := .exited p :: s.history } := by
  have hmem : ∀ t, .snapshot t ∈ Occurrence.exited p :: s.history ↔ .snapshot t ∈ s.history := by
    intro t
    simp
  refine ⟨?_, ?_, ?_, ?_, ?_, ?_, ?_⟩
  · intro t ht
    exact h.kept t ((hmem t).mp ht)
  · intro q hview
    obtain ⟨t, ht, hpid⟩ := h.tracked q hview
    exact ⟨t, (hmem t).mpr ht, hpid⟩
  · intro t st ht howner
    exact h.used t st ((hmem t).mp ht) howner
  · intro t st ht howner hnot
    have ht' := (hmem t).mp ht
    rw [orphaned_cons, not_or] at hnot
    have hlive := h.same t st ht' howner hnot.2
    have hne : t.pid ≠ p := fun heq => hnot.1 ⟨by rw [heq], t, ht', rfl⟩
    show (s.kernel.exit p).procs t.pid = some st
    rw [Kernel.procs_exit, if_neg hne, hlive]
  · intro q ho
    rcases orphaned_cons.mp ho with hq | ho'
    · obtain ⟨heq, t, ht, hpid⟩ := hq
      cases heq
      refine ⟨t, (hmem t).mpr ht, hpid, ?_⟩
      intro st _ hlive
      rw [Kernel.procs_exit, if_pos rfl] at hlive
      cases hlive
    · obtain ⟨t, ht, hpid, hne⟩ := h.replaced q ho'
      refine ⟨t, (hmem t).mpr ht, hpid, ?_⟩
      intro st howner hlive
      rw [Kernel.procs_exit] at hlive
      split at hlive
      · cases hlive
      · exact hne st howner hlive
  · intro q hbirth
    show ((s.kernel.exit p).procs q).isSome = true ∨ p = q ∨ Vacated q s.history
    rw [Kernel.procs_exit]
    split
    · rename_i heq
      exact Or.inr (Or.inl heq.symm)
    · exact (h.born q hbirth).imp_right Or.inr
  · intro q hvacated
    show (s.kernel.exit p).procs q = none
    rw [Kernel.procs_exit]
    split
    · rfl
    · rename_i hne
      rcases hvacated with heq | hbefore
      · exact absurd heq.symm hne
      · exact h.vacated q hbefore

/-- A step that neither takes a snapshot nor moves a process keeps the invariant
if it keeps the entries of the PIDs that were sampled. -/
theorem inv_of_quiet (h : Inv s) {s' : Sys} (hkernel : s'.kernel = s.kernel)
    (hmem : ∀ t, .snapshot t ∈ s'.history ↔ .snapshot t ∈ s.history)
    (horphan : ∀ p, Orphaned p s'.history ↔ Orphaned p s.history)
    (hvacated : ∀ p, Vacated p s'.history ↔ Vacated p s.history)
    (hborn : ∀ p, (s'.maps.starttimeNs p).isSome = true →
      (s.maps.starttimeNs p).isSome = true ∨ (s.kernel.procs p).isSome = true)
    (hkept : ∀ t, .snapshot t ∈ s.history →
      (s'.maps.runtimeNs t.pid).isSome = true ∧ s'.maps.starttimeNs t.pid = some t.starttime)
    (hview : ∀ p, s'.tracker.view p ≠ PidView.empty → s.tracker.view p ≠ PidView.empty) :
    Inv s' := by
  refine ⟨?_, ?_, ?_, ?_, ?_, ?_, ?_⟩
  · intro t ht
    exact hkept t ((hmem t).mp ht)
  · intro p hp
    obtain ⟨t, ht, hpid⟩ := h.tracked p (hview p hp)
    exact ⟨t, (hmem t).mpr ht, hpid⟩
  · intro t st ht howner
    rw [hkernel]
    exact h.used t st ((hmem t).mp ht) howner
  · intro t st ht howner hnot
    rw [hkernel]
    exact h.same t st ((hmem t).mp ht) howner (fun ho => hnot ((horphan _).mpr ho))
  · intro p ho
    obtain ⟨t, ht, hpid, hne⟩ := h.replaced p ((horphan p).mp ho)
    rw [hkernel]
    exact ⟨t, (hmem t).mpr ht, hpid, hne⟩
  · intro p hbirth
    rw [hkernel, hvacated]
    rcases hborn p hbirth with hold | hlive
    · exact h.born p hold
    · exact Or.inl hlive
  · intro p hgone
    rw [hkernel]
    exact h.vacated p ((hvacated p).mp hgone)

theorem inv_switch (h : Inv s) (now : UInt64) (prev : Task) {next : Task}
    (hnext : s.Runnable next) :
    Inv { s with
      maps := s.maps.handleSchedSwitch now prev next
      history := .switched prev next :: s.history } := by
  apply inv_of_quiet h
  · rfl
  · simp
  · simp [orphaned_cons]
  · exact fun _ => Iff.rfl
  · exact fun _ hbirth => born_handleSchedSwitch hnext hbirth
  · intro t ht
    obtain ⟨hruntime, hbirth⟩ := h.kept t ht
    exact kept_handleSchedSwitch hruntime hbirth now prev next
  · intro p hp
    exact hp

theorem inv_endCycle (h : Inv s) :
    Inv { s with tracker := s.tracker.retainOnly s.seen, seen := [] } := by
  apply inv_of_quiet h
  · rfl
  · simp
  · simp
  · exact fun _ => Iff.rfl
  · exact fun _ hbirth => Or.inl hbirth
  · exact h.kept
  · intro p hp
    rw [CpuTracker.view_retainOnly] at hp
    split at hp
    · exact hp
    · exact absurd rfl hp

variable {config : Config} {tab : TargetProcess} {env : CycleEnv}

/-- A scan that fails deletes nothing that a snapshot came from: with both
entries there it would not have failed. -/
theorem inv_scan_of_none (h : Inv s) (hnone : s.maps.buildSnapshot tab.pid = none) :
    Inv (s.scan config tab env) := by
  rw [scan_of_none hnone]
  apply inv_of_quiet h
  · rfl
  · simp
  · simp [orphaned_cons]
  · exact fun _ => Iff.rfl
  · intro p hbirth
    rw [Maps.starttimeNs_forget] at hbirth
    split at hbirth
    · cases hbirth
    · exact Or.inl hbirth
  · intro t ht
    obtain ⟨hruntime, hbirth⟩ := h.kept t ht
    have hne : tab.pid ≠ t.pid := by
      intro heq
      have hsome := (Maps.buildSnapshot_isSome_iff s.maps t.pid).mpr ⟨hruntime, by simp [hbirth]⟩
      rw [← heq, hnone] at hsome
      cases hsome
    show ((s.maps.forget tab.pid).runtimeNs t.pid).isSome = true ∧
      (s.maps.forget tab.pid).starttimeNs t.pid = some t.starttime
    rw [Maps.runtimeNs_forget, Maps.starttimeNs_forget, if_neg hne, if_neg hne]
    exact ⟨hruntime, hbirth⟩
  · intro p hp
    rw [CpuTracker.view_remove] at hp
    split at hp
    · exact absurd rfl hp
    · exact hp

/-- A scan that succeeds adds a snapshot whose start time is the birth in the map. -/
theorem inv_scan_of_some (h : Inv s) {snap : ProcSnapshot}
    (hsome : s.maps.buildSnapshot tab.pid = some snap) : Inv (s.scan config tab env) := by
  obtain ⟨_, hruntime, hbirth⟩ := (Maps.buildSnapshot_eq_some_iff _ _ _).mp hsome
  have hhistory : (s.scan config tab env).history = _ := scan_history_of_some hsome
  have hmaps : (s.scan config tab env).maps = s.maps := scan_maps_of_some hsome
  have hvacated : ∀ p, Vacated p (s.scan config tab env).history ↔ Vacated p s.history := by
    intro p
    rw [hhistory]
    exact Iff.rfl
  refine ⟨?_, ?_, ?_, ?_, ?_, ?_, ?_⟩
  · intro t ht
    rw [hmaps]
    rw [hhistory] at ht
    rcases List.mem_cons.mp ht with heq | ht
    · cases heq
      exact ⟨by simp [hruntime], hbirth⟩
    · exact h.kept t ht
  · intro p hview
    rw [hhistory]
    by_cases hp : tab.pid = p
    · exact ⟨_, List.mem_cons_self, hp⟩
    · rw [scan_view_other hp] at hview
      obtain ⟨t, ht, hpid⟩ := h.tracked p hview
      exact ⟨t, List.mem_cons_of_mem _ ht, hpid⟩
  · intro t st ht howner
    rw [scan_kernel]
    rw [hhistory] at ht
    rcases List.mem_cons.mp ht with heq | ht
    · cases heq
      exact s.kernel.used_of_live _ _ howner
    · exact h.used t st ht howner
  · intro t st ht howner hnot
    rw [scan_kernel]
    rw [hhistory] at ht hnot
    rcases List.mem_cons.mp ht with heq | ht
    · cases heq
      exact howner
    · exact h.same t st ht howner (fun ho => hnot (orphaned_cons.mpr (Or.inr ho)))
  · intro p ho
    rw [scan_kernel]
    rw [hhistory] at ho ⊢
    have ho' : Orphaned p s.history := by simpa [orphaned_cons] using ho
    obtain ⟨t, ht, hpid, hne⟩ := h.replaced p ho'
    exact ⟨t, List.mem_cons_of_mem _ ht, hpid, hne⟩
  · intro p hborn
    rw [hmaps] at hborn
    rw [scan_kernel, hvacated]
    exact h.born p hborn
  · intro p hgone
    rw [scan_kernel]
    exact h.vacated p ((hvacated p).mp hgone)

theorem inv_step (h : Inv s) {e : Event} {s' : Sys} (hstep : Sys.Step config s e s') : Inv s' := by
  cases hstep with
  | spawn hfree hnew => exact inv_spawn h hfree hnew
  | exit hlive => exact inv_exit h _
  | switch hnext => exact inv_switch h _ _ hnext
  | @scan tab env =>
    cases hsnap : s.maps.buildSnapshot tab.pid with
    | none => exact inv_scan_of_none h hsnap
    | some snap => exact inv_scan_of_some h hsnap
  | endCycle => exact inv_endCycle h

end Steps

theorem inv_reachable {config : Config} {ok : Sys → Event → Prop} {s : Sys}
    (hs : (Sys.machine config ok).Reachable s) : Inv s := by
  refine Machine.Reachable.invariant Inv (fun s hinit => inv_initial hinit) ?_ hs
  intro s s' _ hinv hstep
  obtain ⟨e, _, hstep⟩ := hstep
  exact inv_step hinv hstep

/-! ## When the snapshots identify -/

/-- A successful scan is right exactly when it looks at the process that all the
earlier snapshots of the PID were taken of. -/
theorem identifies_scan_iff {config : Config} {s : Sys} {tab : TargetProcess} {env : CycleEnv}
    (h : Inv s) (hident : Identifies s.history) {snap : ProcSnapshot}
    (hsome : s.maps.buildSnapshot tab.pid = some snap) :
    Identifies (s.scan config tab env).history ↔
      (s.kernel.procs tab.pid).isSome = true ∧ ¬ Orphaned tab.pid s.history := by
  obtain ⟨_, _, hbirth⟩ := (Maps.buildSnapshot_eq_some_iff _ _ _).mp hsome
  -- every earlier snapshot of the PID has the start time of this one
  have hstart : ∀ u, .snapshot u ∈ s.history → tab.pid = u.pid → snap.starttime = u.starttime := by
    intro u hu hpid
    have hkept := (h.kept u hu).2
    rw [← hpid, hbirth] at hkept
    exact Option.some.inj hkept
  rw [scan_history_of_some hsome, identifies_cons_snapshot hident]
  constructor
  · intro hnew
    obtain ⟨hlive, hnonce, _⟩ := hnew
    refine ⟨hlive, ?_⟩
    intro horphan
    obtain ⟨t, ht, hpid, hne⟩ := h.replaced tab.pid horphan
    have howner : s.kernel.procs tab.pid = t.owner :=
      (hnonce t ht hpid.symm).mp (hstart t ht hpid.symm)
    obtain ⟨st, hst⟩ := Option.isSome_iff_exists.mp hlive
    have hst' : s.kernel.procs tab.pid = some st := hst
    exact hne st (howner ▸ hst') hst'
  · intro hcond
    obtain ⟨hlive, horphan⟩ := hcond
    have hsame : ∀ u, .snapshot u ∈ s.history → u.pid = tab.pid →
        u.owner = s.kernel.procs tab.pid := by
      intro u hu hpid
      obtain ⟨st, hst⟩ := Option.isSome_iff_exists.mp (hident.live u hu)
      have hprocs := h.same u st hu hst (hpid ▸ horphan)
      rw [hst, ← hpid, hprocs]
    refine ⟨hlive, ?_, ?_⟩
    · intro u hu hpid
      exact Iff.intro (fun _ => (hsame u hu hpid.symm).symm) (fun _ => hstart u hu hpid)
    · intro hcarried
      have hview : s.tracker.view tab.pid ≠ PidView.empty := by
        intro hempty
        apply hcarried
        show (s.tracker.view tab.pid).guardReuse snap = PidView.empty
        rw [hempty]
        rfl
      obtain ⟨u, hlast, hu, hpid⟩ := lastSnapshot_isSome (h.tracked tab.pid hview)
      show (lastSnapshot tab.pid s.history).map Taken.owner = some (s.kernel.procs tab.pid)
      rw [hlast, Option.map_some, hsame u hu hpid]

/-- One step keeps the snapshots right exactly when no exit comes between the
entries that it finds and the scan. -/
theorem identifies_step_iff {config : Config} {s : Sys} {e : Event} {s' : Sys} (h : Inv s)
    (hident : Identifies s.history) (hstep : Sys.Step config s e s') :
    Identifies s'.history ↔ FindsOwn s e := by
  cases hstep with
  | spawn hfree hnew => simp [identifies_cons_other, hident, FindsOwn]
  | exit hlive => simp [identifies_cons_other, hident, FindsOwn]
  | switch hnext => simp [identifies_cons_other, hident, FindsOwn]
  | endCycle => simp [hident, FindsOwn]
  | @scan tab env =>
    have hboth := Maps.buildSnapshot_isSome_iff s.maps tab.pid
    cases hsnap : s.maps.buildSnapshot tab.pid with
    | none =>
      have hnot : ¬ ((s.maps.runtimeNs tab.pid).isSome = true ∧
          (s.maps.starttimeNs tab.pid).isSome = true) := by
        rw [← hboth, hsnap]
        simp
      rw [scan_of_none hsnap]
      refine iff_of_true ((identifies_cons_other (by simp)).mpr hident) ?_
      intro hruntime hbirth
      exact absurd ⟨hruntime, hbirth⟩ hnot
    | some snap =>
      rw [hsnap] at hboth
      obtain ⟨hruntime, hbirth⟩ := hboth.mp rfl
      rw [identifies_scan_iff h hident hsnap, h.live_iff hbirth]
      exact ⟨fun hcond _ _ => hcond, fun hcond => hcond hruntime hbirth⟩

theorem identifies_initial {s : Sys} (h : s.Initial) : Identifies s.history := by
  rw [h.2.2.2]
  refine ⟨?_, ?_, ?_⟩
  · intro t ht
    cases ht
  · intro t u ht
    cases ht
  · intro t older hsuffix
    exact absurd (List.suffix_nil.mp hsuffix) (by simp)

/-- In every run in which no exit comes between the entries of a PID and a scan that finds
them, a snapshot is of a live process, two snapshots of a PID have one start time
exactly when they are of one process, and no process inherits the tracker
entries of another.  And each scan that does find such entries breaks it. -/
theorem snapshots_identify_iff (config : Config) :
    (∀ s, (Sys.machine config FindsOwn).Reachable s → Identifies s.history) ∧
      ∀ s e s', (Sys.machine config (fun _ _ => True)).Reachable s → Identifies s.history →
        Sys.Step config s e s' → (Identifies s'.history ↔ FindsOwn s e) := by
  have hstep : ∀ s e s', (Sys.machine config (fun _ _ => True)).Reachable s →
      Identifies s.history → Sys.Step config s e s' →
      (Identifies s'.history ↔ FindsOwn s e) :=
    fun s e s' hs hident hst => identifies_step_iff (inv_reachable hs) hident hst
  refine ⟨?_, hstep⟩
  intro s hs
  exact Machine.Reachable.good_of_labelled (fun s hinit => identifies_initial hinit) hstep hs

/-! ### A PID that is reused

Process 7, started at 100, runs, is scanned twice while it idles, and exits.
The next process under PID 7 started at 200.  Its first scan finds the old
entries. -/

/-- PID 7 is in use, by a process that started at 100. -/
def reuseKernel : Kernel where
  procs p := if p = 7 then some 100 else none
  used p st := p = 7 ∧ st = 100
  used_of_live := by
    intro p st hlive
    split at hlive
    · exact ⟨‹p = 7›, (Option.some.inj hlive).symm⟩
    · cases hlive

/-- The target of the scans. -/
def reuseTab : TargetProcess := ⟨7, "firefox"⟩

/-- Nothing is worth compressing in these cycles. -/
def smallEnv : CycleEnv where
  snapshot _ := none
  rssMib _ := 0
  profileVeto _ _ := none
  compressPid _ _ := .error []

/-- The old process has run. -/
def reuseRan : Sys :=
  let old : Task := ⟨7, 100⟩
  { kernel := reuseKernel
    maps := (Maps.loaded.handleSchedSwitch 0 Task.idle old).handleSchedSwitch 10 old Task.idle
    tracker := CpuTracker.new
    seen := []
    history := [.switched old Task.idle, .switched Task.idle old] }

/-- The old process was scanned twice. -/
def reuseScanned : Sys :=
  (reuseRan.scan {} reuseTab smallEnv).scan {} reuseTab smallEnv

/-- The old process is gone and the new one has the PID. -/
def reuseRespawned : Sys :=
  { reuseScanned with
    kernel := (reuseScanned.kernel.exit 7).spawn 7 200
    history := .spawned 7 200 :: .exited 7 :: reuseScanned.history }

theorem reuseScanned_reachable : (Sys.machine {} FindsOwn).Reachable reuseScanned := by
  have hstart : (Sys.machine {} FindsOwn).Reachable
      ⟨reuseKernel, Maps.loaded, CpuTracker.new, [], []⟩ := .start ⟨rfl, rfl, rfl, rfl⟩
  have hin := hstart.tail ⟨.switch 0 Task.idle ⟨7, 100⟩, trivial,
    .switch (Or.inr ⟨100, rfl, UInt64.le_refl _⟩)⟩
  have hran : (Sys.machine {} FindsOwn).Reachable reuseRan :=
    hin.tail ⟨.switch 10 ⟨7, 100⟩ Task.idle, trivial, .switch (Or.inl rfl)⟩
  have hfirst : ¬ Orphaned 7 reuseRan.history := by simp [reuseRan, orphaned_cons]
  have hscan := hran.tail ⟨.scan reuseTab smallEnv, fun _ _ => ⟨fun h => h, hfirst⟩, .scan⟩
  have hsnap : reuseRan.maps.buildSnapshot reuseTab.pid = some ⟨7, 100, 10⟩ := by
    decide +kernel
  have hsecond : ¬ Orphaned 7 (reuseRan.scan {} reuseTab smallEnv).history := by
    rw [scan_history_of_some hsnap, orphaned_cons]
    simp [hfirst]
  refine hscan.tail ⟨.scan reuseTab smallEnv, fun _ _ => ⟨?_, hsecond⟩, .scan⟩
  rw [scan_history_of_some hsnap]
  exact fun h => h

/-- Two snapshots of one process: they have its start time. -/
theorem snapshots_identify_iff_scanned_twice :
    (Sys.machine {} FindsOwn).Reachable reuseScanned ∧ Identifies reuseScanned.history ∧
      .snapshot ⟨7, 100, some 100, PidView.empty⟩ ∈ reuseScanned.history ∧
      .snapshot ⟨7, 100, some 100, ⟨some ⟨7, 100, 10⟩, some 0, none⟩⟩ ∈ reuseScanned.history :=
  ⟨reuseScanned_reachable, (snapshots_identify_iff {}).1 _ reuseScanned_reachable,
    by decide +kernel, by decide +kernel⟩

theorem reuseRespawned_reachable :
    (Sys.machine {} (fun _ _ => True)).Reachable reuseRespawned := by
  have hscan : (Sys.machine {} (fun _ _ => True)).Reachable reuseScanned :=
    reuseScanned_reachable.of_labelled
  have hexit := hscan.tail ⟨.exit 7, trivial, .exit (by decide +kernel)⟩
  refine hexit.tail ⟨.spawn 7 200, trivial, .spawn (by decide +kernel) ?_⟩
  intro hused
  exact absurd hused.2 (by decide)

/-- The snapshot of the new process has the start time of the old one, and the
idle counter goes over. -/
theorem reused_pid_keeps_birth :
    ∃ s t u, (Sys.machine {} (fun _ _ => True)).Reachable s ∧
      .snapshot t ∈ s.history ∧ .snapshot u ∈ s.history ∧ t.pid = u.pid ∧
      t.starttime = u.starttime ∧ u.owner = some 100 ∧ t.owner = some 200 ∧
      t.carried.idleCycles = 1 := by
  have hlast := reuseRespawned_reachable.tail ⟨.scan reuseTab smallEnv, trivial, .scan⟩
  let new : Taken := ⟨7, 100, some 200, ⟨some ⟨7, 100, 10⟩, some 1, none⟩⟩
  let old : Taken := ⟨7, 100, some 100, ⟨some ⟨7, 100, 10⟩, some 0, none⟩⟩
  exact ⟨_, new, old, hlast, by decide +kernel, by decide +kernel, rfl, rfl, rfl, rfl, rfl⟩

end BsslRam.BpfIdentity
