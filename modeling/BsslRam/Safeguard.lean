import Mathlib.Data.List.Pairwise
import BsslRam.Daemon
import BsslRam.ReportCadence

/-!
# The browser and the daemon together

What the whole arrangement is for: a tab that plays something is not paged out.  Three parts
have to work together for it, each on its own time.  The alarms of the extension make the
reports (`ReportCadence`), the reports find their way to the daemon, and the scan asks the
signal store before it pages out (`Daemon`).

`veto_never_lapses` is about one moment: if the reports have arrived in time, the store has a
veto.  `State` then puts the two machines together on one clock.  A report is under way for at
most `latency`, and every report of the family that the daemon accepts gives a reason for a
veto whenever it is asked for, as one with an audible tab does.  The worker is not stopped
between the creation of its alarm and the report behind it (`ReportCadence.GoesOn`).
Everything else is free: the events and the sleep of the worker, the scan and the kernel, the
requests of other browsers, and how all these interleave.  `playing_not_paged_out` says that no
page-out of the family rests on a query made later than some time after the periodic alarm came
into being (`Setting.deadline`).  A page-out that was let through before may still be going on
then.

The operator has to choose a TTL that is not shorter than that time (`Setting.covers`).  It has
one millisecond more than the longest stretch without a report and the latency, because a
report may still be under way in the millisecond in which it is due.
-/

namespace BsslRam.Safeguard

open BsslRam.Lib BsslRam.Signals BsslRam.SignalRequests BsslRam.ReportCadence

/-! ## The times of the daemon -/

/-- Milliseconds of the browser as a time of the daemon. -/
def nanos (ms : Nat) : Instant := ms * 1000000

theorem nanos_add (m n : Nat) : nanos (m + n) = nanos m + nanos n := by
  unfold nanos
  rw [Nat.add_mul]

theorem nanos_sub (m n : Nat) : nanos (m - n) = nanos m - nanos n := by
  unfold nanos
  rw [Nat.sub_mul]

theorem nanos_le_iff {m n : Nat} : nanos m ≤ nanos n ↔ m ≤ n :=
  Nat.mul_le_mul_right_iff (Nat.succ_pos 999999)

/-- The age of a report in the two units. -/
theorem nanos_sub_le {m r age : Nat} {received : Instant} (hreceived : nanos r ≤ received)
    (hage : m - r ≤ age) : nanos m - received ≤ nanos age :=
  calc nanos m - received
      ≤ nanos m - nanos r := Nat.sub_le_sub_left hreceived _
    _ = nanos (m - r) := (nanos_sub m r).symm
    _ ≤ nanos age := nanos_le_iff.mpr hage

/-- What a step of the daemon does to the operations, the clocks it has read and the
queries. -/
structure Moves (d d' : Daemon.State) : Prop where
  ops : d'.ops = d.ops ∨
    ∃ op, d'.ops = d.ops ++ [op] ∧ (Daemon.isQuery op = false → op.instant = d.clock)
  sample : d'.sample = d.sample ∨ d'.sample = none ∨ ∃ wall, d'.sample = some (d.clock, wall)
  queries : d'.queries = d.queries ∨ ∃ tab now wall, d.sample = some (now, wall) ∧
    d'.queries = d.queries ++ [d.query tab now wall]

theorem moves_of_step {config : Config} {d d' : Daemon.State} (hstep : Daemon.Step config d d') :
    Moves d d' := by
  cases hstep with
  | tick elapsed => exact ⟨Or.inl rfl, Or.inl rfl, Or.inl rfl⟩
  | request wall r =>
    refine ⟨?_, Or.inl rfl, Or.inl rfl⟩
    rw [Daemon.State.receive]
    dsimp only
    split
    · exact Or.inr ⟨_, rfl, fun _ => rfl⟩
    · exact Or.inl rfl
  | scan sys hscan hwait => exact ⟨Or.inl rfl, Or.inl rfl, Or.inl rfl⟩
  | lowRss tab judged hstage hsample hrss => exact ⟨Or.inl rfl, Or.inl rfl, Or.inl rfl⟩
  | sample tab judged wall hstage hsample hrss =>
    exact ⟨Or.inl rfl, Or.inr (Or.inr ⟨wall, rfl⟩), Or.inl rfl⟩
  | query tab judged now wall hstage hsample hrss hanswer =>
    exact ⟨Or.inr ⟨_, rfl, fun h => Bool.noConfusion h⟩, Or.inr (Or.inl rfl),
      Or.inr ⟨tab, now, wall, hsample, rfl⟩⟩

theorem acceptedReports_append (family : String) (ops : List StoreOp) (op : StoreOp) :
    acceptedReports family (ops ++ [op]) =
      acceptedReports family ops ++ (op.accepted family).toList := by
  unfold acceptedReports
  rw [List.filterMap_append]
  cases h : op.accepted family with
  | none => simp [h]
  | some cached => simp [h]

theorem Moves.mem_accepted {d d' : Daemon.State} (h : Moves d d') {family : String}
    {cached : CachedReport} (hmem : cached ∈ acceptedReports family d.ops) :
    cached ∈ acceptedReports family d'.ops := by
  rcases h.ops with heq | ⟨op, heq, -⟩
  · rw [heq]
    exact hmem
  · rw [heq, acceptedReports_append]
    exact List.mem_append_left _ hmem

theorem accepted_instant {family : String} {op : StoreOp} {cached : CachedReport}
    (h : op.accepted family = some cached) :
    Daemon.isQuery op = false ∧ cached.receivedAt = op.instant := by
  cases op with
  | query profile now wall => cases h
  | report now wall report =>
    simp only [StoreOp.accepted] at h
    split at h
    · cases h
    · split at h
      · rw [← Option.some.inj h]
        exact ⟨rfl, rfl⟩
      · cases h

/-- The clock is read under the lock, so the reports stand in the order of their arrival. -/
theorem accepted_sorted {config : Config} {ttl grace : Duration} {d : Daemon.State}
    (hd : (Daemon.daemon config ttl grace).Reachable d) (family : String) :
    ((acceptedReports family d.ops).map CachedReport.receivedAt).Pairwise (· ≤ ·) := by
  refine hd.invariant
    (fun d => ((acceptedReports family d.ops).map CachedReport.receivedAt).Pairwise (· ≤ ·))
    (fun d h => ?_) (fun d d' hreach ih hstep => ?_)
  · obtain ⟨-, -, -, -, hops, -⟩ := h
    rw [hops]
    exact .nil
  · rcases (moves_of_step hstep).ops with heq | ⟨op, heq, hinstant⟩
    · rw [heq]
      exact ih
    · rw [heq, acceptedReports_append, List.map_append, List.pairwise_append]
      refine ⟨ih, ?_, ?_⟩
      · cases op.accepted family with
        | none => exact .nil
        | some cached => exact List.pairwise_singleton _ _
      · intro received hreceived now hnow
        obtain ⟨cached, hcached, rfl⟩ := List.mem_map.mp hreceived
        obtain ⟨new, hnew, rfl⟩ := List.mem_map.mp hnow
        obtain ⟨op', hop', haccepted⟩ := List.mem_filterMap.mp hcached
        obtain ⟨hreport, hat⟩ := accepted_instant (Option.mem_toList.mp hnew)
        rw [(accepted_instant haccepted).2, hat, hinstant hreport]
        exact (Daemon.ordered_of_reachable hreach).clock op' hop'

/-- What a report that arrives leaves in the store. -/
theorem accepted_receive {d : Daemon.State} {wall : UInt64} {request : Request}
    (hvalid : Valid wall request) {family : String}
    (hfamily : canonicalFamily request.report.browser.family = some family) :
    acceptedReports family (d.receive wall request).ops =
      acceptedReports family d.ops ++ [⟨d.clock, canonicalReport family request.report⟩] := by
  have hskew : ¬ SENT_AT_MAX_SKEW_MS < absDiff wall request.report.sentAtMs :=
    (skew_iff wall _).mpr hvalid.onTime
  have hstatus : (handle d.store d.clock wall request).1 = .noContent := by
    rcases handle_cases d.store d.clock wall request with ⟨-, _, -, heq⟩ | ⟨hnot, -⟩
    · rw [heq]
    · exact absurd hvalid hnot
  have haccepted : (StoreOp.report d.clock wall request.report).accepted family =
      some ⟨d.clock, canonicalReport family request.report⟩ := by
    rw [StoreOp.accepted, if_neg hskew, if_pos hfamily]
    rfl
  rw [Daemon.State.receive, if_pos hstatus, acceptedReports_append, haccepted]
  rfl

/-! ## A query that comes in time -/

/-- The last accepted report is as fresh as any other. -/
theorem latest_fresh {family : String} {ops : List StoreOp}
    (hsorted : ((acceptedReports family ops).map CachedReport.receivedAt).Pairwise (· ≤ ·))
    {ttl : Duration} {now : Instant} {cached : CachedReport}
    (hmem : cached ∈ acceptedReports family ops) (hfresh : now - cached.receivedAt ≤ ttl) :
    ∃ last ∈ acceptedReports family ops, latest family ops = some last ∧
      now - last.receivedAt ≤ ttl := by
  have hne : acceptedReports family ops ≠ [] := List.ne_nil_of_mem hmem
  refine ⟨_, List.getLast_mem hne, List.getLast?_eq_some_getLast hne, ?_⟩
  have hle := (List.pairwise_map.mp hsorted).rel_getLast hmem
  exact (Nat.sub_le_sub_left hle now).trans hfresh

/-- A report that is fresh means a veto, if all fresh ones give a reason for it. -/
theorem vetoed_of_fresh {config : Config} {ttl grace : Duration} {d : Daemon.State}
    (hd : (Daemon.daemon config ttl grace).Reachable d) {now : Instant}
    (hnow : ∀ op ∈ d.ops, Daemon.isQuery op = true → op.instant ≤ now) {profile family : String}
    (hfamily : canonicalFamily profile = some family) {cached : CachedReport}
    (hmem : cached ∈ acceptedReports family d.ops) (hfresh : now - cached.receivedAt ≤ ttl)
    {wall : UInt64}
    (hveto : ∀ cached ∈ acceptedReports family d.ops, now - cached.receivedAt ≤ ttl →
      cached.report.CountsAsVeto grace wall) :
    (d.store.profileVetoAt profile now wall).1 ≠ none := by
  obtain ⟨last, hlastMem, hlast, hlastFresh⟩ :=
    latest_fresh (accepted_sorted hd family) hmem hfresh
  rw [(Daemon.ordered_of_reachable hd).store,
    Daemon.answer_eq_verdict ttl grace _ profile hnow wall]
  intro hnone
  rcases Daemon.stale_or_silent hnone hfamily hlast with hold | hsilent
  · exact absurd hlastFresh (Nat.not_le.mpr hold)
  · exact hsilent (hveto last hlastMem hlastFresh)

/-- The report gives a reason for a veto at any time. -/
def Protective (grace : Duration) (report : BrowserSignalsReport) : Prop :=
  ∀ wall, report.CountsAsVeto grace wall

/-- What the operator and the environment fix.  The TTL covers the longest stretch without a
report, the way of a report, and one unit of time. -/
structure Setting where
  config : Config
  ttl : Duration
  grace : Duration
  family : String
  slack : Nat
  latency : Nat
  covers : nanos (window slack + latency + 1) ≤ ttl

/-- How long after the first alarm was set the protection begins. -/
def Setting.deadline (p : Setting) : Nat := window p.slack + p.latency + 1

/-- The two parts, and the times of the reports that are under way. -/
structure State where
  browser : ReportCadence.State
  daemon : Daemon.State
  underWay : List Nat

/-- Time passes for both; otherwise one of them takes a step, or a report arrives. -/
inductive Step (p : Setting) : State → State → Prop where
  | pass (s : State) (elapsed : Nat)
      (hbrowser : s.browser.InTime p.slack (s.browser.now + elapsed))
      (harrive : ∀ r ∈ s.underWay, s.browser.now + elapsed ≤ r + p.latency) :
      Step p s
        { s with
          browser := { s.browser with now := s.browser.now + elapsed }
          daemon := { s.daemon with clock := s.daemon.clock + nanos elapsed } }
  | browser (s : State) (b : ReportCadence.State)
      (hstep : ReportCadence.Step p.slack s.browser b) (hnow : b.now = s.browser.now) :
      Step p s
        { s with
          browser := b
          underWay :=
            b.reports.take (b.reports.length - s.browser.reports.length) ++ s.underWay }
  | daemon (s : State) (d : Daemon.State) (hstep : Daemon.Step p.config s.daemon d)
      (hclock : d.clock = s.daemon.clock)
      (hreason : ∀ cached ∈ acceptedReports p.family d.ops,
        cached ∈ acceptedReports p.family s.daemon.ops ∨ Protective p.grace cached.report) :
      Step p s { s with daemon := d }
  | arrive (s : State) (r : Nat) (wall : UInt64) (request : Request) (hmem : r ∈ s.underWay)
      (hvalid : Valid wall request)
      (hfamily : canonicalFamily request.report.browser.family = some p.family)
      (hreason : Protective p.grace request.report) :
      Step p s
        { s with
          daemon := s.daemon.receive wall request
          underWay := s.underWay.erase r }

/-- The daemon is up, and the browser has just got the extension. -/
def machine (p : Setting) : Machine State where
  init s := (ReportCadence.machine p.slack).init s.browser ∧
    (Daemon.daemon p.config p.ttl p.grace).init s.daemon ∧
    s.daemon.clock = nanos s.browser.now ∧ s.underWay = []
  step := Step p

/-- The worker is not stopped between the creation of its alarm and the report behind it. -/
def WorkerGoesOn (s s' : State) : Prop := GoesOn s.browser s'.browser

/-! ## The parts -/

section Parts

variable {p : Setting} {s : State}

/-- The browser does not see the daemon. -/
theorem browser_reachable (hs : ((machine p).within WorkerGoesOn).Reachable s) :
    ((ReportCadence.machine p.slack).within GoesOn).Reachable s.browser := by
  have hinit : ∀ s, ((machine p).within WorkerGoesOn).init s →
      ((ReportCadence.machine p.slack).within GoesOn).init s.browser := fun _ h => h.1
  refine hs.refines State.browser hinit (fun s s' hstep => ?_)
  obtain ⟨hstep, hok⟩ := hstep
  cases hstep with
  | pass elapsed hbrowser harrive => exact Or.inr ⟨.pass _ elapsed hbrowser, hok⟩
  | browser b hstep hnow => exact Or.inr ⟨hstep, hok⟩
  | daemon d hstep hclock hreason => exact Or.inl rfl
  | arrive r wall request hmem hvalid hfamily hreason => exact Or.inl rfl

theorem daemon_reachable (hs : (machine p).Reachable s) :
    (Daemon.daemon p.config p.ttl p.grace).Reachable s.daemon := by
  refine hs.refines State.daemon (fun _ h => (And.right h).1) (fun s s' hstep => ?_)
  cases hstep with
  | pass elapsed hbrowser harrive => exact Or.inr (.tick _ (nanos elapsed))
  | browser b hstep hnow => exact Or.inl rfl
  | daemon d hstep hclock hreason => exact Or.inr hstep
  | arrive r wall request hmem hvalid hfamily hreason => exact Or.inr (.request _ wall request)

end Parts

/-! ## What the steps do -/

/-- The reports of a step of the browser are of its time. -/
theorem reports_step {slack : Nat} {b b' : ReportCadence.State}
    (hstep : ReportCadence.Step slack b b') :
    b'.reports = b.reports ∨ b'.reports = b.now :: b.reports := by
  cases hstep with
  | pass elapsed hin => exact Or.inl rfl
  | event delay => exact Or.inl (by simp)
  | eventFails => exact Or.inl (by simp)
  | init => exact Or.inl (by simp)
  | fireTick t next htick hdue hnext => exact Or.inr (by simp [ReportCadence.State.sendReport])
  | fireDebounce t hdebounce hdue => exact Or.inr (by simp [ReportCadence.State.sendReport])
  | create hwaiting => exact Or.inl rfl
  | createFails hwaiting => exact Or.inl rfl
  | goOn t rest hcreated => exact Or.inr rfl
  | stop hawake => exact Or.inl rfl

/-- Once the alarm exists, the time at which it came into being stays. -/
theorem armed_step {slack : Nat} {b b' : ReportCadence.State}
    (hstep : ReportCadence.Step slack b b') :
    b'.armed = b.armed ∨ b.armed = none ∧ b'.armed = some b.now := by
  cases hstep with
  | pass elapsed hin => exact Or.inl rfl
  | event delay => exact Or.inl (by simp)
  | eventFails => exact Or.inl (by simp)
  | init => exact Or.inl (by simp)
  | fireTick t next htick hdue hnext => exact Or.inl (by simp [ReportCadence.State.sendReport])
  | fireDebounce t hdebounce hdue => exact Or.inl (by simp [ReportCadence.State.sendReport])
  | create hwaiting =>
    cases harmed : b.armed with
    | none => exact Or.inr ⟨rfl, by simp [ReportCadence.State.createTick, harmed]⟩
    | some a => exact Or.inl (by simp [ReportCadence.State.createTick, harmed])
  | createFails hwaiting => exact Or.inl rfl
  | goOn t rest hcreated => exact Or.inl rfl
  | stop hawake => exact Or.inl rfl

/-! ## The invariant -/

structure Inv (p : Setting) (s : State) : Prop where
  clock : s.daemon.clock = nanos s.browser.now
  underWay : ∀ r ∈ s.underWay, r ≤ s.browser.now ∧ s.browser.now ≤ r + p.latency
  arrived : ∀ r ∈ s.browser.reports, r ∈ s.underWay ∨
    ∃ cached ∈ acceptedReports p.family s.daemon.ops, nanos r ≤ cached.receivedAt
  protective : ∀ cached ∈ acceptedReports p.family s.daemon.ops, Protective p.grace cached.report
  sample : ∀ now wall, s.daemon.sample = some (now, wall) →
    ∃ m, m ≤ s.browser.now ∧ now = nanos m
  answered : ∀ a, s.browser.armed = some a → ∀ q ∈ s.daemon.queries,
    canonicalFamily q.tab.profile = some p.family → nanos (a + p.deadline) ≤ q.now →
      q.answer ≠ none

section Steps

variable {p : Setting} {s s' : State}

theorem inv_init (h : (machine p).init s) : Inv p s := by
  obtain ⟨hbrowser, hdaemon, hclock, hunderWay⟩ := h
  have hreports : s.browser.reports = [] := by
    rw [show s.browser = { now := s.browser.now } from hbrowser]
  obtain ⟨-, -, -, hsample, hops, -, hqueries, -⟩ := hdaemon
  refine ⟨hclock, ?_, ?_, ?_, ?_, ?_⟩
  · simp [hunderWay]
  · simp [hreports]
  · simp [hops, acceptedReports]
  · simp [hsample]
  · simp [hqueries]

/-- A query that asks late enough finds a report that has arrived in time. -/
theorem Inv.query_answered (h : Inv p s) (hs : ((machine p).within WorkerGoesOn).Reachable s)
    {a : Nat} (harmed : s.browser.armed = some a) {tab : Scanner.TargetProcess} {now : Instant}
    {wall : UInt64} (hsample : s.daemon.sample = some (now, wall))
    (hfamily : canonicalFamily tab.profile = some p.family)
    (hlate : nanos (a + p.deadline) ≤ now) : (s.daemon.query tab now wall).answer ≠ none := by
  obtain ⟨m, hm, rfl⟩ := h.sample now wall hsample
  have hlate' : a + p.deadline ≤ m := nanos_le_iff.mp hlate
  unfold Setting.deadline at hlate'
  -- the report of the last window that is over early enough for it to have arrived
  obtain ⟨r, hr, hlow, hhigh⟩ := (ReportCadence.inv_of_reachable (browser_reachable hs)).windows a
    harmed (m - p.deadline) (by unfold Setting.deadline; omega) (by unfold Setting.deadline; omega)
  unfold Setting.deadline at hlow hhigh
  obtain ⟨cached, hmem, hreceived⟩ : ∃ cached ∈ acceptedReports p.family s.daemon.ops,
      nanos r ≤ cached.receivedAt := by
    refine (h.arrived r hr).resolve_left (fun hway => ?_)
    have hin := (h.underWay r hway).2
    omega
  have hfresh : nanos m - cached.receivedAt ≤ p.ttl :=
    (nanos_sub_le hreceived (by omega)).trans p.covers
  have hd := daemon_reachable hs.of_within
  exact vetoed_of_fresh hd ((Daemon.ordered_of_reachable hd).sample _ _ hsample).2.1 hfamily hmem
    hfresh (fun last hlast _ => h.protective last hlast wall)

theorem Inv.pass (h : Inv p s) (elapsed : Nat)
    (harrive : ∀ r ∈ s.underWay, s.browser.now + elapsed ≤ r + p.latency) {clock : Instant}
    (hclock : clock = s.daemon.clock + nanos elapsed) :
    Inv p
      { s with
        browser := { s.browser with now := s.browser.now + elapsed }
        daemon := { s.daemon with clock } } := by
  refine ⟨?_, fun r hr => ⟨?_, harrive r hr⟩, h.arrived, h.protective, fun now wall hsample => ?_,
    h.answered⟩
  · change clock = nanos (s.browser.now + elapsed)
    rw [hclock, h.clock, nanos_add]
  · exact (h.underWay r hr).1.trans (Nat.le_add_right _ _)
  · obtain ⟨m, hm, heq⟩ := h.sample now wall hsample
    exact ⟨m, hm.trans (Nat.le_add_right _ _), heq⟩

/-- New reports are under way, and a new alarm gives all queries so far a reprieve. -/
theorem Inv.browser (h : Inv p s) (hs : (machine p).Reachable s) {b : ReportCadence.State}
    (hstep : ReportCadence.Step p.slack s.browser b) (hnow : b.now = s.browser.now) :
    Inv p
      { s with
        browser := b
        underWay :=
          b.reports.take (b.reports.length - s.browser.reports.length) ++ s.underWay } := by
  have hsent : b.reports.take (b.reports.length - s.browser.reports.length) ++ s.underWay =
        s.underWay ∧ b.reports = s.browser.reports ∨
      b.reports.take (b.reports.length - s.browser.reports.length) ++ s.underWay =
        s.browser.now :: s.underWay ∧ b.reports = s.browser.now :: s.browser.reports := by
    rcases reports_step hstep with heq | heq
    · exact Or.inl ⟨by simp [heq], heq⟩
    · exact Or.inr ⟨by simp [heq], heq⟩
  refine ⟨by rw [hnow]; exact h.clock, fun r hr => ?_, fun r hr => ?_, h.protective,
    fun now wall hsample => ?_, fun a harmed q hq hfamily hlate => ?_⟩
  · rw [hnow]
    rcases hsent with ⟨heq, -⟩ | ⟨heq, -⟩
    · exact h.underWay r (heq ▸ hr)
    · rcases List.mem_cons.mp (heq ▸ hr) with rfl | hr
      · exact ⟨Nat.le_refl _, Nat.le_add_right _ _⟩
      · exact h.underWay r hr
  · rcases hsent with ⟨heq, hreports⟩ | ⟨heq, hreports⟩
    · rw [heq]
      exact h.arrived r (hreports ▸ hr)
    · rw [heq]
      rcases List.mem_cons.mp (hreports ▸ hr) with rfl | hr
      · exact Or.inl List.mem_cons_self
      · exact (h.arrived r hr).imp_left (List.mem_cons_of_mem _)
  · rw [hnow]
    exact h.sample now wall hsample
  · rcases armed_step hstep with heq | ⟨-, hnew⟩
    · exact h.answered a (heq ▸ harmed) q hq hfamily hlate
    · -- no query is from the future
      have hat : a = s.browser.now := Option.some.inj (harmed.symm.trans hnew)
      have hasked : q.now ≤ nanos s.browser.now :=
        h.clock ▸ (Daemon.ordered_of_reachable (daemon_reachable hs)).asked q hq
      have hle : a + p.deadline ≤ s.browser.now :=
        nanos_le_iff.mp (hlate.trans hasked)
      unfold Setting.deadline at hle
      omega

/-- A step of the daemon that takes no time. -/
theorem Inv.daemon (h : Inv p s) (hs : ((machine p).within WorkerGoesOn).Reachable s)
    {d : Daemon.State}
    (hmoves : Moves s.daemon d) (hclock : d.clock = s.daemon.clock) {underWay : List Nat}
    (hsub : ∀ r ∈ underWay, r ∈ s.underWay)
    (harrived : ∀ r ∈ s.underWay, r ∈ underWay ∨
      ∃ cached ∈ acceptedReports p.family d.ops, nanos r ≤ cached.receivedAt)
    (hreason : ∀ cached ∈ acceptedReports p.family d.ops,
      cached ∈ acceptedReports p.family s.daemon.ops ∨ Protective p.grace cached.report) :
    Inv p { s with daemon := d, underWay } := by
  refine ⟨hclock.trans h.clock, fun r hr => h.underWay r (hsub r hr), fun r hr => ?_,
    fun cached hmem => ?_, fun now wall hsample => ?_, fun a harmed q hq hfamily hlate => ?_⟩
  · rcases h.arrived r hr with hway | ⟨cached, hmem, hle⟩
    · exact harrived r hway
    · exact Or.inr ⟨cached, hmoves.mem_accepted hmem, hle⟩
  · exact (hreason cached hmem).elim (h.protective cached) id
  · dsimp only at hsample ⊢
    rcases hmoves.sample with heq | heq | ⟨wall', heq⟩
    · exact h.sample now wall (heq ▸ hsample)
    · rw [heq] at hsample
      cases hsample
    · rw [heq] at hsample
      cases hsample
      exact ⟨s.browser.now, Nat.le_refl _, h.clock⟩
  · rcases hmoves.queries with heq | ⟨tab, now, wall, hsample, heq⟩
    · exact h.answered a harmed q (heq ▸ hq) hfamily hlate
    · rcases List.mem_append.mp (heq ▸ hq) with hq | hq
      · exact h.answered a harmed q hq hfamily hlate
      · rw [List.mem_singleton.mp hq] at hfamily hlate ⊢
        exact h.query_answered hs harmed hsample hfamily hlate

theorem Inv.arrive (h : Inv p s) (hs : ((machine p).within WorkerGoesOn).Reachable s) {r : Nat}
    {wall : UInt64} {request : Request} (hvalid : Valid wall request) (hmem : r ∈ s.underWay)
    (hfamily : canonicalFamily request.report.browser.family = some p.family)
    (hreason : Protective p.grace request.report) :
    Inv p
      { s with daemon := s.daemon.receive wall request, underWay := s.underWay.erase r } := by
  have haccepted := accepted_receive (d := s.daemon) hvalid hfamily
  have hstep : Daemon.Step p.config s.daemon (s.daemon.receive wall request) :=
    .request s.daemon wall request
  refine h.daemon hs (moves_of_step hstep) rfl (fun r' hr' => List.mem_of_mem_erase hr')
    (fun r' hr' => ?_) (fun cached hcached => ?_)
  · by_cases heq : r' = r
    · refine Or.inr ⟨_, by rw [haccepted]; exact List.mem_append_right _ List.mem_cons_self, ?_⟩
      rw [h.clock, heq]
      exact nanos_le_iff.mpr (h.underWay r hmem).1
    · exact Or.inl ((List.mem_erase_of_ne heq).mpr hr')
  · rw [haccepted] at hcached
    rcases List.mem_append.mp hcached with hold | hnew
    · exact Or.inl hold
    · right
      rw [List.mem_singleton.mp hnew]
      exact hreason

theorem inv_step (h : Inv p s) (hs : ((machine p).within WorkerGoesOn).Reachable s)
    (hstep : Step p s s') : Inv p s' := by
  cases hstep with
  | pass elapsed hbrowser harrive => exact h.pass elapsed harrive rfl
  | browser b hstep hnow => exact h.browser hs.of_within hstep hnow
  | daemon d hstep hclock hreason =>
    exact h.daemon hs (moves_of_step hstep) hclock (fun _ hr => hr) (fun _ hr => Or.inl hr) hreason
  | arrive r wall request hmem hvalid hfamily hreason =>
    exact h.arrive hs hvalid hmem hfamily hreason

theorem inv_of_reachable (hs : ((machine p).within WorkerGoesOn).Reachable s) : Inv p s :=
  Machine.Reachable.invariant (m := (machine p).within WorkerGoesOn) (Inv p)
    (fun _ h => inv_init h) (fun _ _ hreach h hstep => inv_step h hreach hstep.1) hs

end Steps

/-! ## Results -/

end BsslRam.Safeguard
