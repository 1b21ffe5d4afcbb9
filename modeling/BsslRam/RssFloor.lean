import BsslRam.Protection
import BsslRam.SmapsFormat

/-!
# The RSS floor

`rss_mib` of `compressor.rs` reads `/proc/PID/smaps_rollup`.  It takes the second word of the
first line that starts with `Rss:` for a number of kB.  Whatever goes wrong counts as 0: a file
that cannot be read, a text without such a line, a word that is no number.

* `showsRss_render`: in the text that the kernel writes (`Rollup`) that number is the one
  behind `Rss:`, whatever the other lines hold.
* `called_iff_rollup`: so in every run `compress_pid` is called only for a process whose file
  showed as many kB as the floor has, down to the last one.  What went wrong never lets a
  process through, unless the floor is 0.
-/

namespace BsslRam.RssFloor

open BsslRam.Lib BsslRam.Lib.Text BsslRam.Lib.PastTime BsslRam.State BsslRam.Scanner
open BsslRam.ScanCycle BsslRam.ScanHistory BsslRam.Protection

/-! ## Reading the file -/

/-- `rss_mib`, given what `fs::read_to_string` answers. -/
def rssMib : Except String (List Char) → UInt64
  | .ok s =>
      ((((lines s).find? (fun l => "Rss:".toList.isPrefixOf l)).bind
        (fun l => (splitWhitespace l)[1]?)).bind (fromStrRadix 10)).getD 0 / 1024
  | .error _ => 0

/-- The first line of the text that starts with `Rss:` has the number `kb` behind it. -/
def ShowsRss (text : List Char) (kb : UInt64) : Prop :=
  ∃ before line after word, lines text = before ++ line :: after ∧
    (∀ l ∈ before, ¬ "Rss:".toList <+: l) ∧ "Rss:".toList <+: line ∧
    (splitWhitespace line)[1]? = some word ∧ fromStrRadix 10 word = some kb

theorem find_line_iff {text line : List Char} :
    (lines text).find? (fun l => "Rss:".toList.isPrefixOf l) = some line ↔
      "Rss:".toList <+: line ∧ ∃ before after, lines text = before ++ line :: after ∧
        ∀ l ∈ before, ¬ "Rss:".toList <+: l := by
  rw [List.find?_eq_some_iff_append, List.isPrefixOf_iff_prefix]
  simp only [Bool.not_eq_true', ← Bool.not_eq_true, List.isPrefixOf_iff_prefix]

theorem showsRss_iff {text : List Char} {kb : UInt64} :
    ShowsRss text kb ↔
      (((lines text).find? (fun l => "Rss:".toList.isPrefixOf l)).bind
        (fun l => (splitWhitespace l)[1]?)).bind (fromStrRadix 10) = some kb := by
  simp only [Option.bind_eq_some_iff, find_line_iff]
  constructor
  · rintro ⟨before, line, after, word, hlines, hbefore, hline, hword, hkb⟩
    exact ⟨word, ⟨line, ⟨hline, before, after, hlines, hbefore⟩, hword⟩, hkb⟩
  · rintro ⟨word, ⟨line, ⟨hline, before, after, hlines, hbefore⟩, hword⟩, hkb⟩
    exact ⟨before, line, after, word, hlines, hbefore, hline, hword, hkb⟩

theorem ShowsRss.unique {text : List Char} {kb kb' : UInt64} (h : ShowsRss text kb)
    (h' : ShowsRss text kb') : kb' = kb :=
  Option.some.inj ((showsRss_iff.mp h').symm.trans (showsRss_iff.mp h))

/-- A number of MiB is compared with a number of kB that is cut to MiB. -/
theorem le_div_iff (floor kb : UInt64) : floor ≤ kb / 1024 ↔ floor.toNat * 1024 ≤ kb.toNat := by
  rw [UInt64.le_iff_toNat_le, UInt64.toNat_div]
  exact Nat.le_div_iff_mul_le (by decide)

/-- The answer has as many kB as the floor. -/
def ClearsFloor (config : Config) (answer : Except String (List Char)) : Prop :=
  config.minRssMib = 0 ∨ ∃ text kb, answer = .ok text ∧ ShowsRss text kb ∧
    config.minRssMib.toNat * 1024 ≤ kb.toNat

theorem clearsFloor_iff (config : Config) (answer : Except String (List Char)) :
    ClearsFloor config answer ↔ config.minRssMib ≤ rssMib answer := by
  unfold ClearsFloor
  cases answer with
  | error e => simp [rssMib]
  | ok text =>
    simp only [Except.ok.injEq, exists_and_left, exists_eq_left', showsRss_iff, rssMib]
    generalize (((lines text).find? (fun l => "Rss:".toList.isPrefixOf l)).bind
      (fun l => (splitWhitespace l)[1]?)).bind (fromStrRadix 10) = shown
    cases shown with
    | none => simp
    | some kb =>
      simp only [Option.some.injEq, exists_eq_left', Option.getD_some, le_div_iff]
      refine ⟨fun h => h.elim (fun hzero => ?_) id, Or.inr⟩
      rw [hzero]
      exact Nat.zero_le _

/-! ## The file of the kernel -/

/-- `smaps_rollup` as the kernel writes it.  The lines behind the count may hold anything. -/
structure Rollup where
  start : UInt64
  stop : UInt64
  rssKb : UInt64
  /-- How many spaces there are before the count, besides one. -/
  padding : Nat
  others : List (List Char)
  noNewline : ∀ l ∈ others, '\n' ∉ l

namespace Rollup

variable (r : Rollup)

def header : List Char :=
  showNat 16 8 r.start.toNat ++ '-' :: (showNat 16 8 r.stop.toNat ++
    " ---p 00000000 00:00 0                          [rollup]".toList)

def rssLine : List Char :=
  "Rss:".toList ++ ' ' :: (List.replicate r.padding ' ' ++
    (showNat 10 1 r.rssKb.toNat ++ [' ', 'k', 'B']))

def render : List Char := (r.header :: r.rssLine :: r.others).flatMap (fun l => l ++ ['\n'])

end Rollup

section Render

variable (r : Rollup)

theorem noNewline_lines : ∀ l ∈ r.header :: r.rssLine :: r.others, '\n' ∉ l := by
  have hhex : ∀ n : Nat, '\n' ∉ showNat 16 8 n := fun n hmem =>
    forall_mem_showNat (by decide) (by decide) 8 n (P := (· ≠ '\n')) (by decide) _ hmem rfl
  have hdec : ∀ n : Nat, '\n' ∉ showNat 10 1 n := fun n hmem =>
    forall_mem_showNat (by decide) (by decide) 1 n (P := (· ≠ '\n')) (by decide) _ hmem rfl
  rw [List.forall_mem_cons, List.forall_mem_cons]
  refine ⟨?_, ?_, r.noNewline⟩
  · simp [Rollup.header, hhex]
  · simp [Rollup.rssLine, hdec]

/-- The first line starts with a digit. -/
theorem not_rss_header : ¬ "Rss:".toList <+: stripCr r.header := by
  intro h
  have hpre := stripCr_prefix r.header
  obtain ⟨rest, hrest⟩ := h.trans hpre
  have hne : showNat 16 8 r.start.toNat ≠ [] := showNat_ne_nil 8 _
  obtain ⟨c, cs, hcs⟩ := List.exists_cons_of_ne_nil hne
  unfold Rollup.header at hrest
  rw [hcs] at hrest
  obtain ⟨rfl, -⟩ := List.cons.inj hrest
  exact forall_mem_showNat (by decide) (by decide) 8 r.start.toNat (P := (· ≠ 'R')) (by decide) 'R'
    (hcs ▸ List.mem_cons_self) rfl

theorem stripCr_rssLine : stripCr r.rssLine = r.rssLine := by
  have hlast : r.rssLine.getLast? = some 'B' := by
    unfold Rollup.rssLine
    rw [List.getLast?_append, List.getLast?_cons, List.getLast?_append, List.getLast?_append]
    rfl
  unfold stripCr
  rw [hlast]
  exact if_neg (by decide)

omit r in
theorem isWord_rss : IsWord "Rss:".toList := by
  refine ⟨by simp, fun c hc => ?_⟩
  simp only [String.reduceToList, List.mem_cons, List.not_mem_nil, or_false] at hc
  rcases hc with rfl | rfl | rfl | rfl
  all_goals decide

theorem word_rssLine : (splitWhitespace r.rssLine)[1]? = some (showNat 10 1 r.rssKb.toNat) := by
  have hcount : IsWord (showNat 10 1 r.rssKb.toNat) := isWord_showNat (by decide) (by decide) _ _
  have hpad : ∀ c ∈ List.replicate r.padding ' ', isWhitespace c = true := by
    intro c hc
    rw [List.eq_of_mem_replicate hc]
    decide
  unfold Rollup.rssLine
  rw [isWord_rss.splitWhitespace_append_cons (by decide), splitWhitespace_run_append hpad,
    hcount.splitWhitespace_append_cons (by decide)]
  rfl

/-- The text shows the count of the kernel. -/
theorem showsRss_render : ShowsRss r.render r.rssKb := by
  refine ⟨[stripCr r.header], r.rssLine, r.others.map stripCr, _, ?_, ?_, List.prefix_append _ _,
    word_rssLine r, ?_⟩
  · rw [Rollup.render, lines_terminated (noNewline_lines r), List.map_cons, List.map_cons,
      stripCr_rssLine]
    rfl
  · rw [List.forall_mem_singleton]
    exact not_rss_header r
  · rw [fromStrRadix_showNat (by decide) (by decide) 1 r.rssKb.toNat_lt, UInt64.ofNat_toNat]

theorem clearsFloor_render (config : Config) :
    ClearsFloor config (.ok r.render) ↔ config.minRssMib.toNat * 1024 ≤ r.rssKb.toNat := by
  constructor
  · rintro (hzero | ⟨text, kb, htext, hshows, hle⟩)
    · rw [hzero]
      exact Nat.zero_le _
    · cases htext
      rwa [(showsRss_render r).unique hshows] at hle
  · intro hle
    exact Or.inr ⟨r.render, r.rssKb, rfl, showsRss_render r, hle⟩

end Render

/-! ## Runs -/

/-- The answers for `p`, cycle by cycle, are where its RSS comes from. -/
def ReadsRollup (cycles : List Cycle) (p : UInt32) (answers : Nat → Except String (List Char)) :
    Prop :=
  ∀ k c, cycles[k]? = some c → c.env.rssMib p = rssMib (answers k)

/-- Every check of cycle `n` lets the process through, the flag and the floor aside. -/
def DueButForFloor (config : Config) (cycles : List Cycle) (p : UInt32) (n : Nat) : Prop :=
  IdleAt config cycles p n ∧
    config.idleCyclesThreshold ≤ UInt32.ofNat (streak (IdleAt config cycles p) n) ∧
    ∃ c tab, cycles[n]? = some c ∧ c.target? p = some tab ∧
      c.env.profileVeto p tab.profile = none

theorem due_iff_rollup {config : Config} {cycles : List Cycle} {p : UInt32}
    {answers : Nat → Except String (List Char)} (hreads : ReadsRollup cycles p answers) (n : Nat) :
    Due config cycles p n ↔ DueButForFloor config cycles p n ∧ ClearsFloor config (answers n) := by
  rw [clearsFloor_iff]
  constructor
  · rintro ⟨c, hc, hidle, hwait, hrss, tab, htab, hveto⟩
    exact ⟨⟨hidle, hwait, c, tab, hc, htab, hveto⟩, hreads n c hc ▸ hrss⟩
  · rintro ⟨⟨hidle, hwait, c, tab, hc, htab, hveto⟩, hrss⟩
    exact ⟨c, hc, hidle, hwait, (hreads n c hc).symm ▸ hrss, tab, htab, hveto⟩

/-- In every cycle of every run, the floor lets a process through that has as many kB as the
floor, by what its file shows, and no other.  For a file of the kernel these are the resident
pages. -/
theorem called_iff_rollup (config : Config) (cycles : List Cycle) (p : UInt32)
    (answers : Nat → Except String (List Char)) (hreads : ReadsRollup cycles p answers) (n : Nat) :
    (Called config cycles p n ↔ DueButForFloor config cycles p n ∧
      ¬ InForce config cycles p n ∧ ClearsFloor config (answers n)) ∧
    ∀ r : Rollup, answers n = .ok r.render →
      (ClearsFloor config (answers n) ↔ config.minRssMib.toNat * 1024 ≤ r.rssKb.toNat) := by
  refine ⟨?_, fun r hr => ?_⟩
  · rw [called_iff_due, due_iff_rollup hreads]
    exact ⟨fun ⟨⟨hdue, hfloor⟩, hflag⟩ => ⟨hdue, hflag, hfloor⟩,
      fun ⟨hdue, hflag, hfloor⟩ => ⟨⟨hdue, hfloor⟩, hflag⟩⟩
  · rw [hr]
    exact clearsFloor_render r config

/-- The file of a process with `kb` resident. -/
def residentRollup (kb : UInt64) : Rollup where
  start := 0x5600
  stop := 0x7fff
  rssKb := kb
  padding := 3
  others := ["Pss:                 100 kB".toList]
  noNewline := by decide

def residentCycle (kb : UInt64) : Cycle :=
  let c := soloCycle 7 0 (fun _ _ => .error [])
  { c with env := { c.env with rssMib := fun _ => rssMib (.ok (residentRollup kb).render) } }

theorem readsRollup_residentCycle (kb : UInt64) :
    ReadsRollup [residentCycle kb, residentCycle kb] 7
      (fun _ => .ok (residentRollup kb).render) := by
  intro k c hc
  have hmem := List.mem_of_getElem? hc
  simp only [List.mem_cons, List.not_mem_nil, or_false, or_self] at hmem
  rw [hmem]
  rfl

/-- The second sight of the process is idle, and nothing has been paged out before. -/
theorem due_residentCycle (kb : UInt64) :
    DueButForFloor { idleCyclesThreshold := 1 } [residentCycle kb, residentCycle kb] 7 1 ∧
      ¬ InForce { idleCyclesThreshold := 1 } [residentCycle kb, residentCycle kb] 7 1 := by
  have hfirst : ¬ Linked [residentCycle kb, residentCycle kb] 7 0 :=
    fun h => absurd h.1 (Nat.lt_irrefl 0)
  have hdelta : deltaAt [residentCycle kb, residentCycle kb] 7 1 = 0 := rfl
  have hidle : IdleAt { idleCyclesThreshold := 1 } [residentCycle kb, residentCycle kb] 7 1 := by
    refine ⟨⟨Nat.one_pos, _, _, rfl, rfl, rfl⟩, ?_⟩
    rw [hdelta]
    decide
  refine ⟨⟨hidle, ?_, _, _, rfl, rfl, rfl⟩, fun ⟨_, hflag⟩ => ?_⟩
  · simp [streak, hidle]
  · rcases (isCompressed_step _ 7 (Nat.succ_pos 1)).mp hflag with hsuccess | ⟨⟨hlinked, -⟩, -⟩
    · obtain ⟨⟨c, -, hidle', -⟩, -⟩ := called_iff_due.mp (called_of_succeeded hsuccess)
      exact hfirst hidle'.1
    · exact hfirst hlinked

/-- The default floor of 50 MiB is 51200 kB.  One kB less is not enough. -/
theorem called_iff_rollup_default_floor :
    Called { idleCyclesThreshold := 1 } [residentCycle 51200, residentCycle 51200] 7 1 ∧
      ¬ Called { idleCyclesThreshold := 1 } [residentCycle 51199, residentCycle 51199] 7 1 := by
  constructor
  · obtain ⟨hcalled, hfloor⟩ := called_iff_rollup { idleCyclesThreshold := 1 } _ 7 _
      (readsRollup_residentCycle 51200) 1
    obtain ⟨hdue, hflag⟩ := due_residentCycle 51200
    exact hcalled.mpr ⟨hdue, hflag, (hfloor (residentRollup 51200) rfl).mpr (by decide)⟩
  · obtain ⟨hcalled, hfloor⟩ := called_iff_rollup { idleCyclesThreshold := 1 } _ 7 _
      (readsRollup_residentCycle 51199) 1
    intro h
    have hkb := (hfloor (residentRollup 51199) rfl).mp (hcalled.mp h).2.2
    revert hkb
    decide

end BsslRam.RssFloor
