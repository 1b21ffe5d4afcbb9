import BsslRam.Lib.Map
import BsslRam.Lib.Text

/-!
# Target discovery by a walk of `/proc`

`daemon/src/scanner.rs`.  A process is a target when its command line matches
one of the configured profiles, and the first profile that matches names it.

`/proc` is the finite map from the live PIDs to the bytes of their
`cmdline` file.  The other names in the directory do not parse as a `u32`, so
no function here ever sees them.
-/

namespace BsslRam.Scanner

open BsslRam.Lib

/-- `/proc` as the daemon reads it: the bytes of `/proc/PID/cmdline` for each
live PID. -/
abbrev ProcFs := Map UInt32 (List UInt8)

/-- One target process matched by a profile. -/
structure TargetProcess where
  pid : UInt32
  profile : String
  deriving DecidableEq, Repr

/-- Declarative match rule for a browser or app family. -/
structure BrowserProfile where
  name : String
  /-- `argv[0]` must contain one of these, case-insensitively.  The empty list
  matches any binary. -/
  binarySubstringAny : List String := []
  /-- All of these tokens must appear somewhere in argv. -/
  argRequiredAll : List String := []
  /-- None of these tokens may appear in argv. -/
  argExcludedAny : List String := []
  /-- The last element of argv must equal this value. -/
  argLast : Option String := none
  deriving DecidableEq, Repr

/-- The two profiles that the daemon ships with. -/
def defaultProfiles : List BrowserProfile :=
  [ { name := "firefox"
      binarySubstringAny := ["firefox", "librewolf", "waterfox", "icecat", "zen"]
      argRequiredAll := ["-isForBrowser"]
      argLast := some "tab" }
  , { name := "chromium"
      argRequiredAll := ["--type=renderer"]
      argExcludedAny := ["--extension-process"] } ]

/-- Tokenise the bytes of `/proc/PID/cmdline`.  Each byte is taken as one
character, with NUL read as a space. -/
def parseCmdline (raw : List UInt8) : List String :=
  let text := raw.map (fun b => if b = 0 then ' ' else Char.ofNat b.toNat)
  (Text.splitWhitespace text).map String.ofList

/-- Whether every constraint of the profile holds of `args`. -/
def matchProfile (args : List String) (profile : BrowserProfile) : Bool :=
  match args with
  | [] => false
  | bin :: _ =>
      let bin := Text.toAsciiLowercase bin.toList
      if !profile.binarySubstringAny.isEmpty
          && !profile.binarySubstringAny.any
            (fun s => Text.contains bin (Text.toAsciiLowercase s.toList)) then
        false
      else if profile.argRequiredAll.any (fun required => !args.contains required) then
        false
      else if profile.argExcludedAny.any (fun excluded => args.contains excluded) then
        false
      else
        match profile.argLast with
        | some last => args.getLast? == some last
        | none => true

/-- Walk `/proc` and return every process that some profile matches, with the
name of the first such profile. -/
def scanTargets (profiles : List BrowserProfile) (proc : ProcFs) : List TargetProcess :=
  proc.toList.filterMap (fun (pid, cmdlineRaw) =>
    let args := parseCmdline cmdlineRaw
    (profiles.find? (fun p => matchProfile args p)).map
      (fun p => { pid := pid, profile := p.name }))

/-- The walk reports a pair exactly when the PID is live and the profile is the
first one that matches its command line. -/
theorem mem_scanTargets (profiles : List BrowserProfile) (proc : ProcFs)
    (t : TargetProcess) :
    t ∈ scanTargets profiles proc ↔
      ∃ raw, proc[t.pid]? = some raw ∧
        (profiles.find? (fun p => matchProfile (parseCmdline raw) p)).map
          BrowserProfile.name = some t.profile := by
  simp only [scanTargets, List.mem_filterMap, Prod.exists,
    Std.ExtTreeMap.mem_toList_iff_getElem?_eq_some, Option.map_eq_some_iff]
  constructor
  · intro h
    rcases h with ⟨pid, raw, hraw, p, hp, rfl⟩
    exact ⟨raw, hraw, p, hp, rfl⟩
  · intro h
    rcases h with ⟨raw, hraw, p, hp, hname⟩
    refine ⟨t.pid, raw, hraw, p, hp, ?_⟩
    rw [hname]

end BsslRam.Scanner
