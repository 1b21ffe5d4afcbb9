import BsslRam.Scanner

/-!
# The daemon configuration

`daemon/src/config.rs`.  The fields that the modelled parts of the daemon read,
with the defaults of `impl Default for Config`.  `Config::load` takes every
field that the file sets as it stands, so a `Config` here is any value of its
field types.
-/

namespace BsslRam

open BsslRam.Scanner

structure Config where
  /-- How many consecutive idle cycles before a process is compressed. -/
  idleCyclesThreshold : UInt32 := 3
  /-- Seconds between two scans. -/
  scanIntervalSecs : UInt64 := 10
  /-- A CPU delta up to this many ticks counts as idle. -/
  cpuDeltaThreshold : UInt64 := 2
  /-- A CPU delta above this many ticks counts as a user wakeup. -/
  wakeupDeltaThreshold : UInt64 := 50
  /-- The least RSS, in MiB, that is worth compressing. -/
  minRssMib : UInt64 := 50
  dryRun : Bool := false
  /-- Reconcile the process table every so many cycles; `0` is never. -/
  cnProcReseedEveryNCycles : UInt64 := 10
  /-- How long a browser signal report stays authoritative. -/
  signalTtlSecs : UInt64 := 45
  /-- How long a user interaction vetoes compression. -/
  signalInteractionGraceSecs : UInt64 := 90
  profiles : List BrowserProfile := defaultProfiles
  deriving DecidableEq

/-- One scheduler tick, 10 ms, in nanoseconds. -/
def TICK_NS : UInt64 := 10000000

namespace Config

/-- `cpu_delta_threshold * TICK_NS` with the wrapping product of a release
build. -/
def cpuDeltaNs (config : Config) : UInt64 := config.cpuDeltaThreshold * TICK_NS

/-- `wakeup_delta_threshold * TICK_NS`, likewise. -/
def wakeupDeltaNs (config : Config) : UInt64 := config.wakeupDeltaThreshold * TICK_NS

end Config

/-- No tick count converts to `u64::MAX`: the tick is an even number of
nanoseconds, so every product is even, also after it wraps. -/
theorem mul_TICK_NS_ne_max (ticks : UInt64) : ticks * TICK_NS ≠ 0xFFFFFFFFFFFFFFFF := by
  intro h
  have hnat := congrArg UInt64.toNat h
  rw [UInt64.toNat_mul] at hnat
  have htick : TICK_NS.toNat = 10000000 := by decide
  have hmax : (0xFFFFFFFFFFFFFFFF : UInt64).toNat = 2 ^ 64 - 1 := by decide
  rw [htick, hmax] at hnat
  omega

end BsslRam
