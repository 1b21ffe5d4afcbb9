import BsslRam.Lib.Map
import BsslRam.Lib.Text
import BsslRam.Lib.Utf8
import BsslRam.Lib.ByteOrder
import BsslRam.Lib.Schedule
import BsslRam.Lib.PastTime
import BsslRam.Lib.Chunks
import BsslRam.Lib.Framing
import BsslRam.Scanner
import BsslRam.Config
import BsslRam.State
import BsslRam.Compressor
import BsslRam.Batches
import BsslRam.ScanCycle
import BsslRam.ScanHistory
import BsslRam.IncompletePageOut
import BsslRam.Lib.Machine
import BsslRam.PageOut
import BsslRam.Lib.Mirror
import BsslRam.ProcessTable
import BsslRam.TableSync
import BsslRam.DriftCorrection
import BsslRam.Recompression
import BsslRam.Lib.Binary64
import BsslRam.MainLoop
import BsslRam.Lib.Ecma
import BsslRam.Extension
import BsslRam.ReportCodec
import BsslRam.BpfTracker
import BsslRam.BpfIdentity
import BsslRam.BpfRuntime
import BsslRam.BpfCapacity
import BsslRam.ReseedSchedule
import BsslRam.Lib.InsertionMap
import BsslRam.NativePort
import BsslRam.NativeFrames
import BsslRam.Ownership
import BsslRam.Hydration
import BsslRam.TrackerInvariant
import BsslRam.Telemetry
import BsslRam.DryRun
import BsslRam.TargetOrder
import BsslRam.Reconcile
import BsslRam.SignalEviction
import BsslRam.SignalRequests
import BsslRam.VetoReasons
import BsslRam.SmapsFormat
import BsslRam.ProcStat
import BsslRam.Cmdline
import BsslRam.ProcConnector
import BsslRam.ProcNames
import BsslRam.IdleThreshold
import BsslRam.WakeupSampling
import BsslRam.Daemon
import BsslRam.PsiWakeup
import BsslRam.EventReader
import BsslRam.Delivery
import BsslRam.Acknowledgement
import BsslRam.CpuSources
import BsslRam.ReportCadence
import BsslRam.Protection
import BsslRam.Safeguard
import BsslRam.ReportContents
import BsslRam.RssFloor
