import SonicGnmi.DialOut.Registries
import SonicGnmi.GnmiServer.Arbitration
import SonicGnmi.GnmiServer.ClientRegistry
import SonicGnmi.GnmiServer.GetFilter
import SonicGnmi.GnmiServer.Identity
import SonicGnmi.GnmiServer.SessionSafety
import SonicGnmi.GnmiServer.StopSignal
import SonicGnmi.GnmiServer.Threshold
import SonicGnmi.GnmiServer.TranslIdentity
import SonicGnmi.Gnoi.ConcurrentPut
import SonicGnmi.Gnoi.DebugOutput
import SonicGnmi.Gnoi.DpuTransfer
import SonicGnmi.Gnoi.FileConfinement
import SonicGnmi.Gnoi.OsProgress
import SonicGnmi.Gnoi.ReadOnlyPeer
import SonicGnmi.Gnsi.AuthzRevert
import SonicGnmi.Gnsi.CertzKeys
import SonicGnmi.Gnsi.CertzPanics
import SonicGnmi.Gnsi.CertzRestore
import SonicGnmi.Gnsi.PathzFinalize
import SonicGnmi.Interceptors.DpuProxy
import SonicGnmi.Pathz.Provenance
import SonicGnmi.Sdc.Confinement
import SonicGnmi.Sdc.DbClient
import SonicGnmi.Sdc.EntryRoundTrip
import SonicGnmi.Sdc.EventStats
import SonicGnmi.Sdc.FailedSet
import SonicGnmi.Sdc.MapGuards
import SonicGnmi.Sdc.PatchApplicable
import SonicGnmi.Sdc.PollRun
import SonicGnmi.Sdc.SameNamespace
import SonicGnmi.Sdc.SampleSync
import SonicGnmi.Sdc.SyncOrder
import SonicGnmi.ShowClient.CounterDiff
import SonicGnmi.TranslUtils.DiffPatch
