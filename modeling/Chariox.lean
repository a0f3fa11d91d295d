import Chariox.AppInstallation.Rollback
import Chariox.AppInstallation.StateVersions
import Chariox.AppOutbox.AtMostOnce
import Chariox.CommandCache.AtMostOnce
import Chariox.EditCoordinator.Reservations
import Chariox.EventLog.EventIds
import Chariox.EventLog.Replay
import Chariox.KernelBrowser.Takeover
import Chariox.PromptState.Mirror
import Chariox.RelayRouting.Registry
import Chariox.RelayTransport.FlowControl
import Chariox.RoomEnvironment.EventReplay
import Chariox.RoomEnvironment.FailedOperations
import Chariox.RoomEnvironment.Lifecycle
import Chariox.RoomEnvironment.QueueProgress
import Chariox.RoomEnvironment.TabFence
import Chariox.SessionStore.Restart
import Chariox.WorkerPeer.Answers
import Chariox.WorkerPeer.HostLoad
import Chariox.TextDocument.Replace
import Chariox.EditCoordinator.WholeFile
import Chariox.UsageMeter.Scopes
import Chariox.RoomTerminal.ShellMarks
import Chariox.AppInstallation.WakeTimer
import Chariox.TextDocument.Lcs
import Chariox.Admission.Line
import Chariox.Admission.Overcommit
import Chariox.AppPackage.PathSet
import Chariox.WorkspaceLiveSync.IgnoreRules
