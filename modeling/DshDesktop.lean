import DshDesktop.Supervisor.BridgeReplay
import DshDesktop.Supervisor.DispatchGate
import DshDesktop.Adapter.Notify
import DshDesktop.Shell.TimestampReading
import DshDesktop.Runtime.Recovery
import DshDesktop.Runtime.LaunchRecipe
import DshDesktop.Transport.WorkerLoop
import DshDesktop.Contracts.SchemaSemantics
import DshDesktop.Contracts.Comparison
import DshDesktop.Contracts.Semantics
import DshDesktop.Daemon.ReplyFrames
import DshDesktop.Daemon.SchedulerRun
import DshDesktop.Daemon.Subscriptions
import DshDesktop.Daemon.TerminalHost
import DshDesktop.Shell.Takeover
import DshDesktop.Daemon.Reattach
import DshDesktop.Browser.AuditHistory
import DshDesktop.Shell.CatalogFile
import DshDesktop.Shell.LaunchTarget
import DshDesktop.Shell.FileReach
import DshDesktop.Shell.FileEditor
import DshDesktop.Shell.NotificationLaws
import DshDesktop.Terminal.OutputReaders
import DshDesktop.Shell.ClientWorker
import DshDesktop.Shell.AutoReconnect
import DshDesktop.Shell.UsageSessions
import DshDesktop.Shell.GitPanel
import DshDesktop.Shell.LineLedgers
import DshDesktop.Shell.Surface
import DshDesktop.Shell.EnvironmentDraft
import DshDesktop.Browser.UrlCredentials
