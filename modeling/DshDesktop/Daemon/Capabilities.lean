import DshDesktop.Daemon.Envelope

/-!
# The capability catalog and the dispatch of methods

`crates/daemon/src/capabilities.rs`. For every method but `ping` and `status` `Hosts` gives
what the handler does to the shared state and what it returns, and `encode` is the JSON
built from that.
-/

namespace DshDesktop.Daemon
open Json

def systemCapability : ProtocolCoordinate := ⟨"system.dsh-desktop.local/v1alpha1", "System"⟩
def daemonCapability : ProtocolCoordinate := ⟨"daemon.dsh-desktop.local/v1alpha1", "Daemon"⟩
def browserCapability : ProtocolCoordinate := ⟨"browser.dsh-desktop.local/v1alpha1", "Browser"⟩
def terminalCapability : ProtocolCoordinate := ⟨"terminal.dsh-desktop.local/v1alpha1", "Terminal"⟩
def runtimeCapability : ProtocolCoordinate := ⟨"runtime.dsh-desktop.local/v1alpha1", "Runtime"⟩
def schedulerCapability : ProtocolCoordinate :=
  ⟨"scheduler.dsh-desktop.local/v1alpha1", "Scheduler"⟩

def catalog : List ProtocolCoordinate :=
  [systemCapability, daemonCapability, browserCapability, terminalCapability, runtimeCapability,
    schedulerCapability]

def catalogSupports (c : ProtocolCoordinate) : Bool := catalog.contains c

inductive WakeReason
  | scheduledDue
  | recoveryRetry
  | userRequested
  deriving DecidableEq

def WakeReason.wire : WakeReason → String
  | .scheduledDue => "scheduled_due"
  | .recoveryRetry => "recovery_retry"
  | .userRequested => "user_requested"

structure FiredWake where
  wakeId : String
  reason : WakeReason
  requestedAt : String
  deadline : Option String
  firedAt : String

structure SchedulerStats where
  registered : ℕ
  cancelled : ℕ
  fired : ℕ
  pending : ℕ
  lastFired : Option FiredWake

structure DaemonStatusSnapshot where
  version : String
  pid : ℕ
  startedAt : String
  uptimeSeconds : ℕ
  claimPort : ℕ
  port : ℕ
  connections : ℕ
  credentialsIssued : ℕ
  activations : ℕ
  scheduler : SchedulerStats
  terminals : ℕ
  browsers : ℕ
  managedRuntimes : ℕ

def FiredWake.toJson (w : FiredWake) : Json :=
  .object ([("wakeId", .string w.wakeId), ("reason", .string w.reason.wire),
    ("requestedAt", .string w.requestedAt)] ++ optionalMember "deadline" string w.deadline ++
    [("firedAt", .string w.firedAt)])

def SchedulerStats.toJson (s : SchedulerStats) : Json :=
  .object ([("registered", nat s.registered), ("cancelled", nat s.cancelled),
    ("fired", nat s.fired), ("pending", nat s.pending)] ++
    optionalMember "lastFired" FiredWake.toJson s.lastFired)

def DaemonStatusSnapshot.toJson (s : DaemonStatusSnapshot) : Json :=
  .object [("daemonVersion", .string s.version), ("pid", nat s.pid),
    ("startedAt", .string s.startedAt), ("uptimeSeconds", nat s.uptimeSeconds),
    ("claimPort", nat s.claimPort), ("port", nat s.port),
    ("connections", nat s.connections),
    ("credentialsIssued", nat s.credentialsIssued), ("activations", nat s.activations),
    ("resources", .object [("browsers", nat s.browsers), ("terminals", nat s.terminals),
      ("managedRuntimes", nat s.managedRuntimes)]),
    ("scheduler", s.scheduler.toJson)]

inductive HostMethod
  | browserCreate
  | browserList
  | browserStatus
  | browserClose
  | browserNavigate
  | browserLoadFailed
  | terminalCreate
  | terminalWrite
  | terminalResize
  | terminalClose
  | terminalStatus
  | runtimeStart
  | runtimeStatus
  | runtimeStop
  | runtimeRestart
  | runtimeBinding
  | schedulerWake
  | schedulerCancel

structure SurfaceBinding where
  generation : ℕ
  port : ℕ
  bootstrapUrl : String

structure WakeAccepted where
  wakeId : String
  scheduledFor : String
  repeating : Json
  pending : ℕ

structure WakeCancelled where
  wakeId : String
  cancelled : Bool
  pending : ℕ

namespace HostMethod

def Reply : HostMethod → Type
  | browserList | browserStatus | terminalStatus => List Json
  | terminalWrite | terminalClose => Unit
  | runtimeBinding => SurfaceBinding
  | schedulerWake => WakeAccepted
  | schedulerCancel => WakeCancelled
  | browserCreate | browserClose | browserNavigate | browserLoadFailed | terminalCreate
  | terminalResize | runtimeStart | runtimeStatus | runtimeStop | runtimeRestart =>
    List (String × Json)

def encodeSessions (sessions : List Json) : Json :=
  .object [("sessions", .array sessions), ("count", nat sessions.length)]

def encodeBinding (b : SurfaceBinding) : Json :=
  .object [("schemaVersion", nat 1), ("generation", nat b.generation),
    ("port", nat b.port), ("bootstrapUrl", .string b.bootstrapUrl)]

def encodeWake (w : WakeAccepted) : Json :=
  .object [("wakeId", .string w.wakeId), ("scheduledFor", .string w.scheduledFor),
    ("repeat", w.repeating), ("pending", nat w.pending)]

def encodeCancel (w : WakeCancelled) : Json :=
  .object [("wakeId", .string w.wakeId), ("cancelled", .bool w.cancelled),
    ("pending", nat w.pending)]

def encode : (m : HostMethod) → m.Reply → Json
  | browserList, reports => .object [("browsers", .array reports)]
  | browserStatus, sessions => encodeSessions sessions
  | terminalStatus, sessions => encodeSessions sessions
  | terminalWrite, _ => .object []
  | terminalClose, _ => .object []
  | runtimeBinding, binding => encodeBinding binding
  | schedulerWake, wake => encodeWake wake
  | schedulerCancel, cancelled => encodeCancel cancelled
  | browserCreate, report => .object report
  | browserClose, report => .object report
  | browserNavigate, report => .object report
  | browserLoadFailed, report => .object report
  | terminalCreate, report => .object report
  | terminalResize, report => .object report
  | runtimeStart, report => .object report
  | runtimeStatus, report => .object report
  | runtimeStop, report => .object report
  | runtimeRestart, report => .object report

theorem encode_isObject (m : HostMethod) (reply : m.Reply) : (m.encode reply).isObject := by
  cases m <;> rfl

variable (method : String)

def ofBrowser : Option HostMethod :=
  [("browser.create", browserCreate), ("browser.list", browserList),
    ("browser.status", browserStatus), ("browser.close", browserClose),
    ("browser.navigate", browserNavigate), ("browser.load-failed", browserLoadFailed)].lookup method

def ofTerminal : Option HostMethod :=
  [("terminal.create", terminalCreate), ("terminal.write", terminalWrite),
    ("terminal.resize", terminalResize), ("terminal.close", terminalClose),
    ("terminal.status", terminalStatus)].lookup method

def ofRuntime : Option HostMethod :=
  [("runtime.start", runtimeStart), ("runtime.status", runtimeStatus),
    ("runtime.stop", runtimeStop), ("runtime.restart", runtimeRestart),
    ("runtime.binding", runtimeBinding)].lookup method

def ofScheduler : Option HostMethod :=
  [("wake", schedulerWake), ("cancel", schedulerCancel)].lookup method

def find (c : ProtocolCoordinate) (method : String) : Option HostMethod :=
  if c = browserCapability then ofBrowser method
  else if c = terminalCapability then ofTerminal method
  else if c = runtimeCapability then ofRuntime method
  else if c = schedulerCapability then ofScheduler method
  else none

end HostMethod

inductive HostError
  | invalidPayload (message : String)
  | conflict (message : String)
  | failed (code : ErrorCode) (message : String) (retryable : Bool)

inductive DaemonMethodError
  | methodNotFound (capability : ProtocolCoordinate) (method : String)
  | invalidPayload (capability : ProtocolCoordinate) (method message : String)
  | conflict (capability : ProtocolCoordinate) (method message : String)
  | methodFailed (code : ErrorCode) (message : String) (retryable : Bool)

def HostError.toMethodError (c : ProtocolCoordinate) (method : String) :
    HostError → DaemonMethodError
  | .invalidPayload message => .invalidPayload c method message
  | .conflict message => .conflict c method message
  | .failed code message retryable => .methodFailed code message retryable

/-- The head of a handler of the browser and terminal hosts: the payload is read,
then checked. `unreadable` is what the JSON library says of a payload that it
cannot read. -/
def parseRequest {α : Type} (unreadable : String → Json → String) (method : String)
    (read : Json → Option α) (isValid : α → Bool) (malformed : String) (payload : Json) :
    Except HostError α :=
  match read payload with
  | none => .error (.failed .malformedMessage
      (method ++ " payload does not match the request shape: " ++ unreadable method payload) false)
  | some request =>
    if isValid request then .ok request else .error (.failed .malformedMessage malformed false)

/-- The hosts of a daemon with shared state `σ`. A call is made under the key of
the invoking connection; the state it leaves also contains what other threads
did since the gate was passed. -/
structure Hosts (σ : Type*) where
  snapshot : σ → DaemonStatusSnapshot
  call : (m : HostMethod) → σ → ℕ → Json → Except HostError m.Reply × σ

variable {σ : Type*}

variable (hosts : Hosts σ) (key : ℕ) (c : ProtocolCoordinate) (method : String) (payload : Json)

def callHost (method : String)
    (payload : Json) (s : σ) (m : HostMethod) : Except DaemonMethodError Json × σ :=
  match hosts.call m s key payload with
  | (.ok reply, s') => (.ok (m.encode reply), s')
  | (.error e, s') => (.error (e.toMethodError c method), s')

def dispatch (method : String)
    (payload : Json) (s : σ) : Except DaemonMethodError Json × σ :=
  if c = systemCapability ∧ method = "ping" then
    (.ok (.object [("pong", .bool true), ("echo", payload)]), s)
  else if c = daemonCapability ∧ method = "status" then (.ok (hosts.snapshot s).toJson, s)
  else match HostMethod.find c method with
    | some m => callHost hosts key c method payload s m
    | none => (.error (.methodNotFound c method), s)

theorem dispatch_cases (s : σ) :
    (∃ v s', dispatch hosts key c method payload s = (.ok v, s') ∧ v.isObject) ∨
    (dispatch hosts key c method payload s = (.error (.methodNotFound c method), s)) ∨
    (∃ e s', dispatch hosts key c method payload s =
      (.error (HostError.toMethodError c method e), s')) := by
  simp only [dispatch]
  split_ifs
  · exact .inl ⟨_, s, rfl, rfl⟩
  · exact .inl ⟨_, s, rfl, rfl⟩
  cases HostMethod.find c method with
  | none => exact .inr (.inl rfl)
  | some m =>
    simp only [callHost]
    rcases hosts.call m s key payload with ⟨reply | reply, s'⟩
    · exact .inr (.inr ⟨reply, s', rfl⟩)
    · exact .inl ⟨_, s', rfl, m.encode_isObject reply⟩

theorem dispatch_state (s : σ) : (dispatch hosts key c method payload s).2 = s ∨
    ∃ m, HostMethod.find c method = some m ∧
      (dispatch hosts key c method payload s).2 = (hosts.call m s key payload).2 := by
  simp only [dispatch]
  split_ifs
  · exact .inl rfl
  · exact .inl rfl
  cases HostMethod.find c method with
  | none => exact .inl rfl
  | some m =>
    refine .inr ⟨m, rfl, ?_⟩
    simp only [callHost]
    rcases hosts.call m s key payload with ⟨reply | reply, s'⟩ <;> rfl

end DshDesktop.Daemon
