import DshDesktop.Terminal.Registry
import DshDesktop.Daemon.SessionAuthority

/-!
# The terminal host of the daemon

`crates/daemon/src/terminal.rs`: the requests and their checks, the host with its bindings
and owners, and the handlers. `TerminalCall` gives the broker as the handler finds it, the
broker's clock and the answers of the operating system. Any number of connections share one
host; between frames, and between the two gates of a frame, the broker may become any other.
-/

namespace DshDesktop.Daemon
open Supervisor Terminal Json

def terminalSchemaVersion : ℕ := 1

structure TerminalCreateRequest where
  schemaVersion : ℕ
  mode : String
  cols : ℕ
  rows : ℕ
  shell : Option String
  cwd : Option String
  agent : Option AgentIdentity

structure TerminalWriteRequest where
  schemaVersion : ℕ
  sessionId : String
  data : String

structure TerminalResizeRequest where
  schemaVersion : ℕ
  sessionId : String
  cols : ℕ
  rows : ℕ

structure TerminalCloseRequest where
  schemaVersion : ℕ
  sessionId : String

variable (v : Json)

def readAgentScope : Option Scope := do
  let ms ← v.readRecordWith [] ["sessionId", "workspace", "domains", "resources"]
  let sessionId ← readOptional readString ms "sessionId"
  let workspace ← readOptional readString ms "workspace"
  let domains ← readDefaulted (readList readString) [] ms "domains"
  let resources ← readDefaulted (readList readString) [] ms "resources"
  return ⟨sessionId, workspace, domains, resources⟩

def readAgentIdentity : Option AgentIdentity := do
  let ms ← v.readRecord ["agentId", "activationId", "generation", "scope"]
  let agentId ← readField readString ms "agentId"
  let activationId ← readField readString ms "activationId"
  let generation ← readField readU64 ms "generation"
  let scope ← readField readAgentScope ms "scope"
  return ⟨agentId, activationId, generation, scope⟩

def TerminalCreateRequest.read : Option TerminalCreateRequest := do
  let ms ← v.readRecordWith ["schemaVersion", "mode", "cols", "rows"] ["shell", "cwd", "agent"]
  let schemaVersion ← readField readU8 ms "schemaVersion"
  let mode ← readField readString ms "mode"
  let cols ← readField readU16 ms "cols"
  let rows ← readField readU16 ms "rows"
  let shell ← readOptional readString ms "shell"
  let cwd ← readOptional readString ms "cwd"
  let agent ← readOptional readAgentIdentity ms "agent"
  return ⟨schemaVersion, mode, cols, rows, shell, cwd, agent⟩

def TerminalWriteRequest.read : Option TerminalWriteRequest := do
  let ms ← v.readRecord ["schemaVersion", "sessionId", "data"]
  let schemaVersion ← readField readU8 ms "schemaVersion"
  let sessionId ← readField readString ms "sessionId"
  let data ← readField readString ms "data"
  return ⟨schemaVersion, sessionId, data⟩

def TerminalResizeRequest.read : Option TerminalResizeRequest := do
  let ms ← v.readRecord ["schemaVersion", "sessionId", "cols", "rows"]
  let schemaVersion ← readField readU8 ms "schemaVersion"
  let sessionId ← readField readString ms "sessionId"
  let cols ← readField readU16 ms "cols"
  let rows ← readField readU16 ms "rows"
  return ⟨schemaVersion, sessionId, cols, rows⟩

def TerminalCloseRequest.read : Option TerminalCloseRequest := do
  let ms ← v.readRecord ["schemaVersion", "sessionId"]
  let schemaVersion ← readField readU8 ms "schemaVersion"
  let sessionId ← readField readString ms "sessionId"
  return ⟨schemaVersion, sessionId⟩

/-- A human session carries no agent facts, and an agent session must. -/
def TerminalCreateRequest.isValid (r : TerminalCreateRequest) : Bool :=
  r.schemaVersion == terminalSchemaVersion &&
    if r.mode = "human_surface" then r.agent.isNone
    else if r.mode = "agent_automation" then r.agent.any AgentIdentity.isValid
    else false

/-- The pattern `^pty-[a-z0-9-]+$` with at most 64 bytes; nothing after the dash is
let through as well. -/
def validTerminalId (sessionId : String) : Bool :=
  "pty-".toList.isPrefixOf sessionId.toList && sessionId.utf8ByteSize ≤ 64 &&
    sessionId.toList.all fun c => c.isLower || c.isDigit || c == '-'

def TerminalWriteRequest.isValid (r : TerminalWriteRequest) : Bool :=
  r.schemaVersion == terminalSchemaVersion && validTerminalId r.sessionId && !r.data.isEmpty

def TerminalResizeRequest.isValid (r : TerminalResizeRequest) : Bool :=
  r.schemaVersion == terminalSchemaVersion && validTerminalId r.sessionId

def TerminalCloseRequest.isValid (r : TerminalCloseRequest) : Bool :=
  r.schemaVersion == terminalSchemaVersion && validTerminalId r.sessionId

structure TerminalHost where
  registry : PtyRegistry
  bindings : Table String AgentSessionBinding
  owners : Table String ℕ

def mapPtyError : PtyError → HostError
  | .invalidShell => .failed .malformedMessage "shell selection is not supported" false
  | .spawnUnavailable => .failed .unavailable "pseudo console or shell spawn failed" true
  | .unknownSession => .failed .unavailable "terminal session is unknown or already closed" false
  | .invalidGeometry =>
    .failed .malformedMessage "terminal geometry is outside schema bounds" false
  | .writeTooLarge => .failed .malformedMessage "terminal write exceeds the schema bound" false
  | .io => .failed .unavailable "terminal I/O failed" true
  | .stateUnavailable => .failed .unavailable "terminal state is unavailable" true

def mapTerminalBrokerError : BrokerError → HostError
  | .unknownCapability | .notGranted | .leaseExpired | .leaseRevoked | .scopeMismatch =>
    .failed .unauthorized "agent is not authorized for terminal automation" false
  | .unknownProvider => .failed .unavailable "terminal provider is not registered" true
  | .generationMismatch =>
    .failed .staleGeneration "agent terminal request carries a stale generation" false
  | .conflict => .failed .conflict "terminal broker state conflict" false

def terminalReport (s : PtySession) (mode : String) : List (String × Json) :=
  [("schemaVersion", nat terminalSchemaVersion), ("sessionId", .string s.sessionId),
    ("state", .string s.state), ("mode", .string mode), ("cols", nat s.cols),
    ("rows", nat s.rows), ("createdAtUnixMs", nat s.createdAtUnixMs),
    ("lastActivityUnixMs", (s.lastActivityUnixMs.map nat).getD .null),
    ("error", (s.error.map string).getD .null)]

namespace TerminalHost

def new : TerminalHost := ⟨.new, ∅, ∅⟩

variable (h : TerminalHost)

variable (sessionId : String)

def record (owner : ℕ) (binding : Option AgentSessionBinding) : TerminalHost :=
  { h with
    owners := h.owners.insert sessionId owner
    bindings := match binding with
      | none => h.bindings
      | some b => h.bindings.insert sessionId b }

def forget : TerminalHost :=
  { h with bindings := h.bindings.erase sessionId, owners := h.owners.erase sessionId }

def modeFor : String :=
  if (h.bindings.lookup sessionId).isSome then "agent_automation" else "human_surface"

def reports : List Json :=
  h.registry.list.map fun s => .object (terminalReport s (h.modeFor s.sessionId))

def checkOwner (connectionId : ℕ) (sessionId : String) : Except HostError Unit :=
  match h.owners.lookup sessionId with
  | none => .error (.failed .unavailable "terminal session is unknown or already closed" false)
  | some owner =>
    if owner ≠ connectionId then
      .error (.failed .notProcessOwner "terminal session is owned by another connection" false)
    else .ok ()

end TerminalHost

structure TerminalCall where
  broker : Broker
  nowMs : ℕ
  machine : Machine

def TerminalCall.gateAgent (call : TerminalCall) (b : AgentSessionBinding) :
    Except HostError Unit :=
  (call.broker.enforceDispatch call.nowMs (coordinateToCapability terminalCapability) b.agentId
    b.generation b.scope).mapError mapTerminalBrokerError

section
variable (unreadable : String → Json → String) (call : TerminalCall) (key : ℕ) (payload : Json)
  (d : DaemonState TerminalHost)

def gateSession (sessionId : String) : Except HostError Unit := do
  d.host.checkOwner key sessionId
  match d.host.bindings.lookup sessionId with
  | none => .ok ()
  | some b => call.gateAgent b

def parseGated {α : Type} (method : String) (read : Json → Option α) (isValid : α → Bool)
    (malformed : String) (sessionId : α → String) : Except HostError α := do
  let r ← parseRequest unreadable method read isValid malformed payload
  gateSession call key d (sessionId r)
  return r

def createTerminal (r : TerminalCreateRequest) :
    Except HostError (List (String × Json)) × DaemonState TerminalHost :=
  match d.host.registry.create call.machine r.shell r.cols r.rows with
  | (.error e, registry) =>
    (.error (mapPtyError e), { d with host := { d.host with registry := registry } })
  | (.ok session, registry) =>
    (.ok (terminalReport session r.mode),
      { d with
        host := { d.host with registry := registry }.record session.sessionId key
          (r.agent.map agentBindingFrom)
        events := d.events.subscribe key session.sessionId })

def parseTerminalCreate : Except HostError TerminalCreateRequest :=
  parseRequest unreadable "terminal.create" TerminalCreateRequest.read
    TerminalCreateRequest.isValid
    ("terminal.create request is malformed or the mode is not supported " ++
      "(human_surface must not carry agent facts; agent_automation requires them)") payload

def handleTerminalCreate : Except HostError (List (String × Json)) × DaemonState TerminalHost :=
  let request : Except HostError TerminalCreateRequest := do
    let r ← parseTerminalCreate unreadable payload
    match r.agent with
    | none => .ok r
    | some a =>
      call.gateAgent (agentBindingFrom a)
      .ok r
  match request with
  | .error e => (.error e, d)
  | .ok r => createTerminal call key d r

def parseWrite : Except HostError TerminalWriteRequest :=
  parseGated unreadable call key payload d "terminal.write" TerminalWriteRequest.read
    TerminalWriteRequest.isValid "terminal.write request is malformed"
      TerminalWriteRequest.sessionId

def handleTerminalWrite : Except HostError Unit × DaemonState TerminalHost :=
  match parseWrite unreadable call key payload d with
  | .error e => (.error e, d)
  | .ok r =>
    let (result, registry) := d.host.registry.write call.machine r.sessionId r.data
    ((result.map fun _ => ()).mapError mapPtyError,
      { d with host := { d.host with registry := registry } })

def parseResize : Except HostError TerminalResizeRequest :=
  parseGated unreadable call key payload d "terminal.resize" TerminalResizeRequest.read
    TerminalResizeRequest.isValid "terminal.resize request is malformed"
      TerminalResizeRequest.sessionId

def handleTerminalResize : Except HostError (List (String × Json)) × DaemonState TerminalHost :=
  match parseResize unreadable call key payload d with
  | .error e => (.error e, d)
  | .ok r =>
    let (result, registry) := d.host.registry.resize call.machine r.sessionId r.cols r.rows
    ((result.map fun s => terminalReport s (d.host.modeFor r.sessionId)).mapError mapPtyError,
      { d with host := { d.host with registry := registry } })

def flushTerminal (sessionId : String) : PtyRegistry :=
  match d.host.registry.report sessionId with
  | .error _ => d.host.registry
  | .ok s => (d.host.registry.resize call.machine sessionId s.cols s.rows).2

def parseClose : Except HostError TerminalCloseRequest :=
  parseGated unreadable call key payload d "terminal.close" TerminalCloseRequest.read
    TerminalCloseRequest.isValid "terminal.close request is malformed"
      TerminalCloseRequest.sessionId

def handleTerminalClose : Except HostError Unit × DaemonState TerminalHost :=
  match parseClose unreadable call key payload d with
  | .error e => (.error e, d)
  | .ok r =>
    match (flushTerminal call d r.sessionId).close r.sessionId with
    | (.error e, registry) =>
      (.error (mapPtyError e), { d with host := { d.host with registry := registry } })
    | (.ok _, registry) =>
      (.ok (), { d with
        host := { d.host with registry := registry }.forget r.sessionId
        events := d.events.unsubscribe key r.sessionId })

end

def terminalHosts (unreadable : String → Json → String) (call : TerminalCall)
    (others : Hosts (DaemonState TerminalHost)) : Hosts (DaemonState TerminalHost) where
  snapshot := others.snapshot
  call
    | .terminalCreate, d, key, payload =>
      handleTerminalCreate unreadable call key payload { d with broker := call.broker }
    | .terminalWrite, d, key, payload =>
      handleTerminalWrite unreadable call key payload { d with broker := call.broker }
    | .terminalResize, d, key, payload =>
      handleTerminalResize unreadable call key payload { d with broker := call.broker }
    | .terminalClose, d, key, payload =>
      handleTerminalClose unreadable call key payload { d with broker := call.broker }
    | .terminalStatus, d, _, _ => (.ok d.host.reports, d)
    | m, d, key, payload =>
      let (reply, d') := others.call m d key payload
      (reply, { d' with host := d.host })

end DshDesktop.Daemon

namespace DshDesktop.Daemon.TerminalBindings
open Supervisor Terminal TerminalHost List Option Table
variable {b : AgentSessionBinding} {h h' : TerminalHost} {call : TerminalCall} {key : ℕ} {η : Type}
  {m : HostMethod} {sid : String}

inductive Moved (call : TerminalCall) (key : ℕ) (h : TerminalHost) :
    HostMethod → TerminalHost → Prop
  | kept (m : HostMethod) (registry : PtyRegistry)
      (later : h.registry.nextId ≤ registry.nextId) :
      Moved call key h m { h with registry := registry }
  | opened (registry : PtyRegistry) (ms : ℕ) (agent : Option AgentIdentity)
      (later : h.registry.nextId < registry.nextId)
      (gate : ∀ a, agent = some a → call.gateAgent (agentBindingFrom a) = .ok ()) :
      Moved call key h .terminalCreate ({ h with registry := registry }.record
        (PtyRegistry.sessionId ms h.registry.nextId) key (agent.map agentBindingFrom))
  | forgot (m : HostMethod) (registry : PtyRegistry) (sessionId : String)
      (later : h.registry.nextId ≤ registry.nextId) :
      Moved call key h m ({ h with registry := registry }.forget sessionId)

theorem Moved.same (call : TerminalCall) (key : ℕ) (h : TerminalHost) (m : HostMethod) :
    Moved call key h m h :=
  .kept m h.registry (Nat.le_refl _)

section
variable {bad : String → Json → String} {pay : Json} {d : DaemonState TerminalHost}

variable (r : PtyRegistry) (machine : Machine)

theorem operate_nextId (id : String)
    (change : PtySession → PtySession) : (r.operate machine id change).2.nextId = r.nextId := by
  rw [PtyRegistry.operate]
  cases r.sessions.lookup id with
  | none => rfl
  | some ses =>
    dsimp only
    split_ifs
    · rfl
    · cases machine.failure <;> rfl

theorem write_nextId (id data : String) : (r.write machine id data).2.nextId = r.nextId := by
  rw [PtyRegistry.write]
  split_ifs
  · rfl
  · exact operate_nextId r machine id _

theorem resize_nextId (id : String) (cols rows : ℕ) :
    (r.resize machine id cols rows).2.nextId = r.nextId := by
  rw [PtyRegistry.resize]
  split_ifs
  · rfl
  · exact operate_nextId r machine id _

theorem close_nextId (id : String) : (r.close id).2.nextId = r.nextId := by
  rw [PtyRegistry.close]
  cases r.sessions.lookup id <;> rfl

theorem flushTerminal_nextId : (flushTerminal call d sid).nextId = d.host.registry.nextId := by
  rw [flushTerminal]
  cases d.host.registry.report sid with
  | error e => rfl
  | ok s => exact resize_nextId ..

theorem moved_createTerminal {r : TerminalCreateRequest}
    (hgt : ∀ a, r.agent = some a → call.gateAgent (agentBindingFrom a) = .ok ()) :
    Moved call key d.host .terminalCreate (createTerminal call key d r).2.host := by
  rw [createTerminal, PtyRegistry.create]
  by_cases hgeo : geometryInBounds r.cols r.rows = false
  · rw [if_pos hgeo]
    exact .same ..
  by_cases hsh : call.machine.resolvesShell r.shell = false
  · rw [if_neg hgeo, if_pos hsh]
    exact .same ..
  split_ifs
  · exact .kept _ _ (Nat.le_succ _)
  · exact .opened _ call.machine.idMs r.agent (Nat.lt_succ_self _) hgt

theorem moved_create : Moved call key d.host .terminalCreate
      (handleTerminalCreate bad call key pay d).2.host := by
  rw [handleTerminalCreate]
  cases parseTerminalCreate bad pay with
  | error e => exact .same ..
  | ok r =>
    cases hag : r.agent with
    | none =>
      simp only [bind, Except.bind, hag]
      exact moved_createTerminal (by simp [hag])
    | some a =>
      simp only [bind, Except.bind, hag]
      cases hgt : call.gateAgent (agentBindingFrom a) with
      | error e => exact .same ..
      | ok _ =>
        refine moved_createTerminal ?_
        intro a' ha'
        rw [hag] at ha'
        cases ha'
        exact hgt

theorem moved_write : Moved call key d.host .terminalWrite
      (handleTerminalWrite bad call key pay d).2.host := by
  rw [handleTerminalWrite]
  cases parseWrite bad call key pay d with
  | error e => exact .same ..
  | ok r => exact .kept _ _ (write_nextId ..).ge

theorem moved_resize : Moved call key d.host .terminalResize
      (handleTerminalResize bad call key pay d).2.host := by
  rw [handleTerminalResize]
  cases parseResize bad call key pay d with
  | error e => exact .same ..
  | ok r => exact .kept _ _ (resize_nextId ..).ge

theorem moved_close : Moved call key d.host .terminalClose
      (handleTerminalClose bad call key pay d).2.host := by
  rw [handleTerminalClose]
  cases parseClose bad call key pay d with
  | error e => exact .same ..
  | ok r =>
    have hnx := (close_nextId (flushTerminal call d r.sessionId) r.sessionId).trans
      flushTerminal_nextId
    dsimp only
    generalize (flushTerminal call d r.sessionId).close r.sessionId = closed at hnx
    obtain ⟨answer, reg⟩ := closed
    cases answer with
    | error e => exact .kept _ reg hnx.ge
    | ok _ => exact .forgot _ reg r.sessionId hnx.ge

theorem moved_call (unreadable : String → Json → String) (call : TerminalCall)
    (others : Hosts (DaemonState TerminalHost)) (m : HostMethod) (d : DaemonState TerminalHost)
    (key : ℕ) (payload : Json) :
    Moved call key d.host m
      ((terminalHosts unreadable call others).call m d key payload).2.host := by
  cases m with
  | terminalCreate => exact moved_create (d := { d with broker := call.broker })
  | terminalWrite => exact moved_write (d := { d with broker := call.broker })
  | terminalResize => exact moved_resize (d := { d with broker := call.broker })
  | terminalClose => exact moved_close (d := { d with broker := call.broker })
  | _ => exact .same ..

end

structure System where
  shared : DaemonState TerminalHost
  sessions : ℕ → SessionState

/-- A frame comes with what surrounds its handling. Anything but the terminal host may
change between frames. -/
inductive Event
  | frame (key : ℕ) (bytes : List UInt8) (clock : ℕ → UnixTime) (call : TerminalCall)
      (others : Hosts (DaemonState TerminalHost))
  | elsewhere (d : DaemonState TerminalHost)

section
variable (server : ServerConfig) (lib : JsonLibrary) (unreadable : String → Json → String)

variable (s : System)

def System.receive (key : ℕ) (bytes : List UInt8) (clock : ℕ → UnixTime)
    (call : TerminalCall) (others : Hosts (DaemonState TerminalHost)) : Outcome TerminalHost :=
  handleFrame server lib ⟨clock, terminalHosts unreadable call others⟩ key
    ⟨s.sessions key, s.shared⟩ bytes

def step : Event → System
  | .frame key bytes clock call others =>
    let o := s.receive server lib unreadable key bytes clock call others
    ⟨o.exchange.daemon, Function.update s.sessions key o.exchange.session⟩
  | .elsewhere d => ⟨{ d with host := s.shared.host }, s.sessions⟩

def start (d : DaemonState TerminalHost) (identity : ℕ → Option PeerIdentity) : System :=
  ⟨{ d with host := .new }, fun key => SessionState.new (identity key)⟩

def run (d : DaemonState TerminalHost) (identity : ℕ → Option PeerIdentity)
    (events : List Event) : System :=
  Runs.run (step server lib unreadable) (start d identity) events

def Creates (e : Event) (key : ℕ) (call : TerminalCall) (sessionId : String)
    (b : AgentSessionBinding) : Prop :=
  ∃ bytes clock others a, e = .frame key bytes clock call others ∧
    (s.receive server lib unreadable key bytes clock call others).dispatched =
      some ⟨a, terminalCapability, "terminal.create"⟩ ∧
    s.shared.host.bindings.lookup sessionId = none ∧
    (step server lib unreadable s e).shared.host.bindings.lookup sessionId = some b

def Belongs (key : ℕ) (b : AgentSessionBinding) : Prop :=
  ∃ id a, (s.sessions key).activations.lookup id = some a ∧ a.agentId = b.agentId ∧
    a.activationId = b.activationId ∧ a.generation = b.generation

/-- The carried activation id names an activation of the connection, and that one is
the holder of the broker's terminal grant. -/
def NamesHolder (key : ℕ) (call : TerminalCall) (b : AgentSessionBinding) : Prop :=
  ∃ a g, (s.sessions key).activations.lookup b.activationId = some a ∧
    call.broker.grants.lookup (coordinateToCapability terminalCapability) = some g ∧
    g.owner = a.agentId ∧ g.generation = a.generation

end

section
variable {server : ServerConfig} {lib : JsonLibrary} {bad : String → Json → String}

theorem find_terminalCreate {c : ProtocolCoordinate} {mth : String}
    (h : HostMethod.find c mth = some .terminalCreate) :
    c = terminalCapability ∧ mth = "terminal.create" := by
  have hmem : ∀ {ents : List (String × HostMethod)},
      ents.lookup mth = some .terminalCreate → (mth, .terminalCreate) ∈ ents := by
    intro ents hget
    obtain ⟨_, _, hsp, _⟩ := lookup_eq_some_iff.mp hget
    exact hsp ▸ mem_append_right _ mem_cons_self
  rw [HostMethod.find] at h
  split_ifs at h with hbr hterminal hrn hscheduler
  · simpa using hmem h
  · exact ⟨hterminal, by simpa using hmem h⟩
  · simpa using hmem h
  · simpa using hmem h

theorem step_host {s : System} {e : Event} (unreadable : String → Json → String) :
    (step server lib unreadable s e).shared.host = s.shared.host ∨
    ∃ key bytes clock call others a c mth m, e = .frame key bytes clock call others ∧
      (s.receive server lib unreadable key bytes clock call others).dispatched = some ⟨a, c, mth⟩ ∧
      HostMethod.find c mth = some m ∧
      Moved call key s.shared.host m (step server lib unreadable s e).shared.host := by
  cases e with
  | elsewhere d => exact .inl rfl
  | frame key bytes clock call others =>
    have hhn := handleFrame_handled server lib
      ⟨clock, terminalHosts unreadable call others⟩ key ⟨s.sessions key, s.shared⟩ bytes
    rcases handled_host hhn with heq | ⟨a, c, mth, m, payload, hd, hfn, hhs⟩
    · exact .inl heq
    · refine .inr ⟨key, bytes, clock, call, others, a, c, mth, m, rfl, hd, hfn, ?_⟩
      have hmv := moved_call unreadable call others m s.shared key payload
      rw [← hhs] at hmv
      exact hmv

theorem Creates.gated {s : System} {e : Event} {sessionId : String}
    (h : Creates server lib bad s e key call sessionId b) : call.gateAgent b = .ok () := by
  obtain ⟨bytes, clock, others, a, rfl, hd, hpre, haf⟩ := h
  rcases step_host bad with
    heq | ⟨key', _, _, call', _, _, _, _, m, he, -, -, hmv⟩
  · rw [heq, hpre] at haf
    exact absurd haf (by simp)
  cases he
  generalize (step server lib bad s (.frame key bytes clock call others)).shared.host =
    host at haf hmv
  cases hmv with
  | kept _ reg later =>
    rw [hpre] at haf
    exact absurd haf (by simp)
  | forgot _ reg sid later =>
    simp only [forget, lookup_erase_ite] at haf
    split_ifs at haf
    rw [hpre] at haf
    exact absurd haf (by simp)
  | opened reg ms agent later gate =>
    cases agent with
    | none =>
      simp only [record, map_none, hpre] at haf
      exact absurd haf (by simp)
    | some identity =>
      simp only [record, map_some, lookup_insert_ite] at haf
      split_ifs at haf with hid
      · rw [← some.inj haf]
        exact gate identity rfl
      · rw [hpre] at haf
        exact absurd haf (by simp)

theorem gateAgent_holder (h : call.gateAgent b = .ok ()) :
    ∃ g, call.broker.grants.lookup (coordinateToCapability terminalCapability) = some g ∧
      g.owner = b.agentId ∧ g.generation = b.generation := by
  rw [TerminalCall.gateAgent] at h
  cases hgt : call.broker.enforceDispatch call.nowMs (coordinateToCapability terminalCapability)
      b.agentId b.generation b.scope with
  | error e => simp [hgt, Except.mapError] at h
  | ok _ => exact Broker.enforceDispatch_holder hgt

end

section
variable {server : ServerConfig} {lib : JsonLibrary} {unreadable bad : String → Json → String}
  {d : DaemonState TerminalHost} {identity : ℕ → Option PeerIdentity}

def Named (s : System) : Prop :=
  ∀ key id a, (s.sessions key).activations.lookup id = some a → a.activationId = id

theorem named_step (s : System) (e : Event) (h : Named s) :
    Named (step server lib unreadable s e) := by
  cases e with
  | elsewhere d => exact h
  | frame key bytes clock call others =>
    intro k id a ha
    by_cases hk : k = key
    · subst hk
      have hss : (step server lib unreadable s (.frame k bytes clock call others)).sessions k =
          (s.receive server lib unreadable k bytes clock call others).exchange.session :=
        Function.update_self ..
      rw [hss] at ha
      have hhn := handleFrame_handled server lib
        ⟨clock, terminalHosts unreadable call others⟩ k ⟨s.sessions k, s.shared⟩ bytes
      rcases hhn.session with heq | ⟨env, added, -, hact⟩
      · exact h k id a (heq.activations ▸ ha)
      change (handleFrame server lib ⟨clock, terminalHosts unreadable call others⟩ k
        ⟨s.sessions k, s.shared⟩ bytes).exchange.session.activations.lookup id = some a at ha
      rw [hact.activations, lookup_insert_ite] at ha
      split_ifs at ha with hid
      · rw [← some.inj ha, hid]
      · exact h k id a ha
    · have hot : (step server lib unreadable s (.frame key bytes clock call others)).sessions k =
          s.sessions k := Function.update_of_ne hk ..
      rw [hot] at ha
      exact h k id a ha

theorem named_run {evs : List Event} : Named (run server lib bad d identity evs) := by
  refine Runs.run_invariant Named named_step evs ?_
  intro key id a ha
  simp [start, SessionState.new] at ha

theorem belongs_iff {s : System} (hs : Named s) (hgt : call.gateAgent b = .ok ()) :
    Belongs s key b ↔ NamesHolder s key call b := by
  obtain ⟨g, hg, how, hgn⟩ := gateAgent_holder hgt
  constructor
  · intro h
    obtain ⟨id, a, ha, hag, hid, hgen⟩ := h
    have hnm := hs key id a ha
    refine ⟨a, g, ?_, hg, how.trans hag.symm, hgn.trans hgen.symm⟩
    rw [← hid, hnm]
    exact ha
  · intro h
    obtain ⟨a, g', ha, hg', how', hgn'⟩ := h
    obtain rfl := some.inj (hg.symm.trans hg')
    exact ⟨b.activationId, a, ha, how'.symm.trans how, hs key _ a ha, hgn'.symm.trans hgn⟩

def Counted (h : TerminalHost) : Prop :=
  ∀ sessionId key, h.owners.lookup sessionId = some key →
    ∃ ms seq, seq < h.registry.nextId ∧ sessionId = PtyRegistry.sessionId ms seq

theorem Counted.fresh (hh : Counted h) (ms : ℕ) :
    h.owners.lookup (PtyRegistry.sessionId ms h.registry.nextId) = none := by
  by_contra hne
  obtain ⟨key, hkey⟩ := ne_none_iff_exists'.mp hne
  obtain ⟨ms', seq, hseq, hid⟩ := hh _ key hkey
  have heq := (Text.dashed_inj hid).2
  omega

theorem Counted.moved (hh : Counted h) (hmv : Moved call key h m h') : Counted h' := by
  intro sid owner how
  cases hmv with
  | kept _ reg later =>
    obtain ⟨ms, seq, hseq, hid⟩ := hh sid owner how
    exact ⟨ms, seq, hseq.trans_le later, hid⟩
  | forgot _ reg forgotten later =>
    simp only [forget, lookup_erase_ite] at how
    split_ifs at how
    obtain ⟨ms, seq, hseq, hid⟩ := hh sid owner how
    exact ⟨ms, seq, hseq.trans_le later, hid⟩
  | opened reg ms agent later gate =>
    simp only [record, lookup_insert_ite] at how
    split_ifs at how with hnew
    · exact ⟨ms, h.registry.nextId, later, hnew⟩
    · obtain ⟨ms', seq, hseq, hid⟩ := hh sid owner how
      exact ⟨ms', seq, hseq.trans later, hid⟩

theorem Moved.binding (hmv : Moved call key h m h') (hh : Counted h)
    (how : ∀ sid b, h.bindings.lookup sid = some b → h.owners.lookup sid ≠ none)
    (hb : h'.bindings.lookup sid = some b) :
    (h.bindings.lookup sid = some b ∧ h'.owners.lookup sid = h.owners.lookup sid) ∨
    (m = .terminalCreate ∧ h.bindings.lookup sid = none ∧ h'.owners.lookup sid = some key) := by
  cases hmv with
  | kept _ reg later => exact .inl ⟨hb, rfl⟩
  | forgot _ reg forgotten later =>
    simp only [forget, lookup_erase_ite] at hb ⊢
    split_ifs at hb ⊢
    exact .inl ⟨hb, rfl⟩
  | opened reg ms agent later gate =>
    have hfr := hh.fresh ms
    have hun : h.bindings.lookup (PtyRegistry.sessionId ms h.registry.nextId) = none := by
      by_contra hne
      obtain ⟨b', hb'⟩ := ne_none_iff_exists'.mp hne
      exact how _ b' hb' hfr
    by_cases hnew : sid = PtyRegistry.sessionId ms h.registry.nextId
    · refine .inr ⟨rfl, hnew ▸ hun, ?_⟩
      simp [record, lookup_insert_ite, if_pos hnew]
    refine .inl ⟨?_, ?_⟩
    · cases agent with
      | none => exact hb
      | some a =>
        simpa only [record, map_some, lookup_insert_ite, if_neg hnew]
          using hb
    · simp [record, lookup_insert_ite, if_neg hnew]

/-- The binding was recorded by a `terminal.create` of the run, on the connection that
owns the session. -/
def Origin (server : ServerConfig) (lib : JsonLibrary) (unreadable : String → Json → String)
    (d : DaemonState TerminalHost) (identity : ℕ → Option PeerIdentity) (events : List Event)
    (h : TerminalHost) (sessionId : String) (b : AgentSessionBinding) : Prop :=
  ∃ key call before e after, events = before ++ e :: after ∧
    Creates server lib unreadable (run server lib unreadable d identity before) e key call
      sessionId b ∧
    h.owners.lookup sessionId = some key

theorem Origin.later {evs : List Event} (ho : Origin server lib bad d identity evs h sid b)
    (e : Event)
    (how : h'.owners.lookup sid = h.owners.lookup sid) :
    Origin server lib bad d identity (evs ++ [e]) h' sid b := by
  obtain ⟨key, call, bef, e', after, hsp, hnew, hon⟩ := ho
  exact ⟨key, call, bef, e', after ++ [e], by simp [hsp], hnew, how.trans hon⟩

theorem origin_run {evs : List Event} : Counted (run server lib bad d identity evs).shared.host ∧
    ∀ sessionId b, (run server lib bad d identity evs).shared.host.bindings.lookup
        sessionId = some b →
      Origin server lib bad d identity evs
        (run server lib bad d identity evs).shared.host sessionId b := by
  induction evs using reverseRecOn with
  | nil =>
    refine ⟨?_, ?_⟩
    · intro sid key h
      simp [run, start, new] at h
    · intro sid b h
      simp [run, start, new] at h
  | append_singleton evs e ih =>
    obtain ⟨hcount, hor⟩ := ih
    have hrun : run server lib bad d identity (evs ++ [e]) =
        step server lib bad (run server lib bad d identity evs) e :=
      Runs.run_append evs [e]
    rw [hrun]
    generalize hs : run server lib bad d identity evs = s at hcount hor hrun ⊢
    rcases step_host bad with
      heq | ⟨key, bytes, clock, call, others, a, c, method, m, he, hd, hfn, hmv⟩
    · rw [heq]
      exact ⟨hcount, fun sid b hb => (hor sid b hb).later e rfl⟩
    refine ⟨hcount.moved hmv, ?_⟩
    intro sid b hb
    have hon : ∀ sid b, s.shared.host.bindings.lookup sid = some b →
        s.shared.host.owners.lookup sid ≠ none := by
      intro sid b hb
      obtain ⟨_, _, _, _, _, -, -, how⟩ := hor sid b hb
      simp [how]
    rcases hmv.binding hcount hon hb with ⟨hold, how⟩ | ⟨hm, hnn, how⟩
    · exact (hor sid b hold).later e how
    subst hm
    obtain ⟨rfl, rfl⟩ := find_terminalCreate hfn
    refine ⟨key, call, evs, e, [], rfl, ?_, how⟩
    rw [hs]
    exact ⟨bytes, clock, others, a, he, hd, hnn, hb⟩

/-- Every binding stems from a `terminal.create` on the connection that owns the
session, and at each of them its facts belong to the connection exactly when the
carried activation id names the holder of the terminal grant there. -/
theorem agent_bindings_belong_iff (server : ServerConfig) (lib : JsonLibrary)
    (unreadable : String → Json → String) (d : DaemonState TerminalHost)
    (identity : ℕ → Option PeerIdentity) (events : List Event) :
    (∀ xs ys, events = xs ++ ys → ∀ sessionId b,
      (run server lib unreadable d identity xs).shared.host.bindings.lookup sessionId = some b →
      Origin server lib unreadable d identity xs
        (run server lib unreadable d identity xs).shared.host sessionId b) ∧
    (Runs.Along (step server lib unreadable) (fun s e => ∀ key call sessionId b,
        Creates server lib unreadable s e key call sessionId b → Belongs s key b)
      (start d identity) events ↔
    Runs.Along (step server lib unreadable) (fun s e => ∀ key call sessionId b,
        Creates server lib unreadable s e key call sessionId b → NamesHolder s key call b)
      (start d identity) events) := by
  refine ⟨fun xs _ _ => origin_run.2, ?_⟩
  refine Runs.along_congr ?_ events
  intro xs e
  have heq : ∀ key call sessionId b,
      Creates server lib unreadable (run server lib unreadable d identity xs) e key call sessionId
        b →
      (Belongs (run server lib unreadable d identity xs) key b ↔
        NamesHolder (run server lib unreadable d identity xs) key call b) :=
    fun key call sessionId b hcr => belongs_iff named_run hcr.gated
  constructor
  · intro hall key call sessionId b hcr
    exact (heq key call sessionId b hcr).mp (hall key call sessionId b hcr)
  · intro hall key call sessionId b hcr
    exact (heq key call sessionId b hcr).mpr (hall key call sessionId b hcr)

end

def terminalHello (id component facet : String) : Envelope :=
  { sampleHello id component facet with
    payload := some (.object [("instanceId", .string "instance"),
      ("supports", .array [terminalCapability.toJson]), ("requires", .array [])]) }

def createInvocation : Envelope :=
  { sampleHello "invoke-01" "dsh-desktop-shell" "shell" with
    kind := .invocation
    participant := ⟨"dsh-desktop-shell", "shell", some (newActivationId UnixTime.epoch 2)⟩
    capability := some terminalCapability
    method := some "terminal.create"
    payload := some (.object [("schemaVersion", Json.nat 1), ("mode", .string "agent_automation"),
      ("cols", Json.nat 80), ("rows", Json.nat 24),
      ("agent", .object [("agentId", .string "dsh-agent-left"), ("activationId", .string "act-1"),
        ("generation", Json.nat 1), ("scope", .object [("workspace", .string "ws")])])]) }

def sampleFrames : JsonLibrary where
  readEnvelope
    | [1] => .ok (terminalHello "hello-01" "dsh-agent" "left")
    | [2] => .ok (terminalHello "hello-02" "dsh-desktop-shell" "shell")
    | _ => .ok createInvocation
  readValue _ := none
  shapeErrors := ⟨fun _ => "", fun _ => ""⟩

def sampleOthers : Hosts (DaemonState TerminalHost) where
  snapshot := fun _ => ⟨"", 0, "", 0, 0, 0, 0, 0, 0, ⟨0, 0, 0, 0, none⟩, 0, 0, 0⟩
  call := fun _ d _ _ => (.error (.failed .unavailable "" false), d)

def sampleTerminals : DaemonState TerminalHost := { sampleDaemon with host := new }

def sampleMachine : Machine := ⟨fun _ => true, true, none, 1000, 1000⟩

def sampleFrame (key : ℕ) (bytes : List UInt8) (broker : Broker) : Event :=
  .frame key bytes (fun _ => UnixTime.epoch) ⟨broker, 0, sampleMachine⟩ sampleOthers

def sampleRun (events : List Event) : System :=
  run sampleServer sampleFrames (fun _ _ => "") sampleTerminals (fun _ => none) events

def sampleHellos : List Event := [sampleFrame 1 [1] Broker.empty, sampleFrame 2 [2] Broker.empty]

def sampleCreate : Event := sampleFrame 2 [3] (sampleRun sampleHellos).shared.broker

theorem sample_binding :
    let s := sampleRun sampleHellos
    let o := s.receive sampleServer sampleFrames (fun _ _ => "") 2 [3] (fun _ => UnixTime.epoch)
      ⟨s.shared.broker, 0, sampleMachine⟩ sampleOthers
    o.dispatched.map (fun call => (call.capability, call.method)) =
        some (terminalCapability, "terminal.create") ∧
      s.shared.host.bindings.lookup "pty-1000-1" = none ∧
      o.exchange.daemon.host.bindings.lookup "pty-1000-1" =
        some ⟨"dsh-agent-left", "act-1", 1, ⟨none, some "ws", [], []⟩⟩ ∧
      (s.sessions 2).activations.values.map Activation.agentId = ["dsh-desktop-shell-shell"] := by
  decide +kernel

/-- The Shell, whose own negotiation was refused by the broker, opens a terminal under
the grant of the participant on the other connection. -/
theorem shell_opens_with_agent_facts :
    ¬ Runs.Along (step sampleServer sampleFrames fun _ _ => "") (fun s e => ∀ key call sessionId b,
        Creates sampleServer sampleFrames (fun _ _ => "") s e key call sessionId b →
          Belongs s key b)
      (start sampleTerminals fun _ => none) (sampleHellos ++ [sampleCreate]) := by
  intro hall
  rw [Runs.along_iff_forall_split] at hall
  obtain ⟨hds, hbf, haf, hag⟩ := sample_binding
  obtain ⟨call, hcall, hmt⟩ := map_eq_some_iff.mp hds
  obtain ⟨a, c, method⟩ := call
  obtain ⟨rfl, rfl⟩ := Prod.mk.inj hmt
  obtain ⟨id, act, hact, hae, -⟩ := hall sampleHellos sampleCreate [] rfl 2 _ "pty-1000-1" _
    ⟨[3], _, sampleOthers, a, rfl, hcall, hbf, haf⟩
  have hmem : act.agentId ∈ ((sampleRun sampleHellos).sessions 2).activations.values.map
      Activation.agentId :=
    mem_map_of_mem (mem_values_iff.mpr ⟨id, hact⟩)
  rw [hag, mem_singleton, hae] at hmem
  exact absurd hmem (by decide)

end DshDesktop.Daemon.TerminalBindings
