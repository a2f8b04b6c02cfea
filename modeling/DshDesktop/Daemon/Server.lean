import DshDesktop.Daemon.Capabilities
import DshDesktop.Daemon.EventRouting
import DshDesktop.Supervisor.AgentBridge

/-!
# The envelope server: what one received frame does

`crates/daemon/src/server.rs`. `DaemonState` is shared; `SessionState` belongs to one
connection. `clock 0` is read for the activation id, `clock 1` and `clock 2` for the reply,
later ones by the broker.
-/

namespace DshDesktop.Daemon
open Supervisor

def serverComponent : String := "dsh-desktop-shell"
def serverFacet : String := "daemon"
def shellComponent : String := "dsh-desktop-shell"
def shellFacet : String := "shell"
def leaseMaxSeconds : ℕ := 3600

structure PeerIdentity where
  pid : ℕ
  imagePath : Option String

def PeerIdentity.imageMatches (foldsCase : Bool) (identity : PeerIdentity) (expected : String) :
    Bool :=
  match identity.imagePath with
  | none => false
  | some image =>
    if foldsCase then image.toList.map Char.toLower = expected.toList.map Char.toLower
    else image = expected

inductive PeerIdentityPolicy
  | off
  | strict (expectedShell : Option String)

def PeerIdentityPolicy.allows (foldsCase : Bool) : PeerIdentityPolicy → Option PeerIdentity → Bool
  | off, _ => true
  | strict (some expected), some identity => identity.imageMatches foldsCase expected
  | strict _, _ => false

structure ServerConfig where
  policy : PeerIdentityPolicy
  foldsCase : Bool
  credentialDir : Option String

inductive ActivationAuthority
  | shellControl
  | participant
  deriving DecidableEq

structure Activation where
  activationId : String
  authority : ActivationAuthority
  agentId : String
  generation : ℕ
  granted : List ProtocolCoordinate
  helloId : String

structure SessionState where
  activations : Table String Activation
  authority : Option ActivationAuthority
  identity : Option PeerIdentity
  seenIds : List String
  nextGeneration : ℕ

def SessionState.new (identity : Option PeerIdentity) : SessionState :=
  ⟨∅, none, identity, [], 0⟩

structure IssuedCredential where
  expiresAt : ℕ
  used : Bool

structure CredentialFile where
  token : String
  expiresAt : ℕ
  issuedAt : ℕ

/-- The state shared by all connections; `host` stands for the registries of the
browser, terminal and runtime hosts and of the scheduler. -/
structure DaemonState (η : Type) where
  broker : Broker
  events : EventRouter
  browserOwners : Table String ℕ
  idCounter : UInt64
  credentials : Table String IssuedCredential
  credentialsIssued : ℕ
  credentialFile : Option CredentialFile
  fileCredentialExpiry : Option ℕ
  host : η

structure Exchange (η : Type) where
  session : SessionState
  daemon : DaemonState η

structure Dispatched where
  activation : Activation
  capability : ProtocolCoordinate
  method : String

/-- `entered` is the id of the message with which a handler was called. -/
structure Outcome (η : Type) where
  replies : List Envelope
  exchange : Exchange η
  dispatched : Option Dispatched
  entered : Option String := none

structure Surroundings (η : Type) where
  clock : ℕ → UnixTime
  hosts : Hosts (DaemonState η)

structure JsonLibrary where
  readEnvelope : List UInt8 → Except String Envelope
  readValue : List UInt8 → Option Json
  shapeErrors : ShapeErrors

variable {η : Type}

@[simp] def Outcome.silent (x : Exchange η) : Outcome η where
  replies := []
  exchange := x
  dispatched := none

def serverParticipant (activationId : Option String) : Participant :=
  ⟨serverComponent, serverFacet, activationId⟩

def Exchange.nextId (x : Exchange η) : UInt64 := x.daemon.idCounter

def Exchange.countId (x : Exchange η) : Exchange η :=
  { x with daemon := { x.daemon with idCounter := x.daemon.idCounter + 1 } }

def Exchange.countGeneration (x : Exchange η) : Exchange η :=
  { x with session := { x.session with nextGeneration := x.session.nextGeneration + 1 } }

variable (clock : ℕ → UnixTime)

def errorEnvelope (counter : UInt64) (generation : ℕ)
    (correlationId replyTo : String) (capability : Option ProtocolCoordinate)
    (method : Option String) (code : ErrorCode) (message : String) (retryable : Bool) :
    Envelope where
  protocol := protocol
  id := newMessageId (clock 1) counter
  kind := .result
  replyTo := some replyTo
  participant := serverParticipant none
  timestamp := nowTimestampLike (clock 2)
  generation := generation
  capability := capability
  method := method
  payload := none
  error := some ⟨code, String.ofList (message.toList.take 512), retryable, correlationId⟩

def errorResult (x : Exchange η) (id : String)
    (capability : Option ProtocolCoordinate) (method : Option String) (code : ErrorCode)
    (message : String) (retryable : Bool) : Outcome η where
  replies := [errorEnvelope clock x.nextId x.session.nextGeneration id id capability method code
    message retryable]
  exchange := x.countGeneration.countId
  dispatched := none

def agentIdOf (p : Participant) : String := p.component ++ "-" ++ p.facet

def authorityOf (server : ServerConfig) (identity : Option PeerIdentity) (p : Participant) :
    ActivationAuthority :=
  if p.component = shellComponent ∧ p.facet = shellFacet ∧
      server.policy.allows server.foldsCase identity = true then .shellControl
  else .participant

def coordinateToCapability (c : ProtocolCoordinate) : CapabilityId := ⟨c.apiVersion, c.kind⟩

def policyDenied (c : ProtocolCoordinate) : UnavailableCapability := ⟨c, .policyDenied⟩

def helloNegotiation (activationId : String) (granted : List ProtocolCoordinate) :
    AgentNegotiationResult where
  activationId := activationId
  agreed := true
  granted := granted.map coordinateToCapability
  conformance := .known
  leaseConstraints := some ⟨leaseMaxSeconds, none⟩
  scope := Scope.unrestricted

structure HelloGrant where
  generation : ℕ
  granted : List ProtocolCoordinate
  unavailable : List UnavailableCapability
  broker : Broker

def registerGrants (broker : Broker) (agentId activationId : String)
    (authority : ActivationAuthority) (granted : List ProtocolCoordinate)
    (unavailable : List UnavailableCapability) : HelloGrant :=
  if granted = [] then ⟨0, granted, unavailable, broker⟩
  else
    match broker.brokerGrantFromNegotiation (fun i => (clock (3 + i)).unixMs) agentId
        (helloNegotiation activationId granted) with
    | (.ok grant, broker') => ⟨grant.generation, granted, unavailable, broker'⟩
    | (.error (.broker .conflict), broker') =>
      if authority = .shellControl then ⟨0, granted, unavailable, broker'⟩
      else ⟨0, [], unavailable ++ granted.map policyDenied, broker'⟩
    | (.error _, broker') => ⟨0, [], unavailable ++ granted.map policyDenied, broker'⟩

def agreementPayload (activationId : String) (g : HelloGrant) : AgreementPayload where
  activationId := activationId
  granted := g.granted
  unavailable := g.unavailable
  leaseConstraints := if g.granted = [] then none else some ⟨some leaseMaxSeconds, none⟩

def agreementEnvelope (counter : UInt64) (generation : ℕ)
    (helloId activationId : String) (g : HelloGrant) : Envelope where
  protocol := protocol
  id := newMessageId (clock 1) counter
  kind := .agreement
  replyTo := some helloId
  participant := serverParticipant (some activationId)
  timestamp := nowTimestampLike (clock 2)
  generation := generation
  capability := none
  method := none
  payload := some (agreementPayload activationId g).toJson
  error := none

def Exchange.activate (x : Exchange η) (activation : Activation) (broker : Broker) :
    Exchange η where
  session := { x.session with
    activations := x.session.activations.insert activation.activationId activation
    authority := some activation.authority }
  daemon := { x.daemon with broker := broker }

def acceptHello (x : Exchange η) (env : Envelope) (hello : HelloPayload)
    (activationId : String) (authority : ActivationAuthority) : Outcome η :=
  let requested := hello.supports.filter catalogSupports
  let denied := (hello.supports.filter fun c => !catalogSupports c).map policyDenied
  let g := registerGrants clock x.daemon.broker (agentIdOf env.participant) activationId authority
    requested denied
  let activation : Activation :=
    ⟨activationId, authority, agentIdOf env.participant, g.generation, g.granted, env.id⟩
  let x' := x.activate activation g.broker
  { replies := [agreementEnvelope clock x'.nextId x'.session.nextGeneration env.id activationId g]
    exchange := x'.countGeneration.countId
    dispatched := none }

def handleHello (server : ServerConfig) (clock : ℕ → UnixTime) (x : Exchange η) (env : Envelope) :
    Outcome η :=
  match env.payload.bind HelloPayload.read with
  | none => .silent x
  | some hello =>
    let activationId := newActivationId (clock 0) x.nextId
    let authority := authorityOf server x.session.identity env.participant
    if x.session.authority.any fun established => established ≠ authority then
      errorResult clock x.countId env.id none none .unauthorized
        ("this connection already established a different participant authority; " ++
          "open a new connection") false
    else acceptHello clock x.countId env hello activationId authority

def brokerErrorMapping : BrokerError → ErrorCode × Bool
  | .unknownCapability | .unknownProvider => (.unavailable, true)
  | .generationMismatch => (.staleGeneration, false)
  | .conflict => (.conflict, false)
  | .notGranted | .leaseExpired | .leaseRevoked | .scopeMismatch => (.unauthorized, false)

structure Refusal where
  code : ErrorCode
  message : String
  retryable : Bool

def gateInvocation (x : Exchange η) (p : Participant)
    (c : ProtocolCoordinate) : Except Refusal Activation :=
  match p.activationId with
  | none => .error ⟨.unauthorized,
      "Invocation without an Agreement: participant.activationId is missing", false⟩
  | some activationId =>
    match x.session.activations.lookup activationId with
    | none => .error ⟨.unauthorized, "no Agreement for activation \"" ++ activationId ++
        "\": negotiate Hello → Agreement first", false⟩
    | some activation =>
      if c ∉ activation.granted then
        .error ⟨.unauthorized, "capability " ++ c.apiVersion ++ "/" ++ c.kind ++
          " is not granted by the Agreement for activation \"" ++ activationId ++ "\"", false⟩
      else if activation.generation = 0 ∧ activation.authority ≠ .shellControl then
        .error ⟨.unauthorized, "broker-relaxed activations are Shell-only", false⟩
      else if activation.generation ≠ 0 then
        match x.daemon.broker.enforceDispatch (clock 3).unixMs (coordinateToCapability c)
            activation.agentId activation.generation Scope.unrestricted with
        | .error e => .error ⟨(brokerErrorMapping e).1, e.display, (brokerErrorMapping e).2⟩
        | .ok () => .ok activation
      else .ok activation

def resultEnvelope (counter : UInt64) (generation : ℕ) (env : Envelope)
    (payload : Json) : Envelope where
  protocol := protocol
  id := newMessageId (clock 1) counter
  kind := .result
  replyTo := some env.id
  participant := serverParticipant env.participant.activationId
  timestamp := nowTimestampLike (clock 2)
  generation := generation
  capability := env.capability
  method := env.method
  payload := some payload
  error := none

def resultReply (x : Exchange η) (env : Envelope) (payload : Json) : Outcome η where
  replies := [resultEnvelope clock x.nextId x.session.nextGeneration env payload]
  exchange := x.countGeneration.countId
  dispatched := none

def methodNotFoundText (c : ProtocolCoordinate) (method : String) : String :=
  "method \"" ++ method ++ "\" is not implemented for " ++ c.apiVersion ++ "/" ++ c.kind

def dispatchReply (x : Exchange η) (env : Envelope)
    (c : ProtocolCoordinate) (method : String) : Except DaemonMethodError Json → Outcome η
  | .ok payload => resultReply clock x env payload
  | .error (.methodNotFound c' method') => errorResult clock x env.id (some c') (some method')
      .unavailable (methodNotFoundText c' method') false
  | .error (.invalidPayload _ _ message) => errorResult clock x env.id (some c) (some method)
      .malformedMessage message false
  | .error (.conflict _ _ message) => errorResult clock x env.id (some c) (some method)
      .conflict message false
  | .error (.methodFailed code message retryable) => errorResult clock x env.id (some c)
      (some method) code message retryable

def runHandler (sur : Surroundings η) (key : ℕ) (x : Exchange η) (env : Envelope)
    (c : ProtocolCoordinate) (method : String) (activation : Activation) : Outcome η :=
  let payload := env.payload.getD .null
  let result := dispatch sur.hosts key c method payload x.daemon
  { dispatchReply sur.clock { x with daemon := result.2 } env c method result.1 with
    dispatched := some ⟨activation, c, method⟩ }

def handleInvocation (sur : Surroundings η) (key : ℕ) (x : Exchange η) (env : Envelope) :
    Outcome η :=
  match env.capability, env.method with
  | some c, some method =>
    match gateInvocation sur.clock x env.participant c with
    | .error refusal => errorResult sur.clock x env.id (some c) (some method) refusal.code
        refusal.message refusal.retryable
    | .ok activation => runHandler sur key x env c method activation
  | _, _ => .silent x

def issueText (issues : List ValidationIssue) : String :=
  String.intercalate "; " (issues.map fun i => i.path ++ ": " ++ i.message)

def Exchange.markSeen (x : Exchange η) (id : String) : Exchange η :=
  { x with session := { x.session with seenIds := id :: x.session.seenIds } }

def handleEnvelope (server : ServerConfig) (texts : ShapeErrors) (sur : Surroundings η) (key : ℕ)
    (x : Exchange η) (env : Envelope) : Outcome η :=
  if env.id ∈ x.session.seenIds then
    errorResult sur.clock x env.id env.capability env.method .malformedMessage
      ("message id \"" ++ env.id ++ "\" already used on this connection (replay)") false
  else
    let x' := x.markSeen env.id
    match validateEnvelope texts env with
    | .error issues =>
      if idLengthOk env.id then
        errorResult sur.clock x' env.id env.capability env.method .malformedMessage
          ("envelope validation failed: " ++ issueText issues) false
      else .silent x'
    | .ok () =>
      match env.kind with
      | .hello => { handleHello server sur.clock x' env with entered := some env.id }
      | .invocation => { handleInvocation sur key x' env with entered := some env.id }
      | .agreement | .result | .event => .silent x'

def frameId (lib : JsonLibrary) (bytes : List UInt8) : Option String :=
  (((lib.readValue bytes).bind (Json.get "id")).bind Json.readString).filter idLengthOk

def handleFrame (server : ServerConfig) (lib : JsonLibrary) (sur : Surroundings η) (key : ℕ)
    (x : Exchange η) (bytes : List UInt8) : Outcome η :=
  match lib.readEnvelope bytes with
  | .ok env => handleEnvelope server lib.shapeErrors sur key x env
  | .error error =>
    match frameId lib bytes with
    | some id => errorResult sur.clock x id none none .malformedMessage
        ("frame is not a valid envelope: " ++ error) false
    | none => .silent x

inductive Handled (server : ServerConfig) (lib : JsonLibrary) (sur : Surroundings η) (key : ℕ)
    (x : Exchange η) (bytes : List UInt8) : Outcome η → Prop
  | dropped {error : String} : lib.readEnvelope bytes = .error error →
      frameId lib bytes = none → Handled server lib sur key x bytes (.silent x)
  | unparsable {error id : String} : lib.readEnvelope bytes = .error error →
      frameId lib bytes = some id → Handled server lib sur key x bytes
        (errorResult sur.clock x id none none .malformedMessage
          ("frame is not a valid envelope: " ++ error) false)
  | replayed {env : Envelope} : lib.readEnvelope bytes = .ok env → env.id ∈ x.session.seenIds →
      Handled server lib sur key x bytes
        (errorResult sur.clock x env.id env.capability env.method .malformedMessage
          ("message id \"" ++ env.id ++ "\" already used on this connection (replay)") false)
  | invalid {env : Envelope} {issues : List ValidationIssue} : lib.readEnvelope bytes = .ok env →
      env.id ∉ x.session.seenIds → validateEnvelope lib.shapeErrors env = .error issues →
      idLengthOk env.id = true → Handled server lib sur key x bytes
        (errorResult sur.clock (x.markSeen env.id) env.id env.capability env.method
          .malformedMessage ("envelope validation failed: " ++ issueText issues) false)
  | uncorrelated {env : Envelope} {issues : List ValidationIssue} :
      lib.readEnvelope bytes = .ok env → env.id ∉ x.session.seenIds →
      validateEnvelope lib.shapeErrors env = .error issues → idLengthOk env.id = false →
      Handled server lib sur key x bytes (.silent (x.markSeen env.id))
  | hello {env : Envelope} : lib.readEnvelope bytes = .ok env → env.id ∉ x.session.seenIds →
      validateEnvelope lib.shapeErrors env = .ok () → env.kind = .hello →
      Handled server lib sur key x bytes
        { handleHello server sur.clock (x.markSeen env.id) env with entered := some env.id }
  | invocation {env : Envelope} : lib.readEnvelope bytes = .ok env → env.id ∉ x.session.seenIds →
      validateEnvelope lib.shapeErrors env = .ok () → env.kind = .invocation →
      Handled server lib sur key x bytes
        { handleInvocation sur key (x.markSeen env.id) env with entered := some env.id }
  | ignored {env : Envelope} : lib.readEnvelope bytes = .ok env → env.id ∉ x.session.seenIds →
      validateEnvelope lib.shapeErrors env = .ok () → env.kind ≠ .hello → env.kind ≠ .invocation →
      Handled server lib sur key x bytes (.silent (x.markSeen env.id))

theorem handleFrame_handled (srv : ServerConfig) (lib : JsonLibrary) (sur : Surroundings η)
    (key : ℕ) (x : Exchange η) (bytes : List UInt8) :
    Handled srv lib sur key x bytes (handleFrame srv lib sur key x bytes) := by
  simp only [handleFrame]
  cases hrd : lib.readEnvelope bytes with
  | error error =>
    cases hid : frameId lib bytes with
    | none => exact .dropped hrd hid
    | some id => exact .unparsable hrd hid
  | ok env =>
    simp only [handleEnvelope]
    by_cases hsn : env.id ∈ x.session.seenIds
    · rw [if_pos hsn]
      exact .replayed hrd hsn
    rw [if_neg hsn]
    cases hvalid : validateEnvelope lib.shapeErrors env with
    | error issues =>
      cases hid : idLengthOk env.id with
      | true => exact .invalid hrd hsn hvalid hid
      | false => exact .uncorrelated hrd hsn hvalid hid
    | ok u =>
      cases hkn : env.kind with
      | hello => exact .hello hrd hsn hvalid hkn
      | invocation => exact .invocation hrd hsn hvalid hkn
      | agreement | result | event =>
        exact .ignored hrd hsn hvalid (by simp [hkn]) (by simp [hkn])

theorem gateInvocation_ok {clock : ℕ → UnixTime} {x : Exchange η} {p : Participant}
    {c : ProtocolCoordinate} {a : Activation} (h : gateInvocation clock x p c = .ok a) :
    ∃ id, p.activationId = some id ∧ x.session.activations.lookup id = some a ∧ c ∈ a.granted ∧
      (a.generation ≠ 0 ∧ x.daemon.broker.enforceDispatch (clock 3).unixMs
          (coordinateToCapability c) a.agentId a.generation Scope.unrestricted = .ok () ∨
        a.generation = 0 ∧ a.authority = .shellControl) := by
  simp only [gateInvocation] at h
  cases hp : p.activationId with
  | none => simp [hp] at h
  | some id =>
    simp only [hp] at h
    cases hact : x.session.activations.lookup id with
    | none => simp [hact] at h
    | some activation =>
      simp only [hact] at h
      split_ifs at h with hgr hrelaxed hgen
      · cases hgt : x.daemon.broker.enforceDispatch (clock 3).unixMs (coordinateToCapability c)
            activation.agentId activation.generation Scope.unrestricted with
        | error e => simp [hgt] at h
        | ok u =>
          simp only [hgt, Except.ok.injEq] at h
          subst h
          exact ⟨id, rfl, hact, hgr, Or.inl ⟨hgen, hgt⟩⟩
      rw [not_not] at hgen
      obtain rfl := Except.ok.inj h
      have hsh : activation.authority = .shellControl := by
        by_contra hne
        exact hrelaxed ⟨hgen, hne⟩
      exact ⟨id, rfl, hact, hgr, Or.inr ⟨hgen, hsh⟩⟩

theorem runHandler_exchange (sur : Surroundings η) (key : ℕ) (x : Exchange η) (env : Envelope)
    (c : ProtocolCoordinate) (mth : String) (a : Activation) :
    (runHandler sur key x env c mth a).exchange =
      Exchange.countId (Exchange.countGeneration { x with
        daemon := (dispatch sur.hosts key c mth (env.payload.getD .null) x.daemon).2 }) := by
  simp only [runHandler]
  generalize dispatch sur.hosts key c mth (env.payload.getD .null) x.daemon = result
  rcases result with ⟨e | payload, d⟩
  · cases e <;> rfl
  · rfl

theorem handleHello_keeps (srv : ServerConfig) (clock : ℕ → UnixTime) (x : Exchange η)
    (env : Envelope) :
    (handleHello srv clock x env).exchange.daemon.events = x.daemon.events ∧
    (handleHello srv clock x env).exchange.daemon.host = x.daemon.host ∧
    (handleHello srv clock x env).dispatched = none := by
  simp only [handleHello]
  split
  · exact ⟨rfl, rfl, rfl⟩
  · split_ifs <;> exact ⟨rfl, rfl, rfl⟩

def sampleHello (id component facet : String) : Envelope where
  protocol := protocol
  id := id
  kind := .hello
  replyTo := none
  participant := ⟨component, facet, none⟩
  timestamp := "1970-01-01T00:00:00.000Z"
  generation := 0
  capability := none
  method := none
  payload := some (.object [("instanceId", .string "instance"),
    ("supports", .array [systemCapability.toJson]), ("requires", .array [])])
  error := none

def sampleLibrary (env : Envelope) : JsonLibrary where
  readEnvelope _ := .ok env
  readValue _ := none
  shapeErrors := ⟨fun _ => "", fun _ => ""⟩

def sampleSurroundings : Surroundings Unit where
  clock _ := UnixTime.epoch
  hosts := {
    snapshot := fun _ => ⟨"", 0, "", 0, 0, 0, 0, 0, 0, ⟨0, 0, 0, 0, none⟩, 0, 0, 0⟩
    call := fun _ d _ _ => (.error (.failed .unavailable "" false), d) }

def sampleDaemon : DaemonState Unit where
  broker := Broker.empty
  events := EventRouter.spawn
  browserOwners := ∅
  idCounter := 0
  credentials := ∅
  credentialsIssued := 0
  credentialFile := none
  fileCredentialExpiry := none
  host := ()

def sampleServer : ServerConfig := ⟨.off, false, some "data"⟩

end DshDesktop.Daemon
