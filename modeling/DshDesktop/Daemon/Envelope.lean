import DshDesktop.Daemon.Timestamp
import DshDesktop.Library.Json

/-!
# The interop envelope and its frame-level validation

The wire types of `crates/daemon/src/envelope.rs` with their derived writers and readers,
and `validate_envelope`, whose validators return the issues in order. The records of an
envelope refuse a key that is given twice; the payload is read as a value first, which
collapses such keys.
-/

namespace DshDesktop.Daemon
open Json List

def protocol : String := "interop.dsh-desktop.local/v1alpha1"

def idMinLen : ℕ := 8
def idMaxLen : ℕ := 128
def errorMessageMaxLen : ℕ := 512

inductive EnvelopeKind
  | hello
  | agreement
  | invocation
  | result
  | event
  deriving DecidableEq

inductive ErrorCode
  | unavailable
  | unauthorized
  | unsupportedVersion
  | notProcessOwner
  | userGestureRequired
  | userDenied
  | staleGeneration
  | malformedMessage
  | conflict
  | timeout
  | safeStop

inductive UnavailableReason
  | unavailable
  | unsupportedVersion
  | policyDenied
  | providerFailed

structure ProtocolCoordinate where
  apiVersion : String
  kind : String
  deriving DecidableEq

structure Participant where
  component : String
  facet : String
  activationId : Option String
  deriving DecidableEq

structure ProtocolError where
  code : ErrorCode
  message : String
  retryable : Bool
  correlationId : String

structure Requirement where
  coordinate : ProtocolCoordinate
  required : Bool

structure HelloPayload where
  instanceId : String
  supports : List ProtocolCoordinate
  requires : List Requirement

structure UnavailableCapability where
  coordinate : ProtocolCoordinate
  reason : UnavailableReason

structure LeaseConstraints where
  maxSeconds : Option ℕ
  approvalRequired : Option Bool

structure AgreementPayload where
  activationId : String
  granted : List ProtocolCoordinate
  unavailable : List UnavailableCapability
  leaseConstraints : Option LeaseConstraints

structure Envelope where
  protocol : String
  id : String
  kind : EnvelopeKind
  replyTo : Option String
  participant : Participant
  timestamp : String
  generation : ℕ
  capability : Option ProtocolCoordinate
  method : Option String
  payload : Option Json
  error : Option ProtocolError

def ProtocolCoordinate.toJson (c : ProtocolCoordinate) : Json :=
  .object [("apiVersion", .string c.apiVersion), ("kind", .string c.kind)]

variable (v : Json)

def ProtocolCoordinate.read : Option ProtocolCoordinate := do
  let ms ← v.readRecord ["apiVersion", "kind"]
  let apiVersion ← readField readString ms "apiVersion"
  let kind ← readField readString ms "kind"
  return ⟨apiVersion, kind⟩

def Requirement.toJson (r : Requirement) : Json :=
  .object [("coordinate", r.coordinate.toJson), ("required", .bool r.required)]

def Requirement.read : Option Requirement := do
  let ms ← v.readRecord ["coordinate", "required"]
  let coordinate ← readField ProtocolCoordinate.read ms "coordinate"
  let required ← readField readBool ms "required"
  return ⟨coordinate, required⟩

def HelloPayload.read : Option HelloPayload := do
  let ms ← v.readRecord ["instanceId", "supports", "requires"]
  let instanceId ← readField readString ms "instanceId"
  let supports ← readField (readList ProtocolCoordinate.read) ms "supports"
  let requires ← readField (readList Requirement.read) ms "requires"
  return ⟨instanceId, supports, requires⟩

def UnavailableReason.wire : UnavailableReason → String
  | .unavailable => "unavailable"
  | .unsupportedVersion => "unsupported_version"
  | .policyDenied => "policy_denied"
  | .providerFailed => "provider_failed"

def UnavailableReason.read : Json → Option UnavailableReason :=
  readVariant [("unavailable", .unavailable), ("unsupported_version", .unsupportedVersion),
    ("policy_denied", .policyDenied), ("provider_failed", .providerFailed)]

def UnavailableCapability.toJson (u : UnavailableCapability) : Json :=
  .object [("coordinate", u.coordinate.toJson), ("reason", .string u.reason.wire)]

def UnavailableCapability.read : Option UnavailableCapability := do
  let ms ← v.readRecord ["coordinate", "reason"]
  let coordinate ← readField ProtocolCoordinate.read ms "coordinate"
  let reason ← readField UnavailableReason.read ms "reason"
  return ⟨coordinate, reason⟩

def optionalMember {α : Type*} (name : String) (write : α → Json) : Option α → List (String × Json)
  | none => []
  | some x => [(name, write x)]

def LeaseConstraints.toJson (k : LeaseConstraints) : Json :=
  .object (optionalMember "maxSeconds" nat k.maxSeconds ++
    optionalMember "approvalRequired" bool k.approvalRequired)

def LeaseConstraints.read : Option LeaseConstraints := do
  let ms ← v.readRecord ["maxSeconds", "approvalRequired"]
  let maxSeconds ← readOptional readU64 ms "maxSeconds"
  let approvalRequired ← readOptional readBool ms "approvalRequired"
  return ⟨maxSeconds, approvalRequired⟩

def AgreementPayload.toJson (p : AgreementPayload) : Json :=
  .object ([("activationId", .string p.activationId),
    ("granted", .array (p.granted.map ProtocolCoordinate.toJson)),
    ("unavailable", .array (p.unavailable.map UnavailableCapability.toJson))] ++
    optionalMember "leaseConstraints" LeaseConstraints.toJson p.leaseConstraints)

def AgreementPayload.read : Option AgreementPayload := do
  let ms ← v.readRecord ["activationId", "granted", "unavailable", "leaseConstraints"]
  let activationId ← readField readString ms "activationId"
  let granted ← readField (readList ProtocolCoordinate.read) ms "granted"
  let unavailable ← readField (readList UnavailableCapability.read) ms "unavailable"
  let leaseConstraints ← readOptional LeaseConstraints.read ms "leaseConstraints"
  return ⟨activationId, granted, unavailable, leaseConstraints⟩

def isLower (c : Char) : Bool := 'a' ≤ c && c ≤ 'z'
def isUpper (c : Char) : Bool := 'A' ≤ c && c ≤ 'Z'
def isDecimal (c : Char) : Bool := '0' ≤ c && c ≤ '9'

def validMethod (method : String) : Bool :=
  match method.toList with
  | [] => false
  | first :: rest =>
    isLower first && 2 ≤ method.utf8ByteSize &&
      rest.all fun c => isLower c || isDecimal c || c == '.' || c == '_' || c == '-'

def rsplitSlash (value : String) : Option (List Char × List Char) :=
  let reversed := value.toList.reverse
  match reversed.dropWhile (· ≠ '/') with
  | [] => none
  | _ :: before => some (before.reverse, (reversed.takeWhile (· ≠ '/')).reverse)

def stageRest (suffix : List Char) : Option (List Char) :=
  if "alpha".toList.isPrefixOf suffix then some (suffix.drop 5)
  else if "beta".toList.isPrefixOf suffix then some (suffix.drop 4)
  else none

def validVersion : List Char → Bool
  | 'v' :: rest =>
    let suffix := rest.dropWhile isDecimal
    (rest.takeWhile isDecimal ≠ []) && (suffix = [] ||
        match stageRest suffix with
        | some stage => stage ≠ [] && stage.all isDecimal
        | none => false)
  | _ => false

def validApiVersion (value : String) : Bool :=
  match rsplitSlash value with
  | none => false
  | some (space, version) =>
    (space ≠ [] && space.all fun c => isLower c || isDecimal c || c == '.' || c == '-') &&
      validVersion version

def validCoordinateKind (value : String) : Bool :=
  match value.toList with
  | [] => false
  | first :: rest =>
    isUpper first && 2 ≤ value.utf8ByteSize &&
      rest.all fun c => isLower c || isUpper c || isDecimal c

structure ValidationIssue where
  path : String
  message : String
  deriving DecidableEq

/-- How the JSON library words a payload that does not have the expected shape. -/
structure ShapeErrors where
  hello : Json → String
  agreement : Json → String

def pushIf (condition : Bool) (path message : String) : List ValidationIssue :=
  if condition then [⟨path, message⟩] else []

def idLengthOk (id : String) : Bool := idMinLen ≤ id.utf8ByteSize && id.utf8ByteSize ≤ idMaxLen

def activationIdLengthOk (id : String) : Bool := 1 ≤ id.utf8ByteSize && id.utf8ByteSize ≤ 128

def idLengthText (id : String) : String :=
  "length " ++ toString id.utf8ByteSize ++ " outside $" ++ toString idMinLen ++ "..=$" ++
    toString idMaxLen

def validateReplyTo (env : Envelope) : List ValidationIssue :=
  match env.replyTo with
  | some replyTo => pushIf (!idLengthOk replyTo) "envelope.replyTo" (idLengthText replyTo)
  | none => [⟨"envelope.replyTo", "missing required \"replyTo\""⟩]

def validateCoordinate (path : String) (c : ProtocolCoordinate) : List ValidationIssue :=
  pushIf (!validApiVersion c.apiVersion) path
    ("\"" ++ c.apiVersion ++ "\" does not match ^[a-z0-9.-]+/v[0-9]+(alpha[0-9]+|beta[0-9]+)?$") ++
  pushIf (!validCoordinateKind c.kind) path
    ("\"" ++ c.kind ++ "\" does not match ^[A-Z][A-Za-z0-9]+$")

def validateCapability (env : Envelope) : List ValidationIssue :=
  match env.capability with
  | some c => validateCoordinate "envelope.capability" c
  | none => [⟨"envelope.capability", "missing required \"capability\""⟩]

def validateMethod (env : Envelope) : List ValidationIssue :=
  match env.method with
  | some method => pushIf (!validMethod method) "envelope.method"
      ("\"" ++ method ++ "\" does not match ^[a-z][a-z0-9._-]+$")
  | none => [⟨"envelope.method", "missing required \"method\""⟩]

def validatePayloadObject (env : Envelope) : List ValidationIssue :=
  match env.payload with
  | some payload => pushIf (!payload.isObject) "envelope.payload" "payload must be an object"
  | none => [⟨"envelope.payload", "missing required \"payload\""⟩]

def validateCoordinates (path : String) (list : List ProtocolCoordinate) : List ValidationIssue :=
  list.flatMap (validateCoordinate path)

def validateEntries (path : String) (list : List ProtocolCoordinate) : List ValidationIssue :=
  list.zipIdx.flatMap fun c =>
    validateCoordinate (path ++ "[" ++ toString c.2 ++ "].coordinate") c.1

def uniqueSerialized (items : List Json) : Bool := (items.map render).Nodup

def parsePayload {α : Type*} (read : Json → Option α) (shapeError : Json → String) (path : String)
    (env : Envelope) : Except (List ValidationIssue) α :=
  match env.payload with
  | none => .error [⟨path, "missing required \"payload\""⟩]
  | some value =>
    match read value with
    | some parsed => .ok parsed
    | none => .error [⟨path, "payload does not match shape: " ++ shapeError value⟩]

def validateHelloPayload (p : HelloPayload) : List ValidationIssue :=
  pushIf (!idLengthOk p.instanceId) "envelope.payload.instanceId"
    ("length " ++ toString p.instanceId.utf8ByteSize ++ " outside 8..=128") ++
  validateCoordinates "envelope.payload.supports" p.supports ++
  pushIf (!uniqueSerialized (p.supports.map ProtocolCoordinate.toJson))
    "envelope.payload.supports" "items must be unique" ++
  validateEntries "envelope.payload.requires" (p.requires.map Requirement.coordinate) ++
  pushIf (!uniqueSerialized (p.requires.map Requirement.toJson))
    "envelope.payload.requires" "items must be unique"

variable (texts : ShapeErrors)

def validateHello (env : Envelope) : List ValidationIssue :=
  pushIf env.replyTo.isSome "envelope.replyTo" "Hello must not carry replyTo" ++
  pushIf env.capability.isSome "envelope.capability" "Hello must not carry capability" ++
  pushIf env.method.isSome "envelope.method" "Hello must not carry method" ++
  pushIf env.error.isSome "envelope.error" "Hello must not carry error" ++
  match parsePayload HelloPayload.read texts.hello "envelope.payload" env with
  | .error issues => issues
  | .ok p => validateHelloPayload p

def validateAgreementPayload (p : AgreementPayload) : List ValidationIssue :=
  pushIf (!activationIdLengthOk p.activationId) "envelope.payload.activationId"
    "length outside 1..=128" ++
  validateCoordinates "envelope.payload.granted" p.granted ++
  pushIf (!uniqueSerialized (p.granted.map ProtocolCoordinate.toJson))
    "envelope.payload.granted" "items must be unique" ++
  validateEntries "envelope.payload.unavailable"
    (p.unavailable.map UnavailableCapability.coordinate) ++
  pushIf (!uniqueSerialized (p.unavailable.map UnavailableCapability.toJson))
    "envelope.payload.unavailable" "items must be unique" ++
  pushIf (p.leaseConstraints.any fun k => k.maxSeconds.any (· < 1))
    "envelope.payload.leaseConstraints.maxSeconds" "minimum 1"

def validateAgreement (env : Envelope) : List ValidationIssue :=
  pushIf env.capability.isSome "envelope.capability" "Agreement must not carry capability" ++
  pushIf env.method.isSome "envelope.method" "Agreement must not carry method" ++
  pushIf env.error.isSome "envelope.error" "Agreement must not carry error" ++
  validateReplyTo env ++
  match parsePayload AgreementPayload.read texts.agreement "envelope.payload" env with
  | .error issues => issues
  | .ok p => validateAgreementPayload p

def validateInvocation (env : Envelope) : List ValidationIssue :=
  pushIf env.replyTo.isSome "envelope.replyTo" "Invocation must not carry replyTo" ++
  pushIf env.error.isSome "envelope.error" "Invocation must not carry error" ++
  validateCapability env ++ validateMethod env ++ validatePayloadObject env

def validateEvent (env : Envelope) : List ValidationIssue :=
  pushIf env.error.isSome "envelope.error" "Event must not carry error" ++
  validateCapability env ++ validateMethod env ++ validatePayloadObject env

def validateResultBody (env : Envelope) : List ValidationIssue :=
  match env.payload, env.error with
  | some _, some _ => [⟨"envelope", "oneOf matched 2 branches (expected exactly 1): " ++
      "payload and error are mutually exclusive"⟩]
  | none, none => [⟨"envelope", "oneOf matched 0 branches (expected exactly 1): " ++
      "Result requires payload or error"⟩]
  | some payload, none =>
    pushIf (!payload.isObject) "envelope.payload" "payload must be an object"
  | none, some error =>
    pushIf (errorMessageMaxLen < error.message.length) "envelope.error.message"
      ("longer than maxLength $" ++ toString errorMessageMaxLen) ++
    pushIf (!idLengthOk error.correlationId) "envelope.error.correlationId"
      (idLengthText error.correlationId)

def validateResult (env : Envelope) : List ValidationIssue :=
  validateReplyTo env ++ validateCapability env ++ validateMethod env ++ validateResultBody env

def validateHeader (env : Envelope) : List ValidationIssue :=
  pushIf (env.protocol ≠ protocol) "envelope.protocol"
    ("expected const \"$" ++ protocol ++ "\", got \"" ++ env.protocol ++ "\"") ++
  pushIf (!idLengthOk env.id) "envelope.id" ("id " ++ idLengthText env.id) ++
  pushIf (env.participant.component.isEmpty) "envelope.participant.component" "minLength 1" ++
  pushIf (env.participant.facet.isEmpty) "envelope.participant.facet" "minLength 1" ++
  pushIf (env.participant.activationId.any fun id => !activationIdLengthOk id)
    "envelope.participant.activationId" "length outside 1..=128" ++
  pushIf (!isRfc3339Timestamp env.timestamp) "envelope.timestamp"
    ("\"" ++ env.timestamp ++ "\" is not a valid date-time")

def validateKind (env : Envelope) : List ValidationIssue :=
  match env.kind with
  | .hello => validateHello texts env
  | .agreement => validateAgreement texts env
  | .invocation => validateInvocation env
  | .result => validateResult env
  | .event => validateEvent env

def validateEnvelope (env : Envelope) : Except (List ValidationIssue) Unit :=
  match validateHeader env ++ validateKind texts env with
  | [] => .ok ()
  | issues => .error issues

variable {path : String} {env : Envelope} {list : List ProtocolCoordinate}

theorem pushIf_eq_nil {cond : Bool} {message : String} :
    pushIf cond path message = [] ↔ cond = false := by
  cases cond <;> simp [pushIf]

theorem validateEnvelope_ok_iff {texts : ShapeErrors} : validateEnvelope texts env = .ok () ↔
      validateHeader env = [] ∧ validateKind texts env = [] := by
  rw [← append_eq_nil_iff]
  simp only [validateEnvelope]
  split
  · rename_i h
    simp [h]
  · rename_i h
    simpa using h

def CoordinateOk (c : ProtocolCoordinate) : Prop :=
  validApiVersion c.apiVersion = true ∧ validCoordinateKind c.kind = true

def CapabilityOk (capability : Option ProtocolCoordinate) : Prop :=
  ∃ c, capability = some c ∧ CoordinateOk c

def MethodOk (method : Option String) : Prop :=
  ∃ m, method = some m ∧ validMethod m = true

theorem validateCoordinate_eq_nil {c : ProtocolCoordinate} :
    validateCoordinate path c = [] ↔ CoordinateOk c := by
  simp [validateCoordinate, pushIf_eq_nil, CoordinateOk]

theorem validateCapability_eq_nil : validateCapability env = [] ↔ CapabilityOk env.capability := by
  cases h : env.capability with
  | none => simp [validateCapability, h, CapabilityOk]
  | some c => simp [validateCapability, h, CapabilityOk, validateCoordinate_eq_nil]

theorem validateMethod_eq_nil : validateMethod env = [] ↔ MethodOk env.method := by
  cases h : env.method with
  | none => simp [validateMethod, h, MethodOk]
  | some m => simp [validateMethod, h, MethodOk, pushIf_eq_nil]

theorem validateReplyTo_eq_nil {id : String} (h : env.replyTo = some id) :
    validateReplyTo env = [] ↔ idLengthOk id := by
  simp [validateReplyTo, h, pushIf_eq_nil]

theorem validateCoordinates_eq_nil :
    validateCoordinates path list = [] ↔ ∀ c ∈ list, CoordinateOk c := by
  simp [validateCoordinates, validateCoordinate_eq_nil]

theorem validateEntries_eq_nil : validateEntries path list = [] ↔ ∀ c ∈ list, CoordinateOk c := by
  simp only [validateEntries, flatMap_eq_nil_iff, validateCoordinate_eq_nil]
  constructor
  · intro h c hc
    obtain ⟨i, hi⟩ := mem_iff_getElem?.mp hc
    exact h (c, i) (mem_zipIdx_iff_getElem?.mpr hi)
  · intro h c hc
    exact h c.1 (fst_mem_of_mem_zipIdx hc)

theorem ProtocolCoordinate.read_toJson (c : ProtocolCoordinate) : read c.toJson = some c := rfl

theorem UnavailableCapability.read_toJson (u : UnavailableCapability) : read u.toJson = some u := by
  obtain ⟨c, rsn⟩ := u
  cases rsn <;> rfl

theorem LeaseConstraints.read_toJson (k : LeaseConstraints)
    (h : ∀ n, k.maxSeconds = some n → n < 2 ^ 64) : read k.toJson = some k := by
  obtain ⟨maxS, appr⟩ := k
  cases maxS with
  | none => cases appr <;> rfl
  | some n =>
    -- The bound on the number is the only check that does not compute.
    have hn := readU64_nat (h n rfl)
    have hrd (ms : List (String × Json)) (hms : ms.lookup "maxSeconds" = some (nat n)) :
        readOptional readU64 ms "maxSeconds" = some (some n) :=
      readOptional_lookup hms (by simp [nat]) hn
    cases appr with
    | none =>
      change (readOptional readU64 [("maxSeconds", nat n)] "maxSeconds").bind _ = _
      rw [hrd _ rfl]
      rfl
    | some b =>
      change (readOptional readU64
        [("maxSeconds", nat n), ("approvalRequired", bool b)] "maxSeconds").bind _ = _
      rw [hrd _ rfl]
      rfl

theorem AgreementPayload.read_toJson (p : AgreementPayload)
    (h : ∀ k, p.leaseConstraints = some k → ∀ n, k.maxSeconds = some n → n < 2 ^ 64) :
    read p.toJson = some p := by
  obtain ⟨actId, granted, unavailable, lcs⟩ := p
  have hg := readList_write ProtocolCoordinate.read_toJson granted
  have hu := readList_write UnavailableCapability.read_toJson unavailable
  have hfields (ms : List (String × Json))
      (hid : ms.lookup "activationId" = some (.string actId))
      (hgm : ms.lookup "granted" = some (.array (granted.map ProtocolCoordinate.toJson)))
      (hum : ms.lookup "unavailable" = some (.array (unavailable.map UnavailableCapability.toJson)))
      (hk : readOptional LeaseConstraints.read ms "leaseConstraints" = some lcs)
      (hms : (object ms).readRecord
        ["activationId", "granted", "unavailable", "leaseConstraints"] = some ms) :
      read (.object ms) = some ⟨actId, granted, unavailable, lcs⟩ := by
    have hid' := readField_lookup hid (readString_string actId)
    have hg' := readField_lookup hgm hg
    have hu' := readField_lookup hum hu
    simp only [read, hms, hid', hg', hu', hk, Option.bind_eq_bind, Option.bind_some]
    rfl
  cases lcs with
  | none => exact hfields _ rfl rfl rfl rfl rfl
  | some k =>
    have hk := LeaseConstraints.read_toJson k (h k rfl)
    exact hfields _ rfl rfl rfl (readOptional_lookup rfl (by simp [LeaseConstraints.toJson]) hk) rfl


def EnvelopeKind.read : Json → Option EnvelopeKind :=
  readVariant [("Hello", .hello), ("Agreement", .agreement), ("Invocation", .invocation),
    ("Result", .result), ("Event", .event)]

def ErrorCode.read : Json → Option ErrorCode :=
  readVariant [("UNAVAILABLE", .unavailable), ("UNAUTHORIZED", .unauthorized),
    ("UNSUPPORTED_VERSION", .unsupportedVersion), ("NOT_PROCESS_OWNER", .notProcessOwner),
    ("USER_GESTURE_REQUIRED", .userGestureRequired), ("USER_DENIED", .userDenied),
    ("STALE_GENERATION", .staleGeneration), ("MALFORMED_MESSAGE", .malformedMessage),
    ("CONFLICT", .conflict), ("TIMEOUT", .timeout), ("SAFE_STOP", .safeStop)]

def Participant.read (v : Json) : Option Participant := do
  let ms ← v.readRecord ["component", "facet", "activationId"]
  let component ← readField readString ms "component"
  let facet ← readField readString ms "facet"
  let activationId ← readOptional readString ms "activationId"
  return ⟨component, facet, activationId⟩

def ProtocolError.read (v : Json) : Option ProtocolError := do
  let ms ← v.readRecord ["code", "message", "retryable", "correlationId"]
  let code ← readField ErrorCode.read ms "code"
  let message ← readField readString ms "message"
  let retryable ← readField readBool ms "retryable"
  let correlationId ← readField readString ms "correlationId"
  return ⟨code, message, retryable, correlationId⟩

def readValue (v : Json) : Option Json := some v.collapse

def Envelope.read (v : Json) : Option Envelope := do
  let ms ← v.readRecord ["protocol", "id", "kind", "replyTo", "participant", "timestamp",
    "generation", "capability", "method", "payload", "error"]
  let protocol ← readField readString ms "protocol"
  let id ← readField readString ms "id"
  let kind ← readField EnvelopeKind.read ms "kind"
  let replyTo ← readOptional readString ms "replyTo"
  let participant ← readField Participant.read ms "participant"
  let timestamp ← readField readString ms "timestamp"
  let generation ← readField readU64 ms "generation"
  let capability ← readOptional ProtocolCoordinate.read ms "capability"
  let method ← readOptional readString ms "method"
  let payload ← readOptional readValue ms "payload"
  let error ← readOptional ProtocolError.read ms "error"
  return ⟨protocol, id, kind, replyTo, participant, timestamp, generation, capability, method,
    payload, error⟩

def acceptsEnvelope (texts : ShapeErrors) (document : Json) : Prop :=
  ∃ env, Envelope.read document = some env ∧ validateEnvelope texts env = .ok ()

end DshDesktop.Daemon
