import DshDesktop.Contracts.Patterns
import DshDesktop.Contracts.Validate

/-!
# The embedded schemas

The coordinate and envelope schemas of `packages/capability-contracts/src/schema.ts` as
checkers.
-/

namespace DshDesktop.Contracts
open Daemon Json List
variable {names : List String} {members mems : List (String × Json)} {at_ : String}

section
variable (ecma : Ecma)

def coordinateSchema : Checker :=
  closedRecord ecma
    [("apiVersion", matching ecma apiVersionPattern), ("kind", matching ecma kindPattern)]
    ["apiVersion", "kind"]

def requirementSchema : Checker :=
  closedRecord ecma [("coordinate", coordinateSchema ecma), ("required", boolean ecma)]
    ["coordinate", "required"]

def helloPayloadSchema : Checker :=
  closedRecord ecma
    [("instanceId", text ecma (some 8) (some 128)),
      ("supports", listOf ecma (coordinateSchema ecma)),
      ("requires", listOf ecma (requirementSchema ecma))]
    ["instanceId", "supports", "requires"]

def unavailableReasons : List String :=
  ["unavailable", "unsupported_version", "policy_denied", "provider_failed"]

def unavailableCapabilitySchema : Checker :=
  closedRecord ecma
    [("coordinate", coordinateSchema ecma), ("reason", oneOfNames ecma unavailableReasons)]
    ["coordinate", "reason"]

def leaseConstraintsSchema : Checker :=
  closedRecord ecma [("maxSeconds", integer ecma 1), ("approvalRequired", boolean ecma)] []

def agreementPayloadSchema : Checker :=
  closedRecord ecma
    [("activationId", text ecma (some 1) (some 128)),
      ("granted", listOf ecma (coordinateSchema ecma)),
      ("unavailable", listOf ecma (unavailableCapabilitySchema ecma)),
      ("leaseConstraints", leaseConstraintsSchema ecma)]
    ["activationId", "granted", "unavailable"]

def participantSchema : Checker :=
  closedRecord ecma
    [("component", text ecma (some 1) none), ("facet", text ecma (some 1) none),
      ("activationId", text ecma (some 1) (some 128))]
    ["component", "facet"]

def errorCodes : List String :=
  ["UNAVAILABLE", "UNAUTHORIZED", "UNSUPPORTED_VERSION", "NOT_PROCESS_OWNER",
    "USER_GESTURE_REQUIRED", "USER_DENIED", "STALE_GENERATION", "MALFORMED_MESSAGE", "CONFLICT",
    "TIMEOUT", "SAFE_STOP"]

def errorSchema : Checker :=
  closedRecord ecma
    [("code", oneOfNames ecma errorCodes), ("message", text ecma none (some 512)),
      ("retryable", boolean ecma), ("correlationId", text ecma (some 8) (some 128))]
    ["code", "message", "retryable", "correlationId"]

def requiring (names : List String) : Checker := validate ecma { required := names }

def noneOf (names : List String) : Checker :=
  validate ecma { anyOf := names.map fun name => requiring ecma [name] }

def whenKind (kind : String) (also : Checker) : Checker :=
  validate ecma
    { onlyIf := some (validate ecma { properties := [("kind", constant ecma kind)] }),
      thenAlso := some also }

def helloRules : Checker :=
  validate ecma
    { required := ["payload"], properties := [("payload", helloPayloadSchema ecma)],
      not := some (noneOf ecma ["replyTo", "capability", "method", "error"]) }

def agreementRules : Checker :=
  validate ecma
    { required := ["replyTo", "payload"], properties := [("payload", agreementPayloadSchema ecma)],
      not := some (noneOf ecma ["capability", "method", "error"]) }

def invocationRules : Checker :=
  validate ecma
    { required := ["capability", "method", "payload"],
      not := some (noneOf ecma ["replyTo", "error"]) }

def resultRules : Checker :=
  validate ecma
    { required := ["replyTo", "capability", "method"], oneOf := some
        [validate ecma { required := ["payload"], not := some (requiring ecma ["error"]) },
          validate ecma { required := ["error"], not := some (requiring ecma ["payload"]) }] }

def eventRules : Checker :=
  validate ecma
    { required := ["capability", "method", "payload"], not := some (requiring ecma ["error"]) }

def envelopeKinds : List String := ["Hello", "Agreement", "Invocation", "Result", "Event"]

def envelopeProperties : List (String × Checker) :=
  [("protocol", constant ecma protocol), ("id", text ecma (some 8) (some 128)),
    ("kind", oneOfNames ecma envelopeKinds), ("replyTo", text ecma (some 8) (some 128)),
    ("participant", participantSchema ecma), ("timestamp", dateTime ecma),
    ("generation", integer ecma 0), ("capability", coordinateSchema ecma),
    ("method", matching ecma methodPattern), ("payload", anyObject ecma),
    ("error", errorSchema ecma)]

def kindRules : List Checker :=
  [whenKind ecma "Hello" (helloRules ecma), whenKind ecma "Agreement" (agreementRules ecma),
    whenKind ecma "Invocation" (invocationRules ecma), whenKind ecma "Result" (resultRules ecma),
    whenKind ecma "Event" (eventRules ecma)]

def envelopeKeywords : Keywords where
  type := some [.object]
  additionalProperties := false
  required := ["protocol", "id", "kind", "participant", "timestamp", "generation"]
  properties := envelopeProperties ecma
  allOf := kindRules ecma

def envelopeSchema : Checker := validate ecma (envelopeKeywords ecma)

def validateEnvelope (input : Json) : Except (List Issue) Json :=
  match envelopeSchema ecma "envelope" input with
  | [] => .ok input
  | errors => .error errors

end

abbrev Members := String → Option Json

def Required (o : Option Json) (P : Json → Prop) : Prop := ∃ v, o = some v ∧ P v

def Allowed (o : Option Json) (P : Json → Prop) : Prop := ∀ v, o = some v → P v

def IsRecord (fields : List String) (Q : Members → Prop) (v : Json) : Prop :=
  ∃ members, v = .object members ∧
    (∀ key ∈ keys members, key ∈ fields ∨ key ∈ inheritedNames) ∧ Q fun key => members.lookup key

def IsText (P : String → Prop) (v : Json) : Prop := ∃ s, v = .string s ∧ P s

def IsName (names : List String) (v : Json) : Prop := ∃ name ∈ names, v = .string name

def IsFlag (v : Json) : Prop := ∃ b, v = .bool b

def IsInteger (ecma : Ecma) (minimum : ℕ) (v : Json) : Prop :=
  ∃ n, v = .number n ∧ ecma.isInteger n = true ∧ ecma.compare n minimum ≠ .lt

def IsList (ecma : Ecma) (P : Json → Prop) (v : Json) : Prop :=
  ∃ items, v = .array items ∧ (∀ x ∈ items, P x) ∧ (items.map (itemKey ecma)).Nodup

def UnitsIn (min max : ℕ) (s : String) : Prop := min ≤ unitLength s ∧ unitLength s ≤ max

variable (m : Members) {Q : Members → Prop} {P : Json → Prop} {sub : Checker} {name : String}
  {k : Keywords}

def CoordinateMembers : Prop :=
  Required (m "apiVersion") (IsText fun s => validApiVersion s = true) ∧
  Required (m "kind") (IsText fun s => validCoordinateKind s = true)

def IsCoordinate : Json → Prop := IsRecord ["apiVersion", "kind"] CoordinateMembers

def RequirementMembers : Prop :=
  Required (m "coordinate") IsCoordinate ∧ Required (m "required") IsFlag

def IsRequirement : Json → Prop := IsRecord ["coordinate", "required"] RequirementMembers

def HelloMembers (ecma : Ecma) (m : Members) : Prop :=
  Required (m "instanceId") (IsText (UnitsIn 8 128)) ∧
  Required (m "supports") (IsList ecma IsCoordinate) ∧
  Required (m "requires") (IsList ecma IsRequirement)

def IsHello (ecma : Ecma) : Json → Prop :=
  IsRecord ["instanceId", "supports", "requires"] (HelloMembers ecma)

def UnavailableMembers : Prop :=
  Required (m "coordinate") IsCoordinate ∧ Required (m "reason") (IsName unavailableReasons)

def IsUnavailable : Json → Prop := IsRecord ["coordinate", "reason"] UnavailableMembers

def LeaseMembers (ecma : Ecma) (m : Members) : Prop :=
  Allowed (m "maxSeconds") (IsInteger ecma 1) ∧ Allowed (m "approvalRequired") IsFlag

def IsLease (ecma : Ecma) : Json → Prop :=
  IsRecord ["maxSeconds", "approvalRequired"] (LeaseMembers ecma)

def AgreementMembers (ecma : Ecma) (m : Members) : Prop :=
  Required (m "activationId") (IsText (UnitsIn 1 128)) ∧
  Required (m "granted") (IsList ecma IsCoordinate) ∧
  Required (m "unavailable") (IsList ecma IsUnavailable) ∧
  Allowed (m "leaseConstraints") (IsLease ecma)

def IsAgreement (ecma : Ecma) : Json → Prop :=
  IsRecord ["activationId", "granted", "unavailable", "leaseConstraints"] (AgreementMembers ecma)

def ParticipantMembers : Prop :=
  Required (m "component") (IsText fun s => 1 ≤ unitLength s) ∧
  Required (m "facet") (IsText fun s => 1 ≤ unitLength s) ∧
  Allowed (m "activationId") (IsText (UnitsIn 1 128))

def IsParticipant : Json → Prop :=
  IsRecord ["component", "facet", "activationId"] ParticipantMembers

def ErrorMembers : Prop :=
  Required (m "code") (IsName errorCodes) ∧
  Required (m "message") (IsText fun s => unitLength s ≤ 512) ∧
  Required (m "retryable") IsFlag ∧ Required (m "correlationId") (IsText (UnitsIn 8 128))

def IsError : Json → Prop :=
  IsRecord ["code", "message", "retryable", "correlationId"] ErrorMembers

def envelopeFields : List String :=
  ["protocol", "id", "kind", "replyTo", "participant", "timestamp", "generation", "capability",
    "method", "payload", "error"]

@[mk_iff] structure EnvelopeMembers (ecma : Ecma) (m : Members) : Prop where
  protocol : Required (m "protocol") fun v => v = .string protocol
  id : Required (m "id") (IsText (UnitsIn 8 128))
  kind : Required (m "kind") (IsName envelopeKinds)
  replyTo : Allowed (m "replyTo") (IsText (UnitsIn 8 128))
  participant : Required (m "participant") IsParticipant
  timestamp : Required (m "timestamp") (IsText fun s => ecma.dateParses s = true)
  generation : Required (m "generation") (IsInteger ecma 0)
  capability : Allowed (m "capability") IsCoordinate
  method : Allowed (m "method") (IsText fun s => validMethod s = true)
  payload : Allowed (m "payload") fun v => ∃ members, v = .object members
  error : Allowed (m "error") IsError

def Present (names : List String) : Prop := ∀ name ∈ names, ∃ v, m name = some v

def Absent (names : List String) : Prop := ∀ name ∈ names, m name = none

def KindRules (ecma : Ecma) (m : Members) : EnvelopeKind → Prop
  | .hello => Required (m "payload") (IsHello ecma) ∧
      Absent m ["replyTo", "capability", "method", "error"]
  | .agreement => Present m ["replyTo"] ∧ Required (m "payload") (IsAgreement ecma) ∧
      Absent m ["capability", "method", "error"]
  | .invocation => Present m ["capability", "method", "payload"] ∧ Absent m ["replyTo", "error"]
  | .result => Present m ["replyTo", "capability", "method"] ∧
      (Present m ["payload"] ∧ Absent m ["error"] ∨ Present m ["error"] ∧ Absent m ["payload"])
  | .event => Present m ["capability", "method", "payload"] ∧ Absent m ["error"]

def kindName : EnvelopeKind → String
  | .hello => "Hello"
  | .agreement => "Agreement"
  | .invocation => "Invocation"
  | .result => "Result"
  | .event => "Event"

def IsEnvelope (ecma : Ecma) : Json → Prop :=
  IsRecord envelopeFields fun m => EnvelopeMembers ecma m ∧
    ∀ kind, m "kind" = some (.string (kindName kind)) → KindRules ecma m kind

variable {ecma : Ecma}

theorem boolean_isFlag : (boolean ecma).Means IsFlag := boolean_means ecma

theorem oneOfNames_isName (h : ∀ name ∈ names, Plain name) :
    (oneOfNames ecma names).Means (IsName names) := oneOfNames_means ecma h

theorem integer_isInteger {low : ℕ} : (integer ecma low).Means (IsInteger ecma low) :=
  integer_means ecma low

theorem listOf_isList (h : sub.Means P) :
    (listOf ecma sub).Means (IsList ecma P) := listOf_means ecma h

theorem text_unitsIn {min max : ℕ} :
    (text ecma (some min) (some max)).Means (IsText (UnitsIn min max)) := by
  intro at_ v
  rw [text_means]
  simp [IsText, UnitsIn]

theorem text_nonempty : (text ecma (some 1) none).Means (IsText fun s => 1 ≤ unitLength s) := by
  intro at_ v
  rw [text_means]
  simp [IsText]

theorem text_atMost (max : ℕ) :
    (text ecma none (some max)).Means (IsText fun s => unitLength s ≤ max) := by
  intro at_ v
  rw [text_means]
  simp [IsText]

theorem matching_of_test {pattern : Pattern} {P : String → Bool} (h : ∀ s, pattern.test s = P s) :
    (matching ecma pattern).Means (IsText fun s => P s) := by
  intro at_ v
  rw [matching_means]
  simp only [h]
  rfl

theorem allowed_and_present_iff {o : Option Json} :
    ((∀ v, o = some v → P v) ∧ ∃ v, o = some v) ↔ Required o P := by
  constructor
  · intro h
    obtain ⟨hvl, v, hv⟩ := h
    exact ⟨v, hv, hvl v hv⟩
  · intro h
    obtain ⟨v, hv, hP⟩ := h
    refine ⟨?_, v, hv⟩
    intro w hw
    rw [hv] at hw
    cases hw
    exact hP

structure Field where
  key : String
  schema : Checker
  P : Json → Prop
  means : schema.Means P
  required : Bool

def Field.property (f : Field) : String × Checker := (f.key, f.schema)

def Field.Ok (f : Field) (m : Members) : Prop :=
  if f.required then Required (m f.key) f.P else Allowed (m f.key) f.P

theorem Field.ok_iff {f : Field} (at_ : String) (h : f.key ∉ inheritedNames) :
    (∀ v, mems.lookup f.key = some v → f.schema (at_ ++ "." ++ f.key) v = []) ∧
      (f.required → hasProperty mems f.key) ↔
    f.Ok fun key => mems.lookup key := by
  simp only [f.means _ _, hasProperty_iff h, Field.Ok]
  cases hreq : f.required with
  | false => simp [Allowed]
  | true =>
    simp only [forall_const, if_true]
    exact allowed_and_present_iff

theorem recordOk_iff (flds : List Field) (h : ∀ f ∈ flds, f.key ∉ inheritedNames)
    (hQ : ∀ m, (∀ f ∈ flds, f.Ok m) ↔ Q m) :
    RecordOk (flds.map Field.property) ((flds.filter Field.required).map Field.key) at_
        mems ↔
      (∀ key ∈ keys mems, key ∈ flds.map Field.key ∨ key ∈ inheritedNames) ∧
        Q fun key => mems.lookup key := by
  rw [← hQ]
  have hkeys : (flds.map Field.property).map Prod.fst = flds.map Field.key := by
    rw [map_map]
    rfl
  constructor
  · intro hok
    refine ⟨fun key hkey => hkeys ▸ hok.known key hkey, fun f hf => ?_⟩
    refine (Field.ok_iff at_ (h f hf)).mp ⟨?_, ?_⟩
    · exact hok.values f.property (mem_map_of_mem hf)
    · intro hreq
      exact hok.required f.key (mem_map_of_mem (mem_filter.mpr ⟨hf, hreq⟩))
  · intro hok
    refine ⟨?_, ?_, fun key hkey => hkeys ▸ hok.1 key hkey⟩
    · intro p hp
      obtain ⟨f, hf, rfl⟩ := mem_map.mp hp
      exact ((Field.ok_iff at_ (h f hf)).mpr (hok.2 f hf)).1
    · intro key hkey
      obtain ⟨f, hf, rfl⟩ := mem_map.mp hkey
      obtain ⟨hmem, hreq⟩ := mem_filter.mp hf
      exact ((Field.ok_iff at_ (h f hmem)).mpr (hok.2 f hmem)).2 hreq

theorem closedRecord_means (flds : List Field) (h : ∀ f ∈ flds, f.key ∉ inheritedNames)
    (hQ : ∀ m, (∀ f ∈ flds, f.Ok m) ↔ Q m) :
    (closedRecord ecma (flds.map Field.property)
      ((flds.filter Field.required).map Field.key)).Means
        (IsRecord (flds.map Field.key) Q) := by
  intro at_ v
  rw [closedRecord_eq_nil]
  refine exists_congr fun members => and_congr_right fun _ => ?_
  exact recordOk_iff flds h hQ

theorem coordinateSchema_means : (coordinateSchema ecma).Means IsCoordinate :=
  closedRecord_means
    [⟨"apiVersion", _, _, matching_of_test apiVersionPattern_test, true⟩,
      ⟨"kind", _, _, matching_of_test kindPattern_test, true⟩]
    (by simp [inheritedNames]) (by simp [Field.Ok, CoordinateMembers])

theorem requirementSchema_means : (requirementSchema ecma).Means IsRequirement :=
  closedRecord_means
    [⟨"coordinate", _, _, coordinateSchema_means, true⟩, ⟨"required", _, _, boolean_isFlag, true⟩]
    (by simp [inheritedNames]) (by simp [Field.Ok, RequirementMembers])

theorem helloPayloadSchema_means : (helloPayloadSchema ecma).Means (IsHello ecma) :=
  closedRecord_means
    [⟨"instanceId", _, _, text_unitsIn, true⟩,
      ⟨"supports", _, _, listOf_isList coordinateSchema_means, true⟩,
      ⟨"requires", _, _, listOf_isList requirementSchema_means, true⟩]
    (by simp [inheritedNames]) (by simp [Field.Ok, HelloMembers])

theorem unavailableCapabilitySchema_means :
    (unavailableCapabilitySchema ecma).Means IsUnavailable :=
  closedRecord_means
    [⟨"coordinate", _, _, coordinateSchema_means, true⟩,
      ⟨"reason", _, _, oneOfNames_isName (by decide +kernel), true⟩]
    (by simp [inheritedNames]) (by simp [Field.Ok, UnavailableMembers])

theorem leaseConstraintsSchema_means : (leaseConstraintsSchema ecma).Means (IsLease ecma) :=
  closedRecord_means
    [⟨"maxSeconds", _, _, integer_isInteger, false⟩,
      ⟨"approvalRequired", _, _, boolean_isFlag, false⟩]
    (by simp [inheritedNames]) (by simp [Field.Ok, LeaseMembers])

theorem agreementPayloadSchema_means : (agreementPayloadSchema ecma).Means (IsAgreement ecma) :=
  closedRecord_means
    [⟨"activationId", _, _, text_unitsIn, true⟩,
      ⟨"granted", _, _, listOf_isList coordinateSchema_means, true⟩,
      ⟨"unavailable", _, _, listOf_isList unavailableCapabilitySchema_means, true⟩,
      ⟨"leaseConstraints", _, _, leaseConstraintsSchema_means, false⟩]
    (by simp [inheritedNames]) (by simp [Field.Ok, AgreementMembers])

theorem participantSchema_means : (participantSchema ecma).Means IsParticipant :=
  closedRecord_means
    [⟨"component", _, _, text_nonempty, true⟩, ⟨"facet", _, _, text_nonempty, true⟩,
      ⟨"activationId", _, _, text_unitsIn, false⟩]
    (by simp [inheritedNames]) (by simp [Field.Ok, ParticipantMembers])

theorem errorSchema_means : (errorSchema ecma).Means IsError :=
  closedRecord_means
    [⟨"code", _, _, oneOfNames_isName (by decide +kernel), true⟩,
      ⟨"message", _, _, text_atMost 512, true⟩, ⟨"retryable", _, _, boolean_isFlag, true⟩,
      ⟨"correlationId", _, _, text_unitsIn, true⟩]
    (by simp [inheritedNames]) (by simp [Field.Ok, ErrorMembers])

theorem validate_open (hconst : k.const = none) (hen : k.enum = none) (hty : k.type = none)
    (hmin : k.minProperties = none) (hmax : k.maxProperties = none)
    (hadd : k.additionalProperties) :
    validate ecma k at_ (.object mems) = [] ↔
      (∀ p ∈ k.properties, ∀ v, mems.lookup p.1 = some v → p.2 (at_ ++ "." ++ p.1) v = []) ∧
      (∀ name ∈ k.required, hasProperty mems name) ∧
      combinedIssues k at_ (.object mems) = [] := by
  rw [validate_eq_nil hconst]
  simp [enumIssues, hen, typeIssues, hty, shapeIssues, objectIssues, propertyIssues_eq_nil,
    pushIf_eq_nil, hmin, hmax, hadd, bound, and_assoc]

theorem requiring_eq_nil : requiring ecma names at_ (.object mems) = [] ↔
      ∀ name ∈ names, hasProperty mems name := by
  rw [requiring, validate_open rfl rfl rfl rfl rfl rfl, combinedIssues_plain rfl rfl rfl rfl rfl]
  simp

theorem noneOf_eq_nil (h : names ≠ []) : noneOf ecma names at_ (.object mems) = [] ↔
      ∃ name ∈ names, hasProperty mems name := by
  rw [noneOf, validate_open rfl rfl rfl rfl rfl rfl]
  simp [combinedIssues, anyOfIssues_eq_nil, h, requiring_eq_nil, oneOfIssues, notIssues, ifIssues]

theorem whenKind_eq_nil {kind : String} (hkn : Plain kind) {also : Checker} :
    whenKind ecma kind also at_ (.object mems) = [] ↔
      (Allowed (mems.lookup "kind") (fun v => v = .string kind) →
        also (at_ ++ " (then)") (.object mems) = []) := by
  have hif : ∀ at_, validate ecma { properties := [("kind", constant ecma kind)] } at_
      (.object mems) = [] ↔ Allowed (mems.lookup "kind") fun v => v = .string kind := by
    intro at_
    rw [validate_open rfl rfl rfl rfl rfl rfl, combinedIssues_plain rfl rfl rfl rfl rfl]
    simp [constant_means ecma hkn _ _, Allowed]
  rw [← hif (at_ ++ " (if)"), whenKind, validate_open rfl rfl rfl rfl rfl rfl]
  simp [combinedIssues, anyOfIssues, oneOfIssues, notIssues, ifIssues]

theorem present_iff (h : ∀ name ∈ names, name ∉ inheritedNames) :
    (∀ name ∈ names, hasProperty mems name) ↔ Present (fun key => mems.lookup key) names :=
  forall₂_congr fun name hnm => hasProperty_iff (h name hnm)

theorem absent_iff (h : ∀ name ∈ names, name ∉ inheritedNames) :
    (¬ ∃ name ∈ names, hasProperty mems name) ↔ Absent (fun key => mems.lookup key) names := by
  simp only [not_exists, not_and]
  refine forall₂_congr fun name hnm => ?_
  rw [hasProperty_iff (h name hnm), ← Option.isSome_iff_exists, Option.not_isSome_iff_eq_none]

theorem rule_eq_nil {rqd : List String} {props : List (String × Checker)} :
    validate ecma { required := rqd, properties := props, not := some sub } at_
        (.object mems) = [] ↔
      (∀ p ∈ props, ∀ v, mems.lookup p.1 = some v → p.2 (at_ ++ "." ++ p.1) v = []) ∧
      (∀ name ∈ rqd, hasProperty mems name) ∧
      ¬ sub (at_ ++ " (not)") (.object mems) = [] := by
  rw [validate_open rfl rfl rfl rfl rfl rfl]
  simp [combinedIssues, anyOfIssues, oneOfIssues, notIssues, ifIssues, pushIf_eq_nil]

theorem helloRules_eq_nil : helloRules ecma at_ (.object mems) = [] ↔
      KindRules ecma (fun key => mems.lookup key) .hello := by
  rw [helloRules, rule_eq_nil, noneOf_eq_nil (by simp), absent_iff (by simp [inheritedNames]),
    present_iff (by simp [inheritedNames]), KindRules, ← allowed_and_present_iff]
  simp [helloPayloadSchema_means _ _, Present, and_assoc]

theorem agreementRules_eq_nil : agreementRules ecma at_ (.object mems) = [] ↔
      KindRules ecma (fun key => mems.lookup key) .agreement := by
  rw [agreementRules, rule_eq_nil, noneOf_eq_nil (by simp), absent_iff (by simp [inheritedNames]),
    present_iff (by simp [inheritedNames]), KindRules, ← allowed_and_present_iff]
  simp only [agreementPayloadSchema_means _ _, Present, mem_cons, not_mem_nil, or_false,
    forall_eq, forall_eq_or_imp]
  tauto

theorem invocationRules_eq_nil : invocationRules ecma at_ (.object mems) = [] ↔
      KindRules ecma (fun key => mems.lookup key) .invocation := by
  rw [invocationRules, rule_eq_nil, noneOf_eq_nil (by simp), absent_iff (by simp [inheritedNames]),
    present_iff (by simp [inheritedNames]), KindRules]
  simp

theorem not_requiring_iff (h : name ∉ inheritedNames) :
    (¬ requiring ecma [name] at_ (.object mems) = []) ↔
      Absent (fun key => mems.lookup key) [name] := by
  rw [requiring_eq_nil, ← absent_iff (by simpa using h)]
  simp

theorem eventRules_eq_nil : eventRules ecma at_ (.object mems) = [] ↔
      KindRules ecma (fun key => mems.lookup key) .event := by
  rw [eventRules, rule_eq_nil, not_requiring_iff (by decide),
    present_iff (by simp [inheritedNames]), KindRules]
  simp

theorem oneOfIssues_pair {a b : Checker} {v : Json} (hk : k.oneOf = some [a, b]) :
    oneOfIssues k at_ v = [] ↔ (a (at_ ++ " (oneOf)") v = [] ∧ ¬ b (at_ ++ " (oneOf)") v = [] ∨
        b (at_ ++ " (oneOf)") v = [] ∧ ¬ a (at_ ++ " (oneOf)") v = []) := by
  rw [oneOfIssues, hk]
  by_cases ha : a (at_ ++ " (oneOf)") v = [] <;> by_cases hb : b (at_ ++ " (oneOf)") v = [] <;>
    simp [pushIf_eq_nil, ha, hb]

theorem resultRules_eq_nil : resultRules ecma at_ (.object mems) = [] ↔
      KindRules ecma (fun key => mems.lookup key) .result := by
  have hbr : ∀ at_ name other, name ∉ inheritedNames → other ∉ inheritedNames →
      (validate ecma { required := [name], not := some (requiring ecma [other]) } at_
        (.object mems) = [] ↔ Present (fun key => mems.lookup key) [name] ∧
          Absent (fun key => mems.lookup key) [other]) := by
    intro at_ name other hnm hot
    rw [rule_eq_nil, not_requiring_iff hot, present_iff (by simpa using hnm)]
    simp
  rw [resultRules, validate_open rfl rfl rfl rfl rfl rfl, present_iff (by simp [inheritedNames]),
    KindRules]
  have hec : Present (fun key => mems.lookup key) ["payload"] →
      ¬ Absent (fun key => mems.lookup key) ["payload"] := by
    intro hpres hab
    obtain ⟨v, hv⟩ := hpres "payload" mem_cons_self
    have hnn := hab "payload" mem_cons_self
    rw [hv] at hnn
    cases hnn
  simp only [combinedIssues, append_eq_nil_iff, anyOfIssues, notIssues, ifIssues,
    flatMap_nil, not_mem_nil, false_implies, implies_true, true_and, and_true]
  refine and_congr_right fun _ => ?_
  rw [oneOfIssues_pair rfl, hbr _ _ _ (by decide) (by decide), hbr _ _ _ (by decide) (by decide)]
  tauto

theorem kindRules_eq_nil {kind : EnvelopeKind}
    (hkn : mems.lookup "kind" = some (.string (kindName kind))) :
    (∀ rule ∈ kindRules ecma, rule at_ (.object mems) = []) ↔
      KindRules ecma (fun key => mems.lookup key) kind := by
  have hwh : ∀ name also, Plain name → (whenKind ecma name also at_ (.object mems) = [] ↔
      (kindName kind = name → also (at_ ++ " (then)") (.object mems) = [])) := by
    intro name also hnm
    rw [whenKind_eq_nil hnm, hkn]
    simp [Allowed]
  simp only [kindRules, forall_mem_cons, not_mem_nil, false_implies, implies_true, and_true]
  rw [hwh _ _ (by decide), hwh _ _ (by decide), hwh _ _ (by decide), hwh _ _ (by decide),
    hwh _ _ (by decide), helloRules_eq_nil, agreementRules_eq_nil, invocationRules_eq_nil,
    resultRules_eq_nil, eventRules_eq_nil]
  cases kind <;> simp [kindName]

theorem mem_envelopeKinds : name ∈ envelopeKinds ↔ ∃ kind, name = kindName kind := by
  constructor
  · intro h
    simp only [envelopeKinds, mem_cons, not_mem_nil, or_false] at h
    rcases h with rfl | rfl | rfl | rfl | rfl
    · exact ⟨.hello, rfl⟩
    · exact ⟨.agreement, rfl⟩
    · exact ⟨.invocation, rfl⟩
    · exact ⟨.result, rfl⟩
    · exact ⟨.event, rfl⟩
  · intro h
    obtain ⟨kind, rfl⟩ := h
    cases kind <;> decide

theorem envelope_recordOk : RecordOk (envelopeProperties ecma)
        ["protocol", "id", "kind", "participant", "timestamp", "generation"] at_ mems ↔
      (∀ key ∈ keys mems, key ∈ envelopeFields ∨ key ∈ inheritedNames) ∧
        EnvelopeMembers ecma fun key => mems.lookup key := by
  refine recordOk_iff
    [⟨"protocol", _, _, constant_means ecma (show Plain protocol by decide), true⟩,
      ⟨"id", _, _, text_unitsIn, true⟩,
      ⟨"kind", _, _,
        oneOfNames_isName (show ∀ name ∈ envelopeKinds, Plain name by decide +kernel), true⟩,
      ⟨"replyTo", _, _, text_unitsIn, false⟩,
      ⟨"participant", _, _, participantSchema_means, true⟩,
      ⟨"timestamp", _, _, dateTime_means ecma, true⟩,
      ⟨"generation", _, _, integer_isInteger, true⟩,
      ⟨"capability", _, _, coordinateSchema_means, false⟩,
      ⟨"method", _, _, matching_of_test methodPattern_test, false⟩,
      ⟨"payload", _, _, anyObject_means ecma, false⟩,
      ⟨"error", _, _, errorSchema_means, false⟩]
    (by simp [inheritedNames]) ?_
  intro m
  simp only [forall_mem_cons, not_mem_nil, false_implies, implies_true,
    and_true, Field.Ok, if_true, Bool.false_eq_true, if_false]
  exact (envelopeMembers_iff ecma m).symm

theorem kindName_injective : Function.Injective kindName := by
  intro a b h
  cases a <;> cases b <;> first | rfl | exact absurd h (by decide)

theorem allOf_eq_nil (h : EnvelopeMembers ecma fun key => mems.lookup key) :
    (∀ rule ∈ kindRules ecma, rule at_ (.object mems) = []) ↔
      ∀ kind, mems.lookup "kind" = some (.string (kindName kind)) →
        KindRules ecma (fun key => mems.lookup key) kind := by
  obtain ⟨_, hget, name, hnm, rfl⟩ := h.kind
  obtain ⟨kind, rfl⟩ := mem_envelopeKinds.mp hnm
  rw [kindRules_eq_nil hget]
  constructor
  · intro hrules kind' hkn'
    rw [hget] at hkn'
    rw [← kindName_injective (Json.string.inj (Option.some.inj hkn'))]
    exact hrules
  · intro hrules
    exact hrules kind hget

/-- What the envelope schema accepts. -/
theorem envelopeSchema_means : (envelopeSchema ecma).Means (IsEnvelope ecma) := by
  intro at_ v
  rw [envelopeSchema, validate_eq_nil rfl]
  cases v with
  | object members =>
    have hall : combinedIssues (envelopeKeywords ecma) at_ (.object members) = [] ↔
        ∀ rule ∈ kindRules ecma, rule (at_ ++ " (allOf)") (.object members) = [] := by
      simp [combinedIssues, envelopeKeywords, anyOfIssues, oneOfIssues, notIssues, ifIssues]
    rw [shapeIssues, objectIssues_eq_nil rfl rfl rfl, hall]
    simp only [envelopeKeywords, envelope_recordOk, enumIssues, typeIssues, hasType, IsEnvelope,
      IsRecord, pushIf_eq_nil]
    constructor
    · intro h
      obtain ⟨_, _, ⟨hkn, hmm⟩, hrules⟩ := h
      exact ⟨members, rfl, hkn, hmm, (allOf_eq_nil hmm).mp hrules⟩
    · intro h
      obtain ⟨_, heq, hkn, hmm, hrules⟩ := h
      cases heq
      exact ⟨trivial, rfl, ⟨hkn, hmm⟩, (allOf_eq_nil hmm).mpr hrules⟩
  | _ =>
    simp [enumIssues, typeIssues, envelopeKeywords, pushIf_eq_nil, hasType, IsEnvelope, IsRecord]

theorem validateEnvelope_ok_iff {v : Json} :
    (∃ value, validateEnvelope ecma v = .ok value) ↔ IsEnvelope ecma v := by
  rw [← envelopeSchema_means "envelope", validateEnvelope]
  split
  · next h => simp [h]
  · next h => simpa using h

end DshDesktop.Contracts
