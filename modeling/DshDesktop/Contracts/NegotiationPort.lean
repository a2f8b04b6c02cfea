import DshDesktop.Adapter.Negotiation
import DshDesktop.Contracts.TolerantReading

/-!
# The negotiation session of the contracts package, and the adapter's as its port

`NegotiationSession` of `packages/capability-contracts/src/negotiate.ts`; a Hello is the
object that was received. The two sessions answer a sequence of calls alike exactly when
every Hello that is received and every decision that is weighed meets the points on which
only one of the two checks something, or fails points of both. The texts of coordinates that
match their patterns need no escapes, so that two of them have the same text only if they
are the same.
-/

namespace DshDesktop.Contracts
open Daemon Json
open Adapter (NegotiationPhase NegotiationErrorCode NegotiationError NegotiationResult
  RejectionReason Activation Rejection NegotiationEvent AgreementDecision conflict invalidState
  malformed)

def property (v : Json) (key : String) : Option Json :=
  match v with
  | .object members => members.lookup key
  | _ => none

def textProperty (v : Json) (key : String) : Option String := (property v key).bind readString

def coordinatesEqual (a : Json) (b : ProtocolCoordinate) : Bool :=
  textProperty a "apiVersion" == some b.apiVersion && textProperty a "kind" == some b.kind

def supports (hello : Json) : List Json :=
  match (property hello "payload").bind fun payload => property payload "supports" with
  | some (.array items) => items
  | _ => []

def includesCoordinate (list : List Json) (target : ProtocolCoordinate) : Bool :=
  list.any fun c => coordinatesEqual c target

def newMessageId (rand : String) : String := "msg-" ++ rand

def participantValue (p : Participant) : Json :=
  .object ([("component", .string p.component), ("facet", .string p.facet)] ++
    optionalMember "activationId" Json.string p.activationId)

structure AgreementEnvelope where
  id : String
  replyTo : Json
  participant : Json
  timestamp : String
  generation : Json
  payload : AgreementPayload

def AgreementEnvelope.value (a : AgreementEnvelope) : Json :=
  .object [("protocol", .string protocol), ("id", .string a.id), ("kind", .string "Agreement"),
    ("replyTo", a.replyTo), ("participant", a.participant), ("timestamp", .string a.timestamp),
    ("generation", a.generation), ("payload", a.payload.toJson)]

structure NegotiationSession where
  sessionId : String
  phase : NegotiationPhase := .proposed
  hello : Option Json := none
  agreement : Option AgreementEnvelope := none
  activation : Option Activation := none
  rejection : Option Rejection := none
  degraded : Bool := false
  history : List NegotiationEvent := []

namespace NegotiationSession
variable (s : NegotiationSession) (now : ℕ → String)

def receiveHello (hello : Json) : NegotiationResult Json × NegotiationSession :=
  if textProperty hello "kind" ≠ some "Hello" then
    (malformed ("expected Hello, got " ++ (textProperty hello "kind").getD "undefined"), s)
  else if s.phase = .rejected then (invalidState "session is rejected", s)
  else if s.phase ≠ .proposed then
    (conflict ("cannot receive Hello in phase " ++ s.phase.asStr), s)
  else
    match s.hello with
    | some existing =>
      if textProperty existing "id" = textProperty hello "id" then (.ok existing, s)
      else (conflict "Hello already received", s)
    | none =>
      (.ok hello, { s with
        hello := some hello
        history := s.history ++ [⟨.hello, now 0, (textProperty hello "id").getD "undefined"⟩] })

def agreementFor (hello : Json) (freshId : String) (decision : AgreementDecision) :
    AgreementEnvelope where
  id := decision.id.getD freshId
  replyTo := (property hello "id").getD .null
  participant := (decision.participant.map participantValue).getD
    ((property hello "participant").getD .null)
  timestamp := decision.timestamp.getD (now 0)
  generation := (decision.generation.map Json.nat).getD ((property hello "generation").getD .null)
  payload := ⟨decision.activationId, decision.granted, decision.unavailable,
    decision.leaseConstraints⟩

def agree (reads : ℕ) (decision : AgreementDecision) (agreement : AgreementEnvelope) :
    NegotiationSession :=
  let degrade := Adapter.NegotiationSession.degradeEvents decision.unavailable (now reads)
  { s with
    agreement := some agreement
    phase := .agreed
    degraded := s.degraded || !decision.unavailable.isEmpty
    history := s.history ++ degrade ++ [⟨.agreement, now (reads + degrade.length), agreement.id⟩] }

def issueAgreement (ecma : Ecma) (freshId : String) (decision : AgreementDecision) :
    NegotiationResult AgreementEnvelope × NegotiationSession :=
  if s.phase = .rejected then (invalidState "session is rejected", s)
  else
    match s.hello with
    | none => (invalidState "no Hello received yet", s)
    | some hello =>
      if s.phase ≠ .proposed then
        (conflict ("cannot issue Agreement in phase " ++ s.phase.asStr), s)
      else
        match decision.granted.find? fun c => !includesCoordinate (supports hello) c with
        | some c =>
          (conflict ("granted capability " ++ c.apiVersion ++ "/" ++ c.kind ++
            " is not in Hello.supports"), s)
        | none =>
          match decision.unavailable.find? fun u =>
            Adapter.includesCoordinate decision.granted u.coordinate with
          | some u =>
            (conflict ("capability " ++ u.coordinate.apiVersion ++ "/" ++ u.coordinate.kind ++
              " is both granted and unavailable"), s)
          | none =>
            let agreement := agreementFor now hello freshId decision
            match validateEnvelope ecma agreement.value with
            | .error errors =>
              (malformed ("constructed Agreement failed frame validation: " ++
                "; ".intercalate (errors.map Issue.message)), s)
            | .ok _ =>
              (.ok agreement,
                s.agree now (if decision.timestamp.isNone then 1 else 0) decision agreement)

def activationFor (agreement : AgreementEnvelope) : Activation where
  activationId := agreement.payload.activationId
  granted := agreement.payload.granted
  unavailable := agreement.payload.unavailable
  leaseConstraints := agreement.payload.leaseConstraints
  createdAt := now 0
  degraded := s.degraded

def activate : NegotiationResult Activation × NegotiationSession :=
  if s.phase = .rejected then (invalidState "session is rejected", s)
  else
    match s.phase, s.activation, s.agreement with
    | .active, some activation, _ => (.ok activation, s)
    | .agreed, _, some agreement =>
      let activation := s.activationFor now agreement
      (.ok activation, { s with
        activation := some activation
        phase := .active
        history := s.history ++ [⟨.activation, now 0, activation.activationId⟩] })
    | _, _, _ => (invalidState ("cannot activate from phase " ++ s.phase.asStr), s)

def reject (reason : RejectionReason) (message : Option String) :
    Option (NegotiationResult (String × String)) × NegotiationSession :=
  if s.phase = .rejected then
    (s.rejection.map fun rejection => .ok (rejection.reason, rejection.at_), s)
  else if s.phase = .active then (some (conflict "cannot reject an active session"), s)
  else
    let detail :=
      match message with
      | some m => if m.isEmpty then reason.asStr else reason.asStr ++ ": " ++ m
      | none => reason.asStr
    (some (.ok (reason.asStr, now 0)), { s with
      rejection := some ⟨reason.asStr, message, now 0⟩
      phase := .rejected
      history := s.history ++ [⟨.reject, now 0, detail⟩] })

end NegotiationSession

open Daemon Json List

variable {s : String} {v : Json}

section
variable {ecma : Ecma} {P : Json → Prop}

@[simp] theorem isRecord_object {fields : List String} {Q : Members → Prop}
    {members : List (String × Json)} :
    IsRecord fields Q (.object members) ↔
      (∀ key ∈ keys members, key ∈ fields ∨ key ∈ inheritedNames) ∧
        Q fun key => members.lookup key := by
  constructor
  · intro h
    obtain ⟨_, heq, h⟩ := h
    cases heq
    exact h
  · intro h
    exact ⟨_, rfl, h⟩

@[simp] theorem required_some : Required (some v) P ↔ P v :=
  ⟨fun ⟨_, heq, h⟩ => Option.some.inj heq ▸ h, fun h => ⟨v, rfl, h⟩⟩

@[simp] theorem allowed_some : Allowed (some v) P ↔ P v :=
  ⟨fun h => h v rfl, fun h _ heq => Option.some.inj heq ▸ h⟩

@[simp] theorem allowed_none : Allowed none P := nofun

@[simp] theorem isText_string {P : String → Prop} : IsText P (.string s) ↔ P s :=
  ⟨fun ⟨_, heq, h⟩ => Json.string.inj heq ▸ h, fun h => ⟨s, rfl, h⟩⟩

@[simp] theorem isName_string {names : List String} : IsName names (.string s) ↔ s ∈ names :=
  ⟨fun ⟨_, h, heq⟩ => Json.string.inj heq ▸ h, fun h => ⟨s, h, rfl⟩⟩

@[simp] theorem isFlag_bool {b : Bool} : IsFlag (.bool b) := ⟨b, rfl⟩

theorem isList_map {α : Type} {write : α → Json} {xs : List α} :
    IsList ecma P (.array (xs.map write)) ↔
      (∀ x ∈ xs, P (write x)) ∧ (xs.map fun x => itemKey ecma (write x)).Nodup := by
  constructor
  · intro h
    obtain ⟨_, heq, hie, hnd⟩ := h
    cases heq
    rw [map_map] at hnd
    exact ⟨forall_mem_map.mp hie, hnd⟩
  · intro h
    refine ⟨_, rfl, forall_mem_map.mpr h.1, ?_⟩
    rw [map_map]
    exact h.2

end

section
variable {c : Char}

theorem escapeChar_of_between {first last : Char} (hfr : first ≤ c) (hlast : c ≤ last)
    (h32 : 32 ≤ first.toNat) (hqt : ¬ (first ≤ '"' ∧ '"' ≤ last))
    (hbc : ¬ (first ≤ '\\' ∧ '\\' ≤ last)) : escapeChar c = [c] := by
  have hle : first.toNat ≤ c.toNat := hfr
  refine escapeChar_of_printable (by omega) ?_ ?_
  · intro heq
    subst heq
    exact hqt ⟨hfr, hlast⟩
  · intro heq
    subst heq
    exact hbc ⟨hfr, hlast⟩

theorem escapeChar_of_alnum (h : isLower c ∨ isUpper c ∨ isDecimal c) : escapeChar c = [c] := by
  simp only [isLower, isUpper, isDecimal, Bool.and_eq_true, decide_eq_true_eq] at h
  rcases h with h | h | h <;>
    exact escapeChar_of_between h.1 h.2 (by decide) (by decide) (by decide)

theorem plain_of_validCoordinateKind (h : validCoordinateKind s) : Plain s := by
  unfold validCoordinateKind at h
  intro c hc
  split at h
  · cases h
  next first rest hs =>
  simp only [Bool.and_eq_true, all_eq_true, Bool.or_eq_true] at h
  obtain ⟨⟨hfr, _⟩, hrs⟩ := h
  rw [hs] at hc
  rcases mem_cons.mp hc with rfl | hmem
  · exact escapeChar_of_alnum (.inr (.inl hfr))
  · rcases hrs c hmem with (hlw | hup) | hdec
    · exact escapeChar_of_alnum (.inl hlw)
    · exact escapeChar_of_alnum (.inr (.inl hup))
    · exact escapeChar_of_alnum (.inr (.inr hdec))

theorem plain_of_stageOk {suffix : List Char} (h : StageOk suffix) :
    ∀ c ∈ suffix, escapeChar c = [c] := by
  have hst : ∀ {name e : List Char}, (∀ c ∈ name, escapeChar c = [c]) → AllDecimal e →
      ∀ c ∈ name ++ e, escapeChar c = [c] := by
    intro name e hnm he c hc
    rcases mem_append.mp hc with hc | hc
    · exact hnm c hc
    · exact escapeChar_of_alnum (.inr (.inr (he.2 c hc)))
  rcases h with rfl | ⟨e, rfl | rfl, he⟩
  · exact nofun
  · exact hst (by simp [escapeChar]) he
  · exact hst (by simp [escapeChar]) he

theorem plain_of_validApiVersion (h : validApiVersion s) : Plain s := by
  rw [← apiVersionPattern_test] at h
  obtain ⟨space, _, hs, hsp, ds, suffix, rfl, hds, hsf⟩ := rmatch_apiVersion.mp h
  intro c hc
  rw [hs] at hc
  simp only [mem_append, mem_cons] at hc
  rcases hc with hc | rfl | rfl | hc | hc
  · have hclass := hsp.2 c hc
    simp only [Bool.or_eq_true, beq_iff_eq] at hclass
    rcases hclass with ((hlw | hdec) | rfl) | rfl
    · exact escapeChar_of_alnum (.inl hlw)
    · exact escapeChar_of_alnum (.inr (.inr hdec))
    · rfl
    · rfl
  · rfl
  · rfl
  · exact escapeChar_of_alnum (.inr (.inr (hds.2 c hc)))
  · exact plain_of_stageOk hsf c hc

end

section
variable {ecma : Ecma}

theorem stringify_pair {k l : String} {w : Json} (hk : arrayIndex k = none)
    (hl : arrayIndex l = none) :
    (stringify ecma (.object [(k, v), (l, w)])).toList =
      '\x7b' :: ((quote k).toList ++ ':' :: ((stringify ecma v).toList ++ ',' ::
        ((quote l).toList ++ ':' :: ((stringify ecma w).toList ++ ['\x7d'])))) := by
  rw [stringify, ownOrder_of_names (by simp [stringifyMembers, hk, hl])]
  simp [stringifyMembers]

theorem stringify_string : stringify ecma (.string s) = quote s := by
  rw [stringify]

theorem coordinate_text_inj {c c' : ProtocolCoordinate} (h : CoordinateOk c) (h' : CoordinateOk c')
    {r r' : List Char}
    (heq : (stringify ecma c.toJson).toList ++ r = (stringify ecma c'.toJson).toList ++ r') :
    c = c' ∧ r = r' := by
  unfold ProtocolCoordinate.toJson at heq
  rw [stringify_pair (by decide) (by decide), stringify_pair (by decide) (by decide)] at heq
  simp only [stringify_string, cons_append, append_assoc, List.cons.injEq, true_and,
    append_cancel_left_eq] at heq
  obtain ⟨hver, hrs⟩ := quote_append_inj (plain_of_validApiVersion h.1)
    (plain_of_validApiVersion h'.1) heq
  simp only [List.cons.injEq, true_and, append_cancel_left_eq] at hrs
  obtain ⟨hkn, hr⟩ := quote_append_inj (plain_of_validCoordinateKind h.2)
    (plain_of_validCoordinateKind h'.2) hrs
  simp only [nil_append, List.cons.injEq, true_and] at hr
  refine ⟨?_, hr⟩
  cases c
  cases c'
  cases hver
  cases hkn
  rfl

theorem wire_injective : Function.Injective UnavailableReason.wire := by
  intro a b h
  cases a <;> cases b <;> first | rfl | exact absurd h (by decide)

theorem plain_wire {rsn : UnavailableReason} : Plain rsn.wire := by
  cases rsn <;> decide

theorem unavailable_text_inj {u u' : UnavailableCapability} (h : CoordinateOk u.coordinate)
    (h' : CoordinateOk u'.coordinate)
    (heq : stringify ecma u.toJson = stringify ecma u'.toJson) : u = u' := by
  have hlist := congrArg String.toList heq
  unfold UnavailableCapability.toJson at hlist
  rw [stringify_pair (by decide) (by decide), stringify_pair (by decide) (by decide)] at hlist
  simp only [List.cons.injEq, true_and, append_cancel_left_eq] at hlist
  obtain ⟨hcr, hrs⟩ := coordinate_text_inj h h' hlist
  simp only [stringify_string, List.cons.injEq, true_and, append_cancel_left_eq] at hrs
  obtain ⟨hre, _⟩ := quote_append_inj plain_wire plain_wire hrs
  cases u
  cases u'
  cases hcr
  cases wire_injective hre
  rfl

theorem coordinates_distinct {cs : List ProtocolCoordinate} (h : ∀ c ∈ cs, CoordinateOk c) :
    (cs.map fun c => itemKey ecma c.toJson).Nodup ↔ cs.Nodup := by
  refine ⟨List.Nodup.of_map _, List.Nodup.map_on ?_⟩
  intro c hc c' hc' heq
  have hlist := congrArg (fun s : String => s.toList ++ []) heq
  exact (coordinate_text_inj (h c hc) (h c' hc') hlist).1

theorem unavailable_distinct {us : List UnavailableCapability}
    (h : ∀ u ∈ us, CoordinateOk u.coordinate) :
    (us.map fun u => itemKey ecma u.toJson).Nodup ↔ us.Nodup := by
  refine ⟨List.Nodup.of_map _, List.Nodup.map_on ?_⟩
  intro u hu u' hu' heq
  exact unavailable_text_inj (h u hu) (h u' hu') heq

end

section
variable {ecma : Ecma}

theorem isCoordinate_toJson {c : ProtocolCoordinate} : IsCoordinate c.toJson ↔ CoordinateOk c := by
  simp [IsCoordinate, ProtocolCoordinate.toJson, Json.keys, CoordinateMembers, CoordinateOk,
    lookup_cons]

theorem isUnavailable_toJson {u : UnavailableCapability} :
    IsUnavailable u.toJson ↔ CoordinateOk u.coordinate := by
  have hrs : u.reason.wire ∈ unavailableReasons := by cases u.reason <;> decide
  simp [IsUnavailable, UnavailableCapability.toJson, Json.keys, UnavailableMembers,
    isCoordinate_toJson, hrs, lookup_cons]

theorem isLease_toJson {k : LeaseConstraints} :
    IsLease ecma k.toJson ↔ ∀ n ∈ k.maxSeconds, IsInteger ecma 1 (.nat n) := by
  obtain ⟨maxS, appr⟩ := k
  cases maxS <;> cases appr <;>
    simp [IsLease, LeaseConstraints.toJson, optionalMember, Json.keys, LeaseMembers, lookup_cons]

theorem isAgreement_toJson {p : AgreementPayload} : IsAgreement ecma p.toJson ↔
      UnitsIn 1 128 p.activationId ∧ ((∀ c ∈ p.granted, CoordinateOk c) ∧ p.granted.Nodup) ∧
        ((∀ u ∈ p.unavailable, CoordinateOk u.coordinate) ∧ p.unavailable.Nodup) ∧
          ∀ k ∈ p.leaseConstraints, ∀ n ∈ k.maxSeconds, IsInteger ecma 1 (.nat n) := by
  have hgr : IsList ecma IsCoordinate (.array (p.granted.map ProtocolCoordinate.toJson)) ↔
      (∀ c ∈ p.granted, CoordinateOk c) ∧ p.granted.Nodup := by
    rw [isList_map]
    simp only [isCoordinate_toJson]
    exact and_congr_right coordinates_distinct
  have hdw : IsList ecma IsUnavailable (.array (p.unavailable.map UnavailableCapability.toJson)) ↔
        (∀ u ∈ p.unavailable, CoordinateOk u.coordinate) ∧ p.unavailable.Nodup := by
    rw [isList_map]
    simp only [isUnavailable_toJson]
    exact and_congr_right unavailable_distinct
  rw [← hgr, ← hdw]
  cases hlease : p.leaseConstraints with
  | none =>
    simp [IsAgreement, AgreementPayload.toJson, hlease, optionalMember, Json.keys, AgreementMembers,
      lookup_cons]
  | some k =>
    simp [IsAgreement, AgreementPayload.toJson, hlease, optionalMember, Json.keys, AgreementMembers,
      isLease_toJson, lookup_cons]

end

open Adapter.NegotiationSession Option
open Adapter (HelloMessage AgreementMessage)

variable {v : Json} {c : ProtocolCoordinate} {d : AgreementDecision} {hello message : HelloMessage}
  {P : Json → Prop}

def readCoordinate (v : Json) : Option ProtocolCoordinate := do
  let apiVersion ← textProperty v "apiVersion"
  let kind ← textProperty v "kind"
  return ⟨apiVersion, kind⟩

def readRequirement (v : Json) : Option Requirement := do
  let coordinate ← (property v "coordinate").bind readCoordinate
  let required ← (property v "required").bind readBool
  return ⟨coordinate, required⟩

def readParticipant (v : Json) : Option Participant := do
  let component ← textProperty v "component"
  let facet ← textProperty v "facet"
  return ⟨component, facet, textProperty v "activationId"⟩

def readHello (v : Json) : Option HelloMessage := do
  let id ← textProperty v "id"
  let generation ← (property v "generation").bind readU64
  let participant ← (property v "participant").bind readParticipant
  let payload ← property v "payload"
  let instanceId ← textProperty payload "instanceId"
  let supports ← (property payload "supports").bind (readList readCoordinate)
  let requires ← (property payload "requires").bind (readList readRequirement)
  return ⟨id, generation, participant, ⟨instanceId, supports, requires⟩⟩

structure Hello (ecma : Ecma) where
  envelope : Json
  message : HelloMessage
  valid : ∃ value, validateEnvelope ecma envelope = .ok value
  isHello : textProperty envelope "kind" = some "Hello"
  corresponds : readHello envelope = some message

inductive Call (ecma : Ecma)
  | receiveHello (hello : Hello ecma)
  | issueAgreement (decision : AgreementDecision)
  | activate
  | reject (reason : RejectionReason) (message : Option String)

structure Event (ecma : Ecma) where
  call : Call ecma
  now : ℕ → String
  nanos : ℕ
  counter : ℕ
  rand : String

inductive Outcome
  | success
  | failure (code : NegotiationErrorCode)
  | thrown

open Outcome

def Outcome.of {α : Type} : NegotiationResult α → Outcome
  | .ok _ => .success
  | .error e => .failure e.code

section
variable {α : Type} (message : String)

@[simp] theorem Outcome.of_ok (a : α) : of (.ok a : NegotiationResult α) = success := rfl

@[simp] theorem Outcome.of_conflict :
    of (conflict message : NegotiationResult α) = failure .conflict := rfl

@[simp] theorem Outcome.of_invalidState :
    of (invalidState message : NegotiationResult α) = failure .invalidState := rfl

@[simp] theorem Outcome.of_malformed :
    of (malformed message : NegotiationResult α) = failure .malformedMessage := rfl

end

structure Observation where
  outcome : Outcome
  phase : NegotiationPhase
  granted : Option (List ProtocolCoordinate)
  unavailable : Option (List UnavailableCapability)
  degraded : Bool
  activation : Option Activation

section
variable {ecma : Ecma}

def adapterCall (s : Adapter.NegotiationSession) (e : Event ecma) :
    Outcome × Adapter.NegotiationSession :=
  match e.call with
  | .receiveHello hello => (s.receiveHello e.now hello.message).map of id
  | .issueAgreement decision =>
    (s.issueAgreement e.now (Adapter.newMessageId e.nanos e.counter) decision).map of id
  | .activate => (s.activate e.now).map of id
  | .reject reason message => (s.reject e.now reason message).map of id

def contractsCall (t : NegotiationSession) (e : Event ecma) : Outcome × NegotiationSession :=
  match e.call with
  | .receiveHello hello => (t.receiveHello e.now hello.envelope).map of id
  | .issueAgreement decision =>
    (t.issueAgreement e.now ecma (newMessageId e.rand) decision).map of id
  | .activate => (t.activate e.now).map of id
  | .reject reason message =>
    (t.reject e.now reason message).map (fun result => (result.map of).getD .thrown) id

def adapterStep (s : Adapter.NegotiationSession) (e : Event ecma) :
    Adapter.NegotiationSession × Observation :=
  let (outcome, s) := adapterCall s e
  (s, { outcome := outcome, phase := s.phase
        granted := s.agreement.map fun a => a.payload.granted
        unavailable := s.agreement.map fun a => a.payload.unavailable
        degraded := s.degraded, activation := s.activation })

def contractsStep (t : NegotiationSession) (e : Event ecma) : NegotiationSession × Observation :=
  let (outcome, t) := contractsCall t e
  (t, { outcome := outcome, phase := t.phase
        granted := t.agreement.map fun a => a.payload.granted
        unavailable := t.agreement.map fun a => a.payload.unavailable
        degraded := t.degraded, activation := t.activation })

end

structure HelloPoints (hello : HelloMessage) : Prop where
  id : BytesIn 8 128 hello.id
  instanceId : BytesIn 8 128 hello.payload.instanceId
  supports : hello.payload.supports.Nodup
  content : hello.payload.supports ≠ [] ∨ hello.payload.requires ≠ []

structure AdapterPoints (freshId : String) (d : AgreementDecision) : Prop where
  id : BytesIn 8 128 (d.id.getD freshId)
  activationId : BytesIn 1 128 d.activationId
  unavailable : (d.unavailable.map UnavailableCapability.coordinate).Nodup

structure ContractsPoints (ecma : Ecma) (now : ℕ → String) (freshId : String)
    (d : AgreementDecision) : Prop where
  id : UnitsIn 8 128 (d.id.getD freshId)
  activationId : UnitsIn 1 128 d.activationId
  unavailable : d.unavailable.Nodup
  coordinates : ∀ u ∈ d.unavailable, CoordinateOk u.coordinate
  participant : ∀ p ∈ d.participant, 1 ≤ unitLength p.component ∧ 1 ≤ unitLength p.facet ∧
    ∀ id ∈ p.activationId, UnitsIn 1 128 id
  timestamp : ecma.dateParses (d.timestamp.getD (now 0)) = true
  generation : ∀ n ∈ d.generation, IsInteger ecma 0 (.nat n)
  leaseConstraints : ∀ k ∈ d.leaseConstraints, ∀ n ∈ k.maxSeconds, IsInteger ecma 1 (.nat n)

structure Weighed (supports : List ProtocolCoordinate) (d : AgreementDecision) : Prop where
  supported : ∀ c ∈ d.granted, c ∈ supports
  disjoint : ∀ u ∈ d.unavailable, u.coordinate ∉ d.granted
  distinct : d.granted.Nodup

def Matched {ecma : Ecma} (s : Adapter.NegotiationSession) (e : Event ecma) : Prop :=
  match e.call with
  | .receiveHello hello => s.phase = .proposed → s.hello = none → HelloPoints hello.message
  | .issueAgreement d =>
    s.phase = .proposed → ∀ hello, s.hello = some hello → Weighed hello.payload.supports d →
      (AdapterPoints (Adapter.newMessageId e.nanos e.counter) d ↔
        ContractsPoints ecma e.now (newMessageId e.rand) d)
  | .activate | .reject _ _ => True

section
variable {ecma : Ecma}

theorem textProperty_eq_some {key s : String} :
    textProperty v key = some s ↔ property v key = some (.string s) := by
  unfold textProperty
  cases property v key with
  | none => simp
  | some w => cases w <;> simp [readString]

theorem isRecord_property {flds : List String} {Q : Members → Prop} (h : IsRecord flds Q v) :
    Q (property v) := by
  obtain ⟨_, rfl, _, hQ⟩ := h
  exact hQ

theorem coordinatesEqual_iff : coordinatesEqual v c ↔ readCoordinate v = some c := by
  obtain ⟨apiVersion, kind⟩ := c
  simp only [coordinatesEqual, readCoordinate, Bool.and_eq_true, beq_iff_eq, bind_eq_bind,
    bind_eq_some_iff]
  constructor
  · intro h
    exact ⟨_, h.1, _, h.2, rfl⟩
  · intro h
    obtain ⟨_, hver, _, hkn, heq⟩ := h
    cases heq
    exact ⟨hver, hkn⟩

theorem coordinateOk_of_read (hv : IsCoordinate v) (hc : readCoordinate v = some c) :
    CoordinateOk c := by
  obtain ⟨hver, hkn⟩ := isRecord_property hv
  have htx := coordinatesEqual_iff.mpr hc
  simp only [coordinatesEqual, Bool.and_eq_true, beq_iff_eq, textProperty_eq_some] at htx
  rw [htx.1, required_some, isText_string] at hver
  rw [htx.2, required_some, isText_string] at hkn
  exact ⟨hver, hkn⟩

theorem readHello_eq_some (h : readHello v = some message) :
    textProperty v "id" = some message.id ∧ ∃ pay, property v "payload" = some pay ∧
      (property pay "supports").bind (readList readCoordinate) = some message.payload.supports := by
  simp only [readHello, bind_eq_bind, bind_eq_some_iff] at h
  obtain ⟨id, hid, _, _, _, _, pay, hld, _, _, supp, hsp, _, _, heq⟩ := h
  cases heq
  exact ⟨hid, pay, hld, bind_eq_some_iff.mpr hsp⟩

namespace Hello
variable (hello : Hello ecma)

theorem isEnvelope : IsEnvelope ecma hello.envelope := validateEnvelope_ok_iff.mp hello.valid

theorem members : EnvelopeMembers ecma (property hello.envelope) :=
  (isRecord_property hello.isEnvelope).1

theorem payload_isHello : Required (property hello.envelope "payload") (IsHello ecma) :=
  ((isRecord_property hello.isEnvelope).2 .hello (textProperty_eq_some.mp hello.isHello)).1

theorem id_eq : textProperty hello.envelope "id" = some hello.message.id :=
  (readHello_eq_some hello.corresponds).1

/-- The objects under `supports` and the coordinates that they stand for. -/
theorem supports_eq : ∃ items, supports hello.envelope = items ∧ (∀ v ∈ items, IsCoordinate v) ∧
      items.mapM readCoordinate = some hello.message.payload.supports := by
  obtain ⟨-, pay, hld, hsp⟩ := readHello_eq_some hello.corresponds
  obtain ⟨v, hv, hrd⟩ := bind_eq_some_iff.mp hsp
  obtain ⟨_, hp, hhl⟩ := hello.payload_isHello
  rw [hld] at hp
  cases hp
  obtain ⟨_, hlist, _⟩ := isRecord_property hhl
  rw [hv, required_some] at hlist
  obtain ⟨items, rfl, hie, _⟩ := hlist
  refine ⟨items, ?_, hie, hrd⟩
  simp [supports, hld, hv]

theorem includesCoordinate_iff : includesCoordinate (supports hello.envelope) c ↔
      c ∈ hello.message.payload.supports := by
  obtain ⟨items, hie, _, hrd⟩ := hello.supports_eq
  rw [hie, mem_of_mapM hrd, includesCoordinate, List.any_eq_true]
  simp [coordinatesEqual_iff]

theorem supports_ok (hc : c ∈ hello.message.payload.supports) : CoordinateOk c := by
  obtain ⟨items, _, hcr, hrd⟩ := hello.supports_eq
  obtain ⟨v, hv, hvc⟩ := (mem_of_mapM hrd).mp hc
  exact coordinateOk_of_read (hcr v hv) hvc

end Hello

end

section
variable {ecma : Ecma}

theorem isParticipant_value (p : Participant) : IsParticipant (participantValue p) ↔
      1 ≤ unitLength p.component ∧ 1 ≤ unitLength p.facet ∧
        ∀ id ∈ p.activationId, UnitsIn 1 128 id := by
  obtain ⟨component, facet, actId⟩ := p
  cases actId <;>
    simp [IsParticipant, participantValue, optionalMember, Json.keys, ParticipantMembers,
      List.lookup_cons]

theorem isEnvelope_value {a : AgreementEnvelope} : IsEnvelope ecma a.value ↔
      UnitsIn 8 128 a.id ∧ IsText (UnitsIn 8 128) a.replyTo ∧ IsParticipant a.participant ∧
        ecma.dateParses a.timestamp ∧ IsInteger ecma 0 a.generation ∧
        IsAgreement ecma a.payload.toJson := by
  rw [IsEnvelope, AgreementEnvelope.value, isRecord_object]
  constructor
  · intro h
    obtain ⟨_, hm, hrules⟩ := h
    obtain ⟨_, hld, _⟩ := hrules .agreement rfl
    exact ⟨isText_string.mp (required_some.mp hm.id), allowed_some.mp hm.replyTo,
      required_some.mp hm.participant, isText_string.mp (required_some.mp hm.timestamp),
      required_some.mp hm.generation, required_some.mp hld⟩
  · intro h
    obtain ⟨hid, hrp, hpart, hst, hgen, hld⟩ := h
    have hkn : IsName envelopeKinds (.string "Agreement") := isName_string.mpr (by decide)
    refine ⟨by simp [Json.keys, envelopeFields], ⟨required_some.mpr rfl,
      required_some.mpr (isText_string.mpr hid), required_some.mpr hkn, allowed_some.mpr hrp,
      required_some.mpr hpart, required_some.mpr (isText_string.mpr hst),
      required_some.mpr hgen, allowed_none, allowed_none, allowed_some.mpr ⟨_, rfl⟩,
      allowed_none⟩, ?_⟩
    intro kind hget
    have hnm : kindName .agreement = kindName kind := Json.string.inj (Option.some.inj hget)
    rw [← kindName_injective hnm]
    refine ⟨?_, required_some.mpr hld, ?_⟩
    · simp [Present, List.lookup_cons]
    · simp [Absent, List.lookup_cons]

theorem getD_of_required {o : Option Json} (h : Required o P) : P (o.getD .null) := by
  obtain ⟨v, rfl, hv⟩ := h
  exact hv

theorem part_iff {α : Type} {Q : α → Prop} (write : α → Json) (o : Option α) (hv : P v)
    (hwr : ∀ x, P (write x) ↔ Q x) : P ((o.map write).getD v) ↔ ∀ x ∈ o, Q x := by
  cases o with
  | none => simp [hv]
  | some x => simp [hwr]

theorem agreement_valid_iff (hello : Hello ecma) {now : ℕ → String} {fid : String}
    (hsp : ∀ c ∈ d.granted, c ∈ hello.message.payload.supports) :
    IsEnvelope ecma (NegotiationSession.agreementFor now hello.envelope fid d).value ↔
      d.granted.Nodup ∧ ContractsPoints ecma now fid d := by
  have hrp := getD_of_required hello.members.id
  have hpart := part_iff participantValue d.participant
    (getD_of_required hello.members.participant) isParticipant_value
  have hgen := part_iff Json.nat d.generation
    (getD_of_required hello.members.generation) fun _ => Iff.rfl
  have hgr : ∀ c ∈ d.granted, CoordinateOk c := fun c hc => hello.supports_ok (hsp c hc)
  rw [isEnvelope_value, isAgreement_toJson]
  simp only [NegotiationSession.agreementFor, hpart, hgen]
  constructor
  · intro h
    obtain ⟨hid, _, hp, ht, hg, hact, hds, hdw, hlease⟩ := h
    exact ⟨hds.2, hid, hact, hdw.2, hdw.1, hp, ht, hg, hlease⟩
  · intro h
    obtain ⟨hds, hpts⟩ := h
    exact ⟨hpts.id, hrp, hpts.participant, hpts.timestamp, hpts.generation,
      hpts.activationId, ⟨hgr, hds⟩, ⟨hpts.coordinates, hpts.unavailable⟩,
      hpts.leaseConstraints⟩

end

def Judged {σ α : Type} (A : Prop) (x : NegotiationResult α × σ) (s s' : σ) : Prop :=
  (A → ∃ a, x = (.ok a, s')) ∧ (¬ A → ∃ message, x = (malformed message, s))

section
variable {s : Adapter.NegotiationSession} (now : ℕ → String)

theorem lengthIn_iff {min max : ℕ} {text : String} :
    Adapter.lengthIn min max text ↔ BytesIn min max text := by
  simp [Adapter.lengthIn, BytesIn]

theorem adapter_receiveHello (hph : s.phase = .proposed) (hnn : s.hello = none)
    (hello : HelloMessage) :
    Judged (HelloPoints hello) (s.receiveHello now hello) s { s with
      hello := some hello
      history := s.history ++ [⟨.hello, now 0, hello.id⟩] } := by
  unfold receiveHello
  rw [if_neg (by simp [hph]), if_neg (by simp [hph])]
  simp only [hnn]
  constructor
  · intro h
    have hcontent : (hello.payload.requires.isEmpty && hello.payload.supports.isEmpty) = false := by
      rcases h.content with hne | hne <;> simp [hne]
    simp [lengthIn_iff.mpr h.id, lengthIn_iff.mpr h.instanceId,
      Adapter.allUniqueCoordinates_eq_true.mpr h.supports, hcontent]
  · intro h
    split_ifs with hid hin hsp hcontent
    · exact ⟨_, rfl⟩
    · exact ⟨_, rfl⟩
    · exact ⟨_, rfl⟩
    · exact ⟨_, rfl⟩
    simp only [Bool.not_eq_true', Bool.not_eq_false, lengthIn_iff,
      Adapter.allUniqueCoordinates_eq_true] at hid hin hsp
    refine absurd ⟨hid, hin, hsp, ?_⟩ h
    by_contra hem
    rw [not_or, not_not, not_not] at hem
    simp [hem.1, hem.2] at hcontent

theorem find_unsupported_eq_none {supp : List ProtocolCoordinate} :
    d.granted.find? (fun c => !Adapter.includesCoordinate supp c) = none ↔
      ∀ c ∈ d.granted, c ∈ supp := by
  rw [List.find?_eq_none]
  simp [Adapter.includesCoordinate_eq_true]

theorem find_contested_eq_none :
    d.unavailable.find? (fun u => Adapter.includesCoordinate d.granted u.coordinate) = none ↔
      ∀ u ∈ d.unavailable, u.coordinate ∉ d.granted := by
  rw [List.find?_eq_none]
  simp [Adapter.includesCoordinate_eq_true]

theorem adapter_issueAgreement (fid : String) (hph : s.phase = .proposed)
    (hsome : s.hello = some hello) (hsp : ∀ c ∈ d.granted, c ∈ hello.payload.supports)
    (hdi : ∀ u ∈ d.unavailable, u.coordinate ∉ d.granted) :
    Judged (d.granted.Nodup ∧ AdapterPoints fid d) (s.issueAgreement now fid d) s
      (s.agree now d (agreementFor hello fid d)) := by
  have hact : (d.activationId.isEmpty || 128 < d.activationId.utf8ByteSize) = false ↔
      BytesIn 1 128 d.activationId := by
    rw [Bool.or_eq_false_iff, decide_eq_false_iff_not, String.isEmpty, beq_eq_false_iff_ne, BytesIn]
    omega
  unfold issueAgreement
  rw [if_neg (by simp [hph]), if_neg (by simp [hph])]
  simp only [hsome, find_unsupported_eq_none.mpr hsp, find_contested_eq_none.mpr hdi]
  constructor
  · intro h
    obtain ⟨hds, hpts⟩ := h
    have hid : Adapter.lengthIn 8 128
        (agreementFor hello fid d).id :=
      lengthIn_iff.mpr hpts.id
    simp only [hact.mpr hpts.activationId, hid, Adapter.allUniqueCoordinates_eq_true.mpr hds,
      Adapter.allUniqueUnavailable_eq_true.mpr hpts.unavailable, Bool.not_true,
      Bool.false_eq_true, if_false]
    exact ⟨_, rfl⟩
  · intro h
    split_ifs with hid hds hcr hfr
    · exact ⟨_, rfl⟩
    · exact ⟨_, rfl⟩
    · exact ⟨_, rfl⟩
    · exact ⟨_, rfl⟩
    · simp only [Bool.not_eq_true, Bool.not_eq_true', Bool.not_eq_false, lengthIn_iff, hact,
        Adapter.allUniqueCoordinates_eq_true, Adapter.allUniqueUnavailable_eq_true]
        at hid hds hcr hfr
      exact absurd ⟨hds, hfr, hid, hcr⟩ h

end

section
variable {ecma : Ecma} {t : NegotiationSession} (now : ℕ → String) (hello : Hello ecma)

theorem contracts_receiveHello (hph : t.phase = .proposed) (hnn : t.hello = none) :
    ∃ hist, Judged True (t.receiveHello now hello.envelope) t
      { t with hello := some hello.envelope, history := hist } := by
  unfold NegotiationSession.receiveHello
  rw [if_neg (not_not.mpr hello.isHello), if_neg (by simp [hph]), if_neg (by simp [hph])]
  simp only [hnn]
  exact ⟨_, fun _ => ⟨_, rfl⟩, fun hfl => absurd trivial hfl⟩

theorem unsupported_eq : (fun c => !includesCoordinate (supports hello.envelope) c) =
      fun c => !Adapter.includesCoordinate hello.message.payload.supports c := by
  funext c
  rw [Bool.eq_iff_iff.mpr
    (hello.includesCoordinate_iff.trans Adapter.includesCoordinate_eq_true.symm)]

theorem contracts_issueAgreement (fid : String) (hph : t.phase = .proposed)
    (hsome : t.hello = some hello.envelope)
    (hsp : ∀ c ∈ d.granted, c ∈ hello.message.payload.supports)
    (hds : ∀ u ∈ d.unavailable, u.coordinate ∉ d.granted) :
    Judged (d.granted.Nodup ∧ ContractsPoints ecma now fid d)
      (t.issueAgreement now ecma fid d) t
      (t.agree now (if d.timestamp.isNone then 1 else 0) d
        (NegotiationSession.agreementFor now hello.envelope fid d)) := by
  rw [← agreement_valid_iff hello hsp, ← validateEnvelope_ok_iff]
  unfold NegotiationSession.issueAgreement
  rw [if_neg (by simp [hph])]
  simp only [hsome]
  rw [if_neg (by simp [hph])]
  simp only [unsupported_eq, find_unsupported_eq_none.mpr hsp, find_contested_eq_none.mpr hds]
  constructor
  · rintro ⟨value, hvl⟩
    rw [hvl]
    exact ⟨_, rfl⟩
  · intro h
    split
    · exact ⟨_, rfl⟩
    · next value hvl => exact absurd ⟨value, hvl⟩ h

end

structure Related (ecma : Ecma) (s : Adapter.NegotiationSession) (t : NegotiationSession) :
    Prop where
  phase : s.phase = t.phase
  hello : s.hello = none ∧ t.hello = none ∨
    ∃ hello : Hello ecma, s.hello = some hello.message ∧ t.hello = some hello.envelope
  received : s.phase = .agreed ∨ s.phase = .active → s.hello ≠ none
  payload : s.agreement.map AgreementMessage.payload = t.agreement.map AgreementEnvelope.payload
  agreed : s.phase = .agreed → s.agreement ≠ none
  activation : s.activation = t.activation
  active : s.phase = .active → s.activation ≠ none
  rejection : s.rejection = t.rejection
  rejected : s.phase = .rejected → s.rejection ≠ none
  degraded : s.degraded = t.degraded

section
variable {ecma : Ecma} {s : Adapter.NegotiationSession} {t : NegotiationSession}
  {x : Outcome × Adapter.NegotiationSession} {y : Outcome × NegotiationSession}

theorem related_begin {sid : String} : Related ecma (.begin sid) { sessionId := sid } where
  phase := rfl
  hello := .inl ⟨rfl, rfl⟩
  received := nofun
  payload := rfl
  agreed := nofun
  activation := rfl
  active := nofun
  rejection := rfl
  rejected := nofun
  degraded := rfl

structure Alike (ecma : Ecma) (M : Prop) (x : Outcome × Adapter.NegotiationSession)
    (y : Outcome × NegotiationSession) : Prop where
  outcome : x.1 = y.1 ↔ M
  related : M → Related ecma x.2 y.2

theorem alike_same {M : Prop} {o : Outcome} (hM : M) (h : Related ecma s t) :
    Alike ecma M (o, s) (o, t) :=
  ⟨iff_of_true rfl hM, fun _ => h⟩

theorem alike_done {o : Outcome} (h : Related ecma s t) : Alike ecma True (o, s) (o, t) :=
  alike_same trivial h

theorem alike_judged {A B : Prop} {α β : Type} {s' : Adapter.NegotiationSession}
    {t' : NegotiationSession} {x : NegotiationResult α × Adapter.NegotiationSession}
    {y : NegotiationResult β × NegotiationSession} (h : Related ecma s t)
    (hx : Judged A x s s') (hy : Judged B y t t') (htk : A → B → Related ecma s' t') :
    Alike ecma (A ↔ B) (x.map of id) (y.map of id) := by
  by_cases ha : A <;> by_cases hb : B
  · obtain ⟨_, rfl⟩ := hx.1 ha
    obtain ⟨_, rfl⟩ := hy.1 hb
    exact alike_same (iff_of_true ha hb) (htk ha hb)
  · obtain ⟨_, rfl⟩ := hx.1 ha
    obtain ⟨_, rfl⟩ := hy.2 hb
    exact ⟨iff_of_false nofun fun hab => hb (hab.mp ha), fun hab => absurd (hab.mp ha) hb⟩
  · obtain ⟨_, rfl⟩ := hx.2 ha
    obtain ⟨_, rfl⟩ := hy.1 hb
    exact ⟨iff_of_false nofun fun hab => ha (hab.mpr hb), fun hab => absurd (hab.mpr hb) ha⟩
  · obtain ⟨_, rfl⟩ := hx.2 ha
    obtain ⟨_, rfl⟩ := hy.2 hb
    exact alike_same (iff_of_false ha hb) h

theorem Alike.congr {M M' : Prop} (hM : M ↔ M') (h : Alike ecma M x y) : Alike ecma M' x y :=
  ⟨h.outcome.trans hM, fun hM' => h.related (hM.mpr hM')⟩

variable (h : Related ecma s t)
include h

theorem receiveHello_alike (now : ℕ → String) (hello : Hello ecma) :
    Alike ecma (s.phase = .proposed → s.hello = none → HelloPoints hello.message)
      ((s.receiveHello now hello.message).map of id)
      ((t.receiveHello now hello.envelope).map of id) := by
  by_cases hpr : s.phase = .proposed
  · rcases h.hello with ⟨hs, ht⟩ | ⟨existing, hs, ht⟩
    · obtain ⟨hist, hcn⟩ := contracts_receiveHello now hello (h.phase ▸ hpr) ht
      refine Alike.congr (M := HelloPoints hello.message ↔ True) (by simp [hpr, hs])
        (alike_judged h (adapter_receiveHello now hpr hs hello.message) hcn fun _ _ => ?_)
      exact { h with
        hello := .inr ⟨hello, rfl, rfl⟩
        received := fun _ => nofun }
    have hM : s.phase = .proposed → s.hello = none → HelloPoints hello.message := by
      intro _ hnn
      rw [hs] at hnn
      cases hnn
    have hids : textProperty existing.envelope "id" = textProperty hello.envelope "id" ↔
        existing.message.id = hello.message.id := by
      rw [existing.id_eq, hello.id_eq, some_inj]
    by_cases hid : existing.message.id = hello.message.id
    · simpa [receiveHello, NegotiationSession.receiveHello, ← h.phase, hpr, hs, ht,
        hello.isHello, hids, hid] using alike_same (o := .success) hM h
    · simpa [receiveHello, NegotiationSession.receiveHello, ← h.phase, hpr, hs, ht,
        hello.isHello, hids, hid] using alike_same (o := .failure .conflict) hM h
  have hM : s.phase = .proposed → s.hello = none → HelloPoints hello.message :=
    fun hph => absurd hph hpr
  by_cases hrej : s.phase = .rejected
  · simpa [receiveHello, NegotiationSession.receiveHello, ← h.phase, hrej, hello.isHello] using
      alike_same (o := .failure .invalidState) hM h
  · simpa [receiveHello, NegotiationSession.receiveHello, ← h.phase, hrej, hpr,
      hello.isHello] using alike_same (o := .failure .conflict) hM h

theorem related_agree (now : ℕ → String) (reads : ℕ) (d : AgreementDecision)
    {agr : AgreementMessage} {env : AgreementEnvelope} (hs : s.hello = some hello)
    (hld : agr.payload = env.payload) :
    Related ecma (s.agree now d agr) (t.agree now reads d env) where
  phase := rfl
  hello := h.hello
  received := by
    intro _
    change s.hello ≠ none
    rw [hs]
    exact nofun
  payload := congrArg some hld
  agreed := nofun
  activation := h.activation
  active := nofun
  rejection := h.rejection
  rejected := nofun
  degraded := congrArg (fun b => b || !d.unavailable.isEmpty) h.degraded

theorem decision_alike (now : ℕ → String) (fresh fresh' : String)
    {hello : Hello ecma} (hprop : s.phase = .proposed) (hs : s.hello = some hello.message)
    (ht : t.hello = some hello.envelope) (hsp : ∀ c ∈ d.granted, c ∈ hello.message.payload.supports)
    (hds : ∀ u ∈ d.unavailable, u.coordinate ∉ d.granted) :
    Alike ecma
      (d.granted.Nodup ∧ AdapterPoints fresh d ↔
        d.granted.Nodup ∧ ContractsPoints ecma now fresh' d)
      ((s.issueAgreement now fresh d).map of id)
      ((t.issueAgreement now ecma fresh' d).map of id) :=
  alike_judged h (adapter_issueAgreement now fresh hprop hs hsp hds)
    (contracts_issueAgreement now hello fresh' (h.phase ▸ hprop) ht hsp hds)
    fun _ _ => related_agree h now _ d hs rfl

theorem issueAgreement_alike (now : ℕ → String) (fresh fresh' : String) (d : AgreementDecision) :
    Alike ecma
      (s.phase = .proposed → ∀ hello, s.hello = some hello → Weighed hello.payload.supports d →
        (AdapterPoints fresh d ↔ ContractsPoints ecma now fresh' d))
      ((s.issueAgreement now fresh d).map of id)
      ((t.issueAgreement now ecma fresh' d).map of id) := by
  by_cases hpr : s.phase = .proposed
  · rcases h.hello with ⟨hs, ht⟩ | ⟨hello, hs, ht⟩
    · simpa [issueAgreement, NegotiationSession.issueAgreement, ← h.phase, hpr, hs, ht] using
        alike_done (o := .failure .invalidState) h
    have hM : ∀ {M : Prop}, (Weighed hello.message.payload.supports d → M) ↔
        (s.phase = .proposed → ∀ hello, s.hello = some hello →
          Weighed hello.payload.supports d → M) := by
      simp [hpr, hs]
    cases hgr : d.granted.find?
      (fun c => !Adapter.includesCoordinate hello.message.payload.supports c) with
    | some c =>
      have hwg : ¬ Weighed hello.message.payload.supports d := by
        intro hwg
        rw [find_unsupported_eq_none.mpr hwg.supported] at hgr
        cases hgr
      refine Alike.congr hM ?_
      simpa [issueAgreement, NegotiationSession.issueAgreement, ← h.phase, hpr, hs, ht,
        unsupported_eq, hgr, hwg] using alike_done (o := .failure .conflict) h
    | none =>
      have hsp := find_unsupported_eq_none.mp hgr
      cases hdw : d.unavailable.find?
        (fun u => Adapter.includesCoordinate d.granted u.coordinate) with
      | some u =>
        have hwg : ¬ Weighed hello.message.payload.supports d := by
          intro hwg
          rw [find_contested_eq_none.mpr hwg.disjoint] at hdw
          cases hdw
        refine Alike.congr hM ?_
        simpa [issueAgreement, NegotiationSession.issueAgreement, ← h.phase, hpr, hs, ht,
          unsupported_eq, hgr, hdw, hwg] using alike_done (o := .failure .conflict) h
      | none =>
        have hds := find_contested_eq_none.mp hdw
        refine (decision_alike h now fresh fresh' hpr hs ht hsp hds).congr ?_
        rw [← hM, and_congr_right_iff]
        exact ⟨fun hpts hwg => hpts hwg.distinct, fun hpts hdi => hpts ⟨hsp, hds, hdi⟩⟩
  have hM : s.phase = .proposed → ∀ hello, s.hello = some hello →
      Weighed hello.payload.supports d →
        (AdapterPoints fresh d ↔ ContractsPoints ecma now fresh' d) :=
    fun hph => absurd hph hpr
  by_cases hrej : s.phase = .rejected
  · simpa [issueAgreement, NegotiationSession.issueAgreement, ← h.phase, hrej] using
      alike_same (o := .failure .invalidState) hM h
  -- Past the proposed phase a Hello was received, so the order of the checks does not show.
  have hph : s.phase = .agreed ∨ s.phase = .active := by
    cases hp : s.phase <;> simp_all
  rcases h.hello with ⟨hs, _⟩ | ⟨hello, hs, ht⟩
  · exact absurd hs (h.received hph)
  · simpa [issueAgreement, NegotiationSession.issueAgreement, ← h.phase, hrej, hpr, hs, ht] using
      alike_same (o := .failure .conflict) hM h

theorem activate_alike (now : ℕ → String) :
    Alike ecma True ((s.activate now).map of id) ((t.activate now).map of id) := by
  cases hph : s.phase with
  | rejected | proposed =>
    simpa [activate, NegotiationSession.activate, ← h.phase, hph] using
      alike_done (o := .failure .invalidState) h
  | active =>
    obtain ⟨activation, hact⟩ := ne_none_iff_exists'.mp (h.active hph)
    simpa [activate, NegotiationSession.activate, ← h.phase, hph, ← h.activation, hact] using
      alike_done (o := .success) h
  | agreed =>
    obtain ⟨agr, hag⟩ := ne_none_iff_exists'.mp (h.agreed hph)
    have hld := h.payload
    rw [hag, map_some] at hld
    obtain ⟨env, hen, heq⟩ := map_eq_some_iff.mp hld.symm
    have hs : ∃ hist, s.activate now = (.ok (s.activationFor now agr), { s with
        activation := some (s.activationFor now agr)
        phase := .active
        history := hist }) := by
      simp [activate, hph, hag]
    have ht : ∃ hist, t.activate now = (.ok (t.activationFor now env), { t with
        activation := some (t.activationFor now env)
        phase := .active
        history := hist }) := by
      simp [NegotiationSession.activate, ← h.phase, hph, hen]
    have hact : s.activationFor now agr = t.activationFor now env := by
      simp [activationFor, NegotiationSession.activationFor, heq, h.degraded]
    obtain ⟨hist, hs⟩ := hs
    obtain ⟨his', ht⟩ := ht
    rw [hs, ht]
    refine ⟨iff_of_true rfl trivial, fun _ => ?_⟩
    exact { h with
      phase := rfl
      received := fun _ => h.received (.inl hph)
      agreed := nofun
      activation := congrArg some hact
      active := fun _ => nofun
      rejected := nofun }

theorem related_rejected (rej : Rejection) (hist his' : List Adapter.NegotiationEvent) :
    Related ecma
      { s with phase := .rejected, rejection := some rej, history := hist }
      { t with phase := .rejected, rejection := some rej, history := his' } :=
  { h with
    phase := rfl
    received := nofun
    agreed := nofun
    active := nofun
    rejection := rfl
    rejected := fun _ => nofun }

theorem reject_alike (now : ℕ → String) (rsn : RejectionReason) (message : Option String) :
    Alike ecma True ((s.reject now rsn message).map of id)
      ((t.reject now rsn message).map (fun res => (res.map of).getD .thrown)
        id) := by
  by_cases hrej : s.phase = .rejected
  · obtain ⟨rej, hrj⟩ := ne_none_iff_exists'.mp (h.rejected hrej)
    simpa [reject, NegotiationSession.reject, ← h.phase, hrej, ← h.rejection, hrj] using
      alike_done (o := .success) h
  by_cases hact : s.phase = .active
  · simpa [reject, NegotiationSession.reject, ← h.phase, hact] using
      alike_done (o := .failure .conflict) h
  have hs : ∃ hist, s.reject now rsn message =
      (.ok ⟨rsn.asStr, message, now 0⟩, { s with
        phase := .rejected
        rejection := some ⟨rsn.asStr, message, now 0⟩
        history := hist }) := by
    simp [reject, hrej, hact]
  have ht : ∃ hist, t.reject now rsn message =
      (some (.ok (rsn.asStr, now 0)), { t with
        rejection := some ⟨rsn.asStr, message, now 0⟩
        phase := .rejected
        history := hist }) := by
    simp [NegotiationSession.reject, ← h.phase, hrej, hact]
  obtain ⟨hist, hs⟩ := hs
  obtain ⟨his', ht⟩ := ht
  rw [hs, ht]
  exact ⟨iff_of_true rfl trivial, fun _ => related_rejected h _ hist his'⟩

theorem call_alike (e : Event ecma) :
    Alike ecma (Matched s e) (adapterCall s e) (contractsCall t e) := by
  obtain ⟨call, now, nanos, ctr, rand⟩ := e
  cases call with
  | receiveHello hello => exact receiveHello_alike h now hello
  | issueAgreement d => exact issueAgreement_alike h now _ _ d
  | activate => exact activate_alike h now
  | reject rsn message => exact reject_alike h now rsn message

theorem step_output (e : Event ecma) :
    (adapterStep s e).2 = (contractsStep t e).2 ↔ Matched s e := by
  have hal := call_alike h e
  constructor
  · intro heq
    exact hal.outcome.mp (congrArg Observation.outcome heq)
  · intro hmt
    have hrel := hal.related hmt
    have hgr := congrArg (Option.map AgreementPayload.granted) hrel.payload
    have hdw := congrArg (Option.map AgreementPayload.unavailable) hrel.payload
    rw [Option.map_map, Option.map_map] at hgr hdw
    simp only [adapterStep, contractsStep, hal.outcome.mpr hmt, hrel.phase,
      hrel.degraded, hrel.activation]
    congr 1

theorem step_related (e : Event ecma) (hmt : Matched s e) :
    Related ecma (adapterStep s e).1 (contractsStep t e).1 :=
  (call_alike h e).related hmt

end

/-- The two sessions answer a sequence of calls alike exactly when every call passes
the points of both sides or fails points of both. -/
theorem sessions_alike_iff (ecma : Ecma) (sessionId : String) (events : List (Event ecma)) :
    Lockstep.outputs adapterStep (.begin sessionId) events =
        Lockstep.outputs contractsStep { sessionId := sessionId } events ↔
      Runs.Along (fun s e => (adapterStep s e).1) Matched (.begin sessionId) events :=
  Lockstep.outputs_eq_iff (Related ecma) Matched (fun _ _ e h => step_output h e)
    (fun _ _ e h hmt => step_related h e hmt) related_begin events

def emptyHello : Hello default where
  envelope := .object [("protocol", .string protocol), ("id", .string "hello-0001"),
    ("kind", .string "Hello"),
    ("participant", .object [("component", .string "dsh"), ("facet", .string "agent")]),
    ("timestamp", .string "2026-01-01T00:00:00Z"), ("generation", .nat 1),
    ("payload", .object [("instanceId", .string "instance-0001"), ("supports", .array []),
      ("requires", .array [])])]
  message := ⟨"hello-0001", 1, ⟨"dsh", "agent", none⟩, ⟨"instance-0001", [], []⟩⟩
  valid := ⟨_, rfl⟩
  isHello := rfl
  corresponds := rfl

def emptyHelloReceived : Event default where
  call := .receiveHello emptyHello
  now := fun _ => "2026-01-01T00:00:00Z"
  nanos := 1767225600000000000
  counter := 0
  rand := "3f2c9a51"

/-- The adapter refuses it, where the contracts package takes it. -/
theorem empty_hello_refused_by_adapter :
    (Lockstep.outputs adapterStep (.begin "act-1") [emptyHelloReceived]).map Observation.outcome =
        [.failure .malformedMessage] ∧
      (Lockstep.outputs contractsStep { sessionId := "act-1" } [emptyHelloReceived]).map
        Observation.outcome = [.success] :=
  ⟨rfl, rfl⟩

end DshDesktop.Contracts
