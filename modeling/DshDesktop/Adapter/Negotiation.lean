import DshDesktop.Daemon.Envelope
import DshDesktop.Library.Runs

/-!
# The negotiation session of the adapter

`NegotiationSession` of `crates/adapter-dsh-std/src/negotiate.rs`. Coordinates and payloads
are those of the daemon. A call is given the readings of the clock in order and the id
that a fresh message would get.
-/

namespace DshDesktop.Adapter
open Daemon

inductive NegotiationPhase
  | proposed
  | agreed
  | active
  | rejected
  deriving DecidableEq

def NegotiationPhase.asStr : NegotiationPhase → String
  | .proposed => "proposed"
  | .agreed => "agreed"
  | .active => "active"
  | .rejected => "rejected"

def NegotiationPhase.debug : NegotiationPhase → String
  | .proposed => "Proposed"
  | .agreed => "Agreed"
  | .active => "Active"
  | .rejected => "Rejected"

inductive RejectionReason
  | unavailable
  | unsupportedVersion
  | policyDenied
  | providerFailed
  | peerRejected

def RejectionReason.asStr : RejectionReason → String
  | .unavailable => "unavailable"
  | .unsupportedVersion => "unsupported_version"
  | .policyDenied => "policy_denied"
  | .providerFailed => "provider_failed"
  | .peerRejected => "peer_rejected"

inductive NegotiationErrorCode
  | conflict
  | invalidState
  | malformedMessage

structure NegotiationError where
  code : NegotiationErrorCode
  message : String

abbrev NegotiationResult (α : Type) := Except NegotiationError α

section
variable {α : Type} (message : String)

def conflict : NegotiationResult α := .error ⟨.conflict, message⟩

def invalidState : NegotiationResult α := .error ⟨.invalidState, message⟩

def malformed : NegotiationResult α := .error ⟨.malformedMessage, message⟩

end

structure HelloMessage where
  id : String
  generation : ℕ
  participant : Participant
  payload : HelloPayload

structure AgreementMessage where
  id : String
  replyTo : String
  generation : ℕ
  participant : Participant
  payload : AgreementPayload

structure Activation where
  activationId : String
  granted : List ProtocolCoordinate
  unavailable : List UnavailableCapability
  leaseConstraints : Option LeaseConstraints
  createdAt : String
  degraded : Bool

structure Rejection where
  reason : String
  message : Option String
  at_ : String

inductive NegotiationEventKind
  | hello
  | agreement
  | activation
  | reject
  | degrade

structure NegotiationEvent where
  kind : NegotiationEventKind
  at_ : String
  detail : String

structure AgreementDecision where
  activationId : String
  granted : List ProtocolCoordinate
  unavailable : List UnavailableCapability
  leaseConstraints : Option LeaseConstraints
  id : Option String
  generation : Option ℕ
  timestamp : Option String
  participant : Option Participant

def newMessageId (nanos counter : ℕ) : String :=
  "msg-" ++ String.ofList (Nat.toDigits 16 nanos) ++ "-" ++ toString counter

def includesCoordinate (list : List ProtocolCoordinate) (target : ProtocolCoordinate) : Bool :=
  list.any fun c => c == target

def allUnique {α : Type} [DecidableEq α] (seen : List α) : List α → Bool
  | [] => true
  | x :: xs => x ∉ seen && allUnique (x :: seen) xs

def allUniqueCoordinates (coords : List ProtocolCoordinate) : Bool := allUnique [] coords

def allUniqueUnavailable (list : List UnavailableCapability) : Bool :=
  allUnique [] (list.map UnavailableCapability.coordinate)

def lengthIn (min max : ℕ) (text : String) : Bool :=
  min ≤ text.utf8ByteSize && text.utf8ByteSize ≤ max

structure NegotiationSession where
  sessionId : String
  phase : NegotiationPhase
  hello : Option HelloMessage
  agreement : Option AgreementMessage
  activation : Option Activation
  rejection : Option Rejection
  degraded : Bool
  history : List NegotiationEvent

namespace NegotiationSession

def begin (sessionId : String) : NegotiationSession where
  sessionId := sessionId
  phase := .proposed
  hello := none
  agreement := none
  activation := none
  rejection := none
  degraded := false
  history := []

variable (s : NegotiationSession) (now : ℕ → String)

def receiveHello (hello : HelloMessage) : NegotiationResult HelloMessage × NegotiationSession :=
  if s.phase = .rejected then (invalidState "session is rejected", s)
  else if s.phase ≠ .proposed then
    (conflict ("cannot receive Hello in phase " ++ s.phase.debug), s)
  else
    match s.hello with
    | some existing =>
      if existing.id = hello.id then (.ok existing, s)
      else (conflict "Hello already received", s)
    | none =>
      if !lengthIn 8 128 hello.id then (malformed "Hello id must be 8..128 chars", s)
      else if !lengthIn 8 128 hello.payload.instanceId then
        (malformed "Hello payload.instanceId must be 8..128 chars", s)
      else if !allUniqueCoordinates hello.payload.supports then
        (malformed "Hello supports must be unique", s)
      else if hello.payload.requires.isEmpty && hello.payload.supports.isEmpty then
        (malformed "Hello must declare at least one support or requirement", s)
      else
        (.ok hello, { s with
          hello := some hello
          history := s.history ++ [⟨.hello, now 0, hello.id⟩] })

def agreementFor (hello : HelloMessage) (freshId : String) (decision : AgreementDecision) :
    AgreementMessage where
  id := decision.id.getD freshId
  replyTo := hello.id
  generation := decision.generation.getD hello.generation
  participant := decision.participant.getD hello.participant
  payload := ⟨decision.activationId, decision.granted, decision.unavailable,
    decision.leaseConstraints⟩

def degradeEvents (unavailable : List UnavailableCapability) (reading : String) :
    List NegotiationEvent :=
  if unavailable.isEmpty then []
  else [⟨.degrade, reading, toString unavailable.length ++ " capability(ies) unavailable"⟩]

def agree (decision : AgreementDecision) (agreement : AgreementMessage) : NegotiationSession :=
  let degrade := degradeEvents decision.unavailable (now 0)
  { s with
    agreement := some agreement
    phase := .agreed
    degraded := s.degraded || !decision.unavailable.isEmpty
    history := s.history ++ degrade ++ [⟨.agreement, now degrade.length, agreement.id⟩] }

def issueAgreement (freshId : String) (decision : AgreementDecision) :
    NegotiationResult AgreementMessage × NegotiationSession :=
  if s.phase = .rejected then (invalidState "session is rejected", s)
  else if s.phase ≠ .proposed then
    (conflict ("cannot issue Agreement in phase " ++ s.phase.debug), s)
  else
    match s.hello with
    | none => (invalidState "no Hello received yet", s)
    | some hello =>
      match decision.granted.find? fun c => !includesCoordinate hello.payload.supports c with
      | some c =>
        (conflict ("granted capability " ++ c.apiVersion ++ "/" ++ c.kind ++
          " is not in Hello.supports"), s)
      | none =>
        match decision.unavailable.find? fun u => includesCoordinate decision.granted u.coordinate
        with
        | some u =>
          (conflict ("capability " ++ u.coordinate.apiVersion ++ "/" ++ u.coordinate.kind ++
            " is both granted and unavailable"), s)
        | none =>
          if decision.activationId.isEmpty || 128 < decision.activationId.utf8ByteSize then
            (malformed "activationId must be 1..128 chars", s)
          else if !allUniqueCoordinates decision.granted then
            (malformed "granted must be unique", s)
          else if !allUniqueUnavailable decision.unavailable then
            (malformed "unavailable must be unique", s)
          else
            let agreement := agreementFor hello freshId decision
            if !lengthIn 8 128 agreement.id then
              (malformed "constructed Agreement id must be 8..128 chars", s)
            else (.ok agreement, s.agree now decision agreement)

def activationFor (agreement : AgreementMessage) : Activation where
  activationId := agreement.payload.activationId
  granted := agreement.payload.granted
  unavailable := agreement.payload.unavailable
  leaseConstraints := agreement.payload.leaseConstraints
  createdAt := now 0
  degraded := s.degraded

def activate : NegotiationResult Activation × NegotiationSession :=
  if s.phase = .rejected then (invalidState "session is rejected", s)
  else if s.phase = .active then
    match s.activation with
    | some activation => (.ok activation, s)
    | none => (invalidState "active session without activation record", s)
  else if s.phase ≠ .agreed then
    (invalidState ("cannot activate from phase " ++ s.phase.debug), s)
  else
    match s.agreement with
    | none => (invalidState "agreed session without agreement record", s)
    | some agreement =>
      let activation := s.activationFor now agreement
      (.ok activation, { s with
        activation := some activation
        phase := .active
        history := s.history ++ [⟨.activation, now 0, activation.activationId⟩] })

def reject (reason : RejectionReason) (message : Option String) :
    NegotiationResult Rejection × NegotiationSession :=
  if s.phase = .rejected then
    match s.rejection with
    | some rejection => (.ok rejection, s)
    | none => (invalidState "rejected session without rejection record", s)
  else if s.phase = .active then (conflict "cannot reject an active session", s)
  else
    let rejection : Rejection := ⟨reason.asStr, message, now 0⟩
    let detail :=
      match message with
      | some m => reason.asStr ++ ": " ++ m
      | none => reason.asStr
    (.ok rejection, { s with
      phase := .rejected
      rejection := some rejection
      history := s.history ++ [⟨.reject, now 0, detail⟩] })

end NegotiationSession

theorem allUnique_eq_true {α : Type} [DecidableEq α] {seen xs : List α} :
    allUnique seen xs ↔ xs.Nodup ∧ ∀ x ∈ xs, x ∉ seen := by
  induction xs generalizing seen with
  | nil => simp [allUnique]
  | cons x xs ih =>
    rw [allUnique, Bool.and_eq_true, decide_eq_true_iff, ih, List.nodup_cons, List.forall_mem_cons]
    simp only [List.mem_cons, not_or]
    constructor
    · intro h
      obtain ⟨hx, hnd, hsn⟩ := h
      exact ⟨⟨fun hmem => (hsn x hmem).1 rfl, hnd⟩, hx, fun y hy => (hsn y hy).2⟩
    · intro h
      obtain ⟨⟨hmem, hnd⟩, hx, hsn⟩ := h
      refine ⟨hx, hnd, fun y hy => ⟨?_, hsn y hy⟩⟩
      intro heq
      exact hmem (heq ▸ hy)

theorem allUniqueCoordinates_eq_true {coords : List ProtocolCoordinate} :
    allUniqueCoordinates coords ↔ coords.Nodup := by
  simp [allUniqueCoordinates, allUnique_eq_true]

theorem allUniqueUnavailable_eq_true {list : List UnavailableCapability} :
    allUniqueUnavailable list ↔ (list.map UnavailableCapability.coordinate).Nodup := by
  simp [allUniqueUnavailable, allUnique_eq_true]

theorem includesCoordinate_eq_true {list : List ProtocolCoordinate} {c : ProtocolCoordinate} :
    includesCoordinate list c ↔ c ∈ list := by
  simp [includesCoordinate]

open Daemon NegotiationSession

inductive SessionOp
  | receiveHello (hello : HelloMessage)
  | issueAgreement (freshId : String) (decision : AgreementDecision)
  | activate
  | reject (reason : RejectionReason) (message : Option String)

structure SessionCall where
  op : SessionOp
  now : ℕ → String

namespace NegotiationSession

def call (s : NegotiationSession) (c : SessionCall) : NegotiationResult Unit × NegotiationSession :=
  match c.op with
  | .receiveHello hello => (s.receiveHello c.now hello).map (Except.map fun _ => ()) id
  | .issueAgreement freshId decision =>
    (s.issueAgreement c.now freshId decision).map (Except.map fun _ => ()) id
  | .activate => (s.activate c.now).map (Except.map fun _ => ()) id
  | .reject reason message => (s.reject c.now reason message).map (Except.map fun _ => ()) id

def after (sessionId : String) (calls : List SessionCall) : NegotiationSession :=
  Runs.run (fun s c => (s.call c).2) (.begin sessionId) calls

end NegotiationSession

inductive Moves : NegotiationPhase → NegotiationPhase → Prop
  | stays (p : NegotiationPhase) : Moves p p
  | agrees : Moves .proposed .agreed
  | activates : Moves .agreed .active
  | withdraws : Moves .proposed .rejected
  | breaks : Moves .agreed .rejected

theorem Moves.of_final {p q : NegotiationPhase} (h : Moves p q)
    (hp : p = .active ∨ p = .rejected) : q = p := by
  cases h with
  | stays => rfl
  | agrees | activates | withdraws | breaks => simp at hp

structure Fair (hello : HelloMessage) (p : AgreementPayload) : Prop where
  distinct : p.granted.Nodup
  supported : ∀ c ∈ p.granted, c ∈ hello.payload.supports
  disjoint : ∀ u ∈ p.unavailable, u.coordinate ∉ p.granted

inductive Called (s : NegotiationSession) : NegotiationResult Unit → NegotiationSession → Prop
  | failed (error : NegotiationError) : Called s (.error error) s
  | repeated : Called s (.ok ()) s
  | received (hello : HelloMessage) (event : NegotiationEvent) : s.phase = .proposed →
      s.hello = none →
      Called s (.ok ()) { s with hello := some hello, history := s.history ++ [event] }
  | agreed (hello : HelloMessage) (agreement : AgreementMessage) (events : List NegotiationEvent) :
      s.phase = .proposed → s.hello = some hello → Fair hello agreement.payload →
      Called s (.ok ()) { s with
        agreement := some agreement
        phase := .agreed
        degraded := s.degraded || !agreement.payload.unavailable.isEmpty
        history := s.history ++ events }
  | activated (agreement : AgreementMessage) (reading : ℕ → String) (event : NegotiationEvent) :
      s.phase = .agreed → s.agreement = some agreement →
      Called s (.ok ()) { s with
        activation := some (s.activationFor reading agreement)
        phase := .active
        history := s.history ++ [event] }
  | rejected (rejection : Rejection) (event : NegotiationEvent) :
      s.phase = .proposed ∨ s.phase = .agreed →
      Called s (.ok ()) { s with
        phase := .rejected
        rejection := some rejection
        history := s.history ++ [event] }

section
variable (s : NegotiationSession) (now : ℕ → String) {dec : AgreementDecision}
  {hello : HelloMessage} (fid : String)

abbrev Answers {α : Type} (s : NegotiationSession)
    (x : NegotiationResult α × NegotiationSession) : Prop :=
  Called s (x.1.map fun _ => ()) x.2

theorem receiveHello_called (hello : HelloMessage) :
    Answers s (s.receiveHello now hello) := by
  unfold receiveHello
  cases hhl : s.hello with
  | some existing =>
    dsimp only
    split_ifs
    · exact .failed _
    · exact .failed _
    · exact .repeated
    · exact .failed _
  | none =>
    split_ifs with hrej hprop
    · exact .failed _
    · exact .failed _
    · exact .failed _
    · exact .failed _
    · exact .failed _
    · exact .failed _
    · exact .received hello _ (not_not.mp hprop) hhl

theorem fair_of_checks
    (hgr : (dec.granted.find? fun c => !includesCoordinate hello.payload.supports c) = none)
    (hdw : (dec.unavailable.find? fun u => includesCoordinate dec.granted u.coordinate)
      = none) (hun : allUniqueCoordinates dec.granted) :
    Fair hello (agreementFor hello fid dec).payload where
  distinct := allUniqueCoordinates_eq_true.mp hun
  supported c hc := by
    have hin := List.find?_eq_none.mp hgr c hc
    rw [Bool.not_eq_true', Bool.not_eq_false] at hin
    exact includesCoordinate_eq_true.mp hin
  disjoint u hu hmem := by
    have hout := List.find?_eq_none.mp hdw u hu
    exact hout (includesCoordinate_eq_true.mpr hmem)

theorem agree_called {fid : String} (hprop : s.phase = .proposed) (hhl : s.hello = some hello)
    (hfr : Fair hello (agreementFor hello fid dec).payload) :
    Called s (.ok ())
      (s.agree now dec (agreementFor hello fid dec)) := by
  unfold agree
  dsimp only
  rw [List.append_assoc]
  exact .agreed hello _ _ hprop hhl hfr

theorem issueAgreement_called (decision : AgreementDecision) :
    Answers s (s.issueAgreement now fid decision) := by
  unfold issueAgreement
  by_cases hrej : s.phase = .rejected
  · rw [if_pos hrej]
    exact .failed _
  by_cases hprop : s.phase = .proposed
  swap
  · rw [if_neg hrej, if_pos hprop]
    exact .failed _
  rw [if_neg hrej, if_neg (not_not.mpr hprop)]
  cases hhl : s.hello with
  | none => exact .failed _
  | some hello =>
    dsimp only
    cases hgr : decision.granted.find? fun c =>
        !includesCoordinate hello.payload.supports c with
    | some c => exact .failed _
    | none =>
      cases hdw : decision.unavailable.find? fun u =>
          includesCoordinate decision.granted u.coordinate with
      | some u => exact .failed _
      | none =>
        split_ifs with hid hun hds hlen
        · exact .failed _
        · exact .failed _
        · exact .failed _
        · exact .failed _
        · rw [Bool.not_eq_true', Bool.not_eq_false] at hun
          have hfr := fair_of_checks fid hgr hdw hun
          exact agree_called s now hprop hhl hfr

theorem activate_stores {x : Activation} (h : (s.activate now).1 = .ok x) :
    (s.activate now).2.activation = some x := by
  unfold activate at h ⊢
  split_ifs at h ⊢
  · cases h
  · cases hact : s.activation with
    | some _ | none => simp_all [invalidState]
  · cases h
  · cases hagr : s.agreement with
    | some _ | none => simp_all [invalidState]

theorem activate_called : Answers s (s.activate now) := by
  unfold activate
  by_cases hrej : s.phase = .rejected
  · rw [if_pos hrej]
    exact .failed _
  by_cases hact : s.phase = .active
  · rw [if_neg hrej, if_pos hact]
    cases s.activation with
    | some activation => exact .repeated
    | none => exact .failed _
  split_ifs with har
  · exact .failed _
  cases hag : s.agreement with
  | none => exact .failed _
  | some agr =>
    have hcall := Called.activated agr now
      ⟨.activation, now 0, agr.payload.activationId⟩ (not_not.mp har) hag
    rw [hag] at hcall
    exact hcall

theorem reject_called (rsn : RejectionReason) (msg : Option String) :
    Answers s (s.reject now rsn msg) := by
  unfold reject
  split_ifs with hrej hact
  · cases s.rejection with
    | some rej => exact .repeated
    | none => exact .failed _
  · exact .failed _
  refine .rejected _ _ ?_
  cases hph : s.phase with
  | proposed => exact .inl rfl
  | agreed => exact .inr rfl
  | active => exact absurd hph hact
  | rejected => exact absurd hph hrej

theorem call_called (c : SessionCall) : Called s (s.call c).1 (s.call c).2 := by
  obtain ⟨op, now⟩ := c
  cases op with
  | receiveHello hello => exact receiveHello_called s now hello
  | issueAgreement fid decision => exact issueAgreement_called s now fid decision
  | activate => exact activate_called s now
  | reject rsn msg => exact reject_called s now rsn msg

end

section
variable {s s' : NegotiationSession} {result : NegotiationResult Unit}

theorem Called.moves (h : Called s result s') : Moves s.phase s'.phase := by
  cases h with
  | failed | repeated | received => exact .stays _
  | agreed hello agr evs hph => exact hph ▸ .agrees
  | activated agr rdg ev hph => exact hph ▸ .activates
  | rejected rej ev hph =>
    rcases hph with hph | hph
    · exact hph ▸ .withdraws
    · exact hph ▸ .breaks

theorem Called.unchanged {error : NegotiationError} (h : Called s (.error error) s') : s' = s := by
  cases h with
  | failed => rfl

theorem Called.history (h : Called s result s') : s.history <+: s'.history := by
  cases h with
  | failed | repeated => exact List.prefix_rfl
  | received | agreed | activated | rejected => exact List.prefix_append _ _

end

/-- The records of a session fit together. Before the Agreement there is nothing
to degrade for, and an activation only exists in the active phase. -/
structure Kept (s : NegotiationSession) : Prop where
  open_ : s.phase = .proposed → s.agreement = none
  plain : s.agreement = none → s.degraded = false
  agreement : ∀ a, s.agreement = some a → (∃ hello, s.hello = some hello ∧ Fair hello a.payload) ∧
      (s.degraded = true ↔ a.payload.unavailable ≠ [])
  activation : ∀ x, s.activation = some x → s.phase = .active ∧
    ∃ a, s.agreement = some a ∧ x.granted = a.payload.granted ∧
      x.unavailable = a.payload.unavailable ∧ x.degraded = s.degraded

theorem kept_begin {sid : String} : Kept (.begin sid) where
  open_ _ := rfl
  plain _ := rfl
  agreement _ h := by cases h
  activation _ h := by cases h

theorem Kept.called {s s' : NegotiationSession} {result : NegotiationResult Unit}
    (hs : Kept s) (h : Called s result s') : Kept s' := by
  cases h with
  | failed | repeated => exact hs
  | received hello ev hph hhl =>
    refine ⟨hs.open_, hs.plain, ?_, hs.activation⟩
    intro a ha
    have hnn := hs.open_ hph
    rw [hnn] at ha
    cases ha
  | agreed hello agr evs hph hhl hfr =>
    have hpl := hs.plain (hs.open_ hph)
    refine ⟨?_, ?_, ?_, ?_⟩
    · intro hp
      cases hp
    · intro hnn
      cases hnn
    · intro a ha
      cases ha
      refine ⟨⟨hello, hhl, hfr⟩, ?_⟩
      simp [hpl]
    · intro x hx
      have hact := (hs.activation x hx).1
      rw [hph] at hact
      cases hact
  | activated agr rdg ev hph hag =>
    refine ⟨?_, hs.plain, hs.agreement, ?_⟩
    · intro hp
      cases hp
    · intro x hx
      cases hx
      exact ⟨rfl, agr, hag, rfl, rfl, rfl⟩
  | rejected rej ev hph =>
    refine ⟨?_, hs.plain, hs.agreement, ?_⟩
    · intro hp
      cases hp
    · intro x hx
      have hact := (hs.activation x hx).1
      rcases hph with hph | hph
      · rw [hph] at hact
        cases hact
      · rw [hph] at hact
        cases hact

theorem kept_after {sid : String} {calls : List SessionCall} : Kept (.after sid calls) :=
  Runs.run_invariant Kept (fun s c hs => hs.called (call_called s c)) calls kept_begin

/-- The phase, the records and the history of a session, after any calls and at
every further one. -/
theorem session_lifecycle (sessionId : String) (calls : List SessionCall) (c : SessionCall) :
    let s := NegotiationSession.after sessionId calls
    Moves s.phase (s.call c).2.phase ∧
    (s.phase = .active ∨ s.phase = .rejected → (s.call c).2.phase = s.phase) ∧
    (∀ a, s.agreement = some a → a.payload.granted.Nodup ∧
      (∃ hello, s.hello = some hello ∧ ∀ g ∈ a.payload.granted, g ∈ hello.payload.supports) ∧
      (∀ u ∈ a.payload.unavailable, u.coordinate ∉ a.payload.granted) ∧
      (s.degraded = true ↔ a.payload.unavailable ≠ [])) ∧
    (∀ x, s.activation = some x → ∃ a, s.agreement = some a ∧
      x.granted = a.payload.granted ∧ x.unavailable = a.payload.unavailable ∧
      x.degraded = s.degraded) ∧
    (∀ now x, (s.activate now).1 = .ok x → (s.activate now).2.activation = some x) ∧
    (∀ error, (s.call c).1 = .error error → (s.call c).2 = s) ∧
    s.history <+: (s.call c).2.history := by
  intro s
  have hkp : Kept s := kept_after
  have hcalled := call_called s c
  refine ⟨hcalled.moves, hcalled.moves.of_final, ?_, ?_, fun _ _ => activate_stores s _, ?_,
    hcalled.history⟩
  · intro a ha
    obtain ⟨⟨hello, hhl, hfr⟩, hdg⟩ := hkp.agreement a ha
    exact ⟨hfr.distinct, ⟨hello, hhl, hfr.supported⟩, hfr.disjoint, hdg⟩
  · intro x hx
    exact (hkp.activation x hx).2
  · intro error heo
    rw [heo] at hcalled
    exact hcalled.unchanged

end DshDesktop.Adapter
