import DshDesktop.Contracts.TolerantReading

/-!
# Where the two envelope validators agree

The daemon's `validate_envelope` and `validateEnvelope` of the contracts package agree on a
document exactly when the tolerant reading refuses it, or remarks on points of both kinds,
or on none.
-/

namespace DshDesktop.Contracts
open Daemon Json Noted Option Remark

def kindVariants : List (String × EnvelopeKind) :=
  [("Hello", .hello), ("Agreement", .agreement), ("Invocation", .invocation),
    ("Result", .result), ("Event", .event)]

def noteReply (v : Json) : Noted Remark String := do
  let s ← noteText v
  noteUnits 8 128 s
  return s

def notePayload (v : Json) : Noted Remark Json := do
  noteIf (!v.isObject) .arrayForObject
  return v.collapse

def noteFrame (ecma : Ecma) (document : Json) : Noted Remark Envelope := do
  let m ← noteRecord envelopeFields document
  let protocol ← noteMember (noteMatching fun s => s == protocol) (m "protocol")
  let id ← noteMember (noteSized 8 128) (m "id")
  let kind ← noteMember (noteVariant kindVariants) (m "kind")
  let replyTo ← noteOptional noteReply (m "replyTo")
  let participant ← noteMember noteParticipant (m "participant")
  let timestamp ← noteMember (noteTimestamp ecma) (m "timestamp")
  let generation ← noteMember (noteNatural ecma 0) (m "generation")
  let capability ← noteOptional noteCoordinate (m "capability")
  let method ← noteOptional (noteMatching validMethod) (m "method")
  let payload ← noteOptional notePayload (m "payload")
  let error ← noteOptional noteError (m "error")
  return ⟨protocol, id, kind, replyTo, participant, timestamp, generation, capability, method,
    payload, error⟩

def noteReplyLength : Option String → Noted Remark Unit
  | some replyTo => noteIf (!idLengthOk replyTo) .nativeLength
  | none => refuse

def hasObject (payload : Option Json) : Bool := payload.any isObject

def noteRules (ecma : Ecma) (env : Envelope) : Noted Remark Unit :=
  match env.kind with
  | .hello => do
    ensure (env.replyTo.isNone && env.capability.isNone && env.method.isNone && env.error.isNone)
    let _ ← noteMember (noteHello ecma) env.payload
    return ()
  | .agreement => do
    ensure (env.capability.isNone && env.method.isNone && env.error.isNone)
    noteReplyLength env.replyTo
    let _ ← noteMember (noteAgreement ecma) env.payload
    return ()
  | .invocation =>
    ensure (env.replyTo.isNone && env.error.isNone && env.capability.isSome &&
      env.method.isSome && hasObject env.payload)
  | .result => do
    ensure (env.capability.isSome && env.method.isSome &&
      (hasObject env.payload && env.error.isNone || env.payload.isNone && env.error.isSome))
    noteReplyLength env.replyTo
  | .event =>
    ensure (env.error.isNone && env.capability.isSome && env.method.isSome && hasObject env.payload)

def noteEnvelope (ecma : Ecma) (document : Json) : Noted Remark Unit := do
  let env ← noteFrame ecma document
  noteRules ecma env

section
variable {ecma : Ecma} {texts : ShapeErrors} {env : Envelope} {id : String}

structure FrameOk (env : Envelope) : Prop where
  protocol : env.protocol = protocol
  id : BytesIn 8 128 env.id
  participant : ParticipantOk env.participant
  timestamp : isRfc3339Timestamp env.timestamp = true
  capability : ∀ c ∈ env.capability, CoordinateOk c
  method : ∀ m ∈ env.method, validMethod m = true
  error : ∀ e ∈ env.error, ErrorOk e

theorem noteReply_reads : Reads noteReply readString fun _ => True :=
  fun v => (noteText_reads v).check fun _ => .skip passes_noteUnits (.pure (by simp))

theorem notePayload_reads : Reads notePayload readValue fun _ => True :=
  fun _ => .skip (passes_noteIf.mpr fun _ => rfl) (.pure Iff.rfl)

theorem noteFrame_reads : Reads (noteFrame ecma) Envelope.read FrameOk :=
  fun _ => agrees_record fun ms =>
    (agrees_member (noteMatching_reads _) ms _).bind fun _ =>
    (agrees_member (noteSized_reads 8 128) ms _).bind fun _ =>
    (agrees_member (noteVariant_reads kindVariants) ms _).bind fun _ =>
    (agrees_optional noteReply_reads ms _).bind fun _ =>
    (agrees_member noteParticipant_reads ms _).bind fun _ =>
    (agrees_member (noteTimestamp_reads ecma) ms _).bind fun _ =>
    (agrees_member (noteNatural_reads ecma 0) ms _).bind fun _ =>
    (agrees_optional noteCoordinate_reads ms _).bind fun _ =>
    (agrees_optional (noteMatching_reads _) ms _).bind fun _ =>
    (agrees_optional notePayload_reads ms _).bind fun _ =>
    (agrees_optional noteError_reads ms _).bind fun _ => .pure <| by
      simp only [beq_iff_eq, implies_true, zero_le, true_and, and_true]
      constructor
      · intro h
        obtain ⟨⟨⟨⟨⟨⟨h₁, h₂⟩, h₃⟩, h₄⟩, h₅⟩, h₆⟩, h₇⟩ := h
        exact ⟨h₁, h₂, h₃, h₄, h₅, h₆, h₇⟩
      · intro h
        exact ⟨⟨⟨⟨⟨⟨h.protocol, h.id⟩, h.participant⟩, h.timestamp⟩, h.capability⟩, h.method⟩,
          h.error⟩

theorem idLengthOk_iff : idLengthOk id ↔ BytesIn 8 128 id := by
  rw [idLengthOk, Bool.and_eq_true, decide_eq_true_iff, decide_eq_true_iff]
  rfl

theorem activationIdLengthOk_iff : activationIdLengthOk id ↔ BytesIn 1 128 id := by
  simp [activationIdLengthOk, BytesIn]

theorem validateHelloPayload_eq_nil {p : HelloPayload} :
    validateHelloPayload p = [] ↔ HelloOk p := by
  simp only [validateHelloPayload, List.append_eq_nil_iff, Daemon.pushIf_eq_nil,
    validateCoordinates_eq_nil, validateEntries_eq_nil, List.forall_mem_map, Bool.not_eq_false',
    idLengthOk_iff]
  constructor
  · intro h
    obtain ⟨⟨⟨⟨hid, hsp⟩, hun⟩, hrq⟩, hds⟩ := h
    exact ⟨hid, ⟨hsp, hun⟩, hrq, hds⟩
  · intro h
    exact ⟨⟨⟨⟨h.instanceId, h.supports.1⟩, h.supports.2⟩, h.requires⟩, h.distinct⟩

theorem validateAgreementPayload_iff {p : AgreementPayload} :
    validateAgreementPayload p = [] ↔ AgreementOk p := by
  have hlease : (p.leaseConstraints.any fun k => k.maxSeconds.any (· < 1)) = false ↔
      ∀ k ∈ p.leaseConstraints, ∀ n ∈ k.maxSeconds, 1 ≤ n := by
    simp only [any_eq_false, decide_eq_false_iff_not, not_lt, mem_def]
  simp only [validateAgreementPayload, List.append_eq_nil_iff, Daemon.pushIf_eq_nil,
    validateCoordinates_eq_nil, validateEntries_eq_nil, List.forall_mem_map, Bool.not_eq_false',
    activationIdLengthOk_iff, hlease]
  constructor
  · intro h
    obtain ⟨⟨⟨⟨⟨hid, hgr⟩, hun⟩, hdw⟩, hds⟩, hlease⟩ := h
    exact ⟨hid, ⟨hgr, hun⟩, hdw, hds, hlease⟩
  · intro h
    exact ⟨⟨⟨⟨⟨h.activationId, h.granted.1⟩, h.granted.2⟩, h.unavailable⟩, h.distinct⟩,
      h.leaseConstraints⟩

theorem validateHeader_eq_nil :
    validateHeader env = [] ↔ env.protocol = protocol ∧ BytesIn 8 128 env.id ∧
      ParticipantOk env.participant ∧ isRfc3339Timestamp env.timestamp := by
  have hact : (env.participant.activationId.any fun id => !activationIdLengthOk id) = false ↔
      ∀ id ∈ env.participant.activationId, BytesIn 1 128 id := by
    simp [any_eq_false, activationIdLengthOk_iff, mem_def]
  simp only [validateHeader, List.append_eq_nil_iff, Daemon.pushIf_eq_nil, Bool.not_eq_false',
    idLengthOk_iff, hact, decide_eq_false_iff_not, not_not]
  constructor
  · intro h
    obtain ⟨⟨⟨⟨⟨hproto, hid⟩, hcm⟩, hfc⟩, hact⟩, hst⟩ := h
    exact ⟨hproto, hid, ⟨hcm, hfc, hact⟩, hst⟩
  · intro h
    obtain ⟨hproto, hid, hpa, hst⟩ := h
    exact ⟨⟨⟨⟨⟨hproto, hid⟩, hpa.component⟩, hpa.facet⟩, hpa.activationId⟩, hst⟩

section
variable {α : Type} {note : Json → Noted Remark α} {read : Json → Option α} {P : α → Prop}
  (shapeError : Json → String) (path : String)

theorem parsePayload_ok (h : Reads note read P) : Ok refusedByDaemon (noteMember note env.payload) ↔
      ∃ p, parsePayload read shapeError path env = .ok p ∧ P p := by
  unfold parsePayload
  cases env.payload with
  | none => exact iff_of_false not_ok_refuse (fun ⟨_, h, _⟩ => nomatch h)
  | some v =>
    have hv : Ok refusedByDaemon (note v) ↔ ∃ p, read v = some p ∧ P p :=
      exists_congr fun p => (true_and _).symm.to_iff.trans (h v p)
    refine hv.trans ?_
    simp only
    cases read v <;> simp

theorem parsePayload_error {issues : List ValidationIssue}
    (h : parsePayload read shapeError path env = .error issues) : issues ≠ [] := by
  unfold parsePayload at h
  split at h
  · cases h
    exact List.cons_ne_nil _ _
  · split at h
    · cases h
    · cases h
      exact List.cons_ne_nil _ _

end

theorem noteReplyLength_passes :
    Passes refusedByDaemon (noteReplyLength env.replyTo) () ↔ validateReplyTo env = [] := by
  cases h : env.replyTo with
  | none => simp [noteReplyLength, validateReplyTo, h]
  | some id =>
    simp [noteReplyLength, validateReplyTo, h, Daemon.pushIf_eq_nil, refusedByDaemon]

theorem capabilityOk_iff (h : FrameOk env) :
    CapabilityOk env.capability ↔ env.capability.isSome := by
  constructor
  · intro hc
    obtain ⟨c, hc, _⟩ := hc
    rw [hc]
    rfl
  · intro hsome
    obtain ⟨c, hc⟩ := isSome_iff_exists.mp hsome
    exact ⟨c, hc, h.capability c hc⟩

theorem methodOk_iff (h : FrameOk env) : MethodOk env.method ↔ env.method.isSome := by
  constructor
  · intro hm
    obtain ⟨m, hm, _⟩ := hm
    rw [hm]
    rfl
  · intro hsome
    obtain ⟨m, hm⟩ := isSome_iff_exists.mp hsome
    exact ⟨m, hm, h.method m hm⟩

theorem validatePayloadObject_eq_nil : validatePayloadObject env = [] ↔ hasObject env.payload := by
  cases h : env.payload with
  | none => simp [validatePayloadObject, h, hasObject]
  | some v => simp [validatePayloadObject, h, hasObject, Daemon.pushIf_eq_nil]

theorem validateResultBody_eq_nil (h : FrameOk env) : validateResultBody env = [] ↔
      (hasObject env.payload && env.error.isNone || env.payload.isNone && env.error.isSome) =
        true := by
  have heo := h.error
  cases hld : env.payload with
  | none =>
    cases he : env.error with
    | none => simp [validateResultBody, hld, he, hasObject]
    | some e =>
      have hok := heo e he
      have hms : ¬ errorMessageMaxLen < e.message.length := not_lt.mpr hok.message
      simp [validateResultBody, hld, he, hasObject, Daemon.pushIf_eq_nil, hms,
        idLengthOk_iff, hok.correlationId]
  | some v =>
    cases he : env.error with
    | none => simp [validateResultBody, hld, he, hasObject, Daemon.pushIf_eq_nil]
    | some e => simp [validateResultBody, hld, he, hasObject]

theorem noteRules_reads (h : FrameOk env) :
    Passes refusedByDaemon (noteRules ecma env) () ↔ validateKind texts env = [] := by
  have hcap := validateCapability_eq_nil.trans (capabilityOk_iff h)
  have hmt := validateMethod_eq_nil.trans (methodOk_iff h)
  rw [← ok_unit]
  unfold noteRules validateKind
  cases env.kind with
  | hello =>
    refine (ok_and (ok_unit.trans passes_ensure) fun _ => ok_last Iff.rfl).trans ?_
    rw [parsePayload_ok texts.hello "envelope.payload" (noteHello_reads ecma)]
    simp only [validateHello, List.append_eq_nil_iff, Daemon.pushIf_eq_nil, Bool.and_eq_true,
      isNone_iff_eq_none, isSome_eq_false_iff]
    refine and_congr_right fun _ => ?_
    split
    · next hparse => simp [hparse, parsePayload_error _ _ hparse]
    · next hparse => simp [hparse, validateHelloPayload_eq_nil]
  | agreement =>
    refine (ok_and (ok_unit.trans passes_ensure) fun _ =>
      ok_and (ok_unit.trans noteReplyLength_passes) fun _ => ok_last Iff.rfl).trans ?_
    rw [parsePayload_ok texts.agreement "envelope.payload" (noteAgreement_reads ecma)]
    simp only [validateAgreement, List.append_eq_nil_iff, Daemon.pushIf_eq_nil, Bool.and_eq_true,
      isNone_iff_eq_none, isSome_eq_false_iff, ← and_assoc]
    refine and_congr_right fun _ => ?_
    split
    · next hparse => simp [hparse, parsePayload_error _ _ hparse]
    · next hparse => simp [hparse, validateAgreementPayload_iff]
  | invocation =>
    refine (ok_unit.trans passes_ensure).trans ?_
    simp only [validateInvocation, List.append_eq_nil_iff, Daemon.pushIf_eq_nil, Bool.and_eq_true,
      isNone_iff_eq_none, isSome_eq_false_iff, hcap, hmt,
      validatePayloadObject_eq_nil]
  | result =>
    refine (ok_and (ok_unit.trans passes_ensure) fun _ =>
      ok_unit.trans noteReplyLength_passes).trans ?_
    rw [Bool.and_eq_true, ← validateResultBody_eq_nil h]
    simp only [validateResult, List.append_eq_nil_iff, Bool.and_eq_true, hcap, hmt]
    tauto
  | event =>
    refine (ok_unit.trans passes_ensure).trans ?_
    simp only [validateEvent, List.append_eq_nil_iff, Daemon.pushIf_eq_nil, Bool.and_eq_true,
      isNone_iff_eq_none, isSome_eq_false_iff, hcap, hmt,
      validatePayloadObject_eq_nil]

theorem validateKind_parts (h : validateKind texts env = []) :
    (∀ c ∈ env.capability, CoordinateOk c) ∧ (∀ m ∈ env.method, validMethod m) ∧
      ∀ e ∈ env.error, ErrorOk e := by
  have hnn : ∀ {α : Type} {o : Option α} {P : α → Prop}, o.isSome = false → ∀ a ∈ o, P a := by
    intro α o P ho a ha
    rw [ha] at ho
    cases ho
  have hcap : validateCapability env = [] → ∀ c ∈ env.capability, CoordinateOk c := by
    intro hnil c hc
    obtain ⟨c', hc', hok⟩ := validateCapability_eq_nil.mp hnil
    cases hc.symm.trans hc'
    exact hok
  have hmt : validateMethod env = [] → ∀ m ∈ env.method, validMethod m := by
    intro hnil m hm
    obtain ⟨m', hm', hok⟩ := validateMethod_eq_nil.mp hnil
    cases hm.symm.trans hm'
    exact hok
  unfold validateKind at h
  cases hkn : env.kind with
  | hello =>
    simp only [hkn, validateHello, List.append_eq_nil_iff, Daemon.pushIf_eq_nil] at h
    exact ⟨hnn h.1.1.1.2, hnn h.1.1.2, hnn h.1.2⟩
  | agreement =>
    simp only [hkn, validateAgreement, List.append_eq_nil_iff, Daemon.pushIf_eq_nil] at h
    exact ⟨hnn h.1.1.1.1, hnn h.1.1.1.2, hnn h.1.1.2⟩
  | invocation =>
    simp only [hkn, validateInvocation, List.append_eq_nil_iff, Daemon.pushIf_eq_nil] at h
    exact ⟨hcap h.1.1.2, hmt h.1.2, hnn h.1.1.1.2⟩
  | event =>
    simp only [hkn, validateEvent, List.append_eq_nil_iff, Daemon.pushIf_eq_nil] at h
    exact ⟨hcap h.1.1.2, hmt h.1.2, hnn h.1.1.1⟩
  | result =>
    simp only [hkn, validateResult, List.append_eq_nil_iff] at h
    refine ⟨hcap h.1.1.2, hmt h.1.2, ?_⟩
    intro e he
    have hbd := h.2
    cases hld : env.payload with
    | some v => simp [validateResultBody, hld, mem_def.mp he] at hbd
    | none =>
      simp only [validateResultBody, hld, mem_def.mp he, List.append_eq_nil_iff,
        Daemon.pushIf_eq_nil, decide_eq_false_iff_not, not_lt, Bool.not_eq_false',
        idLengthOk_iff] at hbd
      exact ⟨hbd.1, hbd.2⟩

theorem noteEnvelope_reads {doc : Json} : Passes refusedByDaemon (noteEnvelope ecma doc) () ↔
      acceptsEnvelope texts doc := by
  rw [noteEnvelope, passes_bind]
  refine exists_congr fun env => ?_
  have hfr : Passes refusedByDaemon (noteFrame ecma doc) env ↔
      Envelope.read doc = some env ∧ FrameOk env := by
    rw [← noteFrame_reads doc env, true_and]
  rw [hfr, Daemon.validateEnvelope_ok_iff, and_assoc]
  refine and_congr_right fun _ => ?_
  constructor
  · intro h
    obtain ⟨hok, hrules⟩ := h
    exact ⟨validateHeader_eq_nil.mpr ⟨hok.protocol, hok.id, hok.participant, hok.timestamp⟩,
      (noteRules_reads hok).mp hrules⟩
  · intro h
    obtain ⟨hhd, hkn⟩ := h
    obtain ⟨hproto, hid, hpa, hst⟩ := validateHeader_eq_nil.mp hhd
    obtain ⟨hcap, hmt, heo⟩ := validateKind_parts hkn
    have hok : FrameOk env := ⟨hproto, hid, hpa, hst, hcap, hmt, heo⟩
    exact ⟨hok, (noteRules_reads hok).mpr hkn⟩

end

section
variable {α : Type} {ecma : Ecma} {env : Envelope} {m : Members} {note : Json → Noted Remark α}
  {names : List String} {o x : Option Json}

theorem noteProtocol_checks :
    Checks (noteMatching fun s => s == protocol) fun v => v = .string protocol := by
  intro v
  refine (noteMatching_checks _ v).trans ⟨?_, fun hv => ⟨_, hv, beq_self_eq_true _⟩⟩
  intro h
  obtain ⟨s, hv, hs⟩ := h
  rw [hv, eq_of_beq hs]

theorem noteReply_checks : Checks noteReply (IsText (UnitsIn 8 128)) :=
  checks_text fun _ => ok_last noteUnits_ok

theorem notePayload_checks : Checks notePayload fun v => ∃ mems, v = .object mems := by
  intro v
  refine (ok_last (ok_unit.trans passes_noteIf)).trans ?_
  cases v with
  | object mems => exact iff_of_true nofun ⟨_, rfl⟩
  | _ => exact iff_of_false (fun h => nomatch h rfl) (fun ⟨_, h⟩ => nomatch h)

structure Shows (env : Envelope) (m : Members) : Prop where
  kind : m "kind" = some (.string (kindName env.kind))
  replyTo : (m "replyTo").isSome = env.replyTo.isSome
  capability : (m "capability").isSome = env.capability.isSome
  method : (m "method").isSome = env.method.isSome
  payload : m "payload" = env.payload
  error : (m "error").isSome = env.error.isSome

theorem passes_optional {x : Option α} (h : Passes refusedByContracts (noteOptional note o) x) :
    o = none ∧ x = none ∨
      ∃ v y, o = some v ∧ x = some y ∧ Passes refusedByContracts (note v) y := by
  cases o with
  | none => exact .inl ⟨rfl, (passes_pure.mp h).symm⟩
  | some v =>
    cases v with
    | null =>
      obtain ⟨_, hnote, _⟩ := passes_bind.mp h
      exact nomatch passes_note.mp hnote
    | _ =>
      obtain ⟨y, hread, hpure⟩ := passes_bind.mp h
      exact .inr ⟨_, y, rfl, (passes_pure.mp hpure).symm, hread⟩

theorem isSome_of_optional {x : Option α} (h : Passes refusedByContracts (noteOptional note o) x) :
    (o.map collapse).isSome = x.isSome := by
  rcases passes_optional h with ⟨rfl, rfl⟩ | ⟨v, y, rfl, rfl, -⟩
  · rfl
  · rfl

theorem payload_of_optional (h : Passes refusedByContracts (noteOptional notePayload o) x) :
    o.map collapse = x := by
  rcases passes_optional h with ⟨rfl, rfl⟩ | ⟨v, y, rfl, rfl, hread⟩
  · rfl
  · obtain ⟨_, _, hpure⟩ := passes_bind.mp hread
    cases passes_pure.mp hpure
    rfl

theorem kind_of_variant {kind : EnvelopeKind}
    (h : Passes refusedByContracts (noteMember (noteVariant kindVariants) o) kind) :
    o.map collapse = some (.string (kindName kind)) := by
  obtain ⟨v, hv, name, hnm, rfl⟩ := (ok_member (noteVariant_checks kindVariants) o).mp ⟨kind, h⟩
  cases o with
  | none => cases hv
  | some w =>
    cases w with
    | string s =>
      cases hv
      simp only [kindVariants, List.map_cons, List.map_nil, List.mem_cons, List.not_mem_nil,
        or_false] at hnm
      rcases hnm with rfl | rfl | rfl | rfl | rfl <;>
        · cases passes_pure.mp h
          rfl
    | _ => cases hv

theorem noteFrame_checks :
    Checks (noteFrame ecma) (IsRecord envelopeFields (EnvelopeMembers ecma)) :=
  checks_record fun m => by
    rw [envelopeMembers_iff]
    exact ok_and (ok_member noteProtocol_checks _) fun _ =>
      ok_and (ok_member (noteSized_checks 8 128) _) fun _ =>
      ok_and (ok_member (noteVariant_checks kindVariants) _) fun _ =>
      ok_and (ok_optional noteReply_checks (fun ⟨_, h, _⟩ => nomatch h) _) fun _ =>
      ok_and (ok_member noteParticipant_checks _) fun _ =>
      ok_and (ok_member noteTimestamp_checks _) fun _ =>
      ok_and (ok_member (noteNatural_checks 0) _) fun _ =>
      ok_and (ok_optional noteCoordinate_checks (fun ⟨_, h, _⟩ => nomatch h) _) fun _ =>
      ok_and (ok_optional (noteMatching_checks _) (fun ⟨_, h, _⟩ => nomatch h) _) fun _ =>
      ok_and (ok_optional notePayload_checks (fun ⟨_, h⟩ => nomatch h) _) fun _ =>
      ok_last (ok_optional noteError_checks (fun ⟨_, h, _⟩ => nomatch h) _)

theorem noteFrame_shows {mems : List (String × Json)}
    (h : Passes refusedByContracts (noteFrame ecma (.object mems)) env) :
    Shows env fun key => (collapseMembers mems).lookup key := by
  have hmm : (fun key => (collapseMembers mems).lookup key) =
      fun key => (member mems key).map collapse := funext fun _ => lookup_collapseMembers
  rw [hmm]
  obtain ⟨_, hrec, h⟩ := passes_bind.mp h
  obtain ⟨_, rfl⟩ := passes_noteRecord_object.mp hrec
  obtain ⟨_, _, h⟩ := passes_bind.mp h
  obtain ⟨_, _, h⟩ := passes_bind.mp h
  obtain ⟨_, hkn, h⟩ := passes_bind.mp h
  obtain ⟨_, hrp, h⟩ := passes_bind.mp h
  obtain ⟨_, _, h⟩ := passes_bind.mp h
  obtain ⟨_, _, h⟩ := passes_bind.mp h
  obtain ⟨_, _, h⟩ := passes_bind.mp h
  obtain ⟨_, hcap, h⟩ := passes_bind.mp h
  obtain ⟨_, hmt, h⟩ := passes_bind.mp h
  obtain ⟨_, hld, h⟩ := passes_bind.mp h
  obtain ⟨_, heo, h⟩ := passes_bind.mp h
  cases passes_pure.mp h
  exact ⟨kind_of_variant hkn, isSome_of_optional hrp, isSome_of_optional hcap,
    isSome_of_optional hmt, payload_of_optional hld, isSome_of_optional heo⟩

theorem present_iff_isSome : Present m names ↔ ∀ name ∈ names, (m name).isSome :=
  forall₂_congr fun _ _ => isSome_iff_exists.symm

theorem absent_iff_isSome : Absent m names ↔ ∀ name ∈ names, (m name).isSome = false :=
  forall₂_congr fun _ _ => by rw [isSome_eq_false_iff, isNone_iff_eq_none]

theorem noteReplyLength_ok {replyTo : Option String} :
    Ok refusedByContracts (noteReplyLength replyTo) ↔ replyTo.isSome := by
  cases replyTo with
  | none => exact iff_of_false not_ok_refuse nofun
  | some id => exact iff_of_true (ok_unit.mpr (passes_noteIf.mpr fun _ => rfl)) rfl

theorem hasObject_iff (hsh : Shows env m) (hm : EnvelopeMembers ecma m) :
    hasObject env.payload ↔ env.payload.isSome := by
  cases hld : env.payload with
  | none => simp [hasObject]
  | some v =>
    obtain ⟨mems, rfl⟩ := hm.payload v (hsh.payload.trans hld)
    simp [hasObject, isObject]

theorem noteRules_checks (hsh : Shows env m) (hm : EnvelopeMembers ecma m)
    (hcoll : (m "payload").map collapse = m "payload") :
    Ok refusedByContracts (noteRules ecma env) ↔ KindRules ecma m env.kind := by
  have hld : ∀ {α : Type} {note : Json → Noted Remark α} {P : Json → Prop}, Checks note P →
      (Ok refusedByContracts (noteMember note env.payload) ↔ Required env.payload P) := by
    intro α note P h
    rw [ok_member h, ← hsh.payload, hcoll]
  unfold noteRules KindRules
  simp only [present_iff_isSome, absent_iff_isSome, List.forall_mem_cons, List.not_mem_nil,
    false_implies, implies_true, and_true, hsh.replyTo, hsh.capability, hsh.method,
    hsh.payload, hsh.error]
  cases env.kind with
  | hello =>
    refine (ok_and (ok_unit.trans passes_ensure) fun _ =>
      ok_last (hld noteHello_checks)).trans ?_
    simp only [Bool.and_eq_true, ← not_isSome, Bool.not_eq_true']
    tauto
  | agreement =>
    refine (ok_and (ok_unit.trans passes_ensure) fun _ =>
      ok_and noteReplyLength_ok fun _ => ok_last (hld noteAgreement_checks)).trans ?_
    simp only [Bool.and_eq_true, ← not_isSome, Bool.not_eq_true']
    tauto
  | invocation | event =>
    refine (ok_unit.trans passes_ensure).trans ?_
    simp only [Bool.and_eq_true, ← not_isSome, Bool.not_eq_true', hasObject_iff hsh hm]
    tauto
  | result =>
    refine (ok_and (ok_unit.trans passes_ensure) fun _ => noteReplyLength_ok).trans ?_
    simp only [Bool.and_eq_true, Bool.or_eq_true, ← not_isSome, Bool.not_eq_true',
      hasObject_iff hsh hm]
    tauto

theorem noteEnvelope_checks {doc : Json} : Passes refusedByContracts (noteEnvelope ecma doc) () ↔
      ∃ value, validateEnvelope ecma doc.collapse = .ok value := by
  rw [validateEnvelope_ok_iff, ← ok_unit, noteEnvelope, ok_bind]
  -- Both readings start with the frame; it fixes the kind whose rules apply.
  have hrules : ∀ mems env, doc.collapse = .object mems →
      EnvelopeMembers ecma (fun key => mems.lookup key) →
      Passes refusedByContracts (noteFrame ecma doc) env →
      (Ok refusedByContracts (noteRules ecma env) ↔
        ∀ kind, mems.lookup "kind" = some (.string (kindName kind)) →
          KindRules ecma (fun key => mems.lookup key) kind) := by
    intro mems env hdc hm hfr
    cases doc with
    | object ms =>
      cases hdc
      have hsh := noteFrame_shows hfr
      have hcoll : ((collapseMembers ms).lookup "payload").map collapse =
          (collapseMembers ms).lookup "payload" := by
        rw [lookup_collapseMembers, map_map]
        exact congrArg (fun f => (member ms "payload").map f) (funext collapse_collapse)
      rw [noteRules_checks hsh hm hcoll]
      constructor
      · intro h kind hkn
        rw [hsh.kind] at hkn
        rwa [← kindName_injective (Json.string.inj (Option.some.inj hkn))]
      · intro h
        exact h env.kind hsh.kind
    | _ => cases hdc
  constructor
  · intro h
    obtain ⟨env, hfr, hok⟩ := h
    obtain ⟨mems, hmm, hknown, hm⟩ := (noteFrame_checks doc).mp ⟨env, hfr⟩
    exact ⟨mems, hmm, hknown, hm, (hrules mems env hmm hm hfr).mp hok⟩
  · intro h
    obtain ⟨mems, hmm, hknown, hm, hkn⟩ := h
    obtain ⟨env, hfr⟩ := (noteFrame_checks doc).mpr ⟨mems, hmm, hknown, hm⟩
    exact ⟨env, hfr, (hrules mems env hmm hm hfr).mpr hkn⟩

end

/-- The document draws remarks that concern the daemon exactly when it draws some
that concern the contracts package. -/
def EvenHanded (ecma : Ecma) (document : Json) : Prop :=
  ∀ remarks, noteEnvelope ecma document = some (remarks, ()) →
    ((∃ r ∈ remarks, r.refusedByDaemon = true) ↔ ∃ r ∈ remarks, r.refusedByContracts = true)

theorem validators_agree_iff (ecma : Ecma) (texts : ShapeErrors) (document : Json) :
    (acceptsEnvelope texts document ↔
      ∃ value, validateEnvelope ecma document.collapse = .ok value) ↔
      EvenHanded ecma document := by
  have hdm : Passes Remark.refusedByDaemon (noteEnvelope ecma document) () ↔
      acceptsEnvelope texts document := noteEnvelope_reads
  rw [← hdm, ← noteEnvelope_checks]
  exact passes_iff_passes_iff

def shortReplyEvent : Json :=
  .object [("protocol", .string protocol), ("id", .string "event-0001"), ("kind", .string "Event"),
    ("replyTo", .string "m1"),
    ("participant", .object [("component", .string "dsh"), ("facet", .string "desktop")]),
    ("timestamp", .string "2026-01-01T00:00:00Z"), ("generation", .nat 1),
    ("capability", ProtocolCoordinate.toJson ⟨"desktop.dsh/v1", "Clock"⟩),
    ("method", .string "tick"), ("payload", .object [])]

/-- The daemon never looks at the reply id of an event. -/
theorem event_reply_unchecked : (∀ texts, acceptsEnvelope texts shortReplyEvent) ∧
      ∀ ecma, ¬ ∃ value, validateEnvelope ecma shortReplyEvent.collapse = .ok value := by
  constructor
  · intro texts
    exact ⟨_, rfl, rfl⟩
  · intro ecma h
    obtain ⟨_, heq, _, hm, _⟩ := validateEnvelope_ok_iff.mp h
    cases heq
    obtain ⟨_, hrp, hun⟩ := hm.replyTo _ rfl
    cases hrp
    exact absurd hun.1 (by decide)

end DshDesktop.Contracts
