import DshDesktop.Library.Remarks
import DshDesktop.Contracts.Schema

/-!
# A reading that notes what one side refuses

The readers here take every document that the daemon or the contracts package may take, and
remark on each point that only one of them refuses.
-/

namespace DshDesktop.Contracts
open Daemon Json Noted List
variable {fields : List String} {name s : String} {m : Members} (ecma : Ecma) (p : String → Bool)

inductive Remark
  | arrayForObject
  | nullForAbsent
  | variantAsObject
  | unitLength
  | notParsedDate
  | notInteger
  | sameText
  | inheritedName
  | duplicateKey
  | nativeLength
  | notRfc3339
  | notU64
  | sameValue

open Remark

def Remark.refusedByDaemon : Remark → Bool
  | .inheritedName | .duplicateKey | .nativeLength | .notRfc3339 | .notU64 | .sameValue => true
  | _ => false

def Remark.refusedByContracts : Remark → Bool
  | .arrayForObject | .nullForAbsent | .variantAsObject | .unitLength | .notParsedDate
  | .notInteger | .sameText => true
  | _ => false

section
variable {α : Type}

def noteRecord (fields : List String) : Json → Noted Remark Members
  | .object ms => do
    ensure ((keys ms).all fun key => key ∈ fields || key ∈ inheritedNames)
    noteIf ((keys ms).any fun key => key ∉ fields) .inheritedName
    noteIf (decide (¬ (keys ms).Nodup)) .duplicateKey
    return member ms
  | .array items => do
    ensure (items.length = fields.length)
    note .arrayForObject
    return fun key => (fields.zip items).lookup key
  | _ => refuse

def noteMember (read : Json → Noted Remark α) : Option Json → Noted Remark α
  | some v => read v
  | none => refuse

def noteOptional (read : Json → Noted Remark α) : Option Json → Noted Remark (Option α)
  | none => pure none
  | some .null => do
    note .nullForAbsent
    return none
  | some v => do
    let x ← read v
    return some x

def noteText : Json → Noted Remark String
  | .string s => pure s
  | _ => refuse

def noteFlag : Json → Noted Remark Bool
  | .bool b => pure b
  | _ => refuse

def noteNamed (variants : List (String × α)) (name : String) : Noted Remark α :=
  match variants.lookup name with
  | some x => pure x
  | none => refuse

def noteVariant (variants : List (String × α)) : Json → Noted Remark α
  | .string name => noteNamed variants name
  | .object [(name, .null)] => do
    note .variantAsObject
    noteNamed variants name
  | _ => refuse

def isU64AtLeast (min : ℕ) : JsonNumber → Bool
  | .posInt n => min ≤ n && n < 2 ^ 64
  | _ => false

def numeral : JsonNumber → ℕ
  | .posInt n => n
  | _ => 0

def noteNatural (ecma : Ecma) (min : ℕ) : Json → Noted Remark ℕ
  | .number n => do
    noteIf (!isU64AtLeast min n) .notU64
    noteIf (!(ecma.isInteger n && ecma.compare n min != .lt)) .notInteger
    return numeral n
  | _ => refuse

def noteMatching (p : String → Bool) (v : Json) : Noted Remark String := do
  let s ← noteText v
  ensure (p s)
  return s

def noteUnits (min max : ℕ) (s : String) : Noted Remark Unit :=
  noteIf (decide (¬ (min ≤ unitLength s ∧ unitLength s ≤ max))) .unitLength

def noteSized (min max : ℕ) (v : Json) : Noted Remark String := do
  let s ← noteText v
  noteIf (decide (¬ (min ≤ s.utf8ByteSize ∧ s.utf8ByteSize ≤ max))) .nativeLength
  noteUnits min max s
  return s

def noteTimestamp (ecma : Ecma) (v : Json) : Noted Remark String := do
  let s ← noteText v
  noteIf (!isRfc3339Timestamp s) .notRfc3339
  noteIf (!ecma.dateParses s) .notParsedDate
  return s

def noteList (ecma : Ecma) (read : Json → Noted Remark α) (write : α → Json) :
    Json → Noted Remark (List α)
  | .array items => do
    let xs ← each read items
    noteIf (!uniqueSerialized (xs.map write)) .sameValue
    noteIf (decide (¬ (items.map fun v => itemKey ecma v.collapse).Nodup)) .sameText
    return xs
  | _ => refuse

end

def noteCoordinate (v : Json) : Noted Remark ProtocolCoordinate := do
  let m ← noteRecord ["apiVersion", "kind"] v
  let apiVersion ← noteMember (noteMatching validApiVersion) (m "apiVersion")
  let kind ← noteMember (noteMatching validCoordinateKind) (m "kind")
  return ⟨apiVersion, kind⟩

def noteRequirement (v : Json) : Noted Remark Requirement := do
  let m ← noteRecord ["coordinate", "required"] v
  let coordinate ← noteMember noteCoordinate (m "coordinate")
  let required ← noteMember noteFlag (m "required")
  return ⟨coordinate, required⟩

def noteHello (ecma : Ecma) (v : Json) : Noted Remark HelloPayload := do
  let m ← noteRecord ["instanceId", "supports", "requires"] v
  let instanceId ← noteMember (noteSized 8 128) (m "instanceId")
  let supports ←
    noteMember (noteList ecma noteCoordinate ProtocolCoordinate.toJson) (m "supports")
  let requires ← noteMember (noteList ecma noteRequirement Requirement.toJson) (m "requires")
  return ⟨instanceId, supports, requires⟩

def reasonVariants : List (String × UnavailableReason) :=
  [("unavailable", .unavailable), ("unsupported_version", .unsupportedVersion),
    ("policy_denied", .policyDenied), ("provider_failed", .providerFailed)]

def noteUnavailable (v : Json) : Noted Remark UnavailableCapability := do
  let m ← noteRecord ["coordinate", "reason"] v
  let coordinate ← noteMember noteCoordinate (m "coordinate")
  let reason ← noteMember (noteVariant reasonVariants) (m "reason")
  return ⟨coordinate, reason⟩

def noteLease (ecma : Ecma) (v : Json) : Noted Remark LeaseConstraints := do
  let m ← noteRecord ["maxSeconds", "approvalRequired"] v
  let maxSeconds ← noteOptional (noteNatural ecma 1) (m "maxSeconds")
  let approvalRequired ← noteOptional noteFlag (m "approvalRequired")
  return ⟨maxSeconds, approvalRequired⟩

def noteAgreement (ecma : Ecma) (v : Json) : Noted Remark AgreementPayload := do
  let m ← noteRecord ["activationId", "granted", "unavailable", "leaseConstraints"] v
  let activationId ← noteMember (noteSized 1 128) (m "activationId")
  let granted ← noteMember (noteList ecma noteCoordinate ProtocolCoordinate.toJson) (m "granted")
  let unavailable ←
    noteMember (noteList ecma noteUnavailable UnavailableCapability.toJson) (m "unavailable")
  let leaseConstraints ← noteOptional (noteLease ecma) (m "leaseConstraints")
  return ⟨activationId, granted, unavailable, leaseConstraints⟩

def noteParticipant (v : Json) : Noted Remark Participant := do
  let m ← noteRecord ["component", "facet", "activationId"] v
  let component ← noteMember (noteMatching fun s => !s.isEmpty) (m "component")
  let facet ← noteMember (noteMatching fun s => !s.isEmpty) (m "facet")
  let activationId ← noteOptional (noteSized 1 128) (m "activationId")
  return ⟨component, facet, activationId⟩

def errorVariants : List (String × ErrorCode) :=
  [("UNAVAILABLE", .unavailable), ("UNAUTHORIZED", .unauthorized),
    ("UNSUPPORTED_VERSION", .unsupportedVersion), ("NOT_PROCESS_OWNER", .notProcessOwner),
    ("USER_GESTURE_REQUIRED", .userGestureRequired), ("USER_DENIED", .userDenied),
    ("STALE_GENERATION", .staleGeneration), ("MALFORMED_MESSAGE", .malformedMessage),
    ("CONFLICT", .conflict), ("TIMEOUT", .timeout), ("SAFE_STOP", .safeStop)]

def noteMessage (v : Json) : Noted Remark String := do
  let s ← noteText v
  noteIf (512 < s.length) .nativeLength
  noteUnits 0 512 s
  return s

def noteError (v : Json) : Noted Remark ProtocolError := do
  let m ← noteRecord ["code", "message", "retryable", "correlationId"] v
  let code ← noteMember (noteVariant errorVariants) (m "code")
  let message ← noteMember noteMessage (m "message")
  let retryable ← noteMember noteFlag (m "retryable")
  let correlationId ← noteMember (noteSized 8 128) (m "correlationId")
  return ⟨code, message, retryable, correlationId⟩

section
variable {α β : Type} {note : Json → Noted Remark α} {read : Json → Option α} {P : α → Prop}

def Reads (note : Json → Noted Remark α) (read : Json → Option α) (P : α → Prop) : Prop :=
  ∀ v, Agrees refusedByDaemon True (note v) (read v) P

theorem passes_noteRecord {v : Json} : Passes refusedByDaemon (noteRecord fields v) m ↔
      ∃ ms, v.readRecord fields = some ms ∧ m = fun key => ms.lookup key := by
  cases v with
  | object mems =>
    have hrd : ∀ ms, (object mems).readRecord fields = some ms ↔
        ((∀ key ∈ keys mems, key ∈ fields) ∧ (keys mems).Nodup) ∧ mems = ms := by
      intro ms
      simp [readRecord, Json.keys]
    simp only [noteRecord, passes_bind, passes_ensure, passes_noteIf, passes_pure, hrd,
      refusedByDaemon, all_eq_true, any_eq_true, Bool.or_eq_true,
      decide_eq_true_eq, Bool.true_eq_false, imp_false, not_exists, not_and, not_not]
    constructor
    · intro h
      obtain ⟨_, _, _, hkn, _, hnd, rfl⟩ := h
      exact ⟨mems, ⟨⟨hkn, hnd⟩, rfl⟩, funext fun _ => member_eq_lookup hnd⟩
    · intro h
      obtain ⟨_, ⟨⟨hkn, hnd⟩, rfl⟩, rfl⟩ := h
      exact ⟨(), fun key hkey => .inl (hkn key hkey), (), hkn, (), hnd,
        funext fun _ => member_eq_lookup hnd⟩
  | array items =>
    simp only [noteRecord, passes_bind, passes_ensure, passes_note, passes_pure, readRecord,
      refusedByDaemon, decide_eq_true_eq, Option.ite_none_right_eq_some, Option.some_inj]
    constructor
    · intro h
      obtain ⟨_, hlen, _, _, rfl⟩ := h
      exact ⟨_, ⟨hlen, rfl⟩, rfl⟩
    · intro h
      obtain ⟨_, ⟨hlen, rfl⟩, rfl⟩ := h
      exact ⟨(), hlen, (), trivial, rfl⟩
  | _ =>
    constructor
    · intro h
      exact absurd h passes_refuse
    · intro h
      obtain ⟨_, hrd, _⟩ := h
      cases hrd

theorem agrees_record {v : Json} {C : Prop} {f : Members → Noted Remark β}
    {g : List (String × Json) → Option β} {R : β → Prop}
    (h : ∀ ms, Agrees refusedByDaemon C (f fun key => ms.lookup key) (g ms) R) :
    Agrees refusedByDaemon C (noteRecord fields v >>= f) (v.readRecord fields >>= g) R := by
  intro b
  simp only [passes_bind, passes_noteRecord, Option.bind_eq_bind, Option.bind_eq_some_iff]
  constructor
  · intro hb
    obtain ⟨hc, _, ⟨ms, hms, rfl⟩, hf⟩ := hb
    obtain ⟨hg, hr⟩ := (h ms b).mp ⟨hc, hf⟩
    exact ⟨⟨ms, hms, hg⟩, hr⟩
  · intro hb
    obtain ⟨⟨ms, hms, hg⟩, hr⟩ := hb
    obtain ⟨hc, hf⟩ := (h ms b).mpr ⟨hg, hr⟩
    exact ⟨hc, _, ⟨ms, hms, rfl⟩, hf⟩

theorem agrees_member (h : Reads note read P) (ms : List (String × Json)) (key : String) :
    Agrees refusedByDaemon True (noteMember note (ms.lookup key)) (readField read ms key)
      P := by
  unfold readField
  cases ms.lookup key with
  | none => exact .refuse
  | some v => exact h v

theorem agrees_optional (h : Reads note read P) (ms : List (String × Json)) (key : String) :
    Agrees refusedByDaemon True (noteOptional note (ms.lookup key))
      (readOptional read ms key) fun o => ∀ a ∈ o, P a := by
  unfold readOptional
  cases ms.lookup key with
  | none => exact .pure (by simp)
  | some v =>
    have hsome : Agrees refusedByDaemon True (note v >>= fun x => pure (some x))
        ((read v).map some) fun o => ∀ a ∈ o, P a := by
      rw [Option.map_eq_bind]
      exact (h v).bind fun x => .pure (by simp)
    cases v with
    | null => exact .skip (passes_note.mpr rfl) (.pure (by simp))
    | _ => exact hsome

theorem noteText_reads : Reads noteText readString fun _ => True := by
  intro v
  cases v with
  | string s => exact .pure Iff.rfl
  | _ => exact .refuse

theorem noteFlag_reads : Reads noteFlag readBool fun _ => True := by
  intro v
  cases v with
  | bool b => exact .pure Iff.rfl
  | _ => exact .refuse

theorem agrees_named {vars : List (String × α)} :
    Agrees refusedByDaemon True (noteNamed vars name) (vars.lookup name)
      fun _ => True := by
  unfold noteNamed
  cases vars.lookup name with
  | none => exact .refuse
  | some x => exact .pure Iff.rfl

theorem noteVariant_reads (vars : List (String × α)) :
    Reads (noteVariant vars) (readVariant vars) fun _ => True := by
  intro v
  cases v with
  | string name => exact agrees_named
  | object mems =>
    cases mems with
    | nil => exact .refuse
    | cons m ms =>
      obtain ⟨name, value⟩ := m
      cases ms with
      | cons m' ms' => cases value <;> exact .refuse
      | nil =>
        cases value with
        | null => exact .skip (passes_note.mpr rfl) agrees_named
        | _ => exact .refuse
  | _ => exact .refuse

theorem noteNatural_reads (min : ℕ) : Reads (noteNatural ecma min) readU64 fun n => min ≤ n := by
  intro v
  cases v with
  | number n =>
    intro a
    cases n with
    | posInt n =>
      simp only [noteNatural, passes_bind, passes_noteIf, passes_pure, isU64AtLeast, numeral,
        refusedByDaemon, readU64, Option.ite_none_right_eq_some, Option.some_inj,
        Bool.not_eq_true', Bool.and_eq_false_iff, decide_eq_false_iff_not, Bool.true_eq_false]
      constructor
      · intro h
        obtain ⟨_, _, hrn, _, _, rfl⟩ := h
        by_contra hcontra
        exact hrn (by omega)
      · intro h
        obtain ⟨⟨hbn, rfl⟩, hmin⟩ := h
        exact ⟨trivial, (), by omega, (), fun _ => trivial, rfl⟩
    | _ => simp [noteNatural, passes_bind, isU64AtLeast, refusedByDaemon, readU64]
  | _ => exact .refuse

theorem noteMatching_reads : Reads (noteMatching p) readString fun s => p s :=
  fun v => (noteText_reads v).check fun s => .step passes_ensure (.pure (by simp))

theorem passes_noteUnits {min max : ℕ} : Passes refusedByDaemon (noteUnits min max s) () :=
  passes_noteIf.mpr fun _ => rfl

def BytesIn (min max : ℕ) (s : String) : Prop := min ≤ s.utf8ByteSize ∧ s.utf8ByteSize ≤ max

theorem noteSized_reads (min max : ℕ) : Reads (noteSized min max) readString (BytesIn min max) :=
  fun v => (noteText_reads v).check fun s =>
    .step passes_noteIf (.skip passes_noteUnits (.pure (by simp [refusedByDaemon, BytesIn])))

theorem noteTimestamp_reads : Reads (noteTimestamp ecma) readString fun s => isRfc3339Timestamp s :=
  fun v => (noteText_reads v).check fun s =>
    .step passes_noteIf (.step passes_noteIf (.pure (by simp [refusedByDaemon])))

theorem noteMessage_reads : Reads noteMessage readString fun s => s.length ≤ 512 :=
  fun v => (noteText_reads v).check fun s =>
    .step passes_noteIf (.skip passes_noteUnits (.pure (by simp [refusedByDaemon])))

theorem noteList_reads (h : Reads note read P) (write : α → Json) :
    Reads (noteList ecma note write) (readList read) fun xs =>
      (∀ x ∈ xs, P x) ∧ uniqueSerialized (xs.map write) := by
  intro v
  cases v with
  | array items =>
    exact (Agrees.each h items).check fun xs =>
      .step passes_noteIf (.step passes_noteIf (.pure (by simp [refusedByDaemon])))
  | _ => exact .refuse

theorem noteCoordinate_reads : Reads noteCoordinate ProtocolCoordinate.read CoordinateOk :=
  fun _ => agrees_record fun ms =>
    (agrees_member (noteMatching_reads _) ms _).bind fun _ =>
    (agrees_member (noteMatching_reads _) ms _).bind fun _ => .pure (by simp [CoordinateOk])

theorem noteRequirement_reads :
    Reads noteRequirement Requirement.read fun r => CoordinateOk r.coordinate :=
  fun _ => agrees_record fun ms =>
    (agrees_member noteCoordinate_reads ms _).bind fun _ =>
    (agrees_member noteFlag_reads ms _).bind fun _ => .pure (by simp)

def CoordinatesOk (list : List ProtocolCoordinate) : Prop :=
  (∀ c ∈ list, CoordinateOk c) ∧ uniqueSerialized (list.map ProtocolCoordinate.toJson) = true

structure HelloOk (p : HelloPayload) : Prop where
  instanceId : BytesIn 8 128 p.instanceId
  supports : CoordinatesOk p.supports
  requires : ∀ r ∈ p.requires, CoordinateOk r.coordinate
  distinct : uniqueSerialized (p.requires.map Requirement.toJson) = true

theorem noteHello_reads : Reads (noteHello ecma) HelloPayload.read HelloOk :=
  fun _ => agrees_record fun ms =>
    (agrees_member (noteSized_reads 8 128) ms _).bind fun _ =>
    (agrees_member (noteList_reads ecma noteCoordinate_reads _) ms _).bind fun _ =>
    (agrees_member (noteList_reads ecma noteRequirement_reads _) ms _).bind fun _ => .pure
      ⟨fun h => ⟨h.1.1.2, h.1.2, h.2.1, h.2.2⟩,
        fun h => ⟨⟨⟨trivial, h.instanceId⟩, h.supports⟩, h.requires, h.distinct⟩⟩

theorem noteUnavailable_reads :
    Reads noteUnavailable UnavailableCapability.read fun u => CoordinateOk u.coordinate :=
  fun _ => agrees_record fun ms =>
    (agrees_member noteCoordinate_reads ms _).bind fun _ =>
    (agrees_member (noteVariant_reads reasonVariants) ms _).bind fun _ => .pure (by simp)

theorem noteLease_reads :
    Reads (noteLease ecma) LeaseConstraints.read fun k => ∀ n ∈ k.maxSeconds, 1 ≤ n :=
  fun _ => agrees_record fun ms =>
    (agrees_optional (noteNatural_reads ecma 1) ms _).bind fun _ =>
    (agrees_optional noteFlag_reads ms _).bind fun _ => .pure (by simp)

structure AgreementOk (p : AgreementPayload) : Prop where
  activationId : BytesIn 1 128 p.activationId
  granted : CoordinatesOk p.granted
  unavailable : ∀ u ∈ p.unavailable, CoordinateOk u.coordinate
  distinct : uniqueSerialized (p.unavailable.map UnavailableCapability.toJson) = true
  leaseConstraints : ∀ k ∈ p.leaseConstraints, ∀ n ∈ k.maxSeconds, 1 ≤ n

theorem noteAgreement_reads : Reads (noteAgreement ecma) AgreementPayload.read AgreementOk :=
  fun _ => agrees_record fun ms =>
    (agrees_member (noteSized_reads 1 128) ms _).bind fun _ =>
    (agrees_member (noteList_reads ecma noteCoordinate_reads _) ms _).bind fun _ =>
    (agrees_member (noteList_reads ecma noteUnavailable_reads _) ms _).bind fun _ =>
    (agrees_optional (noteLease_reads ecma) ms _).bind fun _ => .pure
      ⟨fun h => ⟨h.1.1.1.2, h.1.1.2, h.1.2.1, h.1.2.2, h.2⟩,
        fun h => ⟨⟨⟨⟨trivial, h.activationId⟩, h.granted⟩, h.unavailable, h.distinct⟩,
          h.leaseConstraints⟩⟩

structure ParticipantOk (p : Participant) : Prop where
  component : p.component.isEmpty = false
  facet : p.facet.isEmpty = false
  activationId : ∀ id ∈ p.activationId, BytesIn 1 128 id

theorem noteParticipant_reads : Reads noteParticipant Participant.read ParticipantOk :=
  fun _ => agrees_record fun ms =>
    (agrees_member (noteMatching_reads _) ms _).bind fun _ =>
    (agrees_member (noteMatching_reads _) ms _).bind fun _ =>
    (agrees_optional (noteSized_reads 1 128) ms _).bind fun _ => .pure
      ⟨fun h => ⟨by simpa using h.1.1.2, by simpa using h.1.2, h.2⟩,
        fun h => ⟨⟨⟨trivial, by simp [h.component]⟩, by simp [h.facet]⟩, h.activationId⟩⟩

structure ErrorOk (e : ProtocolError) : Prop where
  message : e.message.length ≤ 512
  correlationId : BytesIn 8 128 e.correlationId

theorem noteError_reads : Reads noteError ProtocolError.read ErrorOk :=
  fun _ => agrees_record fun ms =>
    (agrees_member (noteVariant_reads errorVariants) ms _).bind fun _ =>
    (agrees_member noteMessage_reads ms _).bind fun _ =>
    (agrees_member noteFlag_reads ms _).bind fun _ =>
    (agrees_member (noteSized_reads 8 128) ms _).bind fun _ => .pure
      ⟨fun h => ⟨h.1.1.2, h.2⟩,
        fun h => ⟨⟨⟨⟨trivial, trivial⟩, h.message⟩, trivial⟩, h.correlationId⟩⟩

end

variable {α β : Type} {ecma : Ecma} {note : Json → Noted Remark α} {P : Json → Prop} {v : Json}

def Checks (note : Json → Noted Remark α) (P : Json → Prop) : Prop :=
  ∀ v, Ok refusedByContracts (note v) ↔ P v.collapse

theorem passes_noteRecord_object {mems : List (String × Json)} :
    Passes refusedByContracts (noteRecord fields (.object mems)) m ↔
      (∀ key ∈ keys mems, key ∈ fields ∨ key ∈ inheritedNames) ∧ m = member mems := by
  simp only [noteRecord, passes_bind, passes_ensure, passes_noteIf, passes_pure,
    refusedByContracts, all_eq_true, Bool.or_eq_true, decide_eq_true_eq, implies_true,
    true_and, exists_const]
  exact and_congr_right fun _ => eq_comm

theorem checks_record {Q : Members → Prop} {f : Members → Noted Remark β}
    (h : ∀ m, Ok refusedByContracts (f m) ↔ Q fun key => (m key).map collapse) :
    Checks (fun v => noteRecord fields v >>= f) (IsRecord fields Q) := by
  intro v
  rw [ok_bind]
  cases v with
  | object mems =>
    have hmm : (fun key => (collapseMembers mems).lookup key) =
        fun key => (member mems key).map collapse := funext fun _ => lookup_collapseMembers
    constructor
    · intro hok
      obtain ⟨m, hm, hf⟩ := hok
      obtain ⟨hkn, rfl⟩ := passes_noteRecord_object.mp hm
      refine ⟨_, rfl, fun key hkey => hkn key (mem_keys_collapseMembers.mp hkey), ?_⟩
      rw [hmm]
      exact (h _).mp hf
    · intro hrec
      obtain ⟨_, heq, hkn, hQ⟩ := hrec
      cases heq
      rw [hmm] at hQ
      exact ⟨_, passes_noteRecord_object.mpr
        ⟨fun key hkey => hkn key (mem_keys_collapseMembers.mpr hkey), rfl⟩, (h _).mpr hQ⟩
  | array items =>
    constructor
    · intro hok
      obtain ⟨m, hm, _⟩ := hok
      simp [noteRecord, passes_bind, refusedByContracts] at hm
    · intro hrec
      obtain ⟨_, heq, _⟩ := hrec
      cases heq
  | _ =>
    constructor
    · intro hok
      obtain ⟨_, hm, _⟩ := hok
      exact absurd hm passes_refuse
    · intro hrec
      obtain ⟨_, heq, _⟩ := hrec
      cases heq

theorem ok_member (h : Checks note P) (o : Option Json) :
    Ok refusedByContracts (noteMember note o) ↔ Required (o.map collapse) P := by
  cases o with
  | none => exact ⟨fun h => absurd h not_ok_refuse, fun ⟨_, h, _⟩ => nomatch h⟩
  | some v =>
    exact (h v).trans ⟨fun hv => ⟨_, rfl, hv⟩, fun ⟨_, hw, hv⟩ => (Option.some.inj hw) ▸ hv⟩

theorem ok_optional (h : Checks note P) (hnl : ¬ P .null) (o : Option Json) :
    Ok refusedByContracts (noteOptional note o) ↔ Allowed (o.map collapse) P := by
  cases o with
  | none => exact ⟨fun _ => nofun, fun _ => ok_pure⟩
  | some v =>
    have hal : Allowed (some v.collapse) P ↔ P v.collapse :=
      ⟨fun hv => hv _ rfl, fun hv w hw => (Option.some.inj hw) ▸ hv⟩
    rw [Option.map_some, hal]
    cases v with
    | null =>
      refine iff_of_false ?_ hnl
      intro hok
      obtain ⟨_, hnote, _⟩ := ok_bind.mp hok
      exact nomatch passes_note.mp hnote
    | _ => exact ok_last (h _)

theorem checks_text {f : String → Noted Remark β} {P : String → Prop}
    (h : ∀ s, Ok refusedByContracts (f s) ↔ P s) :
    Checks (fun v => noteText v >>= f) (IsText P) := by
  intro v
  rw [ok_bind]
  cases v with
  | string s =>
    constructor
    · intro hok
      obtain ⟨_, hs, hf⟩ := hok
      cases passes_pure.mp hs
      exact ⟨s, rfl, (h s).mp hf⟩
    · intro htx
      obtain ⟨_, heq, hP⟩ := htx
      cases heq
      exact ⟨s, passes_pure.mpr rfl, (h s).mpr hP⟩
  | _ => exact ⟨fun ⟨_, h, _⟩ => absurd h passes_refuse, fun ⟨_, h, _⟩ => nomatch h⟩

theorem noteFlag_checks : Checks noteFlag IsFlag := by
  intro v
  cases v with
  | bool b => exact ⟨fun _ => ⟨b, rfl⟩, fun _ => ok_pure⟩
  | _ => exact ⟨fun h => absurd h not_ok_refuse, fun ⟨_, h⟩ => nomatch h⟩

theorem noteMatching_checks : Checks (noteMatching p) (IsText fun s => p s) :=
  checks_text fun _ => ok_last (ok_unit.trans passes_ensure)

theorem noteNonempty_checks :
    Checks (noteMatching fun s => !s.isEmpty) (IsText fun s => 1 ≤ unitLength s) :=
  checks_text fun _ => ok_last (ok_unit.trans (by simp [unitLength_pos]))

theorem noteUnits_ok {min max : ℕ} :
    Ok refusedByContracts (noteUnits min max s) ↔ UnitsIn min max s := by
  rw [ok_unit, noteUnits, passes_noteIf]
  simp [refusedByContracts, UnitsIn]

theorem noteSized_checks (min max : ℕ) : Checks (noteSized min max) (IsText (UnitsIn min max)) :=
  checks_text fun _ => ok_skip (passes_noteIf.mpr fun _ => rfl) (ok_last noteUnits_ok)

theorem noteTimestamp_checks : Checks (noteTimestamp ecma) (IsText fun s => ecma.dateParses s) :=
  checks_text fun s => ok_skip (passes_noteIf.mpr fun _ => rfl)
    (ok_last (ok_unit.trans (by simp [refusedByContracts])))

theorem noteMessage_checks : Checks noteMessage (IsText fun s => unitLength s ≤ 512) :=
  checks_text fun s => ok_skip (passes_noteIf.mpr fun _ => rfl)
    (ok_last (noteUnits_ok.trans (by simp [UnitsIn])))

theorem ok_named {vars : List (String × α)} :
    Ok refusedByContracts (noteNamed vars name) ↔ name ∈ vars.map Prod.fst := by
  have hsome : Ok refusedByContracts (noteNamed vars name) ↔ (vars.lookup name).isSome := by
    unfold noteNamed
    cases vars.lookup name with
    | none => exact iff_of_false not_ok_refuse nofun
    | some x => exact iff_of_true ok_pure rfl
  rw [hsome, lookup_isSome_iff, mem_map]
  exact exists_congr fun m => and_congr_right fun _ => beq_iff_eq.trans eq_comm

theorem noteVariant_checks (vars : List (String × α)) :
    Checks (noteVariant vars) (IsName (vars.map Prod.fst)) := by
  intro v
  cases v with
  | string name =>
    refine ok_named.trans ⟨fun h => ⟨name, h, rfl⟩, fun ⟨_, h, heq⟩ => ?_⟩
    cases heq
    exact h
  | object mems =>
    refine iff_of_false ?_ (fun ⟨_, _, h⟩ => nomatch h)
    intro hok
    unfold noteVariant at hok
    split at hok
    · next h => cases h
    · obtain ⟨_, hnote, _⟩ := ok_bind.mp hok
      exact nomatch passes_note.mp hnote
    · exact not_ok_refuse hok
  | _ => exact ⟨fun h => absurd h not_ok_refuse, fun ⟨_, _, h⟩ => nomatch h⟩

theorem noteNatural_checks (min : ℕ) : Checks (noteNatural ecma min) (IsInteger ecma min) := by
  intro v
  cases v with
  | number n =>
    refine (ok_skip (passes_noteIf.mpr fun _ => rfl)
      (ok_last (ok_unit.trans passes_noteIf))).trans ?_
    simp [refusedByContracts, IsInteger, collapse]
  | _ => exact ⟨fun h => absurd h not_ok_refuse, fun ⟨_, h, _⟩ => nomatch h⟩

theorem noteList_checks (h : Checks note P) (write : α → Json) :
    Checks (noteList ecma note write) (IsList ecma P) := by
  intro v
  cases v with
  | array items =>
    refine (ok_and (ok_each h items) fun xs => ok_skip (passes_noteIf.mpr fun _ => rfl)
      (ok_last (ok_unit.trans passes_noteIf))).trans ?_
    rw [collapse, collapseItems_eq_map]
    constructor
    · intro hok
      refine ⟨_, rfl, forall_mem_map.mpr hok.1, ?_⟩
      rw [map_map]
      by_contra hdup
      exact nomatch hok.2 (decide_eq_true hdup)
    · intro hlist
      obtain ⟨_, heq, hie, hnd⟩ := hlist
      cases heq
      rw [map_map] at hnd
      exact ⟨forall_mem_map.mp hie, fun hdup => absurd hnd (of_decide_eq_true hdup)⟩
  | _ => exact ⟨fun h => absurd h not_ok_refuse, fun ⟨_, h, _⟩ => nomatch h⟩

theorem noteCoordinate_checks : Checks noteCoordinate IsCoordinate :=
  checks_record fun _ =>
    ok_and (ok_member (noteMatching_checks _) _) fun _ =>
    ok_last (ok_member (noteMatching_checks _) _)

theorem noteRequirement_checks : Checks noteRequirement IsRequirement :=
  checks_record fun _ =>
    ok_and (ok_member noteCoordinate_checks _) fun _ => ok_last (ok_member noteFlag_checks _)

theorem noteHello_checks : Checks (noteHello ecma) (IsHello ecma) :=
  checks_record fun _ =>
    ok_and (ok_member (noteSized_checks 8 128) _) fun _ =>
    ok_and (ok_member (noteList_checks noteCoordinate_checks _) _) fun _ =>
    ok_last (ok_member (noteList_checks noteRequirement_checks _) _)

theorem noteUnavailable_checks : Checks noteUnavailable IsUnavailable :=
  checks_record fun _ =>
    ok_and (ok_member noteCoordinate_checks _) fun _ =>
    ok_last (ok_member (noteVariant_checks reasonVariants) _)

theorem noteLease_checks : Checks (noteLease ecma) (IsLease ecma) :=
  checks_record fun _ =>
    ok_and (ok_optional (noteNatural_checks 1) (fun ⟨_, h, _⟩ => nomatch h) _) fun _ =>
    ok_last (ok_optional noteFlag_checks (fun ⟨_, h⟩ => nomatch h) _)

theorem noteAgreement_checks : Checks (noteAgreement ecma) (IsAgreement ecma) :=
  checks_record fun _ =>
    ok_and (ok_member (noteSized_checks 1 128) _) fun _ =>
    ok_and (ok_member (noteList_checks noteCoordinate_checks _) _) fun _ =>
    ok_and (ok_member (noteList_checks noteUnavailable_checks _) _) fun _ =>
    ok_last (ok_optional noteLease_checks (fun ⟨_, h, _⟩ => nomatch h) _)

theorem noteParticipant_checks : Checks noteParticipant IsParticipant :=
  checks_record fun _ =>
    ok_and (ok_member noteNonempty_checks _) fun _ =>
    ok_and (ok_member noteNonempty_checks _) fun _ =>
    ok_last (ok_optional (noteSized_checks 1 128) (fun ⟨_, h, _⟩ => nomatch h) _)

theorem noteError_checks : Checks noteError IsError :=
  checks_record fun _ =>
    ok_and (ok_member (noteVariant_checks errorVariants) _) fun _ =>
    ok_and (ok_member noteMessage_checks _) fun _ =>
    ok_and (ok_member noteFlag_checks _) fun _ =>
    ok_last (ok_member (noteSized_checks 8 128) _)

end DshDesktop.Contracts
