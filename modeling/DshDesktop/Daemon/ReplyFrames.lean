import DshDesktop.Daemon.SessionAuthority

/-!
# The replies of the server against its own validation

An error Result repeats the capability and the method of the frame it answers, and a Result
must have both, so the answer to a frame without them is not a valid envelope. An Agreement
splits the supports of its Hello in two, a message id reaches a handler once, and every
reply takes the next generation of the connection.
-/

namespace DshDesktop.Daemon
open Supervisor List

variable {η : Type} {x : Exchange η} {list denied list' : List ProtocolCoordinate}
  {hello : HelloPayload} {gen : ℕ} (t : UnixTime)

def FourDigitYear (clock : ℕ → UnixTime) : Prop := (clock 2).secs < 253402300800

def Addressed (capability : Option ProtocolCoordinate) (method : Option String) : Prop :=
  CapabilityOk capability ∧ MethodOk method

section
variable {clock : ℕ → UnixTime} {texts : ShapeErrors} {ctr : UInt64} {env e : Envelope}

theorem idLengthOk_newMessageId {counter : UInt64} : idLengthOk (newMessageId t counter) := by
  have h : 25 ≤ (newMessageId t counter).utf8ByteSize ∧
    (newMessageId t counter).utf8ByteSize ≤ 45 :=
    uniqueToken_size rfl t counter
  have hmin : idMinLen ≤ (newMessageId t counter).utf8ByteSize := le_trans (by decide) h.1
  have hmax : (newMessageId t counter).utf8ByteSize ≤ idMaxLen := le_trans h.2 (by decide)
  simp [idLengthOk, hmin, hmax]

theorem activationIdLengthOk_newActivationId {counter : UInt64} :
    activationIdLengthOk (newActivationId t counter) := by
  have h : 25 ≤ (newActivationId t counter).utf8ByteSize ∧
      (newActivationId t counter).utf8ByteSize ≤ 45 :=
    uniqueToken_size rfl t counter
  simp [activationIdLengthOk]
  omega

theorem validateHeader_reply {counter : UInt64} {actId : Option String} (clock : ℕ → UnixTime)
    (hproto : e.protocol = protocol)
    (hid : e.id = newMessageId (clock 1) counter) (hpa : e.participant = serverParticipant actId)
    (hst : e.timestamp = nowTimestampLike (clock 2))
    (hact : (actId.any fun id => !activationIdLengthOk id) = false) :
    validateHeader e = [] ↔ FourDigitYear clock := by
  have hcm : serverComponent.isEmpty = false := by decide
  have hfc : serverFacet.isEmpty = false := by decide
  simp [validateHeader, pushIf_eq_nil, hproto, hid, hpa, serverParticipant,
    hst, hact, idLengthOk_newMessageId, hcm, hfc, FourDigitYear,
    isRfc3339Timestamp_now]

theorem validateKind_result (h : e.kind = .result) : validateKind texts e = validateResult e := by
  simp [validateKind, h]

section
variable {id message : String} {cap : Option ProtocolCoordinate} {method : Option String}
  {code : ErrorCode} {retryable : Bool}

theorem validateResultBody_error :
    validateResultBody (errorEnvelope clock ctr gen id id cap method code
      message retryable) = [] ↔ idLengthOk id := by
  have hlen : ¬ errorMessageMaxLen < (String.ofList (message.toList.take 512)).length := by
    simp [errorMessageMaxLen]
  simp only [validateResultBody, errorEnvelope, append_eq_nil_iff, pushIf_eq_nil, hlen,
    decide_false, true_and, Bool.not_eq_eq_eq_not, Bool.not_false]

theorem errorEnvelope_valid_iff :
    validateEnvelope texts (errorEnvelope clock ctr gen id id cap method code
      message retryable) = .ok () ↔
      FourDigitYear clock ∧ idLengthOk id ∧ Addressed cap method := by
  have hhd : validateHeader (errorEnvelope clock ctr gen id id cap method
      code message retryable) = [] ↔ FourDigitYear clock :=
    validateHeader_reply clock rfl rfl rfl rfl rfl
  have hrp : validateReplyTo (errorEnvelope clock ctr gen id id cap method
      code message retryable) = [] ↔ idLengthOk id := validateReplyTo_eq_nil rfl
  rw [validateEnvelope_ok_iff, hhd, validateKind_result rfl]
  simp only [validateResult, append_eq_nil_iff, validateResultBody_error, hrp,
    validateCapability_eq_nil, validateMethod_eq_nil]
  simp only [errorEnvelope, Addressed]
  constructor
  · intro hvalid
    obtain ⟨hyr, ⟨⟨hid, hcap⟩, hmt⟩, -⟩ := hvalid
    exact ⟨hyr, hid, hcap, hmt⟩
  · intro hcond
    obtain ⟨hyr, hid, hcap, hmt⟩ := hcond
    exact ⟨hyr, ⟨⟨hid, hcap⟩, hmt⟩, hid⟩

end

theorem validateHeader_inv (h : validateHeader env = []) : idLengthOk env.id ∧
      (env.participant.activationId.any fun id => !activationIdLengthOk id) = false := by
  simp only [validateHeader, append_eq_nil_iff, pushIf_eq_nil, Bool.not_eq_eq_eq_not,
    Bool.not_false] at h
  obtain ⟨⟨⟨⟨⟨-, hid⟩, -⟩, -⟩, hact⟩, -⟩ := h
  exact ⟨hid, hact⟩

structure ValidInvocation (env : Envelope) : Prop where
  id_ok : idLengthOk env.id = true
  activation_ok : (env.participant.activationId.any fun id => !activationIdLengthOk id) = false
  addressed : Addressed env.capability env.method

theorem validInvocation_of_ok (hvalid : validateEnvelope texts env = .ok ())
    (hkn : env.kind = .invocation) : ValidInvocation env := by
  obtain ⟨hhd, hbd⟩ := validateEnvelope_ok_iff.mp hvalid
  obtain ⟨hid, hact⟩ := validateHeader_inv hhd
  simp only [validateKind, hkn, validateInvocation, append_eq_nil_iff,
    validateCapability_eq_nil, validateMethod_eq_nil] at hbd
  obtain ⟨⟨⟨-, hcap⟩, hmt⟩, -⟩ := hbd
  exact ⟨hid, hact, hcap, hmt⟩

theorem resultEnvelope_valid_iff {payload : Json} (h : ValidInvocation env)
    (hld : payload.isObject) :
    validateEnvelope texts (resultEnvelope clock ctr gen env payload) = .ok () ↔
      FourDigitYear clock := by
  have hhd : validateHeader (resultEnvelope clock ctr gen env payload) = [] ↔ FourDigitYear clock :=
    validateHeader_reply clock rfl rfl rfl rfl h.activation_ok
  have hrp : validateReplyTo (resultEnvelope clock ctr gen env payload) = [] :=
    (validateReplyTo_eq_nil rfl).mpr h.id_ok
  have hcap : validateCapability (resultEnvelope clock ctr gen env payload) = [] :=
    validateCapability_eq_nil.mpr h.addressed.1
  have hmt : validateMethod (resultEnvelope clock ctr gen env payload) = [] :=
    validateMethod_eq_nil.mpr h.addressed.2
  have hbd : validateResultBody (resultEnvelope clock ctr gen env payload) = [] := by
    simp [validateResultBody, resultEnvelope, pushIf_eq_nil, hld]
  rw [validateEnvelope_ok_iff, hhd, validateKind_result rfl, validateResult, hrp, hcap, hmt, hbd]
  simp

theorem dispatchReply_valid_iff {c : ProtocolCoordinate} {method : String}
    {result : Except DaemonMethodError Json} (h : ValidInvocation env)
    (hc : env.capability = some c) (hm : env.method = some method)
    (hres : (∃ v, result = .ok v ∧ v.isObject) ∨ result = .error (.methodNotFound c method) ∨
      ∃ e, result = .error (HostError.toMethodError c method e)) :
    (∀ e ∈ (dispatchReply clock x env c method result).replies,
      validateEnvelope texts e = .ok ()) ↔ FourDigitYear clock := by
  have had := h.addressed
  rw [hc, hm] at had
  rcases hres with ⟨v, rfl, hv⟩ | rfl | ⟨e, rfl⟩
  · simp [dispatchReply, resultReply, resultEnvelope_valid_iff h hv]
  · simp [dispatchReply, errorResult, errorEnvelope_valid_iff, h.id_ok, had]
  · cases e <;> simp [HostError.toMethodError, dispatchReply, errorResult,
      errorEnvelope_valid_iff, h.id_ok, had]

theorem handleInvocation_valid_iff {sur : Surroundings η} {key : ℕ} (h : ValidInvocation env) :
    (∀ e ∈ (handleInvocation sur key x env).replies, validateEnvelope texts e = .ok ()) ↔
      FourDigitYear sur.clock := by
  have had := h.addressed
  obtain ⟨⟨c, hc, -⟩, ⟨method, hm, -⟩⟩ := h.addressed
  rw [hc, hm] at had
  simp only [handleInvocation, hc, hm]
  cases gateInvocation sur.clock x env.participant c with
  | error refusal => simp [errorResult, errorEnvelope_valid_iff, h.id_ok, had]
  | ok activation =>
    refine dispatchReply_valid_iff h hc hm ?_
    rcases dispatch_cases sur.hosts key c method (env.payload.getD .null) x.daemon with
      ⟨v, s', hv, hob⟩ | hnn | ⟨e, s', he⟩
    · exact .inl ⟨v, by rw [hv], hob⟩
    · exact .inr (.inl (by rw [hnn]))
    · exact .inr (.inr ⟨e, by rw [he]⟩)

def coordinateText (c : ProtocolCoordinate) : String := c.toJson.render

def deniedText (c : ProtocolCoordinate) : String := (policyDenied c).toJson.render

def DistinctCoordinates (list : List ProtocolCoordinate) : Prop :=
  (∀ c ∈ list, CoordinateOk c) ∧ (list.map coordinateText).Nodup

section
variable (h : DistinctCoordinates list)
include h

theorem DistinctCoordinates.filter (p : ProtocolCoordinate → Bool) :
    DistinctCoordinates (list.filter p) := by
  refine ⟨fun c hc => h.1 c (mem_of_mem_filter hc), ?_⟩
  exact h.2.sublist (filter_sublist.map coordinateText)

theorem DistinctCoordinates.perm (hperm : list'.Perm list) : DistinctCoordinates list' := by
  refine ⟨fun c hc => h.1 c (hperm.mem_iff.mp hc), ?_⟩
  exact (hperm.map coordinateText).nodup_iff.mpr h.2

theorem DistinctCoordinates.nodup_denied : (list.map deniedText).Nodup := by
  have hpairs := h.2
  rw [List.Nodup, pairwise_map] at hpairs ⊢
  exact hpairs.imp fun hne heq => hne (Json.render_pair_left heq)

end

theorem registerGrants_lists (clock : ℕ → UnixTime) (broker : Broker)
    (agentId actId : String) (authority : ActivationAuthority)
    (granted denied : List ProtocolCoordinate) :
    let g := registerGrants clock broker agentId actId authority granted
      (denied.map policyDenied)
    (g.granted = granted ∧ g.unavailable = denied.map policyDenied) ∨
    (g.granted = [] ∧ g.unavailable = (denied ++ granted).map policyDenied) := by
  simp only [registerGrants, map_append]
  split_ifs with hem hsh
  · exact .inl ⟨rfl, rfl⟩
  · split
    · exact .inl ⟨rfl, rfl⟩
    · exact .inl ⟨rfl, rfl⟩
    · exact .inr ⟨rfl, rfl⟩
  · split
    · exact .inl ⟨rfl, rfl⟩
    · exact .inr ⟨rfl, rfl⟩
    · exact .inr ⟨rfl, rfl⟩

theorem validateAgreementPayload_eq_nil {p : AgreementPayload}
    (hid : activationIdLengthOk p.activationId) (hgr : DistinctCoordinates p.granted)
    (hdn : DistinctCoordinates denied) (hdw : p.unavailable = denied.map policyDenied)
    (hlease : (p.leaseConstraints.any fun k => k.maxSeconds.any (· < 1)) = false) :
    validateAgreementPayload p = [] := by
  have hde : ∀ c ∈ p.unavailable.map UnavailableCapability.coordinate, CoordinateOk c := by
    rw [hdw, map_map]
    intro c hc
    obtain ⟨d, hd, rfl⟩ := mem_map.mp hc
    exact hdn.1 d hd
  have hga : uniqueSerialized (p.granted.map ProtocolCoordinate.toJson) := by
    rw [uniqueSerialized, map_map, decide_eq_true_eq]
    exact hgr.2
  have hdi : uniqueSerialized (p.unavailable.map UnavailableCapability.toJson) := by
    rw [uniqueSerialized, hdw, map_map, map_map, decide_eq_true_eq]
    exact hdn.nodup_denied
  simp only [validateAgreementPayload, append_eq_nil_iff, pushIf_eq_nil,
    validateCoordinates_eq_nil, validateEntries_eq_nil, hid, hga, hdi, hlease,
    Bool.not_true, and_true, true_and]
  exact ⟨hgr.1, hde⟩

theorem agreementPayload_read (actId : String) (g : HelloGrant) :
    AgreementPayload.read (agreementPayload actId g).toJson = some (agreementPayload actId g) := by
  refine AgreementPayload.read_toJson _ ?_
  intro k hk n hn
  simp only [agreementPayload] at hk
  split_ifs at hk
  obtain rfl := Option.some.inj hk
  obtain rfl := Option.some.inj hn
  decide

theorem agreementEnvelope_valid_iff {helloId actId : String} {g : HelloGrant}
    (hhl : idLengthOk helloId) (hid : activationIdLengthOk actId)
    (hgr : DistinctCoordinates g.granted) (hdn : DistinctCoordinates denied)
    (hdw : g.unavailable = denied.map policyDenied) :
    validateEnvelope texts (agreementEnvelope clock ctr gen helloId actId g) =
      .ok () ↔ FourDigitYear clock := by
  have hhd : validateHeader (agreementEnvelope clock ctr gen helloId actId g)
      = [] ↔ FourDigitYear clock :=
    validateHeader_reply clock rfl rfl rfl rfl (by simp [hid])
  have hrp : validateReplyTo (agreementEnvelope clock ctr gen helloId actId g) = [] :=
    (validateReplyTo_eq_nil rfl).mpr hhl
  have hld : validateAgreementPayload (agreementPayload actId g) = [] := by
    refine validateAgreementPayload_eq_nil hid hgr hdn hdw ?_
    simp only [agreementPayload]
    split_ifs <;> rfl
  have hbd : validateKind texts (agreementEnvelope clock ctr gen helloId actId
      g) = [] := by
    change validateAgreement texts _ = []
    rw [validateAgreement, hrp]
    simp [agreementEnvelope, parsePayload, agreementPayload_read, hld, pushIf]
  rw [validateEnvelope_ok_iff, hhd, hbd]
  simp

structure ValidHello (env : Envelope) (hello : HelloPayload) : Prop where
  id_ok : idLengthOk env.id = true
  read : env.payload.bind HelloPayload.read = some hello
  supports : DistinctCoordinates hello.supports

theorem validHello_of_ok (hvalid : validateEnvelope texts env = .ok ())
    (hkn : env.kind = .hello) : ∃ hello, ValidHello env hello := by
  obtain ⟨hhd, hbd⟩ := validateEnvelope_ok_iff.mp hvalid
  obtain ⟨hid, -⟩ := validateHeader_inv hhd
  simp only [validateKind, hkn, validateHello, append_eq_nil_iff, parsePayload] at hbd
  have hld := hbd.2
  cases hsome : env.payload with
  | none => simp [hsome] at hld
  | some value =>
    cases hrd : HelloPayload.read value with
    | none => simp [hsome, hrd] at hld
    | some hello =>
      simp only [hsome, hrd, validateHelloPayload, append_eq_nil_iff, pushIf_eq_nil,
        validateCoordinates_eq_nil, uniqueSerialized, map_map, Bool.not_eq_eq_eq_not,
        Bool.not_false, decide_eq_true_eq] at hld
      obtain ⟨⟨⟨⟨-, hsp⟩, hun⟩, -⟩, -⟩ := hld
      refine ⟨hello, hid, ?_, hsp, hun⟩
      rw [hsome, Option.bind_some, hrd]

theorem acceptHello_valid_iff {actId : String} {authority : ActivationAuthority}
    (h : ValidHello env hello) (hid : activationIdLengthOk actId) :
    (∀ e ∈ (acceptHello clock x env hello actId authority).replies,
      validateEnvelope texts e = .ok ()) ↔ FourDigitYear clock := by
  have hrq := h.supports.filter catalogSupports
  have hrej := h.supports.filter fun c => !catalogSupports c
  have hbt : DistinctCoordinates (hello.supports.filter (fun c => !catalogSupports c) ++
      hello.supports.filter catalogSupports) := by
    refine h.supports.perm (perm_append_comm.trans ?_)
    simpa using filter_append_perm catalogSupports hello.supports
  have hem : DistinctCoordinates [] := ⟨by simp, by simp⟩
  simp only [acceptHello, mem_singleton, forall_eq]
  rcases registerGrants_lists clock x.daemon.broker (agentIdOf env.participant) actId
    authority (hello.supports.filter catalogSupports)
    (hello.supports.filter fun c => !catalogSupports c) with ⟨hg, hu⟩ | ⟨hg, hu⟩
  · exact agreementEnvelope_valid_iff h.id_ok hid (by rwa [hg]) hrej hu
  · exact agreementEnvelope_valid_iff h.id_ok hid (by rwa [hg]) hbt hu

def KeepsAuthority (server : ServerConfig) (s : SessionState) (p : Participant) : Prop :=
  ∀ established, s.authority = some established → established = authorityOf server s.identity p

theorem handleHello_valid_iff {server : ServerConfig} (h : ValidHello env hello) :
    (∀ e ∈ (handleHello server clock x env).replies, validateEnvelope texts e = .ok ()) ↔
      FourDigitYear clock ∧ KeepsAuthority server x.session env.participant := by
  have hsw : (x.session.authority.any fun established =>
      established ≠ authorityOf server x.session.identity env.participant) ↔
      ¬ KeepsAuthority server x.session env.participant := by
    simp [KeepsAuthority, Option.any_eq_true]
  simp only [handleHello, h.read]
  split_ifs with hany
  · -- The refusal names no capability, so it is never valid.
    have hkp := hsw.mp hany
    simp [errorResult, errorEnvelope_valid_iff, Addressed, CapabilityOk, hkp]
  · have hkp := not_not.mp (hsw.not.mp hany)
    rw [acceptHello_valid_iff h (activationIdLengthOk_newActivationId _)]
    exact (and_iff_left hkp).symm

end

def FrameOk (server : ServerConfig) (lib : JsonLibrary) (s : SessionState) (r : Received η) :
    Prop :=
  match lib.readEnvelope r.bytes with
  | .error _ => frameId lib r.bytes = none
  | .ok env =>
    if env.id ∈ s.seenIds then
      FourDigitYear r.surroundings.clock ∧ idLengthOk env.id = true ∧
        Addressed env.capability env.method
    else match validateEnvelope lib.shapeErrors env, env.kind with
      | .error _, _ => idLengthOk env.id = true →
          FourDigitYear r.surroundings.clock ∧ Addressed env.capability env.method
      | .ok (), .hello =>
        FourDigitYear r.surroundings.clock ∧ KeepsAuthority server s env.participant
      | .ok (), .invocation => FourDigitYear r.surroundings.clock
      | .ok (), _ => True

def connectionReplies (server : ServerConfig) (lib : JsonLibrary) (key : ℕ) :
    SessionState → List (Received η) → List Envelope
  | _, [] => []
  | s, r :: rs => (receive server lib key s r).replies ++
      connectionReplies server lib key (receive server lib key s r).exchange.session rs

section
variable {server : ServerConfig} {lib : JsonLibrary} {key : ℕ}

theorem Handled.valid_iff {s : SessionState} {r : Received η} {o : Outcome η}
    (h : Handled server lib r.surroundings key ⟨s, r.daemon⟩ r.bytes o) :
    (∀ e ∈ o.replies, validateEnvelope lib.shapeErrors e = .ok ()) ↔ FrameOk server lib s r := by
  cases h with
  | dropped hrd hid => simp [FrameOk, hrd, hid]
  | unparsable hrd hid =>
    simp [FrameOk, hrd, hid, errorResult, errorEnvelope_valid_iff, Addressed, CapabilityOk]
  | replayed hrd hsn =>
    simp [FrameOk, hrd, hsn, errorResult, errorEnvelope_valid_iff]
  | invalid hrd hsn hin hid =>
    simp [FrameOk, hrd, hsn, hin, hid, errorResult, errorEnvelope_valid_iff]
  | uncorrelated hrd hsn hin hid => simp [FrameOk, hrd, hsn, hin, hid]
  | hello hrd hsn hvalid hkn =>
    obtain ⟨hello, hhl⟩ := validHello_of_ok hvalid hkn
    rw [handleHello_valid_iff hhl]
    simp [FrameOk, hrd, hsn, hvalid, hkn, KeepsAuthority, Exchange.markSeen]
  | invocation hrd hsn hvalid hkn =>
    rw [handleInvocation_valid_iff (validInvocation_of_ok hvalid hkn)]
    simp [FrameOk, hrd, hsn, hvalid, hkn]
  | ignored hrd hsn hvalid hhl hinv =>
    rename_i env
    cases hkn : env.kind <;> simp_all [FrameOk]

theorem connectionReplies_valid_iff {s : SessionState} {received : List (Received η)} :
    (∀ e ∈ connectionReplies server lib key s received,
      validateEnvelope lib.shapeErrors e = .ok ()) ↔
    Runs.Along (fun s r => (receive server lib key s r).exchange.session) (FrameOk server lib) s
      received := by
  induction received generalizing s with
  | nil => simp [connectionReplies, Runs.Along]
  | cons r rs ih =>
    have hfr := (handleFrame_handled server lib r.surroundings key ⟨s, r.daemon⟩ r.bytes).valid_iff
    simp only [connectionReplies, forall_mem_append, Runs.Along, ih]
    exact and_congr_left' hfr

end

/-- The replies of a connection are all valid exactly when every one of its frames
meets the condition in the session it arrives in. -/
theorem replies_valid_iff_frames_ok (server : ServerConfig) (lib : JsonLibrary) (key : ℕ)
    (identity : Option PeerIdentity) (received : List (Received η)) :
    (∀ e ∈ connectionReplies server lib key (SessionState.new identity) received,
      validateEnvelope lib.shapeErrors e = .ok ()) ↔
    Runs.Along (fun s r => (receive server lib key s r).exchange.session) (FrameOk server lib)
      (SessionState.new identity) received :=
  connectionReplies_valid_iff

theorem replayed_hello_reply_invalid :
    let lib := sampleLibrary (sampleHello "hello-01" "dsh-desktop-shell" "shell")
    let frame : Received Unit := ⟨[], sampleDaemon, sampleSurroundings⟩
    (connectionReplies sampleServer lib 1 (SessionState.new none) [frame, frame]).map
      (validateEnvelope lib.shapeErrors) =
    [.ok (), .error [⟨"envelope.capability", "missing required \"capability\""⟩,
      ⟨"envelope.method", "missing required \"method\""⟩]] := by
  decide +kernel

open UnavailableCapability

variable {η : Type} {id : String} {clock : ℕ → UnixTime} {s : SessionState}

structure Partition (supports : List ProtocolCoordinate) (p : AgreementPayload) : Prop where
  granted_nodup : p.granted.Nodup
  unavailable_nodup : (p.unavailable.map coordinate).Nodup
  disjoint : p.granted.Disjoint (p.unavailable.map coordinate)
  together : (p.granted ++ p.unavailable.map coordinate).Perm supports
  catalog : ∀ c ∈ p.granted, c ∈ catalog

section
variable {sup : List ProtocolCoordinate} {p : AgreementPayload}

theorem Partition.of_perm (hsp : sup.Nodup)
    (hperm : (p.granted ++ p.unavailable.map coordinate).Perm sup)
    (hcat : ∀ c ∈ p.granted, c ∈ Daemon.catalog) : Partition sup p := by
  have hnd := hperm.nodup_iff.mpr hsp
  rw [nodup_append'] at hnd
  obtain ⟨hgr, hdw, hds⟩ := hnd
  exact ⟨hgr, hdw, hds, hperm, hcat⟩

theorem DistinctCoordinates.nodup (h : DistinctCoordinates sup) : sup.Nodup :=
  h.2.of_map _

theorem coordinates_policyDenied {list : List ProtocolCoordinate} :
    (list.map policyDenied).map coordinate = list := by
  rw [map_map]
  exact map_id list

theorem registerGrants_partition {actId aid : String} {brk : Broker} {auth : ActivationAuthority}
    (clock : ℕ → UnixTime) (hsp : sup.Nodup) :
    Partition sup (agreementPayload actId
      (registerGrants clock brk aid actId auth (sup.filter catalogSupports)
        ((sup.filter fun c => !catalogSupports c).map policyDenied))) := by
  have hperm : (sup.filter catalogSupports ++ sup.filter fun c => !catalogSupports c).Perm sup :=
    filter_append_perm catalogSupports sup
  rcases registerGrants_lists clock brk aid actId auth
    (sup.filter catalogSupports) (sup.filter fun c => !catalogSupports c)
    with ⟨hgr, hdw⟩ | ⟨hgr, hdw⟩
  · refine .of_perm hsp ?_ ?_
    · simp only [agreementPayload, hgr, hdw, coordinates_policyDenied]
      exact hperm
    · intro c hc
      simp only [agreementPayload, hgr, mem_filter] at hc
      exact mem_of_elem_eq_true hc.2
  refine .of_perm hsp ?_ ?_
  · simp only [agreementPayload, hgr, hdw, coordinates_policyDenied, nil_append]
    exact perm_append_comm.trans hperm
  · intro c hc
    simp only [agreementPayload, hgr, not_mem_nil] at hc

end

structure AgreementTo (env e : Envelope) : Prop where
  hello : env.kind = .hello
  replyTo : e.replyTo = some env.id
  lists : ∃ hello p, env.payload.bind HelloPayload.read = some hello ∧
    e.payload.bind AgreementPayload.read = some p ∧ Partition hello.supports p

section
variable {srv : ServerConfig} {lib : JsonLibrary} {sur : Surroundings η} {key : ℕ}
  {x : Exchange η} {env e : Envelope} {bytes : List UInt8} {o : Outcome η}

theorem handleHello_agreement {hello : HelloPayload} (h : ValidHello env hello)
    (hkn : env.kind = .hello) (he : e ∈ (handleHello srv clock x env).replies)
    (hag : e.kind = .agreement) : AgreementTo env e := by
  simp only [handleHello, h.read] at he
  split_ifs at he
  · obtain rfl := mem_singleton.mp he
    cases hag
  · obtain rfl := mem_singleton.mp he
    refine ⟨hkn, rfl, hello, _, h.read, agreementPayload_read _ _, ?_⟩
    exact registerGrants_partition _ h.supports.nodup

def Numbered (s : SessionState) (o : Outcome η) : Prop :=
  o.replies.map Envelope.generation = List.range' s.nextGeneration o.replies.length ∧
    o.exchange.session.nextGeneration = s.nextGeneration + o.replies.length

structure Answered (o : Outcome η) (s : SessionState) : Prop where
  numbered : Numbered s o
  seenIds : o.exchange.session.seenIds = s.seenIds
  kind : ∀ e ∈ o.replies, e.kind = .result

theorem dispatchReply_answered (clock : ℕ → UnixTime) (x : Exchange η) (env : Envelope)
    (c : ProtocolCoordinate) (mth : String) (res : Except DaemonMethodError Json) :
    Answered (dispatchReply clock x env c mth res) x.session := by
  cases res with
  | ok pay => exact ⟨⟨rfl, rfl⟩, rfl, forall_mem_singleton.mpr rfl⟩
  | error error => cases error <;> exact ⟨⟨rfl, rfl⟩, rfl, forall_mem_singleton.mpr rfl⟩

theorem runHandler_answered {c : ProtocolCoordinate} {mth : String} {a : Activation} :
    Answered (runHandler sur key x env c mth a) x.session := by
  simp only [runHandler]
  generalize dispatch sur.hosts key c mth (env.payload.getD .null) x.daemon = result
  have h := dispatchReply_answered sur.clock { x with daemon := result.2 } env c mth result.1
  exact ⟨h.numbered, h.seenIds, h.kind⟩

theorem handleInvocation_answered : Answered (handleInvocation sur key x env) x.session := by
  simp only [handleInvocation]
  split
  · split
    · exact ⟨⟨rfl, rfl⟩, rfl, forall_mem_singleton.mpr rfl⟩
    · exact runHandler_answered
  · exact ⟨⟨rfl, rfl⟩, rfl, forall_mem_nil _⟩

theorem Handled.agreement (h : Handled srv lib sur key x bytes o) (he : e ∈ o.replies)
    (hag : e.kind = .agreement) : ∃ env, lib.readEnvelope bytes = .ok env ∧ AgreementTo env e := by
  cases h with
  | dropped | uncorrelated | ignored => cases he
  | unparsable | replayed | invalid =>
    obtain rfl := mem_singleton.mp he
    cases hag
  | hello hrd hsn hvl hkn =>
    obtain ⟨hello, hhl⟩ := validHello_of_ok hvl hkn
    exact ⟨_, hrd, handleHello_agreement hhl hkn he hag⟩
  | invocation hrd hsn hvl hkn =>
    rw [handleInvocation_answered.kind e he] at hag
    cases hag

theorem handleHello_numbered (clock : ℕ → UnixTime) :
    Numbered x.session (handleHello srv clock x env) ∧
      (handleHello srv clock x env).exchange.session.seenIds = x.session.seenIds := by
  simp only [handleHello]
  split
  · exact ⟨⟨rfl, rfl⟩, rfl⟩
  · split_ifs <;> exact ⟨⟨rfl, rfl⟩, rfl⟩

theorem Handled.numbered (h : Handled srv lib sur key x bytes o) : Numbered x.session o := by
  cases h with
  | hello => exact (handleHello_numbered sur.clock).1
  | invocation => exact handleInvocation_answered.numbered
  | dropped | unparsable | replayed | invalid | uncorrelated | ignored => exact ⟨rfl, rfl⟩

theorem Handled.seenIds (h : Handled srv lib sur key x bytes o) :
    (∀ id ∈ o.entered, id ∉ x.session.seenIds ∧ id ∈ o.exchange.session.seenIds) ∧
      x.session.seenIds ⊆ o.exchange.session.seenIds := by
  cases h with
  | dropped | unparsable | replayed => exact ⟨nofun, Subset.refl _⟩
  | invalid | uncorrelated | ignored => exact ⟨nofun, subset_cons_self _ _⟩
  | @hello env hrd hnew =>
    have hseen : (handleHello srv sur.clock (x.markSeen env.id) env).exchange.session.seenIds =
        env.id :: x.session.seenIds := (handleHello_numbered _).2
    refine ⟨fun id hid => ?_, hseen ▸ subset_cons_self _ _⟩
    cases hid
    exact ⟨hnew, hseen ▸ mem_cons_self⟩
  | @invocation env hrd hnew =>
    have hseen : (handleInvocation sur key (x.markSeen env.id) env).exchange.session.seenIds =
        env.id :: x.session.seenIds := handleInvocation_answered.seenIds
    refine ⟨fun id hid => ?_, hseen ▸ subset_cons_self _ _⟩
    cases hid
    exact ⟨hnew, hseen ▸ mem_cons_self⟩

end

def enteredIds (server : ServerConfig) (lib : JsonLibrary) (key : ℕ) :
    SessionState → List (Received η) → List String
  | _, [] => []
  | s, r :: rs =>
    let outcome := receive server lib key s r
    outcome.entered.toList ++ enteredIds server lib key outcome.exchange.session rs

section
variable {srv : ServerConfig} {lib : JsonLibrary} {key : ℕ}

theorem receive_handled (srv : ServerConfig) (lib : JsonLibrary) (key : ℕ) (s : SessionState)
    (r : Received η) : Handled srv lib r.surroundings key ⟨s, r.daemon⟩ r.bytes
      (receive srv lib key s r) :=
  handleFrame_handled srv lib r.surroundings key ⟨s, r.daemon⟩ r.bytes

theorem enteredIds_not_seen (s : SessionState) (received : List (Received η))
    (hid : id ∈ enteredIds srv lib key s received) : id ∉ s.seenIds := by
  induction received generalizing s with
  | nil => cases hid
  | cons r rs ih =>
    obtain ⟨hentered, hkept⟩ := (receive_handled srv lib key s r).seenIds
    rw [enteredIds, mem_append] at hid
    rcases hid with hfirst | hlater
    · exact (hentered id (Option.mem_toList.mp hfirst)).1
    · exact fun hseen => ih _ hlater (hkept hseen)

theorem enteredIds_nodup (s : SessionState) (received : List (Received η)) :
    (enteredIds srv lib key s received).Nodup := by
  induction received generalizing s with
  | nil => exact nodup_nil
  | cons r rs ih =>
    rw [enteredIds, nodup_append']
    refine ⟨?_, ih _, ?_⟩
    · cases (receive srv lib key s r).entered with
      | none => exact nodup_nil
      | some id => exact nodup_singleton id
    · intro id hfirst hlater
      have hentered := (receive_handled srv lib key s r).seenIds.1 id (Option.mem_toList.mp hfirst)
      exact enteredIds_not_seen _ rs hlater hentered.2

theorem connectionReplies_generations {rcv : List (Received η)} :
    (connectionReplies srv lib key s rcv).map Envelope.generation =
      List.range' s.nextGeneration (connectionReplies srv lib key s rcv).length := by
  induction rcv generalizing s with
  | nil => rfl
  | cons r rs ih =>
    obtain ⟨hfr, hnx⟩ := (receive_handled srv lib key s r).numbered
    rw [connectionReplies, map_append, length_append, hfr, ih, hnx, List.range'_append_1]

end

/-- What any frames on one connection lead to: every Agreement splits the supports
of its Hello, an id reaches a handler once, and the replies are numbered upwards. -/
theorem connection_negotiation (server : ServerConfig) (lib : JsonLibrary) (key : ℕ)
    (identity : Option PeerIdentity) (received : List (Received η)) :
    (∀ (r : Received η) e,
      e ∈ (receive server lib key (sessionAfter server lib key identity received) r).replies →
      e.kind = .agreement →
      ∃ env hello p, lib.readEnvelope r.bytes = .ok env ∧ e.replyTo = some env.id ∧
        env.payload.bind HelloPayload.read = some hello ∧
        e.payload.bind AgreementPayload.read = some p ∧
        p.granted.Nodup ∧ (p.unavailable.map UnavailableCapability.coordinate).Nodup ∧
        p.granted.Disjoint (p.unavailable.map UnavailableCapability.coordinate) ∧
        (p.granted ++ p.unavailable.map UnavailableCapability.coordinate).Perm hello.supports ∧
        ∀ c ∈ p.granted, c ∈ catalog) ∧
    (enteredIds server lib key (SessionState.new identity) received).Nodup ∧
    ((connectionReplies server lib key (SessionState.new identity) received).map
      Envelope.generation).Pairwise (· < ·) := by
  refine ⟨?_, enteredIds_nodup _ _, ?_⟩
  · intro r e he hkn
    obtain ⟨env, hrd, hto⟩ := (receive_handled server lib key _ r).agreement he hkn
    obtain ⟨hello, p, hhl, hp, hpartition⟩ := hto.lists
    exact ⟨env, hello, p, hrd, hto.replyTo, hhl, hp, hpartition.granted_nodup,
      hpartition.unavailable_nodup, hpartition.disjoint, hpartition.together, hpartition.catalog⟩
  · rw [connectionReplies_generations]
    exact List.pairwise_lt_range'

end DshDesktop.Daemon
