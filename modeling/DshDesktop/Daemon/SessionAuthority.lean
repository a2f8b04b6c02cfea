import Mathlib.Data.List.Induction
import DshDesktop.Daemon.Server
import DshDesktop.Supervisor.Supersession

/-!
# Authority on one connection, and the broker owner of a participant

Before each frame of a connection the shared state may have become anything. A frame
leaves the activations of the connection alone or is a Hello that adds one of the
established class, and it runs a handler only through the gate. A Hello acts in the broker
under its component and facet joined by a dash, which both may contain. Another owner keeps
what it has in the broker, but for the capabilities that the Hello asks for.
-/

namespace DshDesktop.Daemon
open Supervisor

variable {η : Type} {o : Outcome η} {d : Dispatched}

structure SameActivations (s s' : SessionState) : Prop where
  activations : s'.activations = s.activations
  authority : s'.authority = s.authority
  identity : s'.identity = s.identity

structure Activates (server : ServerConfig) (env : Envelope) (s s' : SessionState)
    (a : Activation) : Prop where
  hello : env.kind = .hello
  helloId : a.helloId = env.id
  agentId : a.agentId = agentIdOf env.participant
  class_eq : a.authority = authorityOf server s.identity env.participant
  established : s.authority = none ∨ s.authority = some a.authority
  activations : s'.activations = s.activations.insert a.activationId a
  authority : s'.authority = some a.authority
  identity : s'.identity = s.identity

section
variable {srv : ServerConfig} {lib : JsonLibrary} {sur : Surroundings η} {key : ℕ}
  {x : Exchange η} {env : Envelope} {bytes : List UInt8}

theorem handleHello_cases (srv : ServerConfig) (clock : ℕ → UnixTime) (x : Exchange η)
    (hkn : env.kind = .hello) :
    SameActivations x.session (handleHello srv clock x env).exchange.session ∨
    ∃ a, Activates srv env x.session (handleHello srv clock x env).exchange.session a := by
  simp only [handleHello]
  cases env.payload.bind HelloPayload.read with
  | none => exact .inl ⟨rfl, rfl, rfl⟩
  | some hello =>
    split_ifs with hsw
    · exact .inl ⟨rfl, rfl, rfl⟩
    · refine .inr ⟨_, hkn, rfl, rfl, rfl, ?_, rfl, rfl, rfl⟩
      cases hat : x.session.authority with
      | none => exact .inl rfl
      | some established => exact .inr (by simpa [hat] using hsw)

theorem handleInvocation_same (sur : Surroundings η) (key : ℕ) (x : Exchange η) (env : Envelope) :
    SameActivations x.session (handleInvocation sur key x env).exchange.session := by
  simp only [handleInvocation]
  split
  · split
    · exact ⟨rfl, rfl, rfl⟩
    · rw [runHandler_exchange]
      exact ⟨rfl, rfl, rfl⟩
  · exact ⟨rfl, rfl, rfl⟩

theorem Handled.session (h : Handled srv lib sur key x bytes o) :
    SameActivations x.session o.exchange.session ∨
    ∃ env a, lib.readEnvelope bytes = .ok env ∧
      Activates srv env x.session o.exchange.session a := by
  cases h with
  | hello hrd hsn hvl hkn =>
    rename_i env
    rcases handleHello_cases srv sur.clock (x.markSeen env.id) hkn with h | ⟨a, ha⟩
    · exact .inl ⟨h.activations, h.authority, h.identity⟩
    · exact .inr ⟨env, a, hrd, hkn, ha.helloId, ha.agentId, ha.class_eq, ha.established,
        ha.activations, ha.authority, ha.identity⟩
  | invocation hrd hsn hvl hkn =>
    rename_i env
    have h := handleInvocation_same sur key (x.markSeen env.id) env
    exact .inl ⟨h.activations, h.authority, h.identity⟩
  | _ => exact .inl ⟨rfl, rfl, rfl⟩

structure PassedGate (sur : Surroundings η) (x : Exchange η) (env : Envelope) (d : Dispatched) :
    Prop where
  invocation : env.kind = .invocation
  capability : env.capability = some d.capability
  method : env.method = some d.method
  negotiated : ∃ id, env.participant.activationId = some id ∧
    x.session.activations.lookup id = some d.activation
  granted : d.capability ∈ d.activation.granted
  authorised : d.activation.generation ≠ 0 ∧
      x.daemon.broker.enforceDispatch (sur.clock 3).unixMs (coordinateToCapability d.capability)
        d.activation.agentId d.activation.generation Scope.unrestricted = .ok () ∨
    d.activation.generation = 0 ∧ d.activation.authority = .shellControl

theorem handleInvocation_dispatched (hkn : env.kind = .invocation)
    (h : (handleInvocation sur key x env).dispatched = some d) : PassedGate sur x env d := by
  simp only [handleInvocation] at h
  split at h
  · rename_i c mth hc hm
    cases hgt : gateInvocation sur.clock x env.participant c with
    | error rfs => simp [hgt, errorResult] at h
    | ok a =>
      simp only [hgt, runHandler, Option.some.injEq] at h
      subst h
      obtain ⟨id, hid, hact, hgr, hat⟩ := gateInvocation_ok hgt
      exact ⟨hkn, hc, hm, ⟨id, hid, hact⟩, hgr, hat⟩
  · cases h

theorem Handled.dispatched (h : Handled srv lib sur key x bytes o) (hd : o.dispatched = some d) :
    ∃ env, lib.readEnvelope bytes = .ok env ∧ PassedGate sur x env d := by
  cases h with
  | hello hrd hsn hvl hkn =>
    rw [(handleHello_keeps ..).2.2] at hd
    cases hd
  | invocation hrd hsn hvl hkn =>
    have hgt := handleInvocation_dispatched hkn hd
    exact ⟨_, hrd, hkn, hgt.capability, hgt.method, hgt.negotiated, hgt.granted, hgt.authorised⟩
  | _ => cases hd

theorem handled_host (h : Handled srv lib sur key x bytes o) :
    o.exchange.daemon.host = x.daemon.host ∨
    ∃ a c mth m payload, o.dispatched = some ⟨a, c, mth⟩ ∧ HostMethod.find c mth = some m ∧
      o.exchange.daemon.host = (sur.hosts.call m x.daemon key payload).2.host := by
  cases h with
  | hello hrd hsn hvl hkn => exact .inl (handleHello_keeps ..).2.1
  | invocation hrd hsn hvl hkn =>
    rename_i env
    rw [handleInvocation]
    cases hc : env.capability with
    | none => exact .inl rfl
    | some c =>
      cases hm : env.method with
      | none => exact .inl rfl
      | some mth =>
        dsimp only
        cases gateInvocation sur.clock (x.markSeen env.id) env.participant c with
        | error rfs => exact .inl rfl
        | ok a =>
          have hhs : (runHandler sur key (x.markSeen env.id) env c mth a).exchange.daemon.host =
              (dispatch sur.hosts key c mth (env.payload.getD .null) x.daemon).2.host :=
            congrArg (·.daemon.host) (runHandler_exchange ..)
          rcases dispatch_state sur.hosts key c mth (env.payload.getD .null) x.daemon with
            heq | ⟨m, hfn, hst⟩
          · exact .inl (hhs.trans (congrArg DaemonState.host heq))
          · exact .inr ⟨a, c, mth, m, _, rfl, hfn, hhs.trans (congrArg DaemonState.host hst)⟩
  | _ => exact .inl rfl

end

structure Received (η : Type) where
  bytes : List UInt8
  daemon : DaemonState η
  surroundings : Surroundings η

def receive (server : ServerConfig) (lib : JsonLibrary) (key : ℕ) (s : SessionState)
    (r : Received η) : Outcome η :=
  handleFrame server lib r.surroundings key ⟨s, r.daemon⟩ r.bytes

def sessionAfter (server : ServerConfig) (lib : JsonLibrary) (key : ℕ)
    (identity : Option PeerIdentity) (received : List (Received η)) : SessionState :=
  Runs.run (fun s r => (receive server lib key s r).exchange.session) (SessionState.new identity)
    received

def NegotiatedBy (server : ServerConfig) (lib : JsonLibrary) (identity : Option PeerIdentity)
    (received : List (Received η)) (a : Activation) : Prop :=
  ∃ r ∈ received, ∃ env, lib.readEnvelope r.bytes = .ok env ∧ env.kind = .hello ∧
    a.helloId = env.id ∧ a.agentId = agentIdOf env.participant ∧
    a.authority = authorityOf server identity env.participant

structure Consistent (server : ServerConfig) (lib : JsonLibrary) (identity : Option PeerIdentity)
    (received : List (Received η)) (s : SessionState) : Prop where
  identity_eq : s.identity = identity
  one_class : ∀ id a, s.activations.lookup id = some a → s.authority = some a.authority
  negotiated : ∀ id a, s.activations.lookup id = some a →
    NegotiatedBy server lib identity received a

section
variable {srv : ServerConfig} {lib : JsonLibrary} {key : ℕ} {idn : Option PeerIdentity}
  {rcv : List (Received η)} {r : Received η} {s s' : SessionState} {a : Activation}

theorem NegotiatedBy.append (h : NegotiatedBy srv lib idn rcv a)
    (r : Received η) : NegotiatedBy srv lib idn (rcv ++ [r]) a := by
  obtain ⟨r₀, hr₀, henv⟩ := h
  exact ⟨r₀, List.mem_append_left _ hr₀, henv⟩

theorem Consistent.same (h : Consistent srv lib idn rcv s)
    (heq : SameActivations s s') (r : Received η) : Consistent srv lib idn (rcv ++ [r]) s' where
  identity_eq := heq.identity.trans h.identity_eq
  one_class id a ha := by
    rw [heq.activations] at ha
    rw [heq.authority]
    exact h.one_class id a ha
  negotiated id a ha := by
    rw [heq.activations] at ha
    exact (h.negotiated id a ha).append r

theorem Consistent.activates {env : Envelope} (h : Consistent srv lib idn rcv s)
    (hrd : lib.readEnvelope r.bytes = .ok env) (hact : Activates srv env s s' a) :
    Consistent srv lib idn (rcv ++ [r]) s' where
  identity_eq := hact.identity.trans h.identity_eq
  one_class id b hb := by
    rw [hact.activations, Table.lookup_insert_ite] at hb
    rw [hact.authority]
    split_ifs at hb
    · rw [Option.some.inj hb]
    -- An older activation already fixed the class of the connection.
    have hold := h.one_class id b hb
    rcases hact.established with hnn | hsome
    · rw [hnn] at hold
      cases hold
    · rw [← hsome, hold]
  negotiated id b hb := by
    rw [hact.activations, Table.lookup_insert_ite] at hb
    split_ifs at hb
    · obtain rfl := Option.some.inj hb
      refine ⟨r, by simp, env, hrd, hact.hello, hact.helloId, hact.agentId, ?_⟩
      rw [← h.identity_eq]
      exact hact.class_eq
    · exact (h.negotiated id b hb).append r

theorem sessionAfter_consistent {identity : Option PeerIdentity} :
    Consistent srv lib identity rcv (sessionAfter srv lib key identity rcv) := by
  induction rcv using List.reverseRecOn with
  | nil =>
    refine ⟨rfl, fun id a ha => ?_, fun id a ha => ?_⟩
    · simp [sessionAfter, SessionState.new] at ha
    · simp [sessionAfter, SessionState.new] at ha
  | append_singleton rcv r ih =>
    have hfr := (handleFrame_handled srv lib r.surroundings key
      ⟨sessionAfter srv lib key identity rcv, r.daemon⟩ r.bytes).session
    rw [sessionAfter, Runs.run_append]
    rcases hfr with heq | ⟨env, a, hrd, hact⟩
    · exact ih.same heq r
    · exact ih.activates hrd hact

theorem authorityOf_shellControl {p : Participant} (h : authorityOf srv idn p = .shellControl) :
    p.component = shellComponent ∧ p.facet = shellFacet ∧ srv.policy.allows srv.foldsCase idn := by
  by_contra hne
  rw [authorityOf, if_neg hne] at h
  cases h

end

/-- On one connection all activations have one class, which is Shell control only
for the Shell participant on an allowed peer, and a handler only runs for a
negotiated activation, a granted capability and with the broker's consent or on
the Shell's relaxed path. Without a handler the hosts keep their state. -/
theorem connection_authority (server : ServerConfig) (lib : JsonLibrary) (key : ℕ)
    (identity : Option PeerIdentity) (received : List (Received η)) :
    let s := sessionAfter server lib key identity received
    (∀ i j a b, s.activations.lookup i = some a → s.activations.lookup j = some b →
      a.authority = b.authority) ∧
    (∀ i a, s.activations.lookup i = some a → a.authority = .shellControl →
      server.policy.allows server.foldsCase identity = true ∧
      ∃ r ∈ received, ∃ env, lib.readEnvelope r.bytes = .ok env ∧ env.kind = .hello ∧
        env.id = a.helloId ∧ env.participant.component = "dsh-desktop-shell" ∧
        env.participant.facet = "shell") ∧
    (∀ r : Received η, (receive server lib key s r).dispatched = none →
      (receive server lib key s r).exchange.daemon.host = r.daemon.host) ∧
    ∀ (r : Received η) d, (receive server lib key s r).dispatched = some d →
      ∃ env id, lib.readEnvelope r.bytes = .ok env ∧ env.kind = .invocation ∧
        env.capability = some d.capability ∧ env.method = some d.method ∧
        env.participant.activationId = some id ∧
        s.activations.lookup id = some d.activation ∧
        NegotiatedBy server lib identity received d.activation ∧
        d.capability ∈ d.activation.granted ∧
        (r.daemon.broker.enforceDispatch (r.surroundings.clock 3).unixMs
            (coordinateToCapability d.capability) d.activation.agentId d.activation.generation
            Scope.unrestricted = .ok () ∨
          d.activation.generation = 0 ∧ d.activation.authority = .shellControl) := by
  intro s
  have hs : Consistent server lib identity received s :=
    sessionAfter_consistent
  refine ⟨?_, ?_, ?_, ?_⟩
  · intro i j a b ha hb
    have hclass := (hs.one_class i a ha).symm.trans (hs.one_class j b hb)
    exact Option.some.inj hclass
  · intro i a ha hsh
    obtain ⟨r, hr, env, hrd, hkn, hid, -, hclass⟩ := hs.negotiated i a ha
    obtain ⟨hcm, hfc, hal⟩ := authorityOf_shellControl (hclass.symm.trans hsh)
    exact ⟨hal, r, hr, env, hrd, hkn, hid.symm, hcm, hfc⟩
  · intro r hd
    rcases handled_host (handleFrame_handled server lib r.surroundings key ⟨s, r.daemon⟩ r.bytes)
      with hsame | ⟨a, c, mth, m, payload, hsome, -⟩
    · exact hsame
    · cases hd.symm.trans hsome
  · intro r d hd
    obtain ⟨env, hrd, hgt⟩ := (handleFrame_handled server lib r.surroundings key
      ⟨s, r.daemon⟩ r.bytes).dispatched hd
    obtain ⟨id, hid, hact⟩ := hgt.negotiated
    refine ⟨env, id, hrd, hgt.invocation, hgt.capability, hgt.method, hid, hact,
      hs.negotiated id _ hact, hgt.granted, ?_⟩
    rcases hgt.authorised with ⟨-, hen⟩ | hrelaxed
    · exact .inl hen
    · exact .inr hrelaxed

open List String

/-- The component of `q` is that of `p` with more after a dash, and what was added
opens the facet of `p`. -/
def Straddles (p q : Participant) : Prop :=
  ∃ m : String, q.component = p.component ++ "-" ++ m ∧ p.facet = m ++ "-" ++ q.facet

theorem Straddles.agentIdOf_eq {p q : Participant} (h : Straddles p q) :
    agentIdOf p = agentIdOf q := by
  obtain ⟨m, hcm, hfc⟩ := h
  simp [agentIdOf, hcm, hfc, String.append_assoc]

/-- What a longer component has beyond the shorter one begins with a dash, the one
that joins the other participant. -/
theorem same_or_straddles {p q : Participant} {l : List Char}
    (hcm : q.component.toList = p.component.toList ++ l)
    (hrs : '-' :: p.facet.toList = l ++ '-' :: q.facet.toList) :
    (p.component = q.component ∧ p.facet = q.facet) ∨ Straddles p q := by
  cases l with
  | nil =>
    rw [append_nil] at hcm
    rw [nil_append, cons.injEq] at hrs
    exact .inl ⟨toList_injective hcm.symm, toList_injective hrs.2⟩
  | cons c m =>
    rw [cons_append, cons.injEq] at hrs
    obtain ⟨rfl, hfc⟩ := hrs
    refine .inr ⟨ofList m, toList_injective ?_, toList_injective ?_⟩
    · simp [hcm]
    · simp [hfc]

theorem agentIdOf_eq_cases {p q : Participant} (h : agentIdOf p = agentIdOf q) :
    (p.component = q.component ∧ p.facet = q.facet) ∨ Straddles p q ∨ Straddles q p := by
  have hlist : p.component.toList ++ '-' :: p.facet.toList =
      q.component.toList ++ '-' :: q.facet.toList := by
    have h' := congrArg toList h
    simpa [agentIdOf] using h'
  rcases append_eq_append_iff.mp hlist with ⟨l, hc, hf⟩ | ⟨l, hc, hf⟩
  · rcases same_or_straddles hc hf with heq | hst
    · exact .inl heq
    · exact .inr (.inl hst)
  · rcases same_or_straddles hc hf with heq | hst
    · exact .inl ⟨heq.1.symm, heq.2.symm⟩
    · exact .inr (.inr hst)

theorem handleHello_first (srv : ServerConfig) (clock : ℕ → UnixTime) {x : Exchange η}
    {env : Envelope} {hello : HelloPayload} (hkn : env.kind = .hello)
    (hrd : env.payload.bind HelloPayload.read = some hello) (hat : x.session.authority = none) :
    ∃ a, Activates srv env x.session (handleHello srv clock x env).exchange.session a := by
  rcases handleHello_cases srv clock x hkn with heq | hact
  · have hst := heq.authority
    simp [handleHello, hrd, hat, acceptHello, Exchange.activate, Exchange.countId,
      Exchange.countGeneration] at hst
  · exact hact

def askedBy (env : Envelope) : List CapabilityId :=
  ((env.payload.bind HelloPayload.read).elim [] HelloPayload.supports |>.filter catalogSupports).map
    coordinateToCapability

theorem registerGrants_broker (clock : ℕ → UnixTime) (broker : Broker) (agentId actId : String)
    (authority : ActivationAuthority) {granted : List ProtocolCoordinate} (hne : granted ≠ [])
    (unavailable : List UnavailableCapability) :
    (registerGrants clock broker agentId actId authority granted unavailable).broker =
      (broker.brokerGrantFromNegotiation (fun i => (clock (3 + i)).unixMs) agentId
        (helloNegotiation actId granted)).2 := by
  rw [registerGrants, if_neg hne]
  split
  · next heq => rw [heq]
  · next heq => rw [heq]; split_ifs <;> rfl
  · next heq => rw [heq]

theorem handleHello_broker (srv : ServerConfig) (clock : ℕ → UnixTime) (x : Exchange η)
    (env : Envelope) :
    (handleHello srv clock x env).exchange.daemon.broker = x.daemon.broker ∨
      ∃ millis r, r.granted = askedBy env ∧ (handleHello srv clock x env).exchange.daemon.broker =
        (x.daemon.broker.brokerGrantFromNegotiation millis (agentIdOf env.participant) r).2 := by
  rw [handleHello, askedBy]
  cases env.payload.bind HelloPayload.read with
  | none => exact .inl rfl
  | some hello =>
    dsimp only
    split_ifs with hsw
    · exact .inl rfl
    by_cases hnone : hello.supports.filter catalogSupports = []
    · refine .inl ?_
      simp [acceptHello, Exchange.activate, Exchange.countId, Exchange.countGeneration,
        registerGrants, hnone]
    · exact .inr ⟨_, helloNegotiation _ _, rfl, registerGrants_broker clock _ _ _ _ hnone _⟩

theorem handleHello_leavesOwner (srv : ServerConfig) (clock : ℕ → UnixTime) (x : Exchange η)
    {env : Envelope} {owner : String} (hne : owner ≠ agentIdOf env.participant) :
    Broker.LeavesOwner x.daemon.broker (handleHello srv clock x env).exchange.daemon.broker owner
      (askedBy env) := by
  rcases handleHello_broker srv clock x env with heq | ⟨millis, r, hr, heq⟩
  · rw [heq]
    exact ⟨rfl, fun _ _ => rfl, fun _ _ hl _ _ => hl⟩
  · rw [heq, ← hr]
    exact x.daemon.broker.negotiate_leavesOwner millis hne r

theorem sampleHello_kind (id comp facet : String) : (sampleHello id comp facet).kind = .hello := rfl

theorem sampleHello_read {id comp facet : String} :
    (sampleHello id comp facet).payload.bind HelloPayload.read =
      some ⟨"instance", [systemCapability], []⟩ := rfl

/-- Two accepted Hellos of different participants act under different owners
exactly when neither participant straddles the other. Then a Hello of the one leaves to the
owner of the other its register and all it holds of capabilities not asked for, and so does
the end of its activation, unless the other owner has one of that id. -/
theorem hello_owners_differ_iff {server server' : ServerConfig} {e e' : Envelope}
    {s t s' t' : SessionState} {a a' : Activation} (h : Activates server e s t a)
    (h' : Activates server' e' s' t' a')
    (hne : e.participant.component ≠ e'.participant.component ∨
      e.participant.facet ≠ e'.participant.facet) :
    let apart := ¬ Straddles e.participant e'.participant ∧ ¬ Straddles e'.participant e.participant
    (a.agentId ≠ a'.agentId ↔ apart) ∧
      (apart → ∀ (clock : ℕ → UnixTime) (x : Exchange η), Broker.LeavesOwner x.daemon.broker
        (handleHello server clock x e).exchange.daemon.broker a'.agentId (askedBy e)) ∧
      (apart → ∀ (b : Broker) now reason, b.activation a'.agentId a.activationId = none →
        b.LeavesOwner (b.revokeAgentGrants now a.activationId reason).2 a'.agentId []) := by
  intro apart
  have hids : a.agentId ≠ a'.agentId ↔ apart := by
    rw [h.agentId, h'.agentId]
    constructor
    · intro hids
      exact ⟨fun hs => hids hs.agentIdOf_eq, fun hs => hids hs.agentIdOf_eq.symm⟩
    · intro hneither hids
      obtain ⟨hs, hs'⟩ := hneither
      rcases agentIdOf_eq_cases hids with ⟨hc, hf⟩ | hst | hst
      · exact hne.elim (fun hn => hn hc) (fun hn => hn hf)
      · exact hs hst
      · exact hs' hst
  refine ⟨hids, fun hapart clock x => ?_, fun _ b now reason => ?_⟩
  · have how := hids.mpr hapart
    rw [h.agentId] at how
    exact handleHello_leavesOwner server clock x how.symm
  · exact b.revokeAgentGrants_leavesOwner now reason

/-- The Hello of the left facet asks for the capability that the right one was granted, is
refused, and leaves the register of the right one as it is. -/
theorem hello_owners_differ_facets :
    let left := sampleHello "hello-01" "dsh-agent" "left"
    let right := sampleHello "hello-02" "dsh-agent" "right"
    let first := (handleHello sampleServer sampleSurroundings.clock
      ⟨SessionState.new none, sampleDaemon⟩ right).exchange
    let second := (handleHello sampleServer sampleSurroundings.clock
      ⟨SessionState.new none, first.daemon⟩ left).exchange
    agentIdOf left.participant ≠ agentIdOf right.participant ∧
      ((first.daemon.broker.register (agentIdOf right.participant)).next = 1) ∧
      first.daemon.broker.LeavesOwner second.daemon.broker (agentIdOf right.participant)
        (askedBy left) := by
  intro left right first second
  let x : Exchange Unit := ⟨SessionState.new none, sampleDaemon⟩
  obtain ⟨a, ha⟩ := handleHello_first sampleServer sampleSurroundings.clock (x := x)
    (sampleHello_kind "hello-01" "dsh-agent" "left") sampleHello_read rfl
  obtain ⟨b, hb⟩ := handleHello_first sampleServer sampleSurroundings.clock (x := x)
    (sampleHello_kind "hello-02" "dsh-agent" "right") sampleHello_read rfl
  have hne : agentIdOf left.participant ≠ agentIdOf right.participant := by decide
  have h := hello_owners_differ_iff (η := Unit) ha hb (.inr (by decide))
  rw [ha.agentId, hb.agentId] at h
  exact ⟨hne, by decide +kernel, h.2.1 (h.1.mp hne) sampleSurroundings.clock _⟩

/-- A participant that is not the Shell negotiates as the Shell's owner, and what
the Shell was granted before is stale from then on. -/
theorem agent_takes_shell_owner :
    let shell := sampleHello "hello-01" "dsh-desktop-shell" "shell"
    let agent := sampleHello "hello-02" "dsh-desktop" "shell-shell"
    let texts : ShapeErrors := ⟨fun _ => "", fun _ => ""⟩
    let first := handleHello sampleServer sampleSurroundings.clock
      ⟨SessionState.new none, sampleDaemon⟩ shell
    let second := handleHello sampleServer sampleSurroundings.clock
      ⟨SessionState.new none, first.exchange.daemon⟩ agent
    let gate (o : Outcome Unit) := o.exchange.daemon.broker.enforceDispatch 0
      (coordinateToCapability systemCapability) (agentIdOf shell.participant) 1 Scope.unrestricted
    validateEnvelope texts shell = .ok () ∧ validateEnvelope texts agent = .ok () ∧
    shell.participant.component ≠ agent.participant.component ∧
    (∃ a b, Activates sampleServer shell (SessionState.new none) first.exchange.session a ∧
      Activates sampleServer agent (SessionState.new none) second.exchange.session b ∧
      a.authority = .shellControl ∧ b.authority = .participant ∧ a.agentId = b.agentId) ∧
    gate first = .ok () ∧ gate second = .error .generationMismatch := by
  intro shell agent texts first second gate
  have hsh : validateEnvelope texts (sampleHello "hello-01" "dsh-desktop-shell" "shell") =
      .ok () := rfl
  have hag : validateEnvelope texts (sampleHello "hello-02" "dsh-desktop" "shell-shell") =
      .ok () := rfl
  refine ⟨hsh, hag, by decide, ?_, by decide +kernel, by decide +kernel⟩
  obtain ⟨a, ha⟩ := handleHello_first sampleServer sampleSurroundings.clock
    (x := ⟨SessionState.new none, sampleDaemon⟩)
    (sampleHello_kind "hello-01" "dsh-desktop-shell" "shell") sampleHello_read rfl
  obtain ⟨b, hb⟩ := handleHello_first sampleServer sampleSurroundings.clock
    (x := ⟨SessionState.new none, first.exchange.daemon⟩)
    (sampleHello_kind "hello-02" "dsh-desktop" "shell-shell") sampleHello_read rfl
  refine ⟨a, b, ha, hb, ?_, ?_, ?_⟩
  · rw [ha.class_eq]
    decide
  · rw [hb.class_eq]
    decide
  · rw [ha.agentId, hb.agentId]
    decide

end DshDesktop.Daemon
