import DshDesktop.Library.Runs
import DshDesktop.Supervisor.AgentBridge
import DshDesktop.Library.JoinedFields

/-!
# Runs of the broker, and the ids of agent leases

A run is a list of broker calls with their arguments and clock readings. Every call is
reduced to four kinds of write: a grant, a lease, a revocation pass and an entry of the
activation register. `agent_lease_id` joins ids and names that may hold its dashes
themselves; two activations whose ids come out equal share one place in the lease table.
-/

namespace DshDesktop.Supervisor
open FallibleLoop List

inductive Write
  | grant (now : ℕ) (g : CapabilityGrant)
  | lease (now : ℕ) (l : Lease)

open Write

def Write.apply : Write → Broker → Except BrokerError Unit × Broker
  | .grant now g, s => s.grant now g
  | .lease now l, s => s.lease now l

def grantList (clock : ℕ → ℕ) (build : CapabilityId → CapabilityGrant) (cs : List CapabilityId)
    (n : ℕ) : List Write :=
  (cs.zipIdx n).map fun c => .grant (clock c.2) (build c.1)

section
variable {clock : ℕ → ℕ} {w : Write} {agentId aid id : String} {r : AgentNegotiationResult}
  {generation gen now maxSeconds : ℕ} {a x : String} {k : AgentLeaseConstraints}
  {g g' : CapabilityGrant}
  {c : CapabilityId} {ws : List Write} {build : CapabilityId → CapabilityGrant}
  {cs : List CapabilityId} {e : AgentBridgeError} (P : Broker → Prop)

theorem grantList_split (clock : ℕ → ℕ) (build : CapabilityId → CapabilityGrant)
    (earl later : List CapabilityId) (c : CapabilityId) (n : ℕ) :
    grantList clock build (earl ++ c :: later) n = grantList clock build earl n ++
      .grant (clock (n + earl.length)) (build c) ::
        grantList clock build later (n + earl.length + 1) := by
  simp [grantList, zipIdx_append]

theorem mem_grantList {n : ℕ} (hw : w ∈ grantList clock build cs n) :
    ∃ i, ∃ c ∈ cs, w = .grant (clock i) (build c) := by
  obtain ⟨⟨c, i⟩, hc, rfl⟩ := mem_map.mp hw
  exact ⟨i, c, fst_mem_of_mem_zipIdx hc, rfl⟩

def grantWrites (clock : ℕ → ℕ) (agentId : String) (r : AgentNegotiationResult)
    (generation : ℕ) : List Write :=
  grantList clock (agentCapabilityGrant agentId r.scope generation (clock 0)) r.granted 1

def leaseWrites (clock : ℕ → ℕ) (agentId : String) (r : AgentNegotiationResult)
    (maxSeconds generation : ℕ) : List Write :=
  (r.granted.zipIdx (1 + r.granted.length)).map fun c =>
    .lease (clock c.2) (agentLease agentId r.activationId r.scope generation
      (leaseExpiry (clock 0) maxSeconds) c.1)

def bridgeWrites (clock : ℕ → ℕ) (agentId : String) (r : AgentNegotiationResult)
    (maxSeconds generation : ℕ) : List Write :=
  grantWrites clock agentId r generation ++ leaseWrites clock agentId r maxSeconds generation

theorem mem_bridgeWrites (hw : w ∈ bridgeWrites clock aid r maxSeconds gen) : ∃ i, ∃ c ∈ r.granted,
      w = .grant (clock i) (agentCapabilityGrant aid r.scope gen (clock 0) c) ∨
      w = .lease (clock i) (agentLease aid r.activationId r.scope gen
        (leaseExpiry (clock 0) maxSeconds) c) := by
  rcases mem_append.mp hw with h | h
  · obtain ⟨i, c, hc, rfl⟩ := mem_grantList h
    exact ⟨i, c, hc, .inl rfl⟩
  · obtain ⟨⟨c, i⟩, hc, rfl⟩ := mem_map.mp h
    exact ⟨i, c, fst_mem_of_mem_zipIdx hc, .inr rfl⟩

namespace Broker
variable {s s' s₁ : Broker}

theorem admitActivation_error (h : s.admitActivation a x = (.error e, s')) :
    s' = s ∧ ∀ b, e ≠ .broker b := by
  simp only [admitActivation] at h
  cases hx : s.activation a x with
  | none => simp [hx] at h
  | some state =>
    simp only [hx] at h
    split_ifs at h <;>
      simp only [Prod.mk.injEq, Except.error.injEq, reduceCtorEq, false_and] at h
    · obtain ⟨rfl, rfl⟩ := h
      exact ⟨rfl, fun b hb => by cases hb⟩
    · obtain ⟨rfl, rfl⟩ := h
      exact ⟨rfl, fun b hb => by cases hb⟩

theorem admitActivation_ok (h : s.admitActivation a x = (.ok gen, s')) :
    (s.activation a x = some ⟨gen, false⟩ ∧ s.currentActivation.lookup a = some x ∧ s' = s) ∨
    (s.activation a x = none ∧ gen = s.generationCounter a + 1 ∧ s' = s.recordActivation a x) := by
  simp only [admitActivation] at h
  cases hx : s.activation a x with
  | none =>
    simp only [hx, Prod.mk.injEq, Except.ok.injEq] at h
    exact .inr ⟨rfl, h.1.symm, h.2.symm⟩
  | some state =>
    simp only [hx] at h
    split_ifs at h with hr hc <;>
      simp only [Prod.mk.injEq, Except.ok.injEq, reduceCtorEq, false_and] at h
    obtain ⟨rfl, rfl⟩ := h
    refine .inl ⟨?_, hc, rfl⟩
    cases state
    simp_all

theorem admitActivation_tables (h : s.admitActivation a x = (.ok gen, s')) :
    s'.grants = s.grants ∧ s'.leases = s.leases := by
  rcases admitActivation_ok h with ⟨-, -, rfl⟩ | ⟨-, -, rfl⟩
  · exact ⟨rfl, rfl⟩
  · exact ⟨rfl, rfl⟩

theorem checkNegotiation_error (h : checkNegotiation r = .error e) (b : BrokerError) :
    e ≠ .broker b := by
  intro he
  subst he
  simp only [checkNegotiation] at h
  split_ifs at h <;> try simp at h
  cases hk : r.leaseConstraints with
  | none => simp [hk] at h
  | some k =>
    simp only [hk] at h
    split_ifs at h
    simp at h

theorem checkNegotiation_ok (h : checkNegotiation r = .ok k) :
    r.granted ≠ [] ∧ r.leaseConstraints = some k ∧ 0 < k.maxSeconds := by
  simp only [checkNegotiation] at h
  split_ifs at h with ha hc hg
  cases hk : r.leaseConstraints with
  | none => simp [hk] at h
  | some k' =>
    simp only [hk] at h
    split_ifs at h with hm
    simp only [Except.ok.injEq] at h
    subst h
    exact ⟨hg, rfl, Nat.pos_of_ne_zero hm⟩

theorem negotiate_admitted (clock : ℕ → ℕ) (hk : checkNegotiation r = .ok k)
    (ha : s.admitActivation aid r.activationId = (.ok gen, s₁)) :
    (∃ t, tryEach apply (bridgeWrites clock aid r k.maxSeconds gen) s₁ = (.ok (), t) ∧
      s.brokerGrantFromNegotiation clock aid r = (.ok ⟨aid, r.activationId, gen,
        r.granted, r.scope, some k, leaseExpiry (clock 0) k.maxSeconds, clock 0⟩, t)) ∨
    ∃ b t, tryEach apply (bridgeWrites clock aid r k.maxSeconds gen) s₁ = (.error b, t) ∧
      s.brokerGrantFromNegotiation clock aid r = (.error (.broker b), t) := by
  have hgrants : s₁.grantLoop clock (agentCapabilityGrant aid r.scope gen (clock 0))
      r.granted = tryEach apply (grantWrites clock aid r gen) s₁ := by
    rw [grantWrites, grantList, tryEach_map]
    rfl
  have hleases (s₂ : Broker) : s₂.leaseIssueLoop clock (agentLease aid r.activationId
      r.scope gen (leaseExpiry (clock 0) k.maxSeconds)) r.granted =
      tryEach apply (leaseWrites clock aid r k.maxSeconds gen) s₂ := by
    rw [leaseWrites, tryEach_map]
    rfl
  simp only [brokerGrantFromNegotiation, hk, ha, hgrants, hleases, bridgeWrites]
  rcases hg : tryEach apply (grantWrites clock aid r gen) s₁ with ⟨res, s₂⟩
  cases res with
  | error b => exact .inr ⟨b, s₂, tryEach_append_error hg, rfl⟩
  | ok u =>
    simp only [tryEach_append_ok hg]
    rcases hl : tryEach apply (leaseWrites clock aid r k.maxSeconds gen) s₂
      with ⟨res, s₃⟩
    cases res with
    | error b => exact .inr ⟨b, s₃, rfl, rfl⟩
    | ok u => exact .inl ⟨s₃, rfl, rfl⟩

theorem negotiate_state (hk : checkNegotiation r = .ok k)
    (ha : s.admitActivation aid r.activationId = (.ok gen, s₁)) :
    (s.brokerGrantFromNegotiation clock aid r).2 =
      (tryEach apply (bridgeWrites clock aid r k.maxSeconds gen) s₁).2 := by
  rcases negotiate_admitted clock hk ha with ⟨t, hw, heq⟩ | ⟨b, t, hw, heq⟩ <;>
    rw [heq, hw]

theorem negotiate_cases (s : Broker) (clock : ℕ → ℕ) (agentId : String)
    (r : AgentNegotiationResult) :
    (∃ e, (∀ b, e ≠ .broker b) ∧ s.brokerGrantFromNegotiation clock agentId r = (.error e, s)) ∨
    ∃ k generation s₁, checkNegotiation r = .ok k ∧
      s.admitActivation agentId r.activationId = (.ok generation, s₁) := by
  cases hk : checkNegotiation r with
  | error e =>
    exact .inl ⟨e, checkNegotiation_error hk, by simp [brokerGrantFromNegotiation, hk]⟩
  | ok k =>
    rcases ha : s.admitActivation agentId r.activationId with ⟨res, s₁⟩
    cases res with
    | error e =>
      obtain ⟨rfl, he⟩ := admitActivation_error ha
      exact .inl ⟨e, he, by simp [brokerGrantFromNegotiation, hk, ha]⟩
    | ok generation => exact .inr ⟨k, generation, s₁, rfl, rfl⟩

end Broker

inductive BrokerOp
  | grant (now : ℕ) (g : CapabilityGrant)
  | lease (now : ℕ) (l : Lease)
  | revoke (now : ℕ) (leaseId : String) (reason : LeaseRevocationReason)
  | negotiate (clock : ℕ → ℕ) (agentId : String) (r : AgentNegotiationResult)
  | revokeAgent (now : ℕ) (activationId : String) (reason : LeaseRevocationReason)
  | enforce (now : ℕ) (capability : CapabilityId) (owner : String) (generation : ℕ) (scope : Scope)

namespace Broker
variable {s s' : Broker}

def step (s : Broker) : BrokerOp → Broker
  | .grant now g => (s.grant now g).2
  | .lease now l => (s.lease now l).2
  | .revoke now leaseId reason => (s.revoke now leaseId reason).2
  | .negotiate clock agentId r => (s.brokerGrantFromNegotiation clock agentId r).2
  | .revokeAgent now activationId reason => (s.revokeAgentGrants now activationId reason).2
  | .enforce _ _ _ _ _ => s

def run (s : Broker) (ops : List BrokerOp) : Broker := Runs.run step s ops

def Reachable (s : Broker) : Prop := ∃ ops, s = run empty ops

theorem Reachable.run (h : Reachable s) (ops : List BrokerOp) : Reachable (s.run ops) := by
  obtain ⟨bef, rfl⟩ := h
  exact ⟨bef ++ ops, (Runs.run_append bef ops).symm⟩

theorem Reachable.invariant (hem : P empty) (hst : ∀ s op, P s → P (s.step op))
    (h : Reachable s) : P s := by
  obtain ⟨ops, rfl⟩ := h
  exact Runs.run_invariant P hst ops hem

theorem negotiate_keeps (hs : P s)
    (hoe : ∀ generation s₁, s.admitActivation aid r.activationId = (.ok generation, s₁) →
      ∃ Q : Broker → Prop, Q s₁ ∧ (∀ t, Q t → P t) ∧
      ∀ k, ∀ w ∈ bridgeWrites clock aid r k generation, ∀ t, Q t → Q (w.apply t).2) :
    P (s.brokerGrantFromNegotiation clock aid r).2 := by
  rcases s.negotiate_cases clock aid r with ⟨e, -, heq⟩ | ⟨k, generation, s₁, hk, ha⟩
  · rw [heq]
    exact hs
  · obtain ⟨Q, h₁, hQP, hwr⟩ := hoe generation s₁ ha
    rw [negotiate_state hk ha]
    exact hQP _ (tryEach_invariant Q (hwr k.maxSeconds) h₁)

theorem grant_lookup_self (h : s.grant now g = (.ok (), s')) :
    s'.grants.lookup g.capabilityId = some g := by
  have hg := s.granted now g
  rw [h] at hg
  cases hg with
  | idle held => exact held
  | superseded | fresh => exact AList.lookup_insert s.grants

theorem grant_lookup_of_ne (s : Broker) (now : ℕ) (hc : c ≠ g.capabilityId) :
    (s.grant now g).2.grants.lookup c = s.grants.lookup c := by
  have hg := s.granted now g
  generalize s.grant now g = out at hg ⊢
  cases hg with
  | idle | conflict => rfl
  | superseded | fresh => exact AList.lookup_insert_ne hc

theorem grant_lookup_some (h : (s.grant now g).2.grants.lookup c = some g') :
    s.grants.lookup c = some g' ∨ c = g.capabilityId ∧ g' = g := by
  by_cases hc : c = g.capabilityId
  · subst hc
    have hg := s.granted now g
    generalize s.grant now g = out at hg h
    cases hg with
    | idle | conflict => exact .inl h
    | superseded | fresh =>
      exact .inr ⟨rfl, Option.some.inj (h.symm.trans (AList.lookup_insert s.grants))⟩
  · rw [grant_lookup_of_ne s now hc] at h
    exact .inl h

theorem lease_grants (s : Broker) (now : ℕ) (l : Lease) : (s.lease now l).2.grants = s.grants := by
  have hl := s.leased now l
  generalize s.lease now l = out at hl ⊢
  cases hl <;> rfl

theorem lease_lookup_self {l : Lease} (h : s.lease now l = (.ok (), s')) :
    s'.leases.lookup l.id = some l := by
  have hl := s.leased now l
  rw [h] at hl
  cases hl with
  | idle held => exact held
  | fresh => exact AList.lookup_insert s.leases

theorem lease_lookup_of_some {l l' : Lease} (h : s.leases.lookup id = some l') :
    (s.lease now l).2.leases.lookup id = some l' := by
  have hl := s.leased now l
  generalize s.lease now l = out at hl ⊢
  cases hl with
  | refused | idle => exact h
  | fresh held owner generation covers free =>
    have hne : id ≠ l.id := by
      intro he
      rw [he, free] at h
      cases h
    exact (AList.lookup_insert_ne hne).trans h

theorem lease_lookup_some {l l' : Lease} (h : (s.lease now l).2.leases.lookup id = some l') :
    s.leases.lookup id = some l' ∨ id = l.id ∧ l' = l := by
  have hl := s.leased now l
  generalize s.lease now l = out at hl h
  cases hl with
  | refused | idle => exact .inl h
  | fresh =>
    simp only [Table.lookup_insert_ite] at h
    split_ifs at h with hid
    · cases h
      exact .inr ⟨hid, rfl⟩
    · exact .inl h

theorem grant_sameRegister (s : Broker) (now : ℕ) (g : CapabilityGrant) :
    SameRegister s (s.grant now g).2 := by
  have hg := s.granted now g
  generalize s.grant now g = out at hg ⊢
  cases hg <;> exact ⟨rfl, rfl, rfl⟩

theorem lease_sameRegister (s : Broker) (now : ℕ) (l : Lease) :
    SameRegister s (s.lease now l).2 := by
  have hl := s.leased now l
  generalize s.lease now l = out at hl ⊢
  cases hl <;> exact ⟨rfl, rfl, rfl⟩

theorem write_sameRegister (s : Broker) (w : Write) : SameRegister s (w.apply s).2 := by
  cases w with
  | grant now g => exact grant_sameRegister s now g
  | lease now l => exact lease_sameRegister s now l

theorem writes_sameRegister (s : Broker) (ws : List Write) :
    SameRegister s (tryEach apply ws s).2 :=
  tryEach_invariant (SameRegister s) (fun w _ t ht => ht.trans (write_sameRegister t w))
    ⟨rfl, rfl, rfl⟩

theorem write_error {e : BrokerError} (h : w.apply s = (.error e, s')) : s' = s := by
  cases w with
  | grant now g =>
    have hg := s.granted now g
    rw [show s.grant now g = _ from h] at hg
    cases hg
    rfl
  | lease now l =>
    have hl := s.leased now l
    rw [show s.lease now l = _ from h] at hl
    cases hl
    rfl

def InPlace (s : Broker) : Write → Prop
  | .grant _ g => s.grants.lookup g.capabilityId = some g
  | .lease _ l => s.leases.lookup l.id = some l

theorem inPlace_of_ok (h : w.apply s = (.ok (), s')) : s'.InPlace w := by
  cases w with
  | grant now g => exact grant_lookup_self h
  | lease now l => exact lease_lookup_self h

theorem eq_of_inPlace (h : w.apply s = (.ok (), s')) (hw : s.InPlace w) : s' = s := by
  cases w with
  | grant now g => exact (congrArg Prod.snd ((grant_idle hw).symm.trans h)).symm
  | lease now l =>
    have hl := s.leased now l
    rw [show s.lease now l = _ from h] at hl
    cases hl with
    | idle => rfl
    | fresh held owner generation covers free => cases free.symm.trans hw

theorem exists_mem_zipIdx (hc : c ∈ cs) (n : ℕ) : ∃ i, (c, i) ∈ cs.zipIdx n := by
  obtain ⟨j, hj, rfl⟩ := getElem_of_mem hc
  exact ⟨n + j, mk_add_mem_zipIdx_iff_getElem?.mpr (List.getElem?_eq_getElem hj)⟩

theorem grants_inPlace (hbuild : ∀ c, (build c).capabilityId = c)
    (hws : ∀ w ∈ ws, ∃ now c, w = .grant now (build c))
    (h : tryEach apply ws s = (.ok (), s')) : ∀ w ∈ ws, s'.InPlace w := by
  refine tryEach_ok_forall (fun w t => t.InPlace w) (fun w _ t t' hw => inPlace_of_ok hw) ?_ h
  intro a ha b hb t t' hst hin
  obtain ⟨now, c, rfl⟩ := hws a ha
  obtain ⟨now', c', rfl⟩ := hws b hb
  by_cases hc : c' = c
  · subst hc
    exact grant_lookup_self hst
  · have hfr := grant_lookup_of_ne t now (g := build c) (c := c') (by rwa [hbuild])
    have ht' : (t.grant now (build c)).2 = t' := congrArg Prod.snd hst
    rw [InPlace, hbuild] at hin ⊢
    rw [← ht', hfr, hin]

theorem leases_inPlace (hws : ∀ w ∈ ws, ∃ now l, w = .lease now l)
    (h : tryEach apply ws s = (.ok (), s')) : ∀ w ∈ ws, s'.InPlace w := by
  refine tryEach_ok_forall (fun w t => t.InPlace w) (fun w _ t t' hw => inPlace_of_ok hw) ?_ h
  intro a ha b hb t t' hst hin
  obtain ⟨now, l, rfl⟩ := hws a ha
  obtain ⟨now', l', rfl⟩ := hws b hb
  have ht' : (t.lease now l).2 = t' := congrArg Prod.snd hst
  rw [InPlace, ← ht']
  exact lease_lookup_of_some hin

theorem leases_grants (hws : ∀ w ∈ ws, ∃ now l, w = .lease now l) :
    (tryEach apply ws s).2.grants = s.grants := by
  refine tryEach_invariant (fun t : Broker => t.grants = s.grants) (fun w hw t ht => ?_) rfl
  obtain ⟨now, l, rfl⟩ := hws w hw
  exact (lease_grants t now l).trans ht

theorem mem_grantWrites (hw : w ∈ grantWrites clock aid r gen) :
    ∃ now c, w = .grant now (agentCapabilityGrant aid r.scope gen (clock 0) c) := by
  obtain ⟨i, c, -, rfl⟩ := mem_grantList hw
  exact ⟨clock i, c, rfl⟩

theorem mem_leaseWrites (hw : w ∈ leaseWrites clock aid r maxSeconds gen) :
    ∃ now l, w = .lease now l := by
  obtain ⟨c, -, rfl⟩ := mem_map.mp hw
  exact ⟨_, _, rfl⟩

theorem bridgeWrites_inPlace {done rest : List Write}
    (hsp : bridgeWrites clock aid r maxSeconds gen = done ++ rest)
    (h : tryEach apply done s = (.ok (), s')) : ∀ w ∈ done, s'.InPlace w := by
  rcases append_eq_append_iff.mp hsp with ⟨tail, rfl, htl⟩ | ⟨tail, hsplit, -⟩
  · -- All the grants and some of the leases: the leases leave the grants alone.
    have hleases : ∀ w ∈ tail, ∃ now l, w = .lease now l := fun w hw =>
      mem_leaseWrites (by rw [htl]; exact mem_append_left _ hw)
    obtain ⟨mid, hg, hl⟩ := tryEach_append_inv h
    have hfr : s'.grants = mid.grants := by
      have hkp := leases_grants hleases (s := mid)
      rwa [hl] at hkp
    intro w hw
    rcases mem_append.mp hw with hw | hw
    · obtain ⟨now, c, rfl⟩ := mem_grantWrites hw
      have hin := grants_inPlace (fun _ => rfl) (fun w hw => mem_grantWrites hw) hg _ hw
      rw [InPlace] at hin ⊢
      rw [hfr, hin]
    · exact leases_inPlace hleases hl w hw
  · have hmem : ∀ w ∈ done, w ∈ grantWrites clock aid r gen := fun w hw => by
      rw [hsplit]
      exact mem_append_left _ hw
    exact grants_inPlace (fun _ => rfl) (fun w hw => mem_grantWrites (hmem w hw)) h

structure Issued (s : Broker) (clock : ℕ → ℕ) (agentId : String) (r : AgentNegotiationResult)
    (ag : AgentGrant) (s' : Broker) (k : AgentLeaseConstraints) (s₁ : Broker) : Prop where
  check : checkNegotiation r = .ok k
  admitted : s.admitActivation agentId r.activationId = (.ok ag.generation, s₁)
  expiry : ag.expiresAtUnixMs = leaseExpiry (clock 0) k.maxSeconds
  register : ∀ a, s'.register a = s₁.register a
  grants : ∀ c ∈ r.granted, s'.grants.lookup c =
    some (agentCapabilityGrant agentId r.scope ag.generation (clock 0) c)
  leases : ∀ c ∈ r.granted, s'.leases.lookup (agentLeaseId agentId r.activationId c) =
    some (agentLease agentId r.activationId r.scope ag.generation ag.expiresAtUnixMs c)

theorem negotiate_ok {ag : AgentGrant}
    (h : s.brokerGrantFromNegotiation clock aid r = (.ok ag, s')) :
    ∃ k s₁, Issued s clock aid r ag s' k s₁ := by
  rcases s.negotiate_cases clock aid r with ⟨e, -, heq⟩ | ⟨k, generation, s₁, hk, ha⟩
  · cases heq.symm.trans h
  rcases negotiate_admitted clock hk ha with ⟨t, hw, heq⟩ | ⟨b, t, -, heq⟩ <;>
    rw [heq] at h
  · cases h
    have hreg := writes_sameRegister s₁ (bridgeWrites clock aid r k.maxSeconds generation)
    rw [hw] at hreg
    have hin := bridgeWrites_inPlace (append_nil _).symm hw
    refine ⟨k, s₁, hk, ha, rfl, hreg.register, fun c hc => ?_, fun c hc => ?_⟩
    · obtain ⟨i, hi⟩ := exists_mem_zipIdx hc 1
      exact hin _ (mem_append_left _ (mem_map_of_mem hi))
    · obtain ⟨i, hi⟩ := exists_mem_zipIdx hc (1 + r.granted.length)
      exact hin _ (mem_append_right _ (mem_map_of_mem hi))
  · simp at h

end Broker

def sampleResult (activationId : String) (kinds : List String) : AgentNegotiationResult where
  activationId := activationId
  agreed := true
  granted := kinds.map (CapabilityId.mk "v1")
  conformance := .known
  leaseConstraints := some ⟨60, none⟩
  scope := Scope.unrestricted

end

structure LeaseSubject where
  agentId : String
  activationId : String
  capability : CapabilityId
  deriving DecidableEq

namespace LeaseSubject

variable (t : LeaseSubject)

def id : String := agentLeaseId t.agentId t.activationId t.capability

def fields : List (List Char) :=
  [t.agentId.toList, t.activationId.toList, t.capability.apiVersion.toList,
    t.capability.kind.toList]

def parts : List (List Char) := t.fields.flatMap (JoinedFields.pieces '-')

def dashes : List ℕ := t.fields.map (count '-')

def ToldApart (t u : LeaseSubject) : Prop := t.parts = u.parts → t.dashes = u.dashes

theorem id_toList : t.id.toList = "agent-".toList ++ JoinedFields.joined '-' t.fields := by
  simp [id, agentLeaseId, fields, JoinedFields.joined, intercalate]

theorem id_eq_iff {t u : LeaseSubject} : t.id = u.id ↔ t.parts = u.parts := by
  rw [← String.toList_inj, id_toList, id_toList, append_cancel_left_eq]
  exact JoinedFields.joined_eq_iff (cons_ne_nil _ _) (cons_ne_nil _ _)

theorem fields_injective : Function.Injective fields := by
  intro t u h
  obtain ⟨a, x, v, k⟩ := t
  obtain ⟨b, y, w, m⟩ := u
  simp only [fields, cons.injEq, String.toList_inj, and_true] at h
  obtain ⟨rfl, rfl, rfl, rfl⟩ := h
  rfl

theorem eq_of_id_eq_iff {t u : LeaseSubject} : (t.id = u.id → t = u) ↔ ToldApart t u := by
  rw [id_eq_iff]
  constructor
  · intro h hparts
    rw [h hparts]
  · intro h hparts
    exact fields_injective (JoinedFields.eq_of_pieces (h hparts) hparts)

end LeaseSubject

namespace Broker
variable {s s' : Broker}

def withoutLease (s : Broker) (id : String) : Broker := { s with leases := s.leases.erase id }

structure AlikeBut (id : String) (s s' : Broker) : Prop where
  grants : s'.grants = s.grants
  register : SameRegister s s'
  leases : ∀ id', id' ≠ id → s'.leases.lookup id' = s.leases.lookup id'

theorem alikeBut_withoutLease (s : Broker) (id : String) : AlikeBut id s (s.withoutLease id) where
  grants := rfl
  register := ⟨rfl, rfl, rfl⟩
  leases := fun _ h => AList.lookup_erase_ne h

section
variable {id : String} (h : AlikeBut id s s')
include h

theorem AlikeBut.register_apply (w : Write) : SameRegister (w.apply s).2 (w.apply s').2 where
  activations := by
    rw [(write_sameRegister s' w).activations, h.register.activations,
      (write_sameRegister s w).activations]
  current := by
    rw [(write_sameRegister s' w).current, h.register.current, (write_sameRegister s w).current]
  counters := by
    rw [(write_sameRegister s' w).counters, h.register.counters, (write_sameRegister s w).counters]

theorem AlikeBut.grant (now : ℕ) (g : CapabilityGrant) :
    (s.grant now g).1 = (s'.grant now g).1 ∧ AlikeBut id (s.grant now g).2 (s'.grant now g).2 := by
  have hreg := h.register_apply (.grant now g)
  have hget : s'.grants.lookup g.capabilityId = s.grants.lookup g.capabilityId := by
    rw [h.grants]
  have hin := congrArg (AList.insert g.capabilityId g) h.grants
  simp only [Write.apply, Broker.grant, hget] at hreg ⊢
  cases hold : s.grants.lookup g.capabilityId with
  | none =>
    rw [hold] at hreg
    exact ⟨rfl, hin, hreg, h.leases⟩
  | some old =>
    rw [hold] at hreg
    dsimp only at hreg ⊢
    split_ifs at hreg ⊢
    · exact ⟨rfl, h⟩
    · refine ⟨rfl, hin, hreg, ?_⟩
      intro id' hne
      simp [revokeAllForCapability, revokeWhere, h.leases id' hne]
    · exact ⟨rfl, h⟩

theorem AlikeBut.lease (now : ℕ) {l : Lease} (hl : l.id ≠ id) :
    (s.lease now l).1 = (s'.lease now l).1 ∧ AlikeBut id (s.lease now l).2 (s'.lease now l).2 := by
  have hreg := h.register_apply (.lease now l)
  have hget : s'.grants.lookup l.capabilityId = s.grants.lookup l.capabilityId := by
    rw [h.grants]
  simp only [Write.apply, Broker.lease, hget, h.leases l.id hl] at hreg ⊢
  cases hg : s.grants.lookup l.capabilityId with
  | none => exact ⟨rfl, h⟩
  | some g =>
    cases hold : s.leases.lookup l.id with
    | some old =>
      dsimp only
      split_ifs <;> exact ⟨rfl, h⟩
    | none =>
      simp only [hg, hold] at hreg
      dsimp only
      split_ifs at hreg ⊢
      · exact ⟨rfl, h⟩
      · exact ⟨rfl, h⟩
      · exact ⟨rfl, h⟩
      · exact ⟨rfl, h⟩
      · refine ⟨rfl, h.grants, hreg, ?_⟩
        intro id' hne
        rw [Table.lookup_insert_ite, Table.lookup_insert_ite, h.leases id' hne]

theorem AlikeBut.recordActivation (a x : String) :
    AlikeBut id (s.recordActivation a x) (s'.recordActivation a x) where
  grants := h.grants
  register :=
    { activations := by
        simp [Broker.recordActivation, generationCounter, h.register.activations,
          h.register.counters]
      current := by simp [Broker.recordActivation, h.register.current]
      counters := by
        simp only [Broker.recordActivation, generationCounter, h.register.counters] }
  leases := h.leases

theorem AlikeBut.admitActivation (a x : String) :
    (s.admitActivation a x).1 = (s'.admitActivation a x).1 ∧
      AlikeBut id (s.admitActivation a x).2 (s'.admitActivation a x).2 := by
  have hact : s'.activation a x = s.activation a x := by
    rw [activation, activation, h.register.activations]
  have hcounter : s'.generationCounter a = s.generationCounter a := by
    rw [generationCounter, generationCounter, h.register.counters]
  simp only [Broker.admitActivation, hact, hcounter, h.register.current]
  cases s.activation a x with
  | none => exact ⟨rfl, h.recordActivation a x⟩
  | some state =>
    dsimp only
    split_ifs <;> exact ⟨rfl, h⟩

theorem AlikeBut.negotiate (clock : ℕ → ℕ) {agent : String} {r : AgentNegotiationResult}
    (hids : ∀ c ∈ r.granted, agentLeaseId agent r.activationId c ≠ id) :
    (s.brokerGrantFromNegotiation clock agent r).1 =
      (s'.brokerGrantFromNegotiation clock agent r).1 := by
  cases hk : checkNegotiation r with
  | error e => simp [brokerGrantFromNegotiation, hk]
  | ok k =>
    obtain ⟨hans, hal⟩ := h.admitActivation agent r.activationId
    rcases ha : s.admitActivation agent r.activationId with ⟨res, s₁⟩
    rcases ha' : s'.admitActivation agent r.activationId with ⟨res', s₁'⟩
    rw [ha, ha'] at hans hal
    obtain rfl : res = res' := hans
    cases res with
    | error e => simp [brokerGrantFromNegotiation, hk, ha, ha']
    | ok gen =>
      have hst : ∀ w ∈ bridgeWrites clock agent r k.maxSeconds gen, ∀ t t',
          AlikeBut id t t' →
            (w.apply t).1 = (w.apply t').1 ∧ AlikeBut id (w.apply t).2 (w.apply t').2 := by
        intro w hw t t' ht
        obtain ⟨i, c, hc, rfl | rfl⟩ := mem_bridgeWrites hw
        · exact ht.grant _ _
        · exact ht.lease _ (hids c hc)
      have hwr := tryEach_related (AlikeBut id) hst hal
      rcases negotiate_admitted clock hk ha with ⟨t, hw, heq⟩ | ⟨b, t, hw, heq⟩ <;>
        rcases negotiate_admitted clock hk ha' with ⟨t', hw', heq'⟩ | ⟨b', t', hw', heq'⟩ <;>
        rw [hw, hw'] at hwr <;> rw [heq, heq']
      · cases hwr.1
      · cases hwr.1
      · cases hwr.1
        rfl

end

/-- Granting to an activation is independent of every lease of another subject, and gives no
id twice, exactly when its subjects are told apart from the others by their dashes. -/
theorem leaseIds_apart_iff (agent : String) (r : AgentNegotiationResult) (u : LeaseSubject) :
    ((∀ c ∈ r.granted, agentLeaseId agent r.activationId c = u.id →
        LeaseSubject.mk agent r.activationId c = u) ∧
      ((∀ c ∈ r.granted, LeaseSubject.mk agent r.activationId c ≠ u) → ∀ s clock,
        (brokerGrantFromNegotiation s clock agent r).1 =
          ((s.withoutLease u.id).brokerGrantFromNegotiation clock agent r).1)) ↔
      ∀ c ∈ r.granted, LeaseSubject.ToldApart ⟨agent, r.activationId, c⟩ u := by
  constructor
  · intro h c hc
    exact (LeaseSubject.eq_of_id_eq_iff (t := ⟨agent, r.activationId, c⟩)).mp (h.1 c hc)
  · intro h
    have hid : ∀ c ∈ r.granted, agentLeaseId agent r.activationId c = u.id →
        LeaseSubject.mk agent r.activationId c = u :=
      fun c hc => (LeaseSubject.eq_of_id_eq_iff (t := ⟨agent, r.activationId, c⟩)).mpr (h c hc)
    refine ⟨hid, ?_⟩
    intro hot s clock
    apply (s.alikeBut_withoutLease u.id).negotiate clock
    intro c hc heq
    exact hot c hc (hid c hc heq)

/-- Agent `a-b` cannot open activation `c`, since the lease of `b-c` of agent `a` has the id
that its own would get. -/
theorem leaseIds_collide :
    let other : LeaseSubject := ⟨"a", "b-c", ⟨"v1", "terminal"⟩⟩
    let s := Broker.empty.run [.negotiate (fun _ => 5) "a" (sampleResult "b-c" ["terminal"]),
      .negotiate (fun _ => 6) "a-b" (sampleResult "z" ["browser"])]
    let call := fun s : Broker =>
      s.brokerGrantFromNegotiation (fun _ => 7) "a-b" (sampleResult "c" ["terminal"])
    agentLeaseId "a-b" "c" ⟨"v1", "terminal"⟩ = other.id ∧
      ⟨"a-b", "c", ⟨"v1", "terminal"⟩⟩ ≠ other ∧
      (call s).1 = .error (.broker .conflict) ∧
      (call (s.withoutLease other.id)).1.isOk = true := by
  refine ⟨by decide +kernel, by decide, ?_, by decide +kernel⟩
  rfl

end Broker

end DshDesktop.Supervisor
