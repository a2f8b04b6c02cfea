import DshDesktop.Supervisor.BrokerRun

/-!
# Leases and activations over a whole run

A lease is stored only under a grant of its capability that agrees with it, and the write
that replaces a grant revokes every lease of the capability first. Seen as a ledger, the
register of an agent only grows: from this follow the order of the generations, the
refusal of revoked and superseded activations for good and, for runs that write through
the bridge only, that leases of a revoked activation stay revoked.
-/

namespace DshDesktop.Supervisor

structure CapabilityGrant.Backs (g : CapabilityGrant) (l : Lease) : Prop where
  owner_eq : g.owner = l.owner
  generation_eq : g.generation = l.generation
  covers : g.scope.covers l.scope = true

namespace Broker
variable {s : Broker} {id : String}

def LeasesBacked (s : Broker) : Prop :=
  ∀ id l, s.leases.lookup id = some l → l.revoked = none →
    ∃ g, s.grants.lookup l.capabilityId = some g ∧ g.Backs l

theorem revokeWhere_unrevoked {record : LeaseRevocation} {p : String → Lease → Bool} {l : Lease}
    (h : (s.revokeWhere record p).leases.lookup id = some l) (hl : l.revoked = none) :
    s.leases.lookup id = some l ∧ p id l = false := by
  obtain ⟨old, hold, heq⟩ := Table.lookup_mapVal_some.mp h
  by_cases hp : p id old
  · rw [if_pos hp] at heq
    have hne := revokeLease_revoked record old
    rw [heq] at hne
    exact absurd hl hne
  · rw [if_neg hp] at heq
    subst heq
    exact ⟨hold, by simpa using hp⟩

theorem revokeAgentGrants_unrevoked {now : ℕ} {x : String} {rsn : LeaseRevocationReason}
    {l : Lease} (h : (s.revokeAgentGrants now x rsn).2.leases.lookup id = some l)
    (hl : l.revoked = none) :
    s.leases.lookup id = some l ∧ s.agentGeneration l.owner x ≠ some l.generation := by
  rw [revokeAgentGrants_leases, Option.map_eq_some_iff] at h
  obtain ⟨old, hold, heq⟩ := h
  split_ifs at heq with hp
  · have hne := revokeLease_revoked ⟨rsn, now⟩ old
    rw [heq] at hne
    exact absurd hl hne
  · subst heq
    exact ⟨hold, hp⟩

section
variable (h : s.LeasesBacked)
include h

theorem LeasesBacked.revokeWhere (record : LeaseRevocation) (p : String → Lease → Bool) :
    (s.revokeWhere record p).LeasesBacked := by
  intro id l hid hl
  exact h id l (revokeWhere_unrevoked hid hl).1 hl

theorem LeasesBacked.grant (now : ℕ) (g : CapabilityGrant) : (s.grant now g).2.LeasesBacked := by
  have hg := s.granted now g
  generalize s.grant now g = out at hg ⊢
  cases hg with
  | idle | conflict => exact h
  | superseded =>
    intro id l hid hl
    obtain ⟨hid', hcap⟩ := revokeWhere_unrevoked hid hl
    have hne : l.capabilityId ≠ g.capabilityId := by simpa using hcap
    obtain ⟨g', hg', hb⟩ := h id l hid' hl
    exact ⟨g', (AList.lookup_insert_ne hne).trans hg', hb⟩
  | fresh free =>
    intro id l hid hl
    obtain ⟨g', hg', hb⟩ := h id l hid hl
    have hne : l.capabilityId ≠ g.capabilityId := by
      intro he
      rw [he, free] at hg'
      cases hg'
    exact ⟨g', (AList.lookup_insert_ne hne).trans hg', hb⟩

theorem LeasesBacked.lease (now : ℕ) (l : Lease) : (s.lease now l).2.LeasesBacked := by
  have hl := s.leased now l
  generalize s.lease now l = out at hl ⊢
  cases hl with
  | refused | idle => exact h
  | fresh held owner gen covers =>
    intro id l' hid hl'
    simp only [Table.lookup_insert_ite] at hid
    split_ifs at hid with hk
    · cases hid
      exact ⟨_, held, owner, gen, covers⟩
    · exact h id l' hid hl'

theorem LeasesBacked.write (w : Write) : (w.apply s).2.LeasesBacked := by
  cases w with
  | grant now g => exact h.grant now g
  | lease now l => exact h.lease now l

theorem LeasesBacked.step (op : BrokerOp) : (s.step op).LeasesBacked := by
  cases op with
  | grant now g => exact h.grant now g
  | lease now l => exact h.lease now l
  | revoke now leaseId rsn => exact h.revokeWhere _ _
  | negotiate clock aid r =>
    refine negotiate_keeps LeasesBacked h fun gen s₁ ha =>
      ⟨LeasesBacked, ?_, fun t ht => ht, fun k w _ t ht => ht.write w⟩
    rcases admitActivation_ok ha with ⟨-, -, rfl⟩ | ⟨-, -, rfl⟩
    · exact h
    · exact h
  | revokeAgent now x rsn =>
    intro id l hid hl
    obtain ⟨g, hg, hb⟩ := h id l (revokeAgentGrants_unrevoked hid hl).1 hl
    exact ⟨g, by rw [← hg]; exact congrArg _ (revokeAgentGrants_grants s now x rsn), hb⟩
  | enforce now cap owner gen scope => exact h

end

theorem Reachable.leasesBacked (h : Reachable s) : s.LeasesBacked :=
  h.invariant LeasesBacked (fun id l hid => by simp [empty] at hid) (fun _ op hs => hs.step op)

/-- After any run of broker calls from the empty broker, every unrevoked lease
has a current grant with its owner and generation and a scope that covers it. -/
theorem unrevoked_lease_has_grant (ops : List BrokerOp) (id : String) (l : Lease)
    (hid : (Broker.empty.run ops).leases.lookup id = some l) (hl : l.revoked = none) :
    ∃ g, (Broker.empty.run ops).grants.lookup l.capabilityId = some g ∧ g.owner = l.owner ∧
      g.generation = l.generation ∧ g.scope.covers l.scope = true := by
  obtain ⟨g, hg, ho, hn, hc⟩ := Reachable.leasesBacked ⟨ops, rfl⟩ id l hid hl
  exact ⟨g, hg, ho, hn, hc⟩

theorem unrevoked_lease_has_grant_superseded :
    let ops : List BrokerOp :=
      [.negotiate (fun _ => 5) "a" (sampleResult "x" ["terminal", "browser"]),
        .negotiate (fun _ => 9) "a" (sampleResult "y" ["terminal"])]
    ∃ g, (Broker.empty.run ops).grants.lookup ⟨"v1", "terminal"⟩ = some g ∧ g.owner = "a" ∧
      g.generation = 2 ∧ g.scope.covers Scope.unrestricted = true :=
  unrevoked_lease_has_grant _ "agent-a-y-v1-terminal"
    (agentLease "a" "y" Scope.unrestricted 2 60009 ⟨"v1", "terminal"⟩) (by decide) (by decide)

end Broker
end DshDesktop.Supervisor

namespace DshDesktop.Supervisor.Broker
variable {s s' s₁ : Broker}

theorem admitActivation_register {b : String} {a x : String} {gen : ℕ}
    (h : s.admitActivation a x = (.ok gen, s')) :
    s'.register b = s.register b ∨
      b = a ∧ (s.register b).entry x = none ∧ s'.register b = (s.register b).issue x := by
  rcases admitActivation_ok h with ⟨-, -, rfl⟩ | ⟨hnn, -, rfl⟩
  · exact .inl rfl
  · by_cases hb : b = a
    · subst hb
      exact .inr ⟨rfl, register_entry_none.mpr hnn, register_recordActivation_self s b x⟩
    · exact .inl (register_recordActivation_of_ne s hb x)

theorem step_register (s : Broker) (op : BrokerOp) (a : String) :
    (s.step op).register a = s.register a ∨
    (∃ x, (s.register a).entry x = none ∧ (s.step op).register a = (s.register a).issue x) ∨
    ∃ x, (s.step op).register a = (s.register a).retire x := by
  cases op with
  | grant now g => exact .inl ((grant_sameRegister s now g).register a)
  | lease now l => exact .inl ((lease_sameRegister s now l).register a)
  | revoke now leaseId rsn => exact .inl (SameRegister.register ⟨rfl, rfl, rfl⟩ a)
  | enforce now cap owner gen scope => exact .inl rfl
  | revokeAgent now x rsn =>
    simp only [step, revokeAgentGrants_register]
    split_ifs
    · exact .inr (.inr ⟨x, rfl⟩)
    · exact .inl rfl
  | negotiate clock aid r =>
    refine negotiate_keeps (fun t => t.register a = s.register a ∨
      (∃ x, (s.register a).entry x = none ∧ t.register a = (s.register a).issue x) ∨
      ∃ x, t.register a = (s.register a).retire x) (.inl rfl) ?_
    intro gen s₁ ha
    refine ⟨fun t => t.register a = s₁.register a, rfl, ?_, ?_⟩
    · intro t ht
      rw [ht]
      rcases admitActivation_register ha with h | ⟨-, hnn, h⟩
      · exact .inl h
      · exact .inr (.inl ⟨r.activationId, hnn, h⟩)
    · intro k w _ t ht
      exact ((write_sameRegister t w).register a).trans ht

theorem step_register_valid (op : BrokerOp) {a : String} (h : (s.register a).Valid) :
    ((s.step op).register a).Valid := by
  rcases s.step_register op a with heq | ⟨x, -, heq⟩ | ⟨x, heq⟩ <;> rw [heq]
  · exact h
  · exact Ledger.issue_valid h
  · exact Ledger.retire_valid h x

theorem step_register_extends (s : Broker) (op : BrokerOp) (a : String) :
    Ledger.Extends (s.register a) ((s.step op).register a) := by
  rcases s.step_register op a with heq | ⟨x, hnn, heq⟩ | ⟨x, heq⟩ <;> rw [heq]
  · exact Ledger.Extends.refl _
  · exact Ledger.issue_extends _ hnn
  · exact Ledger.retire_extends _ x

theorem Reachable.register_valid (h : Reachable s) (a : String) : (s.register a).Valid := by
  refine h.invariant (fun s => (s.register a).Valid) ?_ fun s op hs => step_register_valid op hs
  refine ⟨?_, ?_, ?_⟩ <;> simp [register, activation, empty]

theorem run_register_extends (s : Broker) (ops : List BrokerOp) (a : String) :
    Ledger.Extends (s.register a) ((s.run ops).register a) :=
  Runs.run_related (fun _ => True) (fun s t => Ledger.Extends (s.register a) (t.register a))
    (fun _ => Ledger.Extends.refl _)
    (fun {x y _} (h : Ledger.Extends (x.register a) (y.register a)) h' =>
      h.trans h') (fun _ _ _ => trivial)
    (fun s op _ => step_register_extends s op a) ops trivial

theorem Issued.entry {clock : ℕ → ℕ} {aid : String} {r : AgentNegotiationResult}
    {ag : AgentGrant} {k : AgentLeaseConstraints} (h : Issued s clock aid r ag s' k s₁) :
    (s'.register aid).entry r.activationId = some ⟨ag.generation, false⟩ ∧
      (s'.register aid).current = some r.activationId := by
  rw [h.register]
  rcases admitActivation_ok h.admitted with ⟨hact, hcur, rfl⟩ | ⟨-, hgen, rfl⟩
  · exact ⟨register_entry_some.mpr hact, hcur⟩
  · rw [register_recordActivation_self, hgen]
    exact ⟨Function.update_self .., rfl⟩

theorem activation_of_register_eq {a x : String} (h : s'.register a = s.register a) :
    s'.activation a x = s.activation a x := by
  cases hx : s.activation a x with
  | none => exact register_entry_none.mp (by rw [h]; exact register_entry_none.mpr hx)
  | some state =>
    have hen : (s.register a).entry x = some ⟨state.generation, state.revoked⟩ :=
      register_entry_some.mpr hx
    exact register_entry_some.mp (by rw [h]; exact hen)

theorem revokeAgentGrants_activation (s : Broker) (now : ℕ) (x : String)
    (rsn : LeaseRevocationReason) {a y : String} {state : AgentActivationState}
    (h : s.activation a y = some state) :
    (s.revokeAgentGrants now x rsn).2.activation a y =
      some (if y = x then { state with revoked := true } else state) := by
  have hen : (s.register a).entry y = some ⟨state.generation, state.revoked⟩ :=
    register_entry_some.mpr h
  have hreg := s.revokeAgentGrants_register now x rsn a
  by_cases hy : y = x
  · subst hy
    rw [if_pos (by rw [h]; rfl)] at hreg
    rw [if_pos rfl]
    refine register_entry_some (e := ⟨state.generation, true⟩).mp ?_
    rw [hreg]
    simp [Ledger.retire, hen]
  rw [if_neg hy]
  refine register_entry_some (e := ⟨state.generation, state.revoked⟩).mp ?_
  rw [hreg]
  split_ifs
  · simpa only [Ledger.retire, Function.update_of_ne hy] using hen
  · exact hen

theorem grant_lease_origin {now : ℕ} {g : CapabilityGrant} {id : String} {l : Lease}
    (h : (s.grant now g).2.leases.lookup id = some l) :
    ∃ old, s.leases.lookup id = some old ∧ old.owner = l.owner ∧ old.generation = l.generation ∧
      (old.revoked ≠ none → l.revoked ≠ none) := by
  have hg := s.granted now g
  generalize s.grant now g = out at hg h
  cases hg with
  | superseded =>
    obtain ⟨l₀, hl₀, rfl⟩ := Table.lookup_mapVal_some.mp h
    refine ⟨l₀, hl₀, ?_, ?_, ?_⟩ <;> split_ifs <;> simp
  | _ => exact ⟨l, h, rfl, rfl, fun hr => hr⟩

end DshDesktop.Supervisor.Broker

namespace DshDesktop.Supervisor

def BrokerOp.AgentPath : BrokerOp → Prop
  | .negotiate _ _ _ | .revokeAgent _ _ _ | .enforce _ _ _ _ _ => True
  | .grant _ _ | .lease _ _ | .revoke _ _ _ => False

namespace Broker
variable {s s' : Broker} {ops : List BrokerOp} {n : ℕ}

def LeasesRegistered (s : Broker) : Prop :=
  ∀ id l, s.leases.lookup id = some l →
    ∃ x state, s.activation l.owner x = some state ∧ state.generation = l.generation ∧
      (state.revoked = true → l.revoked ≠ none)

section
variable (h : s.LeasesRegistered)
include h

theorem LeasesRegistered.grant (now : ℕ) (g : CapabilityGrant) :
    (s.grant now g).2.LeasesRegistered := by
  intro id l hid
  obtain ⟨old, hold, ho, hn, hr⟩ := grant_lease_origin hid
  obtain ⟨x, state, hx, hgen, hrev⟩ := h id old hold
  refine ⟨x, state, ?_, hgen.trans hn, fun hs => hr (hrev hs)⟩
  rw [← ho, ← hx]
  exact activation_of_register_eq ((grant_sameRegister s now g).register _)

theorem LeasesRegistered.lease (now : ℕ) {l : Lease} {x : String}
    (hx : s.activation l.owner x = some ⟨l.generation, false⟩) :
    (s.lease now l).2.LeasesRegistered := by
  have hkp (a y : String) : (s.lease now l).2.activation a y = s.activation a y :=
    activation_of_register_eq ((lease_sameRegister s now l).register a)
  intro id l' hid
  rcases lease_lookup_some hid with hold | ⟨-, rfl⟩
  · obtain ⟨y, state, hy, hgen, hrev⟩ := h id l' hold
    exact ⟨y, state, (hkp _ _).trans hy, hgen, hrev⟩
  · exact ⟨x, _, (hkp _ _).trans hx, rfl, fun hs => by cases hs⟩

theorem LeasesRegistered.negotiate (clock : ℕ → ℕ) (aid : String) (r : AgentNegotiationResult) :
    (s.brokerGrantFromNegotiation clock aid r).2.LeasesRegistered := by
  refine negotiate_keeps LeasesRegistered h fun gen s₁ ha => ?_
  -- The admitted activation stays unrevoked while the call writes its leases.
  refine ⟨fun t => t.LeasesRegistered ∧
    t.activation aid r.activationId = some ⟨gen, false⟩, ?_, fun t ht => ht.1, ?_⟩
  · rcases admitActivation_ok ha with ⟨hact, -, rfl⟩ | ⟨hnn, rfl, rfl⟩
    · exact ⟨h, hact⟩
    refine ⟨fun id l hid => ?_, by simp [activation_recordActivation]⟩
    obtain ⟨x, state, hx, hrs⟩ := h id l hid
    refine ⟨x, state, ?_, hrs⟩
    rw [activation_recordActivation, if_neg, hx]
    intro hpair
    obtain ⟨ho, hact⟩ := hpair
    rw [ho, hact, hnn] at hx
    cases hx
  · intro k w hw t ht
    refine ⟨?_, (activation_of_register_eq ((write_sameRegister t w).register aid)).trans ht.2⟩
    obtain ⟨i, c, -, rfl | rfl⟩ := mem_bridgeWrites hw
    · exact ht.1.grant _ _
    · exact ht.1.lease _ ht.2

theorem LeasesRegistered.revokeAgent (now : ℕ) (x : String) (rsn : LeaseRevocationReason) :
    (s.revokeAgentGrants now x rsn).2.LeasesRegistered := by
  intro id l hid
  rw [revokeAgentGrants_leases, Option.map_eq_some_iff] at hid
  obtain ⟨old, hold, rfl⟩ := hid
  obtain ⟨y, state, hy, hgen, hrev⟩ := h id old hold
  have hact := s.revokeAgentGrants_activation now x rsn hy
  by_cases hyx : y = x
  · subst hyx
    have hgl : s.agentGeneration old.owner y = some old.generation := by
      simp [agentGeneration, hy, hgen]
    rw [if_pos hgl]
    exact ⟨y, { state with revoked := true }, by simpa using hact, by simpa using hgen,
      fun _ => revokeLease_revoked _ _⟩
  rw [if_neg hyx] at hact
  refine ⟨y, state, ?_, ?_, fun hs => ?_⟩
  · split_ifs <;> simpa using hact
  · split_ifs <;> simpa using hgen
  · rw [revokeLease_of_revoked (hrev hs), ite_self]
    exact hrev hs

theorem LeasesRegistered.run (hops : ∀ op ∈ ops, op.AgentPath) : (s.run ops).LeasesRegistered := by
  refine Runs.run_invariant_on BrokerOp.AgentPath LeasesRegistered ?_ hops h
  intro s op hop hs
  cases op with
  | grant now g | lease now l | revoke now leaseId rsn => exact hop.elim
  | negotiate clock aid r => exact hs.negotiate clock aid r
  | revokeAgent now x rsn => exact hs.revokeAgent now x rsn
  | enforce now cap owner gen scope => exact hs

end

theorem agentGeneration_iff {a x : String} :
    s.agentGeneration a x = some n ↔ ∃ b, (s.register a).entry x = some ⟨n, b⟩ := by
  simp only [agentGeneration, Option.map_eq_some_iff, register_entry_some]
  constructor
  · intro hen
    obtain ⟨state, hs, rfl⟩ := hen
    exact ⟨state.revoked, hs⟩
  · intro hen
    obtain ⟨b, hs⟩ := hen
    exact ⟨_, hs, rfl⟩

theorem generation_lt_of_ok {clock clock' : ℕ → ℕ} {a : String} {r r' : AgentNegotiationResult}
    {g g' : AgentGrant} {s₁ s₂ : Broker} (hs : Reachable s)
    (h : s.brokerGrantFromNegotiation clock a r = (.ok g, s₁))
    (h' : (s₁.run ops).brokerGrantFromNegotiation clock' a r' = (.ok g', s₂))
    (hne : r.activationId ≠ r'.activationId) : g.generation < g'.generation := by
  obtain ⟨k, t, hi⟩ := negotiate_ok h
  obtain ⟨k', t', hi'⟩ := negotiate_ok h'
  obtain ⟨hen, hcur⟩ := hi.entry
  obtain ⟨hen', hcr'⟩ := hi'.entry
  have hst : s₁ = s.step (.negotiate clock a r) := (congrArg Prod.snd h).symm
  have hvl : (s₁.register a).Valid := by
    rw [hst]
    exact step_register_valid _ (hs.register_valid a)
  have hlast : s₂ = (s₁.run ops).step (.negotiate clock' a r') := (congrArg Prod.snd h').symm
  have hext : Ledger.Extends (s₁.register a) (s₂.register a) := by
    rw [hlast]
    exact (run_register_extends s₁ ops a).trans (step_register_extends _ _ a)
  have hlow : g.generation ≤ (s₁.register a).next := hvl.bounded _ _ hen
  have hhg := hext.current_above hcr' (by rw [hcur]; simpa using hne) hen'
  exact lt_of_le_of_lt hlow hhg

theorem generation_lt_of_registered {a x y : String} {m : ℕ} (hs : Reachable s)
    (hx : s.agentGeneration a x = some n) (hy : s.agentGeneration a y = none)
    (hlt : (s.run ops).agentGeneration a y = some m) : n < m := by
  obtain ⟨b, hen⟩ := agentGeneration_iff.mp hx
  obtain ⟨b', hen'⟩ := agentGeneration_iff.mp hlt
  have hnn : (s.register a).entry y = none := by
    simpa [agentGeneration, register] using hy
  have hlow : n ≤ (s.register a).next := (hs.register_valid a).bounded x _ hen
  exact lt_of_le_of_lt hlow ((run_register_extends s ops a).fresh y _ hnn hen')

theorem revoked_entry_run {a x : String} (hrev : s.agentActivationRevoked a x)
    (hgen : s.agentGeneration a x = some n) (ops : List BrokerOp) :
    ((s.run ops).register a).entry x = some ⟨n, true⟩ := by
  obtain ⟨b, hen⟩ := agentGeneration_iff.mp hgen
  have hb : b := by
    simpa [agentActivationRevoked, register_entry_some.mp hen] using hrev
  obtain ⟨⟨m, b'⟩, hf, hm, hr⟩ := (run_register_extends s ops a).persists x _ hen
  simp only at hm hr
  rw [hf, hm, hr hb]

theorem revoked_refused {a x : String} (hen : (s.register a).entry x = some ⟨n, true⟩)
    (clock : ℕ → ℕ) {r : AgentNegotiationResult} (hr : r.activationId = x) :
    ∃ e, (s.brokerGrantFromNegotiation clock a r).1 = .error e := by
  have hact : s.activation a x = some ⟨n, true⟩ := register_entry_some.mp hen
  rcases s.negotiate_cases clock a r with ⟨e, -, heq⟩ | ⟨k, gen, s₁, -, ha⟩
  · exact ⟨e, congrArg Prod.fst heq⟩
  · rcases admitActivation_ok ha with ⟨h, -, -⟩ | ⟨h, -, -⟩ <;> rw [hr, hact] at h <;> cases h

theorem LeasesRegistered.revoked_never_passes (h : s.LeasesRegistered) {a x : String}
    (hvl : (s.register a).Valid) (hen : (s.register a).entry x = some ⟨n, true⟩) (now : ℕ)
    (c : CapabilityId) (scope : Scope) : s.enforceDispatch now c a n scope ≠ .ok () := by
  intro hok
  obtain ⟨-, id, l, hid, hl⟩ := (enforceDispatch_ok_iff s now c a n scope).mp hok
  obtain ⟨y, state, hy, hgen, hrev⟩ := h id l hid
  rw [hl.owner_eq] at hy
  have hy' : (s.register a).entry y = some ⟨state.generation, state.revoked⟩ :=
    register_entry_some.mpr hy
  have hyx : y = x := hvl.injective y x _ _ hy' hen (hgen.trans hl.generation_eq)
  subst hyx
  rw [hen] at hy'
  simp only [Option.some.injEq, LedgerEntry.mk.injEq] at hy'
  exact hrev hy'.2.symm hl.unrevoked

/-- On the agent path the generations of one agent increase strictly from one activation id to
the next, and a revoked activation is shut out of the gate and of the bridge for the rest of the
run. -/
theorem agent_generations_increase_and_revocation_is_final (before after : List BrokerOp)
    (hbefore : ∀ op ∈ before, op.AgentPath) (hafter : ∀ op ∈ after, op.AgentPath) (agent : String) :
    (∀ clock r g s₁ clock' r' g' s₂,
      (Broker.empty.run before).brokerGrantFromNegotiation clock agent r = (.ok g, s₁) →
      (s₁.run after).brokerGrantFromNegotiation clock' agent r' = (.ok g', s₂) →
      r.activationId ≠ r'.activationId → g.generation < g'.generation) ∧
    (∀ x y n m, (Broker.empty.run before).agentGeneration agent x = some n →
      (Broker.empty.run before).agentGeneration agent y = none →
      ((Broker.empty.run before).run after).agentGeneration agent y = some m → n < m) ∧
    ∀ x n, (Broker.empty.run before).agentActivationRevoked agent x = true →
      (Broker.empty.run before).agentGeneration agent x = some n →
      (∀ now c scope, ((Broker.empty.run before).run after).enforceDispatch now c agent n scope ≠
        .ok ()) ∧
      ∀ clock r, r.activationId = x → ∃ e,
        (((Broker.empty.run before).run after).brokerGrantFromNegotiation clock agent r).1 =
          .error e := by
  have hs : Reachable (Broker.empty.run before) := ⟨before, rfl⟩
  refine ⟨?_, ?_, ?_⟩
  · intro clock r g s₁ clock' r' g' s₂ h h' hne
    exact generation_lt_of_ok hs h h' hne
  · intro x y n m hx hy hlt
    exact generation_lt_of_registered hs hx hy hlt
  · intro x n hrev hgen
    have hen := revoked_entry_run hrev hgen after
    have hem : LeasesRegistered Broker.empty := fun id l hid => by simp [empty] at hid
    have hleases := (hem.run hbefore).run hafter
    exact ⟨hleases.revoked_never_passes ((hs.run after).register_valid agent) hen,
      fun clock r hr => revoked_refused hen clock hr⟩

theorem agent_generations_increase_and_revocation_is_final_takeover :
    let before : List BrokerOp := [.negotiate (fun _ => 5) "a" (sampleResult "x" ["terminal"]),
      .negotiate (fun _ => 6) "a" (sampleResult "y" ["browser"]),
      .revokeAgent 7 "y" .humanTakeover]
    ((Broker.empty.run before).agentGeneration "a" "y" = some 2) ∧
      ((Broker.empty.run before).run []).enforceDispatch 8 ⟨"v1", "browser"⟩ "a" 2
        Scope.unrestricted ≠ .ok () :=
  ⟨by decide, ((agent_generations_increase_and_revocation_is_final _ []
    (by simp [BrokerOp.AgentPath]) (by simp) "a").2.2 "y" 2 (by decide) (by decide)).1 8 _ _⟩

end Broker
end DshDesktop.Supervisor
