import Mathlib.Data.Fintype.EquivFin
import DshDesktop.Supervisor.ActivationHistory

/-!
# What a new activation takes away

Grants are stored by capability alone. So an earlier generation of an agent stays usable
for exactly the capabilities that the new activation leaves out, and an activation of one
agent replaces the grant of another whenever the generation numbers differ.
-/

namespace DshDesktop.Supervisor
open FallibleLoop List
variable {old agent id : String} {n now generation gen : ℕ} {g' g : CapabilityGrant}
  {build : CapabilityId → CapabilityGrant} {r : AgentNegotiationResult}
  {cs earlier later : List CapabilityId}
  {l : Lease} {c c' : CapabilityId} {op : BrokerOp}

def BrokerOp.GrantsTo (owner : String) (generation : ℕ) : BrokerOp → Prop
  | .grant _ g => g.owner = owner ∧ g.generation = generation
  | _ => False

namespace Broker
variable {s s' s₁ : Broker}

theorem negotiate_lookup_of_notMem (s : Broker) (clock : ℕ → ℕ) (aid : String)
    (hc : c ∉ r.granted) :
    (s.brokerGrantFromNegotiation clock aid r).2.grants.lookup c = s.grants.lookup c := by
  refine negotiate_keeps (fun t => t.grants.lookup c = s.grants.lookup c) rfl ?_
  intro generation s₁ ha
  refine ⟨fun t => t.grants.lookup c = s.grants.lookup c, ?_, fun t ht => ht, ?_⟩
  · rcases admitActivation_ok ha with ⟨-, -, rfl⟩ | ⟨-, -, rfl⟩ <;> rfl
  · intro k w hw t ht
    obtain ⟨i, c', hc', rfl | rfl⟩ := mem_bridgeWrites hw
    · have hne : c ≠ c' := by
        intro he
        exact hc (he ▸ hc')
      exact (grant_lookup_of_ne t _ hne).trans ht
    · exact (congrArg (AList.lookup c) (lease_grants t _ _)).trans ht

/-- The agent's generation `n` belongs to an activation that is no longer
current, and no grant is left under it. -/
structure Superseded (s : Broker) (agent old : String) (n : ℕ) : Prop where
  none_held : ∀ c g, s.grants.lookup c = some g → g.owner = agent → g.generation ≠ n
  valid : (s.register agent).Valid
  entry : ∃ b, (s.register agent).entry old = some ⟨n, b⟩
  not_current : (s.register agent).current ≠ some old

section
variable (h : Superseded s agent old n)
include h

theorem Superseded.admit_ne {x : String} (ha : s.admitActivation agent x = (.ok gen, s₁)) :
    gen ≠ n := by
  obtain ⟨b, hold⟩ := h.entry
  rcases admitActivation_ok ha with ⟨hact, hcur, -⟩ | ⟨-, rfl, -⟩
  · intro hgen
    have hx : (s.register agent).entry x = some ⟨gen, false⟩ := register_entry_some.mpr hact
    have hxo : x = old := h.valid.injective x old _ _ hx hold hgen
    exact h.not_current (hxo ▸ hcur)
  · have hbn : n ≤ s.generationCounter agent := h.valid.bounded old _ hold
    omega

theorem Superseded.none_held_step (hop : ¬ op.GrantsTo agent n) :
    ∀ c g, (s.step op).grants.lookup c = some g → g.owner = agent → g.generation ≠ n := by
  cases op with
  | grant now g =>
    intro c g' hc ho hn
    rcases grant_lookup_some hc with hold | ⟨-, rfl⟩
    · exact h.none_held c g' hold ho hn
    · exact hop ⟨ho, hn⟩
  | lease now l =>
    simp only [step, lease_grants]
    exact h.none_held
  | revoke now leaseId rsn | enforce now cap owner generation scope => exact h.none_held
  | revokeAgent now x rsn =>
    simp only [step, revokeAgentGrants_grants]
    exact h.none_held
  | negotiate clock aid r =>
    refine negotiate_keeps (fun t => ∀ c g, t.grants.lookup c = some g → g.owner = agent →
      g.generation ≠ n) h.none_held fun generation s₁ ha => ?_
    refine ⟨_, ?_, fun t ht => ht, ?_⟩
    · rcases admitActivation_ok ha with ⟨-, -, rfl⟩ | ⟨-, -, rfl⟩ <;> exact h.none_held
    · intro k w hw t ht c g hc ho hn
      obtain ⟨i, c', -, rfl | rfl⟩ := mem_bridgeWrites hw
      · rcases grant_lookup_some hc with hold | ⟨-, rfl⟩
        · exact ht c g hold ho hn
        · obtain rfl : aid = agent := ho
          exact h.admit_ne ha hn
      · simp only [Write.apply, lease_grants] at hc
        exact ht c g hc ho hn

theorem Superseded.step (hop : ¬ op.GrantsTo agent n) : Superseded (s.step op) agent old n := by
  have hext := step_register_extends s op agent
  obtain ⟨b, hold⟩ := h.entry
  obtain ⟨⟨m, b'⟩, hen, hm, -⟩ := hext.persists old _ hold
  refine ⟨h.none_held_step hop, step_register_valid op h.valid, ⟨b', ?_⟩, ?_⟩
  · rw [hen, show m = n from hm]
  · intro hcur
    rcases hext.current old hcur with hc | hc
    · exact h.not_current hc
    · rw [hold] at hc
      cases hc

theorem Superseded.run {ops : List BrokerOp} (hops : ∀ op ∈ ops, ¬ op.GrantsTo agent n) :
    Superseded (s.run ops) agent old n :=
  Runs.run_invariant_on (fun op => ¬ op.GrantsTo agent n) (fun t => Superseded t agent old n)
    (fun _ _ hop ht => ht.step hop) hops h

theorem Superseded.never_passes (now : ℕ) (c : CapabilityId) (scope : Scope) :
    s.enforceDispatch now c agent n scope ≠ .ok () := by
  intro hok
  obtain ⟨⟨g, hg, ho, hn, -⟩, -⟩ := (enforceDispatch_ok_iff s now c agent n scope).mp hok
  exact h.none_held c g hg ho hn

end

theorem exists_fresh_leaseId (s : Broker) : ∃ id, s.leases.lookup id = none := by
  obtain ⟨id, hid⟩ := Infinite.exists_notMem_finset s.leases.keys.toFinset
  exact ⟨id, AList.lookup_eq_none.mpr (by simpa [AList.mem_keys] using hid)⟩

theorem exists_lease_passes (hg : s.grants.lookup c = some g) :
    ∃ l, (s.run [.lease 0 l]).enforceDispatch 0 c g.owner
      g.generation g.scope = .ok () := by
  obtain ⟨id, hid⟩ := s.exists_fresh_leaseId
  let l : Lease := ⟨id, c, g.owner, g.generation, g.scope, 1, none⟩
  have hlease : s.lease 0 l = (.ok (), { s with leases := s.leases.insert id l }) := by
    simp [lease, l, hg, hid, Scope.covers_refl]
  refine ⟨l, (enforceDispatch_ok_iff _ _ _ _ _ _).mpr ⟨⟨g, ?_, rfl, rfl, g.scope.covers_refl⟩,
    id, l, ?_, ⟨rfl, rfl, rfl, g.scope.covers_refl, rfl, Nat.zero_lt_one⟩⟩⟩
  · simpa [Broker.run, Broker.step, hlease] using hg
  · simp [Broker.run, Broker.step, hlease]

theorem superseded_of_ok {clock : ℕ → ℕ} {ag : AgentGrant} (hs : Reachable s)
    (hold : s.agentGeneration agent old = some n)
    (hnew : s.agentGeneration agent r.activationId = none)
    (hok : s.brokerGrantFromNegotiation clock agent r = (.ok ag, s'))
    (hcv : ∀ c g, s.grants.lookup c = some g → g.owner = agent → g.generation = n →
      c ∈ r.granted) : Superseded s' agent old n := by
  obtain ⟨k, s₁, hiss⟩ := negotiate_ok hok
  obtain ⟨b, hen⟩ := agentGeneration_iff.mp hold
  have hvl := hs.register_valid agent
  have hst : s' = s.step (.negotiate clock agent r) := (congrArg Prod.snd hok).symm
  have hext : Ledger.Extends (s.register agent) (s'.register agent) := by
    rw [hst]
    exact step_register_extends _ _ _
  have hfr : (s.register agent).entry r.activationId = none := by
    simpa [agentGeneration, register] using hnew
  have hbn : n ≤ (s.register agent).next := hvl.bounded old _ hen
  have hlt : n < ag.generation := lt_of_le_of_lt hbn (hext.fresh _ _ hfr hiss.entry.1)
  obtain ⟨⟨m, b'⟩, hen', hm, -⟩ := hext.persists old _ hen
  refine ⟨?_, ?_, ⟨b', by rw [hen', show m = n from hm]⟩, ?_⟩
  · intro c g hc ho hn
    by_cases hmem : c ∈ r.granted
    · rw [hiss.grants c hmem] at hc
      cases hc
      exact absurd hn (Nat.ne_of_gt hlt)
    · have hfa := s.negotiate_lookup_of_notMem clock agent hmem
      rw [hok, hc] at hfa
      exact hmem (hcv c g hfa.symm ho hn)
  · rw [hst]
    exact step_register_valid _ hvl
  · rw [hiss.entry.2]
    intro he
    rw [Option.some.inj he, hen] at hfr
    cases hfr

/-- A new activation shuts an earlier generation of the same agent out of the
gate, for the rest of every run without a direct grant under that generation,
exactly when it is granted every capability still held under it. -/
theorem older_generation_shut_out_iff {clock : ℕ → ℕ} {agent old : String}
    {r : AgentNegotiationResult} {ag : AgentGrant} {n : ℕ} (hs : Reachable s)
    (hold : s.agentGeneration agent old = some n)
    (hnew : s.agentGeneration agent r.activationId = none)
    (hok : s.brokerGrantFromNegotiation clock agent r = (.ok ag, s')) :
    (∀ ops : List BrokerOp, (∀ op ∈ ops, ¬ op.GrantsTo agent n) → ∀ now c scope,
      (s'.run ops).enforceDispatch now c agent n scope ≠ .ok ()) ↔
    ∀ c g, s.grants.lookup c = some g → g.owner = agent → g.generation = n → c ∈ r.granted := by
  constructor
  · intro hsh c g hg ho hn
    by_contra hmem
    have hkp : s'.grants.lookup c = some g := by
      have hfr := s.negotiate_lookup_of_notMem clock agent hmem
      rwa [hok, hg] at hfr
    obtain ⟨l, hl⟩ := exists_lease_passes hkp
    rw [ho, hn] at hl
    exact hsh [.lease 0 l] (by simp [BrokerOp.GrantsTo]) 0 c g.scope hl
  · intro hcv ops hops now c scope
    exact ((superseded_of_ok hs hold hnew hok hcv).run hops).never_passes now c scope

theorem older_generation_shut_out_iff_covered :
    let s := Broker.empty.run [.negotiate (fun _ => 5) "a" (sampleResult "x" ["terminal"])]
    let s' := s.step (.negotiate (fun _ => 6) "a" (sampleResult "y" ["browser", "terminal"]))
    (s'.run [.revoke 7 "other" .unload]).enforceDispatch 8 ⟨"v1", "terminal"⟩ "a" 1
      Scope.unrestricted ≠ .ok () := by
  intro s s'
  have hold : s.agentGeneration "a" "x" = some 1 := rfl
  have hnew : s.agentGeneration "a" (sampleResult "y" ["browser", "terminal"]).activationId =
      none := rfl
  have hok : s.brokerGrantFromNegotiation (fun _ => 6) "a"
      (sampleResult "y" ["browser", "terminal"]) = (.ok _, s') := rfl
  refine (older_generation_shut_out_iff ⟨_, rfl⟩ hold hnew hok).mpr ?_ _
    (by simp [BrokerOp.GrantsTo]) 8 _ _
  intro c g hg _ _
  have hkey : c ∈ [CapabilityId.mk "v1" "terminal"] :=
    AList.mem_keys.mpr (AList.lookup_isSome.mp (by rw [hg]; rfl))
  rw [mem_singleton.mp hkey]
  decide

/-- The second activation leaves `browser` out, and the first generation still
passes the gate for it. -/
theorem older_generation_survives :
    let s := Broker.empty.run
      [.negotiate (fun _ => 5) "a" (sampleResult "x" ["terminal", "browser"])]
    let call := s.brokerGrantFromNegotiation (fun _ => 6) "a" (sampleResult "y" ["terminal"])
    s.agentGeneration "a" "x" = some 1 ∧ s.agentGeneration "a" "y" = none ∧
      call.1.toOption.map AgentGrant.generation = some 2 ∧
      call.2.enforceDispatch 7 ⟨"v1", "browser"⟩ "a" 1 Scope.unrestricted = .ok () := by
  decide

section
variable (hl : s.leases.lookup id = some l)
include hl

theorem grant_lease_of_spared (h : l.capabilityId ≠ g.capabilityId ∨ l.revoked ≠ none) :
    (s.grant now g).2.leases.lookup id = some l := by
  have hg := s.granted now g
  generalize s.grant now g = out at hg ⊢
  cases hg with
  | superseded =>
    refine Table.lookup_mapVal_some.mpr ⟨l, hl, ?_⟩
    rcases h with hne | hr
    · simp [hne]
    · simp [revokeLease_of_revoked hr]
  | _ => exact hl

theorem superseded_lost (hcap : l.capabilityId = g.capabilityId) :
    (s.superseded now g).grants.lookup g.capabilityId = some g ∧
      ∃ l', (s.superseded now g).leases.lookup id = some l' ∧ l'.revoked ≠ none := by
  refine ⟨AList.lookup_insert s.grants, revokeLease ⟨.generationChange, now⟩ l, ?_,
    revokeLease_revoked _ _⟩
  exact Table.lookup_mapVal_some.mpr ⟨l, hl, by simp [hcap]⟩

end

/-- What a call for someone else leaves to an owner. A capability has one grant, whoever the
owner is, so those that the call asks for are left out. -/
structure LeavesOwner (s s' : Broker) (owner : String) (asked : List CapabilityId) : Prop where
  register : s'.register owner = s.register owner
  grants : ∀ c ∉ asked, s'.grants.lookup c = s.grants.lookup c
  leases : ∀ id l, s.leases.lookup id = some l → l.owner = owner → l.capabilityId ∉ asked →
    s'.leases.lookup id = some l

theorem negotiate_leavesOwner (s : Broker) (clock : ℕ → ℕ) {owner : String} (hne : owner ≠ agent)
    (r : AgentNegotiationResult) :
    LeavesOwner s (s.brokerGrantFromNegotiation clock agent r).2 owner r.granted := by
  have hreg : (s.brokerGrantFromNegotiation clock agent r).2.register owner = s.register owner := by
    refine negotiate_keeps (fun t => t.register owner = s.register owner) rfl ?_
    intro generation s₁ ha
    refine ⟨_, ?_, fun t ht => ht, fun k w _ t ht =>
      ((write_sameRegister t w).register owner).trans ht⟩
    rcases admitActivation_ok ha with ⟨-, -, rfl⟩ | ⟨-, -, rfl⟩
    · rfl
    · exact register_recordActivation_of_ne s hne _
  refine ⟨hreg, fun c => s.negotiate_lookup_of_notMem clock agent, fun id l hl _ hc => ?_⟩
  refine negotiate_keeps (fun t => t.leases.lookup id = some l) hl ?_
  intro generation s₁ ha
  refine ⟨_, ?_, fun t ht => ht, ?_⟩
  · rw [(admitActivation_tables ha).2]
    exact hl
  · intro k w hw t ht
    obtain ⟨i, c', hc', rfl | rfl⟩ := mem_bridgeWrites hw
    · exact grant_lease_of_spared ht (.inl fun heq => hc (heq ▸ hc'))
    · exact lease_lookup_of_some ht

theorem revokeAgentGrants_leavesOwner (s : Broker) (now : ℕ) (reason : LeaseRevocationReason)
    {owner x : String} (hx : s.activation owner x = none) :
    LeavesOwner s (s.revokeAgentGrants now x reason).2 owner [] := by
  have hreg : (s.revokeAgentGrants now x reason).2.register owner = s.register owner := by
    rw [revokeAgentGrants_register, hx]
    rfl
  refine ⟨hreg, fun c _ => ?_, fun id l hl how _ => ?_⟩
  · rw [revokeAgentGrants_grants]
  · subst how
    simp [revokeAgentGrants_leases, hl, agentGeneration, hx]

/-- The call for `agent` reaches the capability `c` with a generation other than
that of the grant `g` in place: the checks pass, the activation is admitted, and
no capability listed before `c` is in conflict. -/
def TakesOver (s : Broker) (clock : ℕ → ℕ) (agent : String) (r : AgentNegotiationResult)
    (c : CapabilityId) (g : CapabilityGrant) : Prop :=
  ∃ k generation s₁ earlier later, checkNegotiation r = .ok k ∧
    s.admitActivation agent r.activationId = (.ok generation, s₁) ∧
    r.granted = earlier ++ c :: later ∧ generation ≠ g.generation ∧
    ∀ c' ∈ earlier, c' ≠ c ∧ ∀ g', s.grants.lookup c' = some g' → g'.generation = generation →
      g' = agentCapabilityGrant agent r.scope generation (clock 0) c'

def Keeps (c : CapabilityId) (g : CapabilityGrant) (id : String) (l : Lease) (t : Broker) : Prop :=
  t.grants.lookup c = some g ∧ t.leases.lookup id = some l

def Lost (c : CapabilityId) (g : CapabilityGrant) (id : String) (t : Broker) : Prop :=
  t.grants.lookup c = some g ∧ ∃ l, t.leases.lookup id = some l ∧ l.revoked ≠ none

section
variable {t : Broker}

theorem Keeps.grant_of_ne (h : Keeps c g id l t) (hl : l.capabilityId = c) (now : ℕ)
    (hne : c ≠ g'.capabilityId) : Keeps c g id l (t.grant now g').2 :=
  ⟨(grant_lookup_of_ne t now hne).trans h.1, grant_lease_of_spared h.2 (.inl (by rwa [hl]))⟩

theorem Keeps.lease (h : Keeps c g id l t) (now : ℕ) (l' : Lease) :
    Keeps c g id l (t.lease now l').2 :=
  ⟨(congrArg (AList.lookup c) (lease_grants t now l')).trans h.1, lease_lookup_of_some h.2⟩

theorem Keeps.grant_of_conflict (h : Keeps c g id l t) (hcap : g'.capabilityId = c)
    (hgen : g.generation = g'.generation) (hne : g ≠ g') : Keeps c g id l (t.grant now g').2 := by
  rw [grant_conflict (by rw [hcap]; exact h.1) hgen hne]
  exact h

theorem Lost.write (h : Lost c g id t) {w : Write}
    (hw : ∀ now g', w = .grant now g' → g'.capabilityId = c → g' = g) :
    Lost c g id (w.apply t).2 := by
  obtain ⟨hg, l, hl, hr⟩ := h
  cases w with
  | lease now l' =>
    exact ⟨(congrArg (AList.lookup c) (lease_grants t now l')).trans hg, l,
      lease_lookup_of_some hl, hr⟩
  | grant now g' =>
    refine ⟨?_, l, grant_lease_of_spared hl (.inr hr), hr⟩
    by_cases hcap : c = g'.capabilityId
    · obtain rfl := hw now g' rfl hcap.symm
      rw [Write.apply, grant_idle (by rw [← hcap]; exact hg)]
      exact hg
    · exact (grant_lookup_of_ne t now hcap).trans hg

end

theorem grant_ok_of_free
    (hfr : ∀ g', s.grants.lookup g.capabilityId = some g' → g'.generation = g.generation →
      g' = g) : ∃ t, s.grant now g = (.ok (), t) := by
  have hg := s.granted now g
  generalize s.grant now g = out at hg ⊢
  cases hg with
  | conflict held same other => exact absurd (hfr _ held same) other
  | _ => exact ⟨_, rfl⟩

section
variable {clock : ℕ → ℕ}

theorem Keeps.admitted (h : Keeps c g id l s)
    (ha : s.admitActivation agent r.activationId = (.ok gen, s₁)) : Keeps c g id l s₁ := by
  rcases admitActivation_ok ha with ⟨-, -, rfl⟩ | ⟨-, -, rfl⟩ <;> exact h

theorem Keeps.earlier_complete (h : Keeps c g id l s) (hl : l.capabilityId = c) (clock : ℕ → ℕ)
    (build : CapabilityId → CapabilityGrant) (hbuild : ∀ c, (build c).capabilityId = c)
    (hfr : ∀ c' ∈ earlier, c' ≠ c ∧ ∀ g', s.grants.lookup c' = some g' →
      g'.generation = (build c').generation → g' = build c') :
    ∃ t, tryEach Write.apply (grantList clock build earlier n) s = (.ok (), t) ∧
      Keeps c g id l t := by
  let P (t : Broker) : Prop := Keeps c g id l t ∧ ∀ c' ∈ earlier, ∀ g',
    t.grants.lookup c' = some g' → g'.generation = (build c').generation → g' = build c'
  have hlp : ∃ t, tryEach Write.apply (grantList clock build earlier n) s = (.ok (), t) ∧ P t := by
    refine tryEach_completes P (fun w hw t ht => ?_) ⟨h, fun c' hc' => (hfr c' hc').2⟩
    obtain ⟨i, c', hc', rfl⟩ := mem_grantList hw
    have hne : c ≠ (build c').capabilityId := by
      rw [hbuild]
      exact Ne.symm (hfr c' hc').1
    have hok : ∃ t', t.grant (clock i) (build c') = (.ok (), t') :=
      grant_ok_of_free (by rw [hbuild]; exact ht.2 c' hc')
    obtain ⟨t', hok⟩ := hok
    have hkp := ht.1.grant_of_ne hl (clock i) hne
    rw [hok] at hkp
    refine ⟨t', hok, hkp, fun c'' hc'' g' hg' hgen => ?_⟩
    rcases grant_lookup_some ((congrArg (fun p => p.2.grants.lookup c'') hok).trans hg') with
      hold | ⟨hcap, rfl⟩
    · exact ht.2 c'' hc'' g' hold hgen
    · rw [hcap, hbuild]
  obtain ⟨t, hdn, hkp, -⟩ := hlp
  exact ⟨t, hdn, hkp⟩

theorem lost_of_takesOver (h : Keeps c g id l s) (hl : l.capabilityId = c)
    (ht : s.TakesOver clock agent r c g) :
    ∃ generation, Lost c (agentCapabilityGrant agent r.scope generation (clock 0) c) id
      (s.brokerGrantFromNegotiation clock agent r).2 := by
  obtain ⟨k, generation, s₁, earlier, later, hk, ha, hsp, hgen, hfr⟩ := ht
  let build := agentCapabilityGrant agent r.scope generation (clock 0)
  rw [← (admitActivation_tables ha).1] at hfr
  obtain ⟨t, hea, hkp⟩ := (h.admitted ha).earlier_complete hl clock build
    (fun _ => rfl) hfr
  refine ⟨generation, ?_⟩
  have hrs (w : Write) (hw : w ∈ bridgeWrites clock agent r k.maxSeconds generation) (t : Broker)
      (ht : Lost c (build c) id t) : Lost c (build c) id (w.apply t).2 := by
    refine ht.write fun now g' hg' hcap => ?_
    obtain ⟨i, c', -, hw' | hw'⟩ := mem_bridgeWrites hw
    · rw [hw'] at hg'
      cases hg'
      exact congrArg build hcap
    · rw [hw'] at hg'
      cases hg'
  rw [negotiate_state hk ha]
  simp only [bridgeWrites, grantWrites, hsp, grantList_split, append_assoc,
    cons_append] at hrs ⊢
  have hst : Write.apply (.grant (clock (1 + earlier.length)) (build c)) t =
      (.ok (), t.superseded (clock (1 + earlier.length)) (build c)) :=
    grant_supersede hkp.1 (Ne.symm hgen)
  rw [tryEach_append_ok hea, tryEach_cons_ok hst]
  refine tryEach_invariant (Lost c (build c) id) (fun w hw => hrs w ?_)
    (superseded_lost hkp.2 hl)
  exact mem_append_right _ (mem_cons_of_mem _ hw)

theorem grantList_stops (clock : ℕ → ℕ) (hbuild : ∀ c, (build c).capabilityId = c) (hc' : c' ∈ cs)
    (hg' : s.grants.lookup c' = some g') (hgen : g'.generation = (build c').generation)
    (hne : g' ≠ build c') :
    ∃ e t, tryEach Write.apply (grantList clock build cs n) s = (.error e, t) := by
  have hst : (tryEach Write.apply (grantList clock build cs n) s).2.grants.lookup c' = some g' := by
    refine tryEach_invariant (fun t : Broker => t.grants.lookup c' = some g')
      (fun w hw t ht => ?_) hg'
    obtain ⟨i, c'', -, rfl⟩ := mem_grantList hw
    by_cases hc : c' = c''
    · subst hc
      rw [Write.apply, grant_conflict (by rw [hbuild]; exact ht) hgen hne]
      exact ht
    · exact (grant_lookup_of_ne t _ (by rwa [hbuild])).trans ht
  rcases hres : tryEach Write.apply (grantList clock build cs n) s with ⟨res, t⟩
  cases res with
  | error e => exact ⟨e, t, rfl⟩
  | ok u =>
    obtain ⟨i, hi⟩ := exists_mem_zipIdx hc' n
    have hin := grants_inPlace hbuild (fun w hw => by
      obtain ⟨i, c, -, rfl⟩ := mem_grantList hw
      exact ⟨clock i, c, rfl⟩) hres _ (mem_map_of_mem hi)
    rw [InPlace, hbuild] at hin
    rw [hres, hin] at hst
    exact absurd (Option.some.inj hst).symm hne

theorem conflict_of_not_takesOver {k : AgentLeaseConstraints} (hk : checkNegotiation r = .ok k)
    (ha : s.admitActivation agent r.activationId = (.ok gen, s₁))
    (hsp : r.granted = earlier ++ c :: later) (hfr : c ∉ earlier)
    (hgen : gen ≠ g.generation) (ht : ¬ s.TakesOver clock agent r c g) :
    ∃ c' ∈ earlier, ∃ g', s.grants.lookup c' = some g' ∧ g'.generation = gen ∧
      g' ≠ agentCapabilityGrant agent r.scope gen (clock 0) c' := by
  by_contra hnn
  refine ht ⟨k, gen, s₁, earlier, later, hk, ha, hsp, hgen, fun c' hc' => ⟨?_, ?_⟩⟩
  · intro heq
    subst heq
    exact hfr hc'
  · intro g' hg' hg
    by_contra hne
    exact hnn ⟨c', hc', g', hg', hg, hne⟩

theorem Keeps.grantList (h : Keeps c g id l s) (hl : l.capabilityId = c) (clock : ℕ → ℕ)
    (hbuild : ∀ c, (build c).capabilityId = c) (hc : c ∉ cs) (n : ℕ) :
    Keeps c g id l (tryEach Write.apply (grantList clock build cs n) s).2 := by
  refine tryEach_invariant _ (fun w hw t ht => ?_) h
  obtain ⟨i, c', hc', rfl⟩ := mem_grantList hw
  refine ht.grant_of_ne hl _ ?_
  rw [hbuild]
  intro heq
  subst heq
  exact hc hc'

theorem keeps_of_not_takesOver (h : Keeps c g id l s) (hl : l.capabilityId = c)
    (how : g.owner ≠ agent) (ht : ¬ s.TakesOver clock agent r c g) :
    Keeps c g id l (s.brokerGrantFromNegotiation clock agent r).2 := by
  rcases s.negotiate_cases clock agent r with ⟨e, -, heq⟩ | ⟨k, generation, s₁, hk, ha⟩
  · rw [heq]
    exact h
  rw [negotiate_state hk ha]
  have h₁ := h.admitted ha
  by_cases hreach : c ∈ r.granted ∧ generation ≠ g.generation
  · obtain ⟨hmem, hgen⟩ := hreach
    obtain ⟨earlier, later, hsp, hfr⟩ := eq_append_cons_of_mem hmem
    obtain ⟨c', hc', g', hg', hg, hne⟩ := conflict_of_not_takesOver hk ha hsp hfr hgen ht
    rw [← (admitActivation_tables ha).1] at hg'
    obtain ⟨e, t, hst⟩ := grantList_stops clock (fun _ => rfl) hc' hg' hg hne
    simp only [bridgeWrites, grantWrites, hsp, grantList_split, append_assoc]
    rw [tryEach_append_error hst]
    have hkp := h₁.grantList hl clock
      (fun _ => rfl : ∀ c,
        (agentCapabilityGrant agent r.scope generation (clock 0) c).capabilityId = c)
      hfr 1
    rwa [hst] at hkp
  refine tryEach_invariant _ (fun w hw t ht => ?_) h₁
  obtain ⟨i, c', hc', rfl | rfl⟩ := mem_bridgeWrites hw
  · by_cases hc : c = c'
    · subst hc
      have hgen : generation = g.generation := by
        by_contra hne
        exact hreach ⟨hc', hne⟩
      exact ht.grant_of_conflict rfl hgen.symm fun he => how (congrArg _ he)
    · exact ht.grant_of_ne hl _ hc
  · exact ht.lease _ _

end

end Broker
end DshDesktop.Supervisor
