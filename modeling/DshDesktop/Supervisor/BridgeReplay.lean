import DshDesktop.Supervisor.ActivationHistory

/-!
# Failing and repeated bridge calls

A bridge call that a `grant` or `lease` refuses keeps its register entry and every write
made before the refusal. Repeating a successful call finds grants and leases in place
only when the clock reads the same millisecond and no lease has been revoked since.
-/

namespace DshDesktop.Supervisor.Broker
open FallibleLoop
variable {s s' : Broker} {clock : ℕ → ℕ} {agent : String} {r : AgentNegotiationResult} {gen : ℕ}

theorem completed_eq_iff_inPlace {k : ℕ} {done rest : List Write}
    (hsp : bridgeWrites clock agent r k gen = done ++ rest)
    (h : tryEach Write.apply done s = (.ok (), s')) :
    s'.grants = s.grants ∧ s'.leases = s.leases ↔ ∀ w ∈ done, s.InPlace w := by
  constructor
  · intro htb w hw
    obtain ⟨hg, hl⟩ := htb
    have hin := bridgeWrites_inPlace hsp h w hw
    cases w with
    | grant now g => rwa [InPlace, hg] at hin
    | lease now l => rwa [InPlace, hl] at hin
  · intro hin
    clear hsp
    induction done with
    | nil =>
      obtain rfl : s = s' := congrArg Prod.snd h
      exact ⟨rfl, rfl⟩
    | cons w ws ih =>
      rcases hw : w.apply s with ⟨res, t⟩
      cases res with
      | error e =>
        rw [tryEach_cons_error hw] at h
        cases h
      | ok u =>
        obtain rfl := eq_of_inPlace hw (hin w List.mem_cons_self)
        rw [tryEach_cons_ok hw] at h
        exact ih h (List.forall_mem_cons.mp hin).2

/-- An error of the bridge itself leaves the broker as it was. Under an error of a broker write
the register holds the reserved activation, and the grants and leases are as before exactly when
every write before the refused one was in place. -/
theorem negotiate_error_leaves {e : AgentBridgeError}
    (h : s.brokerGrantFromNegotiation clock agent r = (.error e, s')) :
    ((∀ b, e ≠ .broker b) → s' = s) ∧
    ∀ b, e = .broker b → (s.activation agent r.activationId ≠ none → SameRegister s s') ∧
      (s.activation agent r.activationId = none →
        SameRegister (s.recordActivation agent r.activationId) s') ∧
      ∃ k generation s₁ done refused rest, checkNegotiation r = .ok k ∧
        s.admitActivation agent r.activationId = (.ok generation, s₁) ∧
        bridgeWrites clock agent r k.maxSeconds generation = done ++ refused :: rest ∧
        refused.apply s' = (.error b, s') ∧
        (s'.grants = s.grants ∧ s'.leases = s.leases ↔ ∀ w ∈ done, s.InPlace w) := by
  rcases s.negotiate_cases clock agent r with ⟨e', he', heq⟩ | ⟨k, generation, s₁, hk, ha⟩
  · cases heq.symm.trans h
    exact ⟨fun _ => rfl, fun b hb => absurd hb (he' b)⟩
  rcases negotiate_admitted clock hk ha with ⟨t, -, heq⟩ | ⟨b, t, hw, heq⟩ <;>
    cases heq.symm.trans h
  · refine ⟨fun hb => absurd rfl (hb b), fun b' hb' => ?_⟩
    cases hb'
    have hreg := writes_sameRegister s₁ (bridgeWrites clock agent r k.maxSeconds generation)
    rw [hw] at hreg
    obtain ⟨done, refused, rest, mid, hsp, hdn, hrf⟩ := tryEach_error_inv hw
    obtain rfl := write_error hrf
    obtain ⟨hg, hl⟩ := admitActivation_tables ha
    have hiff := completed_eq_iff_inPlace hsp hdn
    refine ⟨fun hold => ?_, fun hnew => ?_, k, generation, s₁, done, refused, rest, hk, ha, hsp,
      hrf, ?_⟩
    · rcases admitActivation_ok ha with ⟨-, -, rfl⟩ | ⟨hnn, -, -⟩
      · exact hreg
      · exact absurd hnn hold
    · rcases admitActivation_ok ha with ⟨hsome, -, -⟩ | ⟨-, -, rfl⟩
      · rw [hnew] at hsome
        cases hsome
      · exact hreg
    · rw [← hg, ← hl, hiff]
      refine forall₂_congr fun w _ => ?_
      cases w with
      | grant now g => rw [InPlace, InPlace, hg]
      | lease now l => rw [InPlace, InPlace, hl]

def FirstRefused (s : Broker) (writes : List Write) : Prop :=
  ∃ done refused rest, writes = done ++ refused :: rest ∧ (∀ w ∈ done, s.InPlace w) ∧
    ∃ b, (refused.apply s).1 = .error b

theorem FirstRefused.unchanged {writes : List Write} (h : s.FirstRefused writes) :
    (tryEach Write.apply writes s).2 = s := by
  obtain ⟨done, refused, rest, rfl, hin, b, hrf⟩ := h
  induction done with
  | nil =>
    have hap : refused.apply s = (.error b, (refused.apply s).2) := Prod.ext hrf rfl
    rw [List.nil_append, tryEach_cons_error hap]
    exact write_error hap
  | cons w ws ih =>
    rcases hw : w.apply s with ⟨res, t⟩
    cases res with
    | error e =>
      rw [List.cons_append, tryEach_cons_error hw]
      exact write_error hw
    | ok u =>
      obtain rfl := eq_of_inPlace hw (hin w List.mem_cons_self)
      rw [List.cons_append, tryEach_cons_ok hw]
      exact ih (List.forall_mem_cons.mp hin).2

/-- A failed call leaves the broker as it was exactly when the bridge raised the error
itself, or the activation was registered before and the first write not yet in place is
the refused one. -/
theorem negotiate_error_keeps_iff {e : AgentBridgeError}
    (h : s.brokerGrantFromNegotiation clock agent r = (.error e, s')) :
    s' = s ↔ (∀ b, e ≠ .broker b) ∨ ∃ k generation, checkNegotiation r = .ok k ∧
      s.agentGeneration agent r.activationId = some generation ∧
      s.FirstRefused (bridgeWrites clock agent r k.maxSeconds generation) := by
  obtain ⟨hown, hbroker⟩ := negotiate_error_leaves h
  by_cases hb : ∀ b, e ≠ .broker b
  · exact ⟨fun _ => Or.inl hb, fun _ => hown hb⟩
  obtain ⟨b, he⟩ : ∃ b, e = .broker b := by simpa using hb
  obtain ⟨-, hnew, k, generation, s₁, done, refused, rest, hk, ha, hsp, hrf, hin⟩ := hbroker b he
  constructor
  · rintro rfl
    rcases admitActivation_ok ha with ⟨hold, -, rfl⟩ | ⟨hno, -, -⟩
    · refine Or.inr ⟨k, generation, hk, by simp [agentGeneration, hold], done, refused, rest, hsp,
        hin.mp ⟨rfl, rfl⟩, b, congrArg Prod.fst hrf⟩
    · have hact := (hnew hno).register agent
      have hent := congrArg (fun l => l.entry r.activationId) hact
      simp [register, activation_recordActivation, hno] at hent
  · rintro (hno | ⟨k', generation', hk', hgen, hfirst⟩)
    · exact absurd he (hno b)
    · cases hk'.symm.trans hk
      rcases admitActivation_ok ha with ⟨hold, -, rfl⟩ | ⟨hno, -, -⟩
      · obtain rfl : generation = generation' := by simpa [agentGeneration, hold] using hgen
        have hst := congrArg Prod.snd h
        rw [negotiate_state hk ha, hfirst.unchanged] at hst
        exact hst.symm
      · simp [agentGeneration, hno] at hgen

theorem negotiate_error_keeps_replay :
    let s := Broker.empty.run [.negotiate (fun _ => 5) "a" (sampleResult "x" ["terminal"])]
    s.brokerGrantFromNegotiation (fun _ => 6) "a" (sampleResult "x" ["terminal"]) =
      (.error (.broker .conflict), s) := by
  intro s
  have h : s.brokerGrantFromNegotiation (fun _ => 6) "a" (sampleResult "x" ["terminal"]) =
      (.error (.broker .conflict), _) := rfl
  refine h.trans (Prod.ext rfl ((negotiate_error_keeps_iff h).mpr (Or.inr
    ⟨⟨60, none⟩, 1, rfl, rfl, [], _, _, rfl, by simp, .conflict, rfl⟩)))

/-- The second activation of `a` takes `terminal` over from `c` before the grant of
`browser`, which `b` holds at the same generation, is refused. -/
theorem negotiate_error_revokes_bystander :
    let s := Broker.empty.run [.negotiate (fun _ => 1) "a" (sampleResult "x" ["files"]),
      .negotiate (fun _ => 2) "b" (sampleResult "p" ["events"]),
      .negotiate (fun _ => 3) "b" (sampleResult "q" ["browser"]),
      .negotiate (fun _ => 4) "c" (sampleResult "z" ["terminal"])]
    let call := s.brokerGrantFromNegotiation (fun _ => 5) "a"
      (sampleResult "y" ["terminal", "browser"])
    call.1 = .error (.broker .conflict) ∧
      (s.leases.lookup "agent-c-z-v1-terminal").map Lease.isRevoked = some false ∧
      (call.2.leases.lookup "agent-c-z-v1-terminal").map Lease.isRevoked = some true ∧
      (call.2.grants.lookup ⟨"v1", "terminal"⟩).map CapabilityGrant.owner = some "a" ∧
      s.agentGeneration "a" "y" = none ∧ call.2.agentGeneration "a" "y" = some 2 := by
  decide

/-- The lease `l` was issued under the grant `g`: it is still stored, and while
it is unrevoked both are as they were. -/
def StillIssued (g : CapabilityGrant) (l : Lease) (s : Broker) : Prop :=
  ∃ l', s.leases.lookup l.id = some l' ∧ l'.capabilityId = g.capabilityId ∧
    (l'.revoked = none → l' = l ∧ s.grants.lookup g.capabilityId = some g)

section
variable {g : CapabilityGrant} {l : Lease}

theorem StillIssued.of_pass (h : StillIssued g l s) {f : String → Lease → Lease}
    (hf : ∀ id l, (f id l).capabilityId = l.capabilityId ∧ ((f id l).revoked = none → f id l = l))
    (hleases : ∀ id, s'.leases.lookup id = (s.leases.lookup id).map (f id))
    (hgrants : s'.grants = s.grants) : StillIssued g l s' := by
  obtain ⟨l', hl', hcap, hun⟩ := h
  refine ⟨f l.id l', by rw [hleases, hl']; rfl, (hf l.id l').1.trans hcap, fun hr => ?_⟩
  have heq := (hf l.id l').2 hr
  rw [heq] at hr ⊢
  rw [hgrants]
  exact hun hr

theorem revoke_ite_pass {record : LeaseRevocation} (p : Prop) [Decidable p] :
    (if p then revokeLease record l else l).capabilityId = l.capabilityId ∧
      ((if p then revokeLease record l else l).revoked = none →
        (if p then revokeLease record l else l) = l) := by
  split_ifs
  · exact ⟨revokeLease_capabilityId record l, fun hr => absurd hr (revokeLease_revoked record l)⟩
  · exact ⟨rfl, fun _ => rfl⟩

variable (h : StillIssued g l s)
include h

theorem StillIssued.grant (now : ℕ) (g' : CapabilityGrant) :
    StillIssued g l (s.grant now g').2 := by
  obtain ⟨l', hl', hcap, hun⟩ := h
  have hg := s.granted now g'
  generalize s.grant now g' = out at hg ⊢
  cases hg with
  | idle | conflict => exact ⟨l', hl', hcap, hun⟩
  | superseded =>
    refine ⟨_, Table.lookup_mapVal_some.mpr ⟨l', hl', rfl⟩, ?_, ?_⟩
    · exact (revoke_ite_pass _).1.trans hcap
    · intro hr
      have heq := (revoke_ite_pass _).2 hr
      rw [heq] at hr ⊢
      -- The lease is unrevoked, so the superseded capability is another one.
      have hne : g.capabilityId ≠ g'.capabilityId := by
        intro he
        rw [if_pos (by simp [hcap, he])] at heq
        exact revokeLease_revoked _ l' (by rw [heq]; exact hr)
      exact ⟨(hun hr).1, (AList.lookup_insert_ne hne).trans (hun hr).2⟩
  | fresh free =>
    refine ⟨l', hl', hcap, fun hr => ⟨(hun hr).1, ?_⟩⟩
    have hne : g.capabilityId ≠ g'.capabilityId := by
      intro he
      have hg := (hun hr).2
      rw [he, free] at hg
      cases hg
    exact (AList.lookup_insert_ne hne).trans (hun hr).2

theorem StillIssued.lease (now : ℕ) (l₂ : Lease) : StillIssued g l (s.lease now l₂).2 := by
  obtain ⟨l', hl', hcap, hun⟩ := h
  refine ⟨l', lease_lookup_of_some hl', hcap, fun hr => ⟨(hun hr).1, ?_⟩⟩
  rw [lease_grants]
  exact (hun hr).2

theorem StillIssued.write (w : Write) : StillIssued g l (w.apply s).2 := by
  cases w with
  | grant now g' => exact h.grant now g'
  | lease now l₂ => exact h.lease now l₂

theorem StillIssued.step (op : BrokerOp) : StillIssued g l (s.step op) := by
  cases op with
  | grant now g' => exact h.grant now g'
  | lease now l₂ => exact h.lease now l₂
  | revoke now leaseId rsn =>
    exact h.of_pass (fun _ _ => revoke_ite_pass _) (fun id => Table.lookup_mapVal _ _ id) rfl
  | revokeAgent now x rsn =>
    exact h.of_pass (f := fun _ l => if s.agentGeneration l.owner x = some l.generation then
      revokeLease ⟨rsn, now⟩ l else l) (fun _ _ => revoke_ite_pass _)
      (fun id => s.revokeAgentGrants_leases now x rsn id) (s.revokeAgentGrants_grants now x rsn)
  | enforce now cap owner generation scope => exact h
  | negotiate clock aid r =>
    refine negotiate_keeps (StillIssued g l) h fun generation s₁ ha =>
      ⟨StillIssued g l, ?_, fun _ ht => ht, fun k w _ t ht => ht.write w⟩
    rcases admitActivation_ok ha with ⟨-, -, rfl⟩ | ⟨-, -, rfl⟩
    · exact h
    · exact h

theorem StillIssued.run (ops : List BrokerOp) : StillIssued g l (s.run ops) :=
  Runs.run_invariant (StillIssued g l) (fun _ op ht => ht.step op) ops h

end

theorem admitActivation_replay {x : String} (hact : s.activation agent x = some ⟨gen, false⟩)
    (hcur : s.currentActivation.lookup agent = some x) :
    s.admitActivation agent x = (.ok gen, s) := by
  simp [admitActivation, hact, hcur]

theorem replay_idle {k : AgentLeaseConstraints} (hk : checkNegotiation r = .ok k)
    (hact : s.activation agent r.activationId = some ⟨gen, false⟩)
    (hcur : s.currentActivation.lookup agent = some r.activationId)
    (hclock : ∀ i, clock i < leaseExpiry (clock 0) k.maxSeconds)
    (hgrants : ∀ c ∈ r.granted, s.grants.lookup c = some (agentCapabilityGrant agent r.scope gen
      (clock 0) c))
    (hleases : ∀ c ∈ r.granted, s.leases.lookup (agentLeaseId agent r.activationId c) = some
      (agentLease agent r.activationId r.scope gen (leaseExpiry (clock 0) k.maxSeconds) c)) :
    ∃ ag, s.brokerGrantFromNegotiation clock agent r = (.ok ag, s) ∧ ag.generation = gen := by
  have hil : tryEach Write.apply (bridgeWrites clock agent r k.maxSeconds gen) s = (.ok (), s) := by
    refine tryEach_idle fun w hw => ?_
    obtain ⟨i, c, hc, rfl | rfl⟩ := mem_bridgeWrites hw
    · exact grant_idle (hgrants c hc)
    · exact lease_idle (hgrants c hc) rfl rfl r.scope.covers_refl (hclock i) (hleases c hc)
  rcases negotiate_admitted clock hk (admitActivation_replay hact hcur) with
    ⟨t, hw, heq⟩ | ⟨b, t, hw, -⟩
  · cases hil.symm.trans hw
    exact ⟨_, heq, rfl⟩
  · cases hil.symm.trans hw

variable {clock₀ : ℕ → ℕ} {ag : AgentGrant} {ops : List BrokerOp}

section
variable (hissue : s.brokerGrantFromNegotiation clock₀ agent r = (.ok ag, s'))
include hissue

theorem issued_still {c : CapabilityId} (hc : c ∈ r.granted) (ops : List BrokerOp) :
    StillIssued (agentCapabilityGrant agent r.scope ag.generation (clock₀ 0) c)
      (agentLease agent r.activationId r.scope ag.generation ag.expiresAtUnixMs c)
      (s'.run ops) := by
  obtain ⟨k, s₁, hi⟩ := negotiate_ok hissue
  exact StillIssued.run ⟨_, hi.leases c hc, rfl, fun _ => ⟨rfl, hi.grants c hc⟩⟩ ops

theorem issued_activation
    (hrev : (s'.run ops).agentActivationRevoked agent r.activationId = false) :
    (s'.run ops).activation agent r.activationId = some ⟨ag.generation, false⟩ := by
  obtain ⟨k, s₁, hi⟩ := negotiate_ok hissue
  obtain ⟨⟨m, b⟩, hen, hm, -⟩ := (run_register_extends s' ops agent).persists _ _ hi.entry.1
  have hact := register_entry_some.mp hen
  have hb : b = false := by
    simpa [agentActivationRevoked, hact] using hrev
  rw [hact, hb, show m = ag.generation from hm]

end

/-- Repeating the call that issued the current activation, before its leases
expire, is idempotent exactly when the clock reads the millisecond of the first
call and every lease of the activation is still unrevoked. -/
theorem replay_idempotent_iff (hissue : s.brokerGrantFromNegotiation clock₀ agent r = (.ok ag, s'))
    (hcur : (s'.run ops).currentActivation.lookup agent = some r.activationId)
    (hrev : (s'.run ops).agentActivationRevoked agent r.activationId = false)
    (hclock : ∀ i, clock i < ag.expiresAtUnixMs) :
    (∃ ag', (s'.run ops).brokerGrantFromNegotiation clock agent r = (.ok ag', s'.run ops) ∧
      ag'.generation = ag.generation) ↔
    clock 0 = clock₀ 0 ∧ ∀ c ∈ r.granted, ∃ l,
      (s'.run ops).leases.lookup (agentLeaseId agent r.activationId c) = some l ∧
        l.revoked = none := by
  obtain ⟨k, s₁, hi⟩ := negotiate_ok hissue
  constructor
  · intro hrp
    obtain ⟨ag', hre, -⟩ := hrp
    obtain ⟨k', s₂, hi'⟩ := negotiate_ok hre
    refine ⟨?_, fun c hc => ⟨_, hi'.leases c hc, rfl⟩⟩
    obtain ⟨c, hc⟩ := List.exists_mem_of_ne_nil _ (checkNegotiation_ok hi.check).1
    obtain ⟨l, hl, -, hun⟩ := issued_still hissue hc ops
    cases (hi'.leases c hc).symm.trans hl
    have hg := (hi'.grants c hc).symm.trans (hun rfl).2
    exact congrArg CapabilityGrant.createdAtUnixMs (Option.some.inj hg)
  · intro hcondition
    obtain ⟨htime, hleases⟩ := hcondition
    have hpl (c : CapabilityId) (hc : c ∈ r.granted) : (s'.run ops).grants.lookup c =
          some (agentCapabilityGrant agent r.scope ag.generation (clock 0) c) ∧
        (s'.run ops).leases.lookup (agentLeaseId agent r.activationId c) =
          some (agentLease agent r.activationId r.scope ag.generation
            (leaseExpiry (clock 0) k.maxSeconds) c) := by
      obtain ⟨l, hl, hr⟩ := hleases c hc
      obtain ⟨l', hl', -, hun⟩ := issued_still hissue hc ops
      cases hl.symm.trans hl'
      obtain ⟨heq, hg⟩ := hun hr
      rw [htime, ← hi.expiry]
      exact ⟨hg, by rw [← heq]; exact hl⟩
    refine replay_idle hi.check (issued_activation hissue hrev) hcur ?_
      (fun c hc => (hpl c hc).1) (fun c hc => (hpl c hc).2)
    rw [htime, ← hi.expiry]
    exact hclock

theorem replay_idempotent_iff_same_millisecond :
    let s := Broker.empty.run [.negotiate (fun _ => 5) "a" (sampleResult "x" ["terminal"])]
    ∃ ag, s.brokerGrantFromNegotiation (fun _ => 5) "a" (sampleResult "x" ["terminal"]) =
      (.ok ag, s.run []) ∧ ag.generation = 1 := by
  intro s
  have hissue : Broker.empty.brokerGrantFromNegotiation (fun _ => 5) "a"
      (sampleResult "x" ["terminal"]) = (.ok ⟨"a", "x", 1, [⟨"v1", "terminal"⟩],
        Scope.unrestricted, some ⟨60, none⟩, 60005, 5⟩, s) := rfl
  have hcur : (s.run []).currentActivation.lookup "a" = some "x" := rfl
  refine (replay_idempotent_iff hissue hcur rfl (fun _ => by decide)).mpr ⟨rfl, ?_⟩
  intro c hc
  rw [List.mem_singleton.mp hc]
  exact ⟨agentLease "a" "x" Scope.unrestricted 1 60005 ⟨"v1", "terminal"⟩, rfl, rfl⟩

theorem replay_conflicts_later :
    let s := Broker.empty.run [.negotiate (fun _ => 5) "a" (sampleResult "x" ["terminal"])]
    let call := s.brokerGrantFromNegotiation (fun _ => 6) "a" (sampleResult "x" ["terminal"])
    s.currentActivation.lookup "a" = some "x" ∧ s.agentActivationRevoked "a" "x" = false ∧
      (s.leases.lookup "agent-a-x-v1-terminal").map (fun l => l.isRevoked || l.isExpired 6) =
        some false ∧
      call.1 = .error (.broker .conflict) := by
  decide

end DshDesktop.Supervisor.Broker
