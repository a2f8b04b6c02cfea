import DshDesktop.Library.FallibleLoop
import DshDesktop.Library.Ledger
import DshDesktop.Supervisor.Broker

/-!
# The agent authorization bridge

`crates/supervisor/src/broker/agent.rs`: a negotiated activation becomes one grant and one
lease for every granted capability, under a generation counted per agent. `clock i` is the
reading at position `i` of a call. A call that fails keeps the writes it made.
`revoke_agent_grants` goes through all leases once for each agent that recorded the
activation; the count it returns is that of the leases it found unrevoked.
-/

namespace DshDesktop.Supervisor
open Option Table

inductive AgentConformanceState
  | known
  | absent
  | unknown
  deriving DecidableEq

structure AgentLeaseConstraints where
  maxSeconds : ℕ
  approvalRequired : Option Bool
  deriving DecidableEq

structure AgentNegotiationResult where
  activationId : String
  agreed : Bool
  granted : List CapabilityId
  conformance : AgentConformanceState
  leaseConstraints : Option AgentLeaseConstraints
  scope : Scope

structure AgentGrant where
  agentId : String
  activationId : String
  generation : ℕ
  capabilities : List CapabilityId
  scope : Scope
  leaseConstraints : Option AgentLeaseConstraints
  expiresAtUnixMs : ℕ
  grantedAtUnixMs : ℕ
  deriving DecidableEq

inductive AgentBridgeError
  | notNegotiated
  | nothingGranted
  | noLeasePolicy
  | conformanceNotKnown
  | activationRevoked
  | staleActivation
  | broker (error : BrokerError)
  deriving DecidableEq

def contractVersion (apiVersion : String) : String :=
  String.ofList (apiVersion.toList.reverse.takeWhile (· ≠ '/')).reverse

def agentLeaseId (agentId activationId : String) (capability : CapabilityId) : String :=
  "agent-" ++ agentId ++ "-" ++ activationId ++ "-" ++ capability.apiVersion ++ "-" ++
    capability.kind

def agentCapabilityGrant (agentId : String) (scope : Scope) (generation now : ℕ)
    (capability : CapabilityId) : CapabilityGrant where
  capabilityId := capability
  version := contractVersion capability.apiVersion
  scope := scope
  owner := agentId
  generation := generation
  createdAtUnixMs := now

def agentLease (agentId activationId : String) (scope : Scope) (generation expiresAt : ℕ)
    (capability : CapabilityId) : Lease where
  id := agentLeaseId agentId activationId capability
  capabilityId := capability
  owner := agentId
  generation := generation
  scope := scope
  expiresAtUnixMs := expiresAt
  revoked := none

def leaseExpiry (now maxSeconds : ℕ) : ℕ := saturatingAdd now (saturatingMul maxSeconds 1000)

def checkNegotiation (r : AgentNegotiationResult) : Except AgentBridgeError AgentLeaseConstraints :=
  if r.agreed = false then .error .notNegotiated
  else if r.conformance ≠ .known then .error .conformanceNotKnown
  else if r.granted = [] then .error .nothingGranted
  else match r.leaseConstraints with
    | none => .error .noLeasePolicy
    | some constraints =>
      if constraints.maxSeconds = 0 then .error .noLeasePolicy else .ok constraints

namespace Broker

def activation (s : Broker) (agentId activationId : String) : Option AgentActivationState :=
  (s.agentActivations.lookup agentId).bind fun states => states.lookup activationId

def agentGeneration (s : Broker) (agentId activationId : String) : Option ℕ :=
  (s.activation agentId activationId).map AgentActivationState.generation

def agentActivationRevoked (s : Broker) (agentId activationId : String) : Bool :=
  (s.activation agentId activationId).any AgentActivationState.revoked

def generationCounter (s : Broker) (agentId : String) : ℕ :=
  (s.nextGeneration.lookup agentId).getD 0

def recordActivation (s : Broker) (agentId activationId : String) : Broker :=
  let counter := s.generationCounter agentId + 1
  let states := (s.agentActivations.lookup agentId).getD ∅
  { s with
    agentActivations :=
      s.agentActivations.insert agentId (states.insert activationId ⟨counter, false⟩)
    currentActivation := s.currentActivation.insert agentId activationId
    nextGeneration := s.nextGeneration.insert agentId counter }

/-- The register part of the bridge: the generation to issue under, with the
activation recorded when it is new. -/
def admitActivation (s : Broker) (agentId activationId : String) :
    Except AgentBridgeError ℕ × Broker :=
  match s.activation agentId activationId with
  | some state =>
    if state.revoked then (.error .activationRevoked, s)
    else if s.currentActivation.lookup agentId = some activationId then (.ok state.generation, s)
    else (.error .staleActivation, s)
  | none => (.ok (s.generationCounter agentId + 1), s.recordActivation agentId activationId)

def grantLoop (clock : ℕ → ℕ) (build : CapabilityId → CapabilityGrant)
    (granted : List CapabilityId) (s : Broker) : Except BrokerError Unit × Broker :=
  FallibleLoop.tryEach (fun (c : CapabilityId × ℕ) s => s.grant (clock c.2) (build c.1))
    (granted.zipIdx 1) s

def leaseIssueLoop (clock : ℕ → ℕ) (build : CapabilityId → Lease)
    (granted : List CapabilityId) (s : Broker) : Except BrokerError Unit × Broker :=
  FallibleLoop.tryEach (fun (c : CapabilityId × ℕ) s => s.lease (clock c.2) (build c.1))
    (granted.zipIdx (1 + granted.length)) s

def brokerGrantFromNegotiation (s : Broker) (clock : ℕ → ℕ) (agentId : String)
    (r : AgentNegotiationResult) : Except AgentBridgeError AgentGrant × Broker :=
  match checkNegotiation r with
  | .error e => (.error e, s)
  | .ok constraints =>
    let now := clock 0
    match s.admitActivation agentId r.activationId with
    | (.error e, s₁) => (.error e, s₁)
    | (.ok generation, s₁) =>
      match s₁.grantLoop clock (agentCapabilityGrant agentId r.scope generation now) r.granted with
      | (.error e, s₂) => (.error (.broker e), s₂)
      | (.ok (), s₂) =>
        let expiresAt := leaseExpiry now constraints.maxSeconds
        match s₂.leaseIssueLoop clock
            (agentLease agentId r.activationId r.scope generation expiresAt) r.granted with
        | (.error e, s₃) => (.error (.broker e), s₃)
        | (.ok (), s₃) =>
          (.ok ⟨agentId, r.activationId, generation, r.granted, r.scope, some constraints,
            expiresAt, now⟩, s₃)

def revokeTargets (s : Broker) (activationId : String) : List (String × ℕ) :=
  s.agentActivations.entries.filterMap fun e =>
    (e.2.lookup activationId).map fun state => (e.1, state.generation)

def markRevoked (s : Broker) (agentId activationId : String) : Broker :=
  { s with
    agentActivations := s.agentActivations.mapVal fun a states =>
      if a = agentId then
        states.mapVal fun x state =>
          if x = activationId then { state with revoked := true } else state
      else states
    currentActivation :=
      if s.currentActivation.lookup agentId = some activationId then
        s.currentActivation.erase agentId
      else s.currentActivation }

def revokeTarget (record : LeaseRevocation) (activationId : String) (acc : ℕ × Broker)
    (target : String × ℕ) : ℕ × Broker :=
  let hit := fun l : Lease => l.owner = target.1 ∧ l.generation = target.2
  let count := acc.2.leases.values.countP fun l => hit l ∧ l.revoked = none
  (acc.1 + count, (acc.2.revokeWhere record fun _ l => hit l).markRevoked target.1 activationId)

def revokeAgentGrants (s : Broker) (now : ℕ) (activationId : String)
    (reason : LeaseRevocationReason) : ℕ × Broker :=
  (s.revokeTargets activationId).foldl (revokeTarget ⟨reason, now⟩ activationId) (0, s)

def register (s : Broker) (agentId : String) : Ledger String where
  entry x := (s.activation agentId x).map fun state => ⟨state.generation, state.revoked⟩
  current := s.currentActivation.lookup agentId
  next := s.generationCounter agentId

variable {s s' : Broker}

theorem register_entry_some {aid x : String} {e : LedgerEntry} : (s.register aid).entry x = some e ↔
      s.activation aid x = some ⟨e.generation, e.retired⟩ := by
  simp only [register, map_eq_some_iff]
  constructor
  · intro hen
    obtain ⟨state, hs, rfl⟩ := hen
    exact hs
  · intro h
    exact ⟨_, h, rfl⟩

theorem register_entry_none {aid x : String} :
    (s.register aid).entry x = none ↔ s.activation aid x = none := by
  simp [register]

structure SameRegister (s s' : Broker) : Prop where
  activations : s'.agentActivations = s.agentActivations
  current : s'.currentActivation = s.currentActivation
  counters : s'.nextGeneration = s.nextGeneration

theorem SameRegister.trans {t : Broker} (h : SameRegister s s') (h' : SameRegister s' t) :
    SameRegister s t :=
  ⟨h'.1.trans h.1, h'.2.trans h.2, h'.3.trans h.3⟩

theorem SameRegister.register (h : SameRegister s s') (aid : String) :
    s'.register aid = s.register aid := by
  simp [Broker.register, activation, generationCounter, h.activations, h.current, h.counters]

theorem activation_recordActivation (s : Broker) (a x b y : String) :
    (s.recordActivation a x).activation b y =
      if b = a ∧ y = x then some ⟨s.generationCounter a + 1, false⟩ else s.activation b y := by
  simp only [activation, recordActivation, lookup_insert_ite]
  by_cases hb : b = a
  · subst hb
    simp only [if_true, true_and, bind_some, lookup_insert_ite]
    cases s.agentActivations.lookup b with
    | none => simp
    | some states => simp
  · simp [hb]

theorem register_recordActivation_self (s : Broker) (a x : String) :
    (s.recordActivation a x).register a = (s.register a).issue x := by
  refine Ledger.ext (funext fun y => ?_) ?_ ?_
  · simp only [register, Ledger.issue, activation_recordActivation]
    by_cases hy : y = x
    · subst hy
      simp
    · simp [hy]
  · exact AList.lookup_insert s.currentActivation
  · simp [register, Ledger.issue, recordActivation, generationCounter]

theorem register_recordActivation_of_ne (s : Broker) {a b : String} (h : b ≠ a) (x : String) :
    (s.recordActivation a x).register b = s.register b := by
  refine Ledger.ext (funext fun y => ?_) ?_ ?_
  · simp [register, activation_recordActivation, h]
  · exact AList.lookup_insert_ne h
  · simp [register, recordActivation, generationCounter, AList.lookup_insert_ne h]

theorem activation_markRevoked {a x b y : String} :
    (s.markRevoked a x).activation b y = (s.activation b y).map fun state =>
        if b = a ∧ y = x then { state with revoked := true } else state := by
  simp only [activation, markRevoked, lookup_mapVal]
  cases s.agentActivations.lookup b with
  | none => rfl
  | some states =>
    by_cases hb : b = a
    · simp [hb]
    · simp [hb]

theorem register_markRevoked_self {a x : String} :
    (s.markRevoked a x).register a = (s.register a).retire x := by
  refine Ledger.ext (funext fun y => ?_) ?_ rfl
  · simp only [register, Ledger.retire, activation_markRevoked]
    by_cases hy : y = x
    · subst hy
      simp [Function.comp_def]
    · simp [hy]
  · change (s.markRevoked a x).currentActivation.lookup a =
      if s.currentActivation.lookup a = some x then none else s.currentActivation.lookup a
    simp only [markRevoked]
    by_cases h : s.currentActivation.lookup a = some x
    · rw [if_pos h, if_pos h, AList.lookup_erase]
    · rw [if_neg h, if_neg h]

theorem register_markRevoked_of_ne {x : String} {a b : String} (h : b ≠ a) :
    (s.markRevoked a x).register b = s.register b := by
  refine Ledger.ext (funext fun y => ?_) ?_ rfl
  · simp [register, activation_markRevoked, h]
  · change (s.markRevoked a x).currentActivation.lookup b = s.currentActivation.lookup b
    simp only [markRevoked]
    split_ifs
    · exact AList.lookup_erase_ne h
    · rfl

theorem mem_revokeTargets {x a : String} {g : ℕ} :
    (a, g) ∈ s.revokeTargets x ↔ s.agentGeneration a x = some g := by
  simp only [revokeTargets, List.mem_filterMap, map_eq_some_iff, Prod.mk.injEq,
    agentGeneration, activation, bind_eq_some_iff]
  constructor
  · intro hgl
    obtain ⟨⟨b, states⟩, hmem, state, hst, rfl, rfl⟩ := hgl
    exact ⟨state, ⟨states, mem_entries_iff.mp hmem, hst⟩, rfl⟩
  · intro hgl
    obtain ⟨state, ⟨states, hsa, hst⟩, rfl⟩ := hgl
    exact ⟨⟨a, states⟩, mem_entries_iff.mpr hsa, state, hst, rfl, rfl⟩

theorem mem_revokeTargets_fst {x a : String} :
    a ∈ (s.revokeTargets x).map Prod.fst ↔ (s.activation a x).isSome := by
  simp only [List.mem_map, Prod.exists, exists_and_right, exists_eq_right, mem_revokeTargets,
    agentGeneration, map_eq_some_iff, isSome_iff_exists]
  constructor
  · intro hmem
    obtain ⟨g, state, hst, -⟩ := hmem
    exact ⟨state, hst⟩
  · intro hmem
    obtain ⟨state, hst⟩ := hmem
    exact ⟨state.generation, state, hst, rfl⟩

section
variable (record : LeaseRevocation) (x : String) (tgts : List (String × ℕ)) (n : ℕ)

theorem revokeLoop_grants (s : Broker) :
    (tgts.foldl (revokeTarget record x) (n, s)).2.grants = s.grants := by
  induction tgts generalizing n s with
  | nil => rfl
  | cons t ts ih => rw [List.foldl_cons]; exact (ih _ _).trans rfl

theorem revokeLoop_leases (s : Broker) (id : String) :
    (tgts.foldl (revokeTarget record x) (n, s)).2.leases.lookup id =
      (s.leases.lookup id).map fun l =>
        if (l.owner, l.generation) ∈ tgts then revokeLease record l else l := by
  induction tgts generalizing n s with
  | nil => simp
  | cons t ts ih =>
    refine (ih _ _).trans ?_
    simp only [markRevoked, revokeWhere, lookup_mapVal, map_map]
    congr 1
    funext l
    -- A lease hit by this turn keeps its first record in every later turn.
    by_cases ht : (l.owner, l.generation) = t
    · subst ht
      simp [revokeLease_of_revoked]
    have hne : ¬ (l.owner = t.1 ∧ l.generation = t.2) := by
      intro hpair
      obtain ⟨ho, hg⟩ := hpair
      exact ht (Prod.ext ho hg)
    simp [hne, ht]

theorem revokeLoop_register (s : Broker) (a : String) :
    (tgts.foldl (revokeTarget record x) (n, s)).2.register a =
      if a ∈ tgts.map Prod.fst then (s.register a).retire x else s.register a := by
  induction tgts generalizing n s with
  | nil => rfl
  | cons t ts ih =>
    have hwh (p : String → Lease → Bool) : (s.revokeWhere record p).register a = s.register a :=
      SameRegister.register ⟨rfl, rfl, rfl⟩ a
    refine (ih _ _).trans ?_
    by_cases ha : a = t.1
    · subst ha
      simp [register_markRevoked_self, hwh, Ledger.retire_retire]
    · simp only [register_markRevoked_of_ne ha, hwh, List.map_cons, List.mem_cons, ha, false_or]

end

theorem revokeAgentGrants_grants (s : Broker) (now : ℕ) (x : String)
    (rsn : LeaseRevocationReason) : (s.revokeAgentGrants now x rsn).2.grants = s.grants :=
  revokeLoop_grants _ _ _ _ s

theorem revokeAgentGrants_leases (s : Broker) (now : ℕ) (x : String)
    (rsn : LeaseRevocationReason) (id : String) :
    (s.revokeAgentGrants now x rsn).2.leases.lookup id = (s.leases.lookup id).map fun l =>
        if s.agentGeneration l.owner x = some l.generation then revokeLease ⟨rsn, now⟩ l
        else l := by
  simp [revokeAgentGrants, revokeLoop_leases, mem_revokeTargets]

theorem revokeAgentGrants_register (s : Broker) (now : ℕ) (x : String)
    (rsn : LeaseRevocationReason) (a : String) :
    (s.revokeAgentGrants now x rsn).2.register a =
      if (s.activation a x).isSome then (s.register a).retire x else s.register a := by
  simp [revokeAgentGrants, revokeLoop_register, mem_revokeTargets_fst]

theorem agentGeneration_eq_register {a x : String} :
    s.agentGeneration a x = ((s.register a).entry x).map LedgerEntry.generation := by
  simp only [agentGeneration, register, map_map]
  rfl

theorem revokeAgentGrants_agentGeneration (s : Broker) (now : ℕ) (x : String)
    (rsn : LeaseRevocationReason) (a y : String) :
    (s.revokeAgentGrants now x rsn).2.agentGeneration a y = s.agentGeneration a y := by
  rw [agentGeneration_eq_register, revokeAgentGrants_register, agentGeneration_eq_register]
  split_ifs
  · exact Ledger.retire_generation _ _ _
  · rfl

end Broker

open List
namespace Broker

variable (s : Broker)

def Revocable (x : String) (l : Lease) : Prop :=
  s.agentGeneration l.owner x = some l.generation ∧ l.revoked = none

instance (s : Broker) (x : String) (l : Lease) : Decidable (s.Revocable x l) :=
  inferInstanceAs (Decidable (_ ∧ _))

variable (record : LeaseRevocation) (now : ℕ) (x : String) (reason : LeaseRevocationReason)
  (t : String × ℕ) (targets : List (String × ℕ))

theorem values_revokeWhere (p : Lease → Bool) :
    (s.revokeWhere record fun _ l => p l).leases.values =
      s.leases.values.map fun l => if p l then revokeLease record l else l := by
  simp only [revokeWhere, Table.values, Table.mapVal, List.map_map]
  rfl

theorem countP_passes {α : Type} {p q : α → Bool} (as : List α) :
    as.countP p + as.countP (fun a => q a && !p a) = as.countP fun a => p a || q a := by
  induction as with
  | nil => rfl
  | cons a as ih =>
    simp only [countP_cons]
    cases p a <;> cases q a <;> simp <;> omega

theorem unrevoked_after_pass (l : Lease) {l' : Lease}
    (hl' : l' = if l.owner = t.1 ∧ l.generation = t.2 then revokeLease record l else l) :
    (l'.owner, l'.generation) ∈ targets ∧ l'.revoked = none ↔
      ((l.owner, l.generation) ∈ targets ∧ l.revoked = none) ∧
        ¬ ((l.owner = t.1 ∧ l.generation = t.2) ∧ l.revoked = none) := by
  by_cases hit : l.owner = t.1 ∧ l.generation = t.2
  · simp [hl', hit]
  · simp [hl', hit]

theorem mem_targets_cons (l : Lease) : (l.owner, l.generation) ∈ t :: targets ↔
      (l.owner = t.1 ∧ l.generation = t.2) ∨ (l.owner, l.generation) ∈ targets := by
  rw [mem_cons, Prod.ext_iff]

theorem revokeLoop_count {n : ℕ} : (targets.foldl (revokeTarget record x) (n, s)).1 =
      n + s.leases.values.countP fun l => (l.owner, l.generation) ∈ targets ∧ l.revoked = none := by
  induction targets generalizing n s with
  | nil => simp
  | cons t ts ih =>
    have hlt : ((fun l : Lease => decide ((l.owner, l.generation) ∈ ts ∧ l.revoked = none)) ∘
        fun l => if l.owner = t.1 ∧ l.generation = t.2 then revokeLease record l else l) =
        fun l => decide ((l.owner, l.generation) ∈ ts ∧ l.revoked = none) &&
          !decide ((l.owner = t.1 ∧ l.generation = t.2) ∧ l.revoked = none) := by
      funext l
      rw [Function.comp_apply, decide_eq_decide.mpr (unrevoked_after_pass record t ts l rfl),
        Bool.decide_and, decide_not]
    have hall :
      (fun l : Lease => decide ((l.owner = t.1 ∧ l.generation = t.2) ∧ l.revoked = none) ||
        decide ((l.owner, l.generation) ∈ ts ∧ l.revoked = none)) =
        fun l => decide ((l.owner, l.generation) ∈ t :: ts ∧ l.revoked = none) := by
      funext l
      rw [← Bool.decide_or, decide_eq_decide, mem_targets_cons, or_and_right]
    rw [foldl_cons, revokeTarget, ih]
    dsimp only [markRevoked]
    rw [values_revokeWhere s record fun l => l.owner = t.1 ∧ l.generation = t.2,
      countP_map, Nat.add_assoc, ← hall, ← countP_passes]
    simp only [decide_eq_true_eq, hlt]

theorem revokeAgentGrants_count :
    (s.revokeAgentGrants now x reason).1 = s.leases.values.countP fun l => s.Revocable x l := by
  rw [revokeAgentGrants, revokeLoop_count, Nat.zero_add]
  congr 1
  funext l
  rw [decide_eq_decide, mem_revokeTargets, Revocable]

theorem revokeAgentGrants_lookup (id : String) :
    (s.revokeAgentGrants now x reason).2.leases.lookup id = (s.leases.lookup id).map fun l =>
      if s.Revocable x l then { l with revoked := some ⟨reason, now⟩ } else l := by
  rw [revokeAgentGrants_leases]
  congr 1
  funext l
  by_cases hgen : s.agentGeneration l.owner x = some l.generation
  · by_cases hrev : l.revoked = none
    · rw [if_pos hgen, if_pos ⟨hgen, hrev⟩, revokeLease, if_pos hrev]
    · rw [if_pos hgen, if_neg fun h => hrev h.2, revokeLease_of_revoked hrev]
  · rw [if_neg hgen, if_neg fun h => hgen h.1]

theorem not_revocable_after {id : String} {l : Lease}
    (hl : (s.revokeAgentGrants now x reason).2.leases.lookup id = some l) :
    ¬ (s.revokeAgentGrants now x reason).2.Revocable x l := by
  intro hrv
  obtain ⟨hgen, hrev⟩ := hrv
  rw [revokeAgentGrants_agentGeneration] at hgen
  rw [revokeAgentGrants_lookup] at hl
  obtain ⟨l₀, -, rfl⟩ := Option.map_eq_some_iff.mp hl
  by_cases h : s.Revocable x l₀
  · rw [if_pos h] at hrev
    cases hrev
  · rw [if_neg h] at hgen hrev
    exact h ⟨hgen, hrev⟩

/-- Exactly the revocable leases of the activation are revoked and counted; no grant, no other
lease and no earlier record changes, and a further call finds nothing left. -/
theorem revokeAgentGrants_exact (s : Broker) (now : ℕ) (x : String)
    (reason : LeaseRevocationReason) :
    let r := s.revokeAgentGrants now x reason
    r.2.grants = s.grants ∧
    (∀ id, r.2.leases.lookup id = (s.leases.lookup id).map fun l =>
      if s.Revocable x l then { l with revoked := some ⟨reason, now⟩ } else l) ∧
    r.1 = s.leases.values.countP (fun l => s.Revocable x l) ∧
    ∀ now' reason', (r.2.revokeAgentGrants now' x reason').1 = 0 ∧
      ∀ id, (r.2.revokeAgentGrants now' x reason').2.leases.lookup id = r.2.leases.lookup id := by
  refine ⟨revokeAgentGrants_grants s now x reason, revokeAgentGrants_lookup s now x reason,
    revokeAgentGrants_count s now x reason, ?_⟩
  intro now' reason'
  constructor
  · rw [revokeAgentGrants_count, countP_eq_zero]
    intro l hl hfn
    obtain ⟨id, hid⟩ := Table.mem_values_iff.mp hl
    exact not_revocable_after s now x reason hid (of_decide_eq_true hfn)
  · intro id
    rw [revokeAgentGrants_lookup]
    cases hlk : (s.revokeAgentGrants now x reason).2.leases.lookup id with
    | none => rfl
    | some l => rw [Option.map_some, if_neg (not_revocable_after s now x reason hlk)]

end Broker
end DshDesktop.Supervisor
