import DshDesktop.Supervisor.Broker

/-!
# What the dispatch gate answers

`enforce_dispatch` goes through the leases of a hash map, so the order in which it meets
them is not fixed. `enforceDispatchIn` takes that order as an argument; `dispatchVerdict`
says what the answer is without one.
-/

namespace DshDesktop.Supervisor

def Lease.For (l : Lease) (capability : CapabilityId) (owner : String) (generation : ℕ) : Prop :=
  l.capabilityId = capability ∧ l.owner = owner ∧ l.generation = generation

instance (l : Lease) (capability : CapabilityId) (owner : String) (generation : ℕ) :
    Decidable (l.For capability owner generation) :=
  inferInstanceAs (Decidable (_ ∧ _ ∧ _))

def Lease.Covering (l : Lease) (capability : CapabilityId) (owner : String) (generation : ℕ)
    (scope : Scope) : Prop :=
  l.For capability owner generation ∧ l.scope.covers scope = true

instance (l : Lease) (capability : CapabilityId) (owner : String) (generation : ℕ)
    (scope : Scope) : Decidable (l.Covering capability owner generation scope) :=
  inferInstanceAs (Decidable (_ ∧ _))

section
variable {l : Lease} {now : ℕ} {capability : CapabilityId} {owner : String} {generation : ℕ}
  {scope : Scope}

theorem Lease.usable_iff : l.Usable now capability owner generation scope ↔
    l.Covering capability owner generation scope ∧ l.revoked = none ∧ now < l.expiresAtUnixMs := by
  constructor
  · intro h
    exact ⟨⟨⟨h.capability_eq, h.owner_eq, h.generation_eq⟩, h.covers⟩, h.unrevoked, h.unexpired⟩
  · intro h
    obtain ⟨⟨⟨hc, ho, hg⟩, hcov⟩, hrev, hep⟩ := h
    exact ⟨hc, ho, hg, hcov, hrev, hep⟩

instance : Decidable (l.Usable now capability owner generation scope) :=
  decidable_of_iff _ Lease.usable_iff.symm

end

namespace Broker

/-- The gate, with the leases in the order in which the loop meets them. -/
def enforceDispatchIn (s : Broker) (order : List Lease) (now : ℕ) (capability : CapabilityId)
    (owner : String) (generation : ℕ) (scope : Scope) : Except BrokerError Unit :=
  match s.grants.lookup capability with
  | none => .error .unknownCapability
  | some g =>
    if g.owner ≠ owner then .error .notGranted
    else if g.generation ≠ generation then .error .generationMismatch
    else if g.scope.covers scope = false then .error .scopeMismatch
    else leaseLoop now capability owner generation scope ⟨false, false, false, false⟩ order

theorem enforceDispatch_eq_in {s : Broker} {now : ℕ} {capability : CapabilityId} {owner : String}
    {generation : ℕ} {scope : Scope} :
    s.enforceDispatch now capability owner generation scope =
      s.enforceDispatchIn s.leases.values now capability owner generation scope := rfl

def leaseVerdict (leases : List Lease) (now : ℕ) (capability : CapabilityId) (owner : String)
    (generation : ℕ) (scope : Scope) : Except BrokerError Unit :=
  if ∃ l ∈ leases, l.Usable now capability owner generation scope then .ok ()
  else if ∃ l ∈ leases, l.Covering capability owner generation scope ∧ l.revoked ≠ none then
    .error .leaseRevoked
  else if ∃ l ∈ leases, l.Covering capability owner generation scope ∧ l.expiresAtUnixMs ≤ now then
    .error .leaseExpired
  else if ∃ l ∈ leases, l.For capability owner generation then .error .scopeMismatch
  else .error .notGranted

def dispatchVerdict (s : Broker) (now : ℕ) (capability : CapabilityId) (owner : String)
    (generation : ℕ) (scope : Scope) : Except BrokerError Unit :=
  match s.grants.lookup capability with
  | none => .error .unknownCapability
  | some g =>
    if g.owner ≠ owner then .error .notGranted
    else if g.generation ≠ generation then .error .generationMismatch
    else if g.scope.covers scope = false then .error .scopeMismatch
    else leaseVerdict s.leases.values now capability owner generation scope

section
variable (now : ℕ) (capability cap : CapabilityId) (owner : String) (generation gen : ℕ)
  (scope : Scope)

def LeaseScan.seeing (f : LeaseScan) (leases : List Lease) : LeaseScan where
  matched := f.matched || decide (∃ l ∈ leases, l.For capability owner generation)
  covering := f.covering || decide (∃ l ∈ leases, l.Covering capability owner generation scope)
  revoked := f.revoked || decide (∃ l ∈ leases,
    l.Covering capability owner generation scope ∧ l.revoked ≠ none)
  expired := f.expired || decide (∃ l ∈ leases,
    l.Covering capability owner generation scope ∧ l.revoked = none ∧ l.expiresAtUnixMs ≤ now)

variable {now cap owner gen scope}

theorem leaseLoop_unusable {lss : List Lease}
    (h : ∀ l ∈ lss, ¬ l.Usable now cap owner gen scope) (f : LeaseScan) :
    leaseLoop now cap owner gen scope f lss =
      .error (LeaseScan.seeing now cap owner gen scope f lss).verdict := by
  induction lss generalizing f with
  | nil => simp [leaseLoop, LeaseScan.seeing]
  | cons l ls ih =>
    have hrs := ih fun l' hl' => h l' (List.mem_cons_of_mem _ hl')
    have hl := h l List.mem_cons_self
    rw [Lease.usable_iff] at hl
    have hfor : (l.capabilityId ≠ cap ∨ l.owner ≠ owner ∨ l.generation ≠ gen) ↔
        ¬ l.For cap owner gen := by
      rw [Lease.For]
      tauto
    rw [leaseLoop, hrs, hrs, hrs, hrs]
    simp only [hfor]
    by_cases hmt : l.For cap owner gen
    · rw [if_neg (not_not_intro hmt)]
      by_cases hcov : l.scope.covers scope
      · have hcv : l.Covering cap owner gen scope := ⟨hmt, hcov⟩
        rw [if_neg (by simp [hcov])]
        by_cases hrev : l.revoked = none
        · have hexp : l.expiresAtUnixMs ≤ now := Nat.le_of_not_lt fun hlt => hl ⟨hcv, hrev, hlt⟩
          simp [Lease.isRevoked, Lease.isExpired, hrev, hexp, LeaseScan.seeing, hmt, hcv]
        · have hiR : l.isRevoked := Option.isSome_iff_ne_none.mpr hrev
          rw [if_pos hiR]
          simp [LeaseScan.seeing, hmt, hcv, hrev]
      · have hcv : ¬ l.Covering cap owner gen scope := fun h => hcov h.2
        rw [if_pos (eq_false_of_ne_true hcov)]
        simp [LeaseScan.seeing, hmt, hcv]
    · have hcv : ¬ l.Covering cap owner gen scope := fun h => hmt h.1
      simp [LeaseScan.seeing, hmt, hcv]

theorem expired_of_covering {l : Lease} (hl : ¬ l.Usable now cap owner gen scope)
    (hcv : l.Covering cap owner gen scope) (hrev : l.revoked = none) : l.expiresAtUnixMs ≤ now := by
  by_contra hlv
  exact hl (Lease.usable_iff.mpr ⟨hcv, hrev, Nat.lt_of_not_le hlv⟩)

theorem leaseLoop_eq_verdict {lss : List Lease} :
    leaseLoop now cap owner gen scope ⟨false, false, false, false⟩ lss =
      leaseVerdict lss now cap owner gen scope := by
  by_cases huse : ∃ l ∈ lss, l.Usable now cap owner gen scope
  · rw [leaseVerdict, if_pos huse]
    exact (leaseLoop_ok_iff now cap owner gen scope _ lss).mpr huse
  have hun : ∀ l ∈ lss, ¬ l.Usable now cap owner gen scope := fun l hl hu => huse ⟨l, hl, hu⟩
  rw [leaseVerdict, if_neg huse, leaseLoop_unusable hun]
  simp only [LeaseScan.verdict, LeaseScan.seeing, Bool.false_or, decide_eq_true_eq]
  by_cases hrev : ∃ l ∈ lss, l.Covering cap owner gen scope ∧ l.revoked ≠ none
  · rw [if_pos hrev, if_pos hrev]
  have hlv : ∀ l ∈ lss, l.Covering cap owner gen scope → l.revoked = none := by
    intro l hl hcv
    by_contra hsome
    exact hrev ⟨l, hl, hcv, hsome⟩
  rw [if_neg hrev, if_neg hrev]
  by_cases hexp : ∃ l ∈ lss, l.Covering cap owner gen scope ∧ l.expiresAtUnixMs ≤ now
  · have hfn : ∃ l ∈ lss, l.Covering cap owner gen scope ∧
        l.revoked = none ∧ l.expiresAtUnixMs ≤ now := by
      obtain ⟨l, hl, hcv, hps⟩ := hexp
      exact ⟨l, hl, hcv, hlv l hl hcv, hps⟩
    rw [if_pos hfn, if_pos hexp]
  have hnn : ¬ ∃ l ∈ lss, l.Covering cap owner gen scope ∧
      l.revoked = none ∧ l.expiresAtUnixMs ≤ now := by
    intro h
    obtain ⟨l, hl, hcv, -, hps⟩ := h
    exact hexp ⟨l, hl, hcv, hps⟩
  have hcv : ¬ ∃ l ∈ lss, l.Covering cap owner gen scope := by
    intro h
    obtain ⟨l, hl, hl'⟩ := h
    exact hexp
      ⟨l, hl, hl', expired_of_covering (hun l hl) hl' (hlv l hl hl')⟩
  split_ifs <;> rfl

theorem leaseVerdict_perm {lss order : List Lease} (h : order.Perm lss) :
    leaseVerdict order now cap owner gen scope = leaseVerdict lss now cap owner gen scope := by
  simp [leaseVerdict, h.mem_iff]

end

/-- In whichever order the leases come, the gate opens exactly for a grant and a lease that
both admit the request, and otherwise gives the first error that applies. -/
theorem enforceDispatchIn_verdict (s : Broker) {order : List Lease}
    (horder : order.Perm s.leases.values) (now : ℕ) (capability : CapabilityId) (owner : String)
    (generation : ℕ) (scope : Scope) :
    (s.enforceDispatchIn order now capability owner generation scope = .ok () ↔
      (∃ g, s.grants.lookup capability = some g ∧ g.owner = owner ∧ g.generation = generation ∧
        g.scope.covers scope = true) ∧
      ∃ id l, s.leases.lookup id = some l ∧ l.Usable now capability owner generation scope) ∧
    s.enforceDispatchIn order now capability owner generation scope =
      s.dispatchVerdict now capability owner generation scope := by
  have heq : s.enforceDispatchIn order now capability owner generation scope =
      s.enforceDispatch now capability owner generation scope := by
    rw [enforceDispatch_eq_in]
    simp [enforceDispatchIn, leaseLoop_eq_verdict, leaseVerdict_perm horder]
  refine ⟨?_, ?_⟩
  · rw [heq]
    exact enforceDispatch_ok_iff s now capability owner generation scope
  · simp [enforceDispatchIn, dispatchVerdict, leaseLoop_eq_verdict, leaseVerdict_perm horder]

def spentLeases : Broker where
  grants := AList.singleton ⟨"v1", "Terminal"⟩
    ⟨⟨"v1", "Terminal"⟩, "v1", .unrestricted, "a", 1, 0⟩
  leases := (AList.singleton "first"
    ⟨"first", ⟨"v1", "Terminal"⟩, "a", 1, .unrestricted, 5, none⟩).insert "second"
    ⟨"second", ⟨"v1", "Terminal"⟩, "a", 1, .unrestricted, 9, some ⟨.unload, 2⟩⟩
  agentActivations := ∅
  currentActivation := ∅
  nextGeneration := ∅

theorem spentLeases_verdict :
    spentLeases.enforceDispatchIn spentLeases.leases.values.reverse 6 ⟨"v1", "Terminal"⟩ "a" 1
        .unrestricted = .error .leaseRevoked ∧
      spentLeases.enforceDispatchIn spentLeases.leases.values.reverse 6 ⟨"v1", "Terminal"⟩ "a" 1
        .unrestricted =
      spentLeases.dispatchVerdict 6 ⟨"v1", "Terminal"⟩ "a" 1 .unrestricted :=
  ⟨by decide, (enforceDispatchIn_verdict spentLeases (List.reverse_perm _) 6 ⟨"v1", "Terminal"⟩
    "a" 1 .unrestricted).2⟩

end Broker

/-- The last list keeps within the first one although the middle list may say nothing. -/
def ListsChain (first middle last : List String) : Prop :=
  first = [] ∨ middle ≠ [] ∨ ∀ e ∈ last, e ∈ first

theorem pinCovers_trans {a b c : Option String} (hab : pinCovers a b)
    (hbc : pinCovers b c) : pinCovers a c := by
  cases a with
  | none => rfl
  | some v =>
    have hb : b = some v := by simpa [pinCovers] using hab
    subst hb
    exact hbc

theorem listCovers_iff {listed requested : List String} :
    listCovers listed requested ↔ listed = [] ∨ ∀ e ∈ requested, e ∈ listed := by
  simp [listCovers]

theorem listCovers_chain {a b c : List String} (hab : listCovers a b)
    (hbc : listCovers b c) : listCovers a c ↔ ListsChain a b c := by
  rw [listCovers_iff] at hab hbc ⊢
  constructor
  · intro h
    rcases h with ha | hc
    · exact .inl ha
    · exact .inr (.inr hc)
  · intro h
    rcases h with ha | hb | hc
    · exact .inl ha
    · rcases hab with ha | hab
      · exact .inl ha
      · exact .inr fun e he => hab e (hbc.resolve_left hb e he)
    · exact .inr hc

/-- An empty list constrains nothing in the covering scope, so coverage passes on along a chain
only where the middle scope says something. -/
theorem covers_chain (a b c : Scope) (hab : a.covers b = true) (hbc : b.covers c = true) :
    (a.covers c = true ↔
      ListsChain a.domains b.domains c.domains ∧ ListsChain a.resources b.resources c.resources) ∧
    ∀ (s : Broker) (now : ℕ) (capability : CapabilityId) (owner : String) (generation : ℕ),
      s.enforceDispatch now capability owner generation c = .ok () →
      ∃ g, s.grants.lookup capability = some g ∧ g.scope.covers c = true := by
  constructor
  · simp only [Scope.covers, Bool.and_eq_true] at hab hbc ⊢
    obtain ⟨⟨⟨hss, hwr⟩, hdm⟩, hrs⟩ := hab
    obtain ⟨⟨⟨hss', hwr'⟩, hdm'⟩, hrs'⟩ := hbc
    rw [listCovers_chain hdm hdm', listCovers_chain hrs hrs']
    simp [pinCovers_trans hss hss', pinCovers_trans hwr hwr']
  · intro s now capability owner generation hok
    obtain ⟨⟨g, hg, -, -, hcv⟩, -⟩ :=
      (Broker.enforceDispatch_ok_iff s now capability owner generation c).mp hok
    exact ⟨g, hg, hcv⟩

theorem covers_chain_narrowing : (⟨some "s1", none, ["a.example", "b.example"], []⟩ : Scope).covers
      ⟨some "s1", none, ["a.example"], ["page"]⟩ = true :=
  (covers_chain ⟨some "s1", none, ["a.example", "b.example"], []⟩
    ⟨some "s1", none, ["a.example", "b.example"], []⟩
    ⟨some "s1", none, ["a.example"], ["page"]⟩ (by decide) (by decide)).1.mpr
      ⟨.inr (.inl nofun), .inl rfl⟩

theorem covers_not_transitive :
    (⟨none, none, ["a.example"], []⟩ : Scope).covers .unrestricted = true ∧
      Scope.unrestricted.covers ⟨none, none, ["b.example"], []⟩ = true ∧
      (⟨none, none, ["a.example"], []⟩ : Scope).covers ⟨none, none, ["b.example"], []⟩ = false := by
  decide

end DshDesktop.Supervisor
