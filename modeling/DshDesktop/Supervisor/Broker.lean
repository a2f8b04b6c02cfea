import Mathlib.Algebra.Order.Group.Nat
import DshDesktop.Library.Table

/-!
# The capability broker: grants, leases and the dispatch gate

The state and the operations of `crates/supervisor/src/broker.rs`. An operation takes the
clock reading as an argument and returns its result with the broker it leaves, so that
a failing call is visible with its writes. The saturating operations clamp at `u64Max`;
the provider table is left out.
-/

namespace DshDesktop.Supervisor

def u64Max : ℕ := 2 ^ 64 - 1

def saturatingAdd (a b : ℕ) : ℕ := min u64Max (a + b)
def saturatingMul (a b : ℕ) : ℕ := min u64Max (a * b)

structure CapabilityId where
  apiVersion : String
  kind : String
  deriving DecidableEq

structure Scope where
  sessionId : Option String
  workspace : Option String
  domains : List String
  resources : List String
  deriving DecidableEq

/-- `Scope::default()`: no dimension is constrained. -/
def Scope.unrestricted : Scope := ⟨none, none, [], []⟩

def pinCovers (pinned requested : Option String) : Bool :=
  match pinned with
  | none => true
  | some value => requested == some value

def listCovers (listed requested : List String) : Bool :=
  listed.isEmpty || requested.all listed.contains

def Scope.covers (s requested : Scope) : Bool :=
  pinCovers s.sessionId requested.sessionId && pinCovers s.workspace requested.workspace &&
    listCovers s.domains requested.domains && listCovers s.resources requested.resources

theorem pinCovers_refl {p : Option String} : pinCovers p p := by
  cases p <;> simp [pinCovers]

theorem listCovers_refl {l : List String} : listCovers l l := by
  simp [listCovers]

theorem Scope.covers_refl (s : Scope) : s.covers s := by
  simp [Scope.covers, pinCovers_refl, listCovers_refl]

inductive LeaseRevocationReason
  | disconnect
  | unload
  | expiry
  | humanTakeover
  | generationChange
  deriving DecidableEq

structure LeaseRevocation where
  reason : LeaseRevocationReason
  atUnixMs : ℕ
  deriving DecidableEq

structure CapabilityGrant where
  capabilityId : CapabilityId
  version : String
  scope : Scope
  owner : String
  generation : ℕ
  createdAtUnixMs : ℕ
  deriving DecidableEq

structure Lease where
  id : String
  capabilityId : CapabilityId
  owner : String
  generation : ℕ
  scope : Scope
  expiresAtUnixMs : ℕ
  revoked : Option LeaseRevocation
  deriving DecidableEq

def Lease.isRevoked (l : Lease) : Bool := l.revoked.isSome
def Lease.isExpired (l : Lease) (now : ℕ) : Bool := l.expiresAtUnixMs ≤ now

inductive BrokerError
  | unknownCapability
  | unknownProvider
  | notGranted
  | leaseExpired
  | leaseRevoked
  | scopeMismatch
  | generationMismatch
  | conflict
  deriving DecidableEq

def BrokerError.protocolCode : BrokerError → String
  | .unknownCapability | .unknownProvider => "UNAVAILABLE"
  | .notGranted | .leaseExpired | .leaseRevoked | .scopeMismatch => "UNAUTHORIZED"
  | .generationMismatch => "STALE_GENERATION"
  | .conflict => "CONFLICT"

def BrokerError.message : BrokerError → String
  | .unknownCapability => "capability is not granted"
  | .unknownProvider => "provider is not registered"
  | .notGranted => "not granted for this owner"
  | .leaseExpired => "lease expired"
  | .leaseRevoked => "lease revoked"
  | .scopeMismatch => "scope not covered"
  | .generationMismatch => "stale generation"
  | .conflict => "state conflict"

def BrokerError.display (e : BrokerError) : String := e.message ++ " (" ++ e.protocolCode ++ ")"

structure AgentActivationState where
  generation : ℕ
  revoked : Bool

structure Broker where
  grants : Table CapabilityId CapabilityGrant
  leases : Table String Lease
  agentActivations : Table String (Table String AgentActivationState)
  currentActivation : Table String String
  nextGeneration : Table String ℕ

namespace Broker

def empty : Broker := ⟨∅, ∅, ∅, ∅, ∅⟩

def revokeLease (record : LeaseRevocation) (l : Lease) : Lease :=
  if l.revoked = none then { l with revoked := some record } else l

def revokeWhere (s : Broker) (record : LeaseRevocation) (p : String → Lease → Bool) : Broker :=
  { s with leases := s.leases.mapVal fun id l => if p id l then revokeLease record l else l }

def revokeAllForCapability (s : Broker) (now : ℕ) (capability : CapabilityId)
    (reason : LeaseRevocationReason) : Broker :=
  s.revokeWhere ⟨reason, now⟩ fun _ l => l.capabilityId = capability

def grant (s : Broker) (now : ℕ) (g : CapabilityGrant) : Except BrokerError Unit × Broker :=
  match s.grants.lookup g.capabilityId with
  | some existing =>
    if existing = g then (.ok (), s)
    else if existing.generation ≠ g.generation then
      let s' := s.revokeAllForCapability now g.capabilityId .generationChange
      (.ok (), { s' with grants := s'.grants.insert g.capabilityId g })
    else (.error .conflict, s)
  | none => (.ok (), { s with grants := s.grants.insert g.capabilityId g })

def lease (s : Broker) (now : ℕ) (l : Lease) : Except BrokerError Unit × Broker :=
  match s.grants.lookup l.capabilityId with
  | none => (.error .unknownCapability, s)
  | some g =>
    if g.owner ≠ l.owner then (.error .notGranted, s)
    else if g.generation ≠ l.generation then (.error .generationMismatch, s)
    else if g.scope.covers l.scope = false then (.error .scopeMismatch, s)
    else if l.expiresAtUnixMs ≤ now then (.error .leaseExpired, s)
    else match s.leases.lookup l.id with
      | some existing => if existing = l then (.ok (), s) else (.error .conflict, s)
      | none => (.ok (), { s with leases := s.leases.insert l.id l })

def revoke (s : Broker) (now : ℕ) (leaseId : String) (reason : LeaseRevocationReason) :
    Except BrokerError Unit × Broker :=
  (.ok (), s.revokeWhere ⟨reason, now⟩ fun id _ => id = leaseId)

structure LeaseScan where
  matched : Bool
  covering : Bool
  revoked : Bool
  expired : Bool

def LeaseScan.verdict (f : LeaseScan) : BrokerError :=
  if f.revoked then .leaseRevoked
  else if f.expired then .leaseExpired
  else if f.covering then .scopeMismatch
  else if f.matched then .scopeMismatch
  else .notGranted

def leaseLoop (now : ℕ) (capability : CapabilityId) (owner : String) (generation : ℕ)
    (scope : Scope) : LeaseScan → List Lease → Except BrokerError Unit
  | f, [] => .error f.verdict
  | f, l :: ls =>
    if l.capabilityId ≠ capability ∨ l.owner ≠ owner ∨ l.generation ≠ generation then
      leaseLoop now capability owner generation scope f ls
    else if l.scope.covers scope = false then
      leaseLoop now capability owner generation scope { f with matched := true } ls
    else if l.isRevoked then
      leaseLoop now capability owner generation scope
        { f with matched := true, covering := true, revoked := true } ls
    else if l.isExpired now then
      leaseLoop now capability owner generation scope
        { f with matched := true, covering := true, expired := true } ls
    else .ok ()

def enforceValidLease (s : Broker) (now : ℕ) (capability : CapabilityId) (owner : String)
    (generation : ℕ) (scope : Scope) : Except BrokerError Unit :=
  leaseLoop now capability owner generation scope ⟨false, false, false, false⟩ s.leases.values

def enforceDispatch (s : Broker) (now : ℕ) (capability : CapabilityId) (owner : String)
    (generation : ℕ) (scope : Scope) : Except BrokerError Unit :=
  match s.grants.lookup capability with
  | none => .error .unknownCapability
  | some g =>
    if g.owner ≠ owner then .error .notGranted
    else if g.generation ≠ generation then .error .generationMismatch
    else if g.scope.covers scope = false then .error .scopeMismatch
    else s.enforceValidLease now capability owner generation scope

end Broker

structure Lease.Usable (l : Lease) (now : ℕ) (capability : CapabilityId) (owner : String)
    (generation : ℕ) (scope : Scope) : Prop where
  capability_eq : l.capabilityId = capability
  owner_eq : l.owner = owner
  generation_eq : l.generation = generation
  covers : l.scope.covers scope = true
  unrevoked : l.revoked = none
  unexpired : now < l.expiresAtUnixMs

namespace Broker
variable {s s' : Broker} {now : ℕ} {e : BrokerError}

theorem leaseLoop_ok_iff (now : ℕ) (cap : CapabilityId) (owner : String) (gen : ℕ)
    (scope : Scope) (f : LeaseScan) (ls : List Lease) :
    leaseLoop now cap owner gen scope f ls = .ok () ↔
      ∃ l ∈ ls, l.Usable now cap owner gen scope := by
  induction ls generalizing f with
  | nil => simp [leaseLoop]
  | cons l ls ih =>
    -- Every skipped lease fails one field of `Usable`, so it cannot be the witness.
    have hsk (h : ¬ l.Usable now cap owner gen scope) :
        (∃ x ∈ l :: ls, x.Usable now cap owner gen scope) ↔
          ∃ x ∈ ls, x.Usable now cap owner gen scope := by
      simp [h]
    simp only [leaseLoop]
    split_ifs with hid hcov hrev hexp
    · rw [ih, hsk]
      intro huse
      obtain ⟨hc, ho, hg, -, -, -⟩ := huse
      simp [hc, ho, hg] at hid
    · rw [ih, hsk]
      intro huse
      obtain ⟨-, -, -, hc, -, -⟩ := huse
      simp [hc] at hcov
    · rw [ih, hsk]
      intro huse
      obtain ⟨-, -, -, -, hr, -⟩ := huse
      simp [Lease.isRevoked, hr] at hrev
    · rw [ih, hsk]
      intro huse
      obtain ⟨-, -, -, -, -, he⟩ := huse
      simp only [Lease.isExpired, decide_eq_true_eq] at hexp
      omega
    simp only [ne_eq, not_or, not_not] at hid
    obtain ⟨hc, ho, hg⟩ := hid
    have hl : l.Usable now cap owner gen scope :=
      ⟨hc, ho, hg, by simpa using hcov, by simpa [Lease.isRevoked] using hrev,
        by simpa [Lease.isExpired] using hexp⟩
    simp [hl]

theorem enforceDispatch_ok_iff (s : Broker) (now : ℕ) (cap : CapabilityId) (owner : String)
    (gen : ℕ) (scope : Scope) :
    s.enforceDispatch now cap owner gen scope = .ok () ↔
      (∃ g, s.grants.lookup cap = some g ∧ g.owner = owner ∧ g.generation = gen ∧
        g.scope.covers scope) ∧
      ∃ id l, s.leases.lookup id = some l ∧ l.Usable now cap owner gen scope := by
  simp only [enforceDispatch]
  cases hg : s.grants.lookup cap with
  | none => simp
  | some g =>
    simp only [Option.some.injEq, exists_eq_left']
    split_ifs with ho hn hc
    · simp [ho]
    · simp [hn]
    · simp [hc]
    simp only [ne_eq, not_not, Bool.not_eq_false] at ho hn hc
    simp only [enforceValidLease, leaseLoop_ok_iff, Table.mem_values_iff, ho, hn, hc, true_and]
    constructor
    · intro hlease
      obtain ⟨l, ⟨id, hid⟩, hl⟩ := hlease
      exact ⟨id, l, hid, hl⟩
    · intro hlease
      obtain ⟨id, l, hid, hl⟩ := hlease
      exact ⟨l, ⟨id, hid⟩, hl⟩

variable (r : LeaseRevocation) (l : Lease)

@[simp] theorem revokeLease_capabilityId : (revokeLease r l).capabilityId = l.capabilityId := by
  simp only [revokeLease]; split_ifs <;> rfl

@[simp] theorem revokeLease_owner : (revokeLease r l).owner = l.owner := by
  simp only [revokeLease]; split_ifs <;> rfl

@[simp] theorem revokeLease_generation : (revokeLease r l).generation = l.generation := by
  simp only [revokeLease]; split_ifs <;> rfl

@[simp] theorem revokeLease_revoked : (revokeLease r l).revoked ≠ none := by
  simp only [revokeLease]; split_ifs with h <;> simp [h]

theorem revokeLease_of_revoked {r : LeaseRevocation} {l : Lease} (h : l.revoked ≠ none) :
    revokeLease r l = l := by
  simp [revokeLease, h]

section
variable {g old : CapabilityGrant}

theorem grant_idle (h : s.grants.lookup g.capabilityId = some g) : s.grant now g = (.ok (), s) := by
  simp [grant, h, ↓reduceIte]

theorem grant_conflict (h : s.grants.lookup g.capabilityId = some old)
    (hgen : old.generation = g.generation) (hne : old ≠ g) :
    s.grant now g = (.error .conflict, s) := by
  simp [grant, h, hne, hgen]

def superseded (s : Broker) (now : ℕ) (g : CapabilityGrant) : Broker :=
  { s.revokeAllForCapability now g.capabilityId .generationChange with
    grants := s.grants.insert g.capabilityId g }

theorem grant_supersede (h : s.grants.lookup g.capabilityId = some old)
    (hgen : old.generation ≠ g.generation) : s.grant now g = (.ok (), s.superseded now g) := by
  have hne : old ≠ g := fun he => hgen (congrArg CapabilityGrant.generation he)
  simp [grant, h, hne, hgen, superseded, revokeAllForCapability, revokeWhere]

inductive Granted (s : Broker) (now : ℕ) (g : CapabilityGrant) :
    Except BrokerError Unit × Broker → Prop
  | idle (held : s.grants.lookup g.capabilityId = some g) : Granted s now g (.ok (), s)
  | superseded {old : CapabilityGrant} (held : s.grants.lookup g.capabilityId = some old)
      (newer : old.generation ≠ g.generation) : Granted s now g (.ok (), s.superseded now g)
  | conflict {old : CapabilityGrant} (held : s.grants.lookup g.capabilityId = some old)
      (same : old.generation = g.generation) (other : old ≠ g) :
      Granted s now g (.error .conflict, s)
  | fresh (free : s.grants.lookup g.capabilityId = none) :
      Granted s now g (.ok (), { s with grants := s.grants.insert g.capabilityId g })

theorem granted (s : Broker) (now : ℕ) (g : CapabilityGrant) : Granted s now g (s.grant now g) := by
  cases h : s.grants.lookup g.capabilityId with
  | none =>
    simp only [grant, h]
    exact .fresh h
  | some old =>
    by_cases heq : old = g
    · subst heq
      rw [grant_idle h]
      exact .idle h
    by_cases hgen : old.generation = g.generation
    · rw [grant_conflict h hgen heq]
      exact .conflict h hgen heq
    · rw [grant_supersede h hgen]
      exact .superseded h hgen

end

theorem lease_idle {l : Lease} {g : CapabilityGrant}
    (hg : s.grants.lookup l.capabilityId = some g) (ho : g.owner = l.owner)
    (hn : g.generation = l.generation) (hc : g.scope.covers l.scope)
    (he : now < l.expiresAtUnixMs) (hl : s.leases.lookup l.id = some l) :
    s.lease now l = (.ok (), s) := by
  simp [lease, hg, ho, hn, hc, hl, Nat.not_le.mpr he]

inductive Leased (s : Broker) (now : ℕ) (l : Lease) : Except BrokerError Unit × Broker → Prop
  | refused (e : BrokerError) : Leased s now l (.error e, s)
  | idle (held : s.leases.lookup l.id = some l) : Leased s now l (.ok (), s)
  | fresh {g : CapabilityGrant} (held : s.grants.lookup l.capabilityId = some g)
      (owner : g.owner = l.owner) (generation : g.generation = l.generation)
      (covers : g.scope.covers l.scope = true) (free : s.leases.lookup l.id = none) :
      Leased s now l (.ok (), { s with leases := s.leases.insert l.id l })

theorem leased (s : Broker) (now : ℕ) (l : Lease) : Leased s now l (s.lease now l) := by
  unfold lease
  cases hg : s.grants.lookup l.capabilityId with
  | none => exact .refused _
  | some g =>
    dsimp only
    split_ifs with ho hn hc he
    · exact .refused _
    · exact .refused _
    · exact .refused _
    · exact .refused _
    simp only [ne_eq, not_not, Bool.not_eq_false] at ho hn hc
    cases hl : s.leases.lookup l.id with
    | none => exact .fresh hg ho hn hc hl
    | some old =>
      dsimp only
      split_ifs with heq
      · exact .idle (heq ▸ hl)
      · exact .refused _

end Broker

def validAgentToken (value : String) : Bool :=
  !value.isEmpty && value.utf8ByteSize ≤ 64 &&
    value.toList.all fun c => c.isAlphanum || c == '-' || c == '_'

def validStringList (items : List String) : Bool :=
  items.length ≤ 16 && (items.all fun item => !item.isEmpty && item.utf8ByteSize ≤ 128) &&
    decide items.Nodup

def validPin (value : Option String) : Bool :=
  value.all fun text => !text.isEmpty && text.utf8ByteSize ≤ 128

def Scope.isValid (s : Scope) : Bool :=
  (s.sessionId.isSome || s.workspace.isSome || !s.domains.isEmpty || !s.resources.isEmpty) &&
    validPin s.sessionId && validPin s.workspace && validStringList s.domains &&
    validStringList s.resources

structure AgentIdentity where
  agentId : String
  activationId : String
  generation : ℕ
  scope : Scope
  deriving DecidableEq

def AgentIdentity.isValid (a : AgentIdentity) : Bool :=
  validAgentToken a.agentId && validAgentToken a.activationId && 1 ≤ a.generation && a.scope.isValid

structure AgentSessionBinding where
  agentId : String
  activationId : String
  generation : ℕ
  scope : Scope
  deriving DecidableEq

def agentBindingFrom (a : AgentIdentity) : AgentSessionBinding :=
  ⟨a.agentId, a.activationId, a.generation, a.scope⟩

theorem Broker.enforceDispatch_holder {b : Broker} {now gen : ℕ} {cap : CapabilityId}
    {owner : String} {scope : Scope} (h : b.enforceDispatch now cap owner gen scope = .ok ()) :
    ∃ g, b.grants.lookup cap = some g ∧ g.owner = owner ∧ g.generation = gen := by
  obtain ⟨⟨g, hg, how, hgen, -⟩, -⟩ := (b.enforceDispatch_ok_iff now cap owner gen scope).mp h
  exact ⟨g, hg, how, hgen⟩

end DshDesktop.Supervisor
