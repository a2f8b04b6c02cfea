import DshDesktop.Daemon.BrowserOwnership

/-!
# Interactions and takeovers in parallel

Agent interaction and human takeover in `apps/desktop/src-tauri/src/browser.rs`, by any
number of threads over one bridge and one broker. Each critical section is a definition of
its own: the session check of an interaction and its binding are two, with the broker's gate
between them, and a takeover may come and return in between. It revokes through the
activation id of the last authorised interaction, which no check compares with the broker's
records.
-/

namespace DshDesktop.Shell
open Browser Supervisor

def browserCapability : CapabilityId := ⟨"browser.dsh-desktop.local/v1alpha1", "Browser"⟩

def maxSelectorLen : ℕ := 512
def maxInteractTextLen : ℕ := 4096
def maxKeyLen : ℕ := 64
def maxScrollDelta : ℤ := 100000

structure BrowserCommandError where
  code : String
  message : String
  retryable : Bool
  correlationId : String
  deriving DecidableEq

namespace BrowserCommandError
variable (correlationId : String)

def malformed : BrowserCommandError :=
  ⟨"MALFORMED_MESSAGE", "Browser request is malformed or the mode is not human_surface.", false,
    correlationId⟩

def sessionUnavailable : BrowserCommandError :=
  ⟨"UNAVAILABLE", "Browser session is unknown or already closed.", false, correlationId⟩

def stateUnavailable : BrowserCommandError :=
  ⟨"UNAVAILABLE", "Browser state is unavailable.", true, correlationId⟩

def unauthorized (message : String) : BrowserCommandError :=
  ⟨"UNAUTHORIZED", message, false, correlationId⟩

def ofBrowser : BrowserError → BrowserCommandError
  | .notFound => sessionUnavailable correlationId
  | .invalidUrl _ => malformed correlationId
  | .closed => sessionUnavailable correlationId
  | .other => stateUnavailable correlationId

def ofBroker : BrokerError → BrowserCommandError
  | .unknownCapability | .notGranted | .leaseExpired | .leaseRevoked | .scopeMismatch =>
    ⟨"UNAUTHORIZED", "Agent is not authorized for browser automation.", false, correlationId⟩
  | .generationMismatch =>
    ⟨"STALE_GENERATION", "Agent browser request carries a stale generation.", false, correlationId⟩
  | .conflict => ⟨"CONFLICT", "Browser broker state conflict.", false, correlationId⟩
  | .unknownProvider =>
    ⟨"UNAVAILABLE", "Browser provider is not registered.", true, correlationId⟩

end BrowserCommandError

structure BrowserInteractRequest where
  schemaVersion : ℕ
  sessionId : String
  mode : String
  action : String
  selector : Option String
  text : Option String
  key : Option String
  deltaX : Option ℤ
  deltaY : Option ℤ
  agent : AgentIdentity
  deriving DecidableEq

structure BrowserTakeoverRequest where
  schemaVersion : ℕ
  sessionId : String
  target : String

def validateSessionRequest (schemaVersion : ℕ) (sessionId : String) : Bool :=
  schemaVersion == Daemon.browserSchemaVersion && Daemon.validSessionId sessionId

def inBound (value : Option String) (max : ℕ) : Bool :=
  value.any fun text => !text.isEmpty && text.length ≤ max

def inDeltaBounds (delta : Option ℤ) : Bool :=
  delta.all fun d => -maxScrollDelta ≤ d && d ≤ maxScrollDelta

def BrowserInteractRequest.actionValid (r : BrowserInteractRequest) : Bool :=
  if r.action = "click" then
    inBound r.selector maxSelectorLen && r.text.isNone && r.key.isNone && r.deltaX.isNone &&
      r.deltaY.isNone
  else if r.action = "type" then
    inBound r.selector maxSelectorLen && inBound r.text maxInteractTextLen && r.key.isNone &&
      r.deltaX.isNone && r.deltaY.isNone
  else if r.action = "scroll" then
    r.selector.isNone && r.text.isNone && r.key.isNone && (r.deltaX.isSome || r.deltaY.isSome) &&
      inDeltaBounds r.deltaX && inDeltaBounds r.deltaY
  else if r.action = "key" then
    inBound r.key maxKeyLen && r.selector.isNone && r.text.isNone && r.deltaX.isNone &&
      r.deltaY.isNone
  else false

def BrowserInteractRequest.isValid (r : BrowserInteractRequest) : Bool :=
  r.schemaVersion == Daemon.browserSchemaVersion && r.mode == "agent_automation" &&
    validateSessionRequest r.schemaVersion r.sessionId && r.agent.isValid && r.actionValid

def BrowserTakeoverRequest.isValid (r : BrowserTakeoverRequest) : Bool :=
  r.schemaVersion == Daemon.browserSchemaVersion && r.target == "human" &&
    validateSessionRequest r.schemaVersion r.sessionId

structure BrowserBridge where
  registry : Option SessionRegistry
  bindings : Table String AgentSessionBinding
  humanControlled : List String

namespace BrowserBridge

def default : BrowserBridge := ⟨none, ∅, []⟩

variable (b : BrowserBridge) (correlationId : String)

def openRegistry : BrowserBridge :=
  { b with registry := some (b.registry.getD .new) }

variable (sessionId : String)

def get : Except BrowserCommandError BrowserSession :=
  ((b.registry.getD .new).get sessionId).mapError (.ofBrowser correlationId)

def checkSession : Except BrowserCommandError Unit :=
  match b.get correlationId sessionId with
  | .error e => .error e
  | .ok _ =>
    if sessionId ∈ b.humanControlled then
      .error (.unauthorized correlationId "Browser session is human-controlled.")
    else .ok ()

def bindAgent (a : AgentIdentity) : BrowserBridge :=
  { b with bindings := b.bindings.insert sessionId (agentBindingFrom a) }

def boundActivations : List String :=
  ((b.bindings.lookup sessionId).map AgentSessionBinding.activationId).toList

def markHuman : BrowserBridge :=
  { b.openRegistry with
    bindings := b.bindings.erase sessionId
    humanControlled := sessionId :: b.humanControlled }

end BrowserBridge

def checkInteract (correlationId : String) (r : BrowserInteractRequest) :
    Except BrowserCommandError Unit :=
  if r.isValid = false then .error (.malformed correlationId)
  else if r.agent.scope.sessionId.any fun target => target ≠ r.sessionId then
    .error (.unauthorized correlationId "Agent scope targets a different session.")
  else .ok ()

def gateInteract (correlationId : String) (broker : Broker) (now : ℕ) (a : AgentIdentity) :
    Except BrowserCommandError Unit :=
  (broker.enforceDispatch now browserCapability a.agentId a.generation a.scope).mapError
    (.ofBroker correlationId)

def revokeBound (now : ℕ) (bound : List String) (broker : Broker) : Broker :=
  bound.foldl (fun b activationId => (b.revokeAgentGrants now activationId .humanTakeover).2) broker

structure BrowserState where
  bridge : BrowserBridge
  broker : Broker

namespace BrowserState
variable (s : BrowserState) (correlationId : String) (now : ℕ)

def authorizeInteract (r : BrowserInteractRequest) :
    Except BrowserCommandError Unit × BrowserState :=
  match checkInteract correlationId r with
  | .error e => (.error e, s)
  | .ok _ =>
    let opened := { s with bridge := s.bridge.openRegistry }
    match s.bridge.checkSession correlationId r.sessionId with
    | .error e => (.error e, opened)
    | .ok _ =>
      match gateInteract correlationId s.broker now r.agent with
      | .error e => (.error e, opened)
      | .ok _ => (.ok (), { opened with bridge := opened.bridge.bindAgent r.sessionId r.agent })

def takeOverBrowser (r : BrowserTakeoverRequest) :
    Except BrowserCommandError BrowserSession × BrowserState :=
  if r.isValid = false then (.error (.malformed correlationId), s)
  else
    match s.bridge.get correlationId r.sessionId with
    | .error e => (.error e, { s with bridge := s.bridge.openRegistry })
    | .ok session =>
      (.ok session, ⟨s.bridge.markHuman r.sessionId,
        revokeBound now (s.bridge.boundActivations r.sessionId) s.broker⟩)

variable {s correlationId now}

theorem takeOverBrowser_ok {r : BrowserTakeoverRequest} {session : BrowserSession}
    {s' : BrowserState} (h : s.takeOverBrowser correlationId now r = (.ok session, s')) :
    s' = ⟨s.bridge.markHuman r.sessionId,
      revokeBound now (s.bridge.boundActivations r.sessionId) s.broker⟩ := by
  rw [takeOverBrowser] at h
  by_cases hvalid : r.isValid = false
  · simp [hvalid] at h
  rw [if_neg hvalid] at h
  cases hget : s.bridge.get correlationId r.sessionId with
  | error e => simp [hget] at h
  | ok found =>
    simp only [hget, Prod.mk.injEq] at h
    exact h.2.symm

end BrowserState
end DshDesktop.Shell

namespace DshDesktop.Shell.Takeover
open Browser Supervisor List

structure World where
  bridge : BrowserBridge
  broker : Broker
  returned : List String

open World

/-- Where a call is. `before` is what had been taken over when the session was
checked. -/
inductive Task
  | idle
  | checked (r : BrowserInteractRequest) (before : List String)
  | gated (r : BrowserInteractRequest) (before : List String)
  | marked (session : BrowserSession) (sessionId : String) (bound : List String)
  deriving DecidableEq

inductive Answer
  | interacted (result : Except BrowserCommandError Unit)
  | tookOver (result : Except BrowserCommandError BrowserSession)

structure Thread where
  task : Task
  answer : Option Answer

inductive Input
  | interact (r : BrowserInteractRequest)
  | takeOver (r : BrowserTakeoverRequest)
  | next (now : ℕ)

inductive Change
  | registry (r : SessionRegistry)
  | broker (b : Broker)

def answered (a : Answer) : Thread := ⟨.idle, some a⟩

namespace World
variable (w : World) (correlationId : String)

variable (r : BrowserInteractRequest)

def checkSession : World × Thread :=
  match checkInteract correlationId r with
  | .error e => (w, answered (.interacted (.error e)))
  | .ok _ =>
    let w' := { w with bridge := w.bridge.openRegistry }
    match w.bridge.checkSession correlationId r.sessionId with
    | .error e => (w', answered (.interacted (.error e)))
    | .ok _ => (w', ⟨.checked r w.returned, none⟩)

def gate (before : List String) (now : ℕ) : World × Thread :=
  match gateInteract correlationId w.broker now r.agent with
  | .error e => (w, answered (.interacted (.error e)))
  | .ok _ => (w, ⟨.gated r before, none⟩)

def bindAgent : World × Thread :=
  ({ w with bridge := w.bridge.bindAgent r.sessionId r.agent }, answered (.interacted (.ok ())))

def mark (r : BrowserTakeoverRequest) : World × Thread :=
  if r.isValid = false then (w, answered (.tookOver (.error (.malformed correlationId))))
  else
    match w.bridge.get correlationId r.sessionId with
    | .error e =>
      ({ w with bridge := w.bridge.openRegistry }, answered (.tookOver (.error e)))
    | .ok session =>
      ({ w with bridge := w.bridge.markHuman r.sessionId },
        ⟨.marked session r.sessionId (w.bridge.boundActivations r.sessionId), none⟩)

def revoke (session : BrowserSession) (sessionId : String) (bound : List String) (now : ℕ) :
    World × Thread :=
  ({ w with
      broker := revokeBound now bound w.broker
      returned := sessionId :: w.returned },
    answered (.tookOver (.ok session)))

def next (t : Thread) (now : ℕ) : World × Thread :=
  match t.task with
  | .idle => (w, t)
  | .checked r before => w.gate correlationId r before now
  | .gated r _ => w.bindAgent r
  | .marked session sessionId bound => w.revoke session sessionId bound now

def act (t : Thread) : Input → World × Thread
  | .interact r =>
    match t.task with
    | .idle => w.checkSession correlationId r
    | _ => (w, t)
  | .takeOver r =>
    match t.task with
    | .idle => w.mark correlationId r
    | _ => (w, t)
  | .next now => w.next correlationId t now

def change : Change → World
  | .registry r => { w with bridge := { w.bridge with registry := some r } }
  | .broker b => { w with broker := b }

end World

abbrev Event := Interleaving.Event Input Change

variable (correlationId : String) {t : Thread}

def step : Interleaving.Pool World Thread → Event → Interleaving.Pool World Thread :=
  Interleaving.step (fun w t => w.act correlationId t) change

def start (broker : Broker) : Interleaving.Pool World Thread :=
  ⟨⟨.default, broker, []⟩, fun _ => ⟨.idle, none⟩⟩

def run (broker : Broker) (events : List Event) : Interleaving.Pool World Thread :=
  Runs.run (step correlationId) (start broker) events

section
variable (w : World) (now : ℕ)

end

def Controlled (w : World) : Prop := ∀ sessionId ∈ w.returned, sessionId ∈ w.bridge.humanControlled

inductive Task.Kept (w : World) : Task → Prop
  | idle : Kept w .idle
  | checked (r : BrowserInteractRequest) (before : List String) (free : r.sessionId ∉ before) :
      Kept w (.checked r before)
  | gated (r : BrowserInteractRequest) (before : List String) (free : r.sessionId ∉ before) :
      Kept w (.gated r before)
  | marked (session : BrowserSession) (sessionId : String) (bound : List String)
      (human : sessionId ∈ w.bridge.humanControlled) : Kept w (.marked session sessionId bound)

theorem Task.Kept.mono {w w' : World} {task : Task} (h : task.Kept w)
    (hhm : ∀ id ∈ w.bridge.humanControlled, id ∈ w'.bridge.humanControlled) : task.Kept w' := by
  cases h with
  | idle => exact .idle
  | checked r bef free => exact .checked r bef free
  | gated r bef free => exact .gated r bef free
  | marked ses id bound human => exact .marked ses id bound (hhm id human)

structure Sound (w : World) (r : World × Thread) : Prop where
  controlled : Controlled r.1
  human : ∀ id ∈ w.bridge.humanControlled, id ∈ r.1.bridge.humanControlled
  kept : r.2.task.Kept r.1

section
variable {w : World} (hw : Controlled w)
include hw

theorem sound_stay (ht : t.task.Kept w) : Sound w (w, t) := ⟨hw, fun _ h => h, ht⟩

theorem sound_checkSession (r : BrowserInteractRequest) :
    Sound w (w.checkSession correlationId r) := by
  rw [checkSession]
  cases checkInteract correlationId r with
  | error e => exact sound_stay hw .idle
  | ok _ =>
    cases hch : w.bridge.checkSession correlationId r.sessionId with
    | error e => exact ⟨hw, fun _ h => h, .idle⟩
    | ok _ =>
      refine ⟨hw, fun _ h => h, .checked r w.returned ?_⟩
      intro hret
      rw [BrowserBridge.checkSession] at hch
      cases hget : w.bridge.get correlationId r.sessionId with
      | error e => simp [hget] at hch
      | ok ses => simp [hget, hw _ hret] at hch

theorem sound_gate {r : BrowserInteractRequest} {bef : List String}
    (hfr : r.sessionId ∉ bef) (now : ℕ) : Sound w (w.gate correlationId r bef now) := by
  rw [gate]
  cases gateInteract correlationId w.broker now r.agent with
  | error e => exact sound_stay hw .idle
  | ok _ => exact sound_stay hw (.gated r bef hfr)

theorem sound_bindAgent (r : BrowserInteractRequest) : Sound w (w.bindAgent r) :=
  ⟨hw, fun _ h => h, .idle⟩

theorem sound_mark (r : BrowserTakeoverRequest) : Sound w (w.mark correlationId r) := by
  rw [mark]
  split_ifs
  · exact sound_stay hw .idle
  cases w.bridge.get correlationId r.sessionId with
  | error e => exact ⟨hw, fun _ h => h, .idle⟩
  | ok ses =>
    exact ⟨fun id hid => mem_cons_of_mem _ (hw id hid),
      fun _ h => mem_cons_of_mem _ h, .marked _ _ _ mem_cons_self⟩

theorem sound_revoke {ses : BrowserSession} {sid : String} {bound : List String}
    (hhm : sid ∈ w.bridge.humanControlled) (now : ℕ) : Sound w (w.revoke ses sid bound now) := by
  refine ⟨?_, fun _ h => h, .idle⟩
  intro id hid
  rcases mem_cons.mp hid with heq | hold
  · exact heq ▸ hhm
  · exact hw id hold

theorem sound_next (ht : t.task.Kept w) (now : ℕ) : Sound w (w.next correlationId t now) := by
  rw [World.next]
  cases hts : t.task with
  | idle => exact sound_stay hw ht
  | checked r bef =>
    rw [hts] at ht
    cases ht with
    | checked _ _ free => exact sound_gate correlationId hw free now
  | gated r bef => exact sound_bindAgent hw r
  | marked ses sid bound =>
    rw [hts] at ht
    cases ht with
    | marked _ _ _ human => exact sound_revoke hw human now

theorem sound_act (ht : t.task.Kept w) (input : Input) : Sound w (w.act correlationId t input) := by
  cases input with
  | interact r =>
    rw [act]
    cases hts : t.task with
    | idle => exact sound_checkSession correlationId hw r
    | checked _ _ | gated _ _ | marked _ _ _ => exact sound_stay hw ht
  | takeOver r =>
    rw [act]
    cases hts : t.task with
    | idle => exact sound_mark correlationId hw r
    | checked _ _ | gated _ _ | marked _ _ _ => exact sound_stay hw ht
  | next now => exact sound_next correlationId hw ht now

end

theorem holds_run (brk : Broker) (evs : List Event) :
    Interleaving.Holds Controlled (fun w t => t.task.Kept w) (run correlationId brk evs) := by
  change Interleaving.Holds Controlled (fun w t => t.task.Kept w) (Runs.run
    (Interleaving.step (fun w t => w.act correlationId t) change) (start brk) evs)
  refine Interleaving.holds_run ?_ ?_ ?_ ?_ evs ⟨?_, fun _ => .idle⟩
  · intro w t input hw ht
    have hsn := sound_act correlationId hw ht input
    exact ⟨hsn.controlled, hsn.kept⟩
  · intro w t input t' hw ht ht'
    exact ht'.mono (sound_act correlationId hw ht input).human
  · intro w e hw
    cases e <;> exact hw
  · intro w e t hw ht
    cases e <;> exact ht.mono fun _ h => h
  · intro id hid
    exact absurd hid not_mem_nil

def Authorises (p : Interleaving.Pool World Thread) (e : Event) (r : BrowserInteractRequest)
    (before : List String) : Prop :=
  ∃ t now, e = .act t (.next now) ∧ (p.thread t).task = .gated r before

/-- No interaction returns Ok on a session whose takeover has returned, exactly when
none does with the takeover returning after its session check. -/
theorem out_after_takeover_iff (broker : Broker) (events : List Event) :
    Runs.Along (step correlationId) (fun p e => ∀ r before, Authorises p e r before →
      r.sessionId ∉ p.shared.returned) (start broker) events ↔
    Runs.Along (step correlationId) (fun p e => ∀ r before, Authorises p e r before →
      ¬ (r.sessionId ∈ p.shared.returned ∧ r.sessionId ∉ before)) (start broker) events := by
  refine Runs.along_congr ?_ events
  intro xs e
  constructor
  · intro hall r before hat hov
    exact hall r before hat hov.1
  · intro hall r before hat hrt
    refine hall r before hat ⟨hrt, ?_⟩
    obtain ⟨t, now, -, hts⟩ := hat
    have hkp : ((Runs.run (step correlationId) (start broker) xs).thread t).task.Kept _ :=
      (holds_run correlationId broker xs).2 t
    rw [hts] at hkp
    cases hkp with
    | gated _ _ free => exact free

def sampleIdentity : AgentIdentity := ⟨"agent-1", "act-1", 1, ⟨none, some "ws", [], []⟩⟩

def sampleInteract : BrowserInteractRequest :=
  ⟨1, "brw-1000-1", "agent_automation", "click", some "#go", none, none, none, none, sampleIdentity⟩

def sampleTakeover : BrowserTakeoverRequest := ⟨1, "brw-1000-1", "human"⟩

def sampleBroker : Broker :=
  { Broker.empty with
    grants := (∅ : Table CapabilityId CapabilityGrant).insert browserCapability
      ⟨browserCapability, "v1alpha1", Scope.unrestricted, "agent-1", 1, 0⟩
    leases := (∅ : Table String Lease).insert "lease-1"
      ⟨"lease-1", browserCapability, "agent-1", 1, Scope.unrestricted, 1000, none⟩ }

def sampleEvents : List Event :=
  [.surroundings (.registry (SessionRegistry.new.create 1000).2), .act 0 (.interact sampleInteract),
    .act 0 (.next 0), .act 1 (.takeOver sampleTakeover), .act 1 (.next 0)]

theorem sample_overtaken : (run "" sampleBroker sampleEvents).shared.returned = ["brw-1000-1"] ∧
      ((run "" sampleBroker sampleEvents).thread 0).task = .gated sampleInteract [] := by
  decide +kernel

/-- The takeover comes and returns between the gate of an interaction and its last
step. -/
theorem authorised_after_takeover :
    ¬ Runs.Along (step "") (fun p e => ∀ r before, Authorises p e r before →
      r.sessionId ∉ p.shared.returned) (start sampleBroker)
      (sampleEvents ++ [.act 0 (.next 0)]) := by
  intro hall
  rw [Runs.along_iff_forall_split] at hall
  obtain ⟨hrt, hts⟩ := sample_overtaken
  have hout := hall sampleEvents (.act 0 (.next 0)) [] rfl sampleInteract [] ⟨0, 0, rfl, hts⟩
  refine hout ?_
  change "brw-1000-1" ∈ (run "" sampleBroker sampleEvents).shared.returned
  exact mem_singleton_self _

end DshDesktop.Shell.Takeover

namespace DshDesktop.Shell.Revocation
open Browser Supervisor Option Function

inductive Op
  | interact (now : ℕ) (r : BrowserInteractRequest)
  | takeOver (now : ℕ) (r : BrowserTakeoverRequest)
  | registry (r : SessionRegistry)
  | broker (b : Broker)

structure World where
  state : BrowserState
  recent : String → List AgentIdentity
  ever : String → List AgentIdentity

variable (correlationId : String)

def World.interact (w : World) (now : ℕ) (r : BrowserInteractRequest) : World :=
  match w.state.authorizeInteract correlationId now r with
  | (.error _, s) => { w with state := s }
  | (.ok _, s) =>
    { state := s
      recent := update w.recent r.sessionId (r.agent :: w.recent r.sessionId)
      ever := update w.ever r.sessionId (r.agent :: w.ever r.sessionId) }

def World.takeOver (w : World) (now : ℕ) (r : BrowserTakeoverRequest) : World :=
  match w.state.takeOverBrowser correlationId now r with
  | (.error _, s) => { w with state := s }
  | (.ok _, s) => { w with state := s, recent := update w.recent r.sessionId [] }

def step (w : World) : Op → World
  | .interact now r => w.interact correlationId now r
  | .takeOver now r => w.takeOver correlationId now r
  | .registry r =>
    { w with state := { w.state with bridge := { w.state.bridge with registry := some r } } }
  | .broker b => { w with state := { w.state with broker := b } }

variable (broker : Broker) {b : Broker}

def start : World := ⟨⟨.default, broker⟩, fun _ => [], fun _ => []⟩

def run (ops : List Op) : World := Runs.run (step correlationId) (start broker) ops

def Bound (w : World) : Prop :=
  ∀ sessionId, w.state.bridge.bindings.lookup sessionId =
    (w.recent sessionId).head?.map agentBindingFrom

theorem bound_interact {w : World} (hw : Bound w) (now : ℕ) (r : BrowserInteractRequest) :
    Bound (w.interact correlationId now r) := by
  rw [World.interact, BrowserState.authorizeInteract]
  cases checkInteract correlationId r with
  | error e => exact hw
  | ok _ =>
    cases w.state.bridge.checkSession correlationId r.sessionId with
    | error e => exact hw
    | ok _ =>
      cases gateInteract correlationId w.state.broker now r.agent with
      | error e => exact hw
      | ok _ =>
        intro sessionId
        change (w.state.bridge.bindings.insert r.sessionId (agentBindingFrom r.agent)).lookup
          sessionId = (update w.recent r.sessionId _ sessionId).head?.map agentBindingFrom
        rw [Table.lookup_insert_ite]
        split_ifs with hss
        · rw [hss, update_self]
          rfl
        · rw [update_of_ne hss]
          exact hw sessionId

theorem bound_takeOver {w : World} (hw : Bound w) (now : ℕ) (r : BrowserTakeoverRequest) :
    Bound (w.takeOver correlationId now r) := by
  rw [World.takeOver, BrowserState.takeOverBrowser]
  split_ifs with hvalid
  · exact hw
  cases w.state.bridge.get correlationId r.sessionId with
  | error e => exact hw
  | ok session =>
    intro sessionId
    change (w.state.bridge.bindings.erase r.sessionId).lookup sessionId =
      (update w.recent r.sessionId [] sessionId).head?.map agentBindingFrom
    rw [Table.lookup_erase_ite]
    split_ifs with hss
    · rw [hss, update_self]
      rfl
    · rw [update_of_ne hss]
      exact hw sessionId

theorem bound_run (ops : List Op) : Bound (run correlationId broker ops) := by
  refine Runs.run_invariant Bound ?_ ops ?_
  · intro w op hw
    cases op with
    | interact now r => exact bound_interact correlationId hw now r
    | takeOver now r => exact bound_takeOver correlationId hw now r
    | registry r | broker b => exact hw
  · intro sessionId
    rfl

/-- Every lease of an agent and generation authorised on the session since the last
takeover is revoked in `after`, and no lease of an agent never authorised there has
been touched. -/
def RevokesExactly (w : World) (sessionId : String) (after : Broker) : Prop :=
  (∀ a ∈ w.recent sessionId, ∀ id l, after.leases.lookup id = some l → l.owner = a.agentId →
    l.generation = a.generation → l.revoked ≠ none) ∧
  ∀ id l, w.state.broker.leases.lookup id = some l → l.revoked = none →
    (∀ a ∈ w.ever sessionId, a.agentId ≠ l.owner) → after.leases.lookup id = some l

/-- The activation id of the last authorised interaction is, by the broker's records,
that of every agent and generation authorised on the session that still has a lease,
and of no agent with a lease that was never authorised there. -/
def LastSpeaksForAll (w : World) (sessionId : String) : Prop :=
  ∀ last ∈ (w.recent sessionId).head?,
    (∀ a ∈ w.recent sessionId, ∀ id l, w.state.broker.leases.lookup id = some l →
      l.owner = a.agentId → l.generation = a.generation → l.revoked = none →
      w.state.broker.agentGeneration a.agentId last.activationId = some a.generation) ∧
    ∀ id l, w.state.broker.leases.lookup id = some l → l.revoked = none →
      (∀ a ∈ w.ever sessionId, a.agentId ≠ l.owner) →
      w.state.broker.agentGeneration l.owner last.activationId ≠ some l.generation

def TakesOver (w : World) (op : Op) (sessionId : String) (after : Broker) : Prop :=
  ∃ now r session s, op = .takeOver now r ∧ sessionId = r.sessionId ∧ after = s.broker ∧
    w.state.takeOverBrowser correlationId now r = (.ok session, s)

section
variable {w : World} {sid x : String} {now : ℕ} {id : String} {l : Lease}

theorem lookup_revoked (hl : b.leases.lookup id = some l)
    (hgl : b.agentGeneration l.owner x = some l.generation) :
    (b.revokeAgentGrants now x .humanTakeover).2.leases.lookup id =
      some (Broker.revokeLease ⟨.humanTakeover, now⟩ l) := by
  rw [Broker.revokeAgentGrants_leases, hl, map_some, if_pos hgl]

theorem lookup_spared (hl : b.leases.lookup id = some l)
    (hgl : b.agentGeneration l.owner x ≠ some l.generation) :
    (b.revokeAgentGrants now x .humanTakeover).2.leases.lookup id = some l := by
  rw [Broker.revokeAgentGrants_leases, hl, map_some, if_neg hgl]

theorem all_revoked_iff {b : Broker} {a : AgentIdentity} :
    (∀ id l, (b.revokeAgentGrants now x .humanTakeover).2.leases.lookup id = some l →
      l.owner = a.agentId → l.generation = a.generation → l.revoked ≠ none) ↔
    ∀ id l, b.leases.lookup id = some l → l.owner = a.agentId → l.generation = a.generation →
      l.revoked = none → b.agentGeneration a.agentId x = some a.generation := by
  constructor
  · intro hall id l hl how hgen hlv
    by_contra hgl
    rw [← how, ← hgen] at hgl
    exact hall id l (lookup_spared hl hgl) how hgen hlv
  · intro hall id l' hl' how hgen
    rw [Broker.revokeAgentGrants_leases, map_eq_some_iff] at hl'
    obtain ⟨l, hl, rfl⟩ := hl'
    split_ifs at how hgen ⊢ with hgl
    · exact Broker.revokeLease_revoked _ l
    · intro hlv
      have hsome := hall id l hl how hgen hlv
      rw [← how, ← hgen] at hsome
      exact hgl hsome

theorem spared_iff (hl : b.leases.lookup id = some l) (hlv : l.revoked = none) :
    (b.revokeAgentGrants now x .humanTakeover).2.leases.lookup id = some l ↔
      b.agentGeneration l.owner x ≠ some l.generation := by
  constructor
  · intro heq hgl
    rw [lookup_revoked hl hgl] at heq
    exact Broker.revokeLease_revoked ⟨.humanTakeover, now⟩ l
      ((congrArg Lease.revoked (some.inj heq)).trans hlv)
  · exact lookup_spared hl

theorem revokesExactly_iff {last : AgentIdentity} (hlast : (w.recent sid).head? = some last) :
    RevokesExactly w sid
        (w.state.broker.revokeAgentGrants now last.activationId .humanTakeover).2 ↔
      LastSpeaksForAll w sid := by
  constructor
  · intro h last' hlast'
    obtain rfl := some.inj (hlast.symm.trans hlast')
    refine ⟨?_, ?_⟩
    · intro a ha
      exact all_revoked_iff.mp (h.1 a ha)
    · intro id l hl hlv hnv
      exact (spared_iff hl hlv).mp (h.2 id l hl hlv hnv)
  · intro h
    obtain ⟨hall, hsp⟩ := h last hlast
    refine ⟨?_, ?_⟩
    · intro a ha
      exact all_revoked_iff.mpr (hall a ha)
    · intro id l hl hlv hnv
      exact (spared_iff hl hlv).mpr (hsp id l hl hlv hnv)

theorem revokesExactly_idle (hnn : w.recent sid = []) : RevokesExactly w sid w.state.broker := by
  refine ⟨?_, fun id l hl _ _ => hl⟩
  intro a ha
  rw [hnn] at ha
  exact absurd ha List.not_mem_nil

theorem takesOver_iff (hw : Bound w) {op : Op} {after : Broker}
    (h : TakesOver correlationId w op sid after) :
    RevokesExactly w sid after ↔ LastSpeaksForAll w sid := by
  obtain ⟨now, r, session, s, -, rfl, rfl, hcall⟩ := h
  obtain rfl := BrowserState.takeOverBrowser_ok hcall
  rw [BrowserBridge.boundActivations, hw r.sessionId]
  cases hrecent : w.recent r.sessionId with
  | nil =>
    refine iff_of_true (revokesExactly_idle hrecent) ?_
    intro last hlast
    rw [hrecent] at hlast
    exact absurd hlast (by simp)
  | cons last rest => exact revokesExactly_iff (by rw [hrecent]; rfl)

end

/-- Every takeover of the run revokes exactly the authority used on its session, if
and only if at each of them the last activation id stands for all of it and for
nothing else. -/
theorem takeover_revokes_exactly_iff (broker : Broker) (ops : List Op) :
    Runs.Along (step correlationId) (fun w op => ∀ sessionId after,
      TakesOver correlationId w op sessionId after → RevokesExactly w sessionId after)
      (start broker) ops ↔
    Runs.Along (step correlationId) (fun w op => ∀ sessionId after,
      TakesOver correlationId w op sessionId after → LastSpeaksForAll w sessionId)
      (start broker) ops := by
  refine Runs.along_congr ?_ ops
  intro xs op
  have hbn := bound_run correlationId broker xs
  constructor
  · intro hall sessionId after h
    exact (takesOver_iff correlationId hbn h).mp (hall sessionId after h)
  · intro hall sessionId after h
    exact (takesOver_iff correlationId hbn h).mpr (hall sessionId after h)

def sampleBroker : Broker :=
  { Takeover.sampleBroker with
    leases := Takeover.sampleBroker.leases.insert "lease-2"
      ⟨"lease-2", ⟨"terminal.dsh-desktop.local/v1alpha1", "Terminal"⟩, "agent-2", 1,
        Scope.unrestricted, 1000, none⟩
    agentActivations := ((∅ : Table String (Table String AgentActivationState)).insert "agent-1"
      ((∅ : Table String AgentActivationState).insert "act-1" ⟨1, false⟩)).insert "agent-2"
      ((∅ : Table String AgentActivationState).insert "act-2" ⟨1, false⟩) }

def sampleInteract : BrowserInteractRequest :=
  { Takeover.sampleInteract with agent := { Takeover.sampleIdentity with activationId := "act-2" } }

def sampleOps : List Op :=
  [.registry (SessionRegistry.new.create 1000).2, .interact 0 sampleInteract]

def sampleTakeover : BrowserTakeoverRequest := ⟨1, "brw-1000-1", "human"⟩

theorem sample_takeover :
    let w := run "" sampleBroker sampleOps
    let (result, s) := w.state.takeOverBrowser "" 0 sampleTakeover
    w.recent "brw-1000-1" = [sampleInteract.agent] ∧
      result = .ok (SessionRegistry.createdSession 1000 "brw-1000-1") ∧
      s.broker.leases.lookup "lease-1" =
        some ⟨"lease-1", browserCapability, "agent-1", 1, Scope.unrestricted, 1000, none⟩ ∧
      (s.broker.leases.lookup "lease-2").map Lease.isRevoked = some true := by
  decide +kernel

theorem takeover_misses_the_agent : ¬ Runs.Along (step "") (fun w op => ∀ sessionId after,
      TakesOver "" w op sessionId after → RevokesExactly w sessionId after)
      (start sampleBroker) (sampleOps ++ [.takeOver 0 sampleTakeover]) := by
  intro hall
  rw [Runs.along_iff_forall_split] at hall
  obtain ⟨hrecent, hrs, hlease, -⟩ := sample_takeover
  obtain ⟨hrv, -⟩ := hall sampleOps (.takeOver 0 sampleTakeover) [] rfl "brw-1000-1" _
    ⟨0, sampleTakeover, _, _, rfl, rfl, rfl, Prod.ext hrs rfl⟩
  have hmem : sampleInteract.agent ∈ (run "" sampleBroker sampleOps).recent "brw-1000-1" :=
    hrecent ▸ List.mem_singleton_self _
  exact hrv sampleInteract.agent hmem "lease-1" _ hlease rfl rfl rfl

end DshDesktop.Shell.Revocation
