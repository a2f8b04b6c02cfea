import DshDesktop.Daemon.Server

/-!
# Serving one connection

`serve_connection` as a state machine: the receive loop with one frame a step, the end of
the stream, the writer thread stopping on a failed event send, and the actions after the
loop one by one. Between two steps other threads act on the shared state, under keys of
their own.
-/

namespace DshDesktop.Daemon
open Supervisor

variable {η : Type}

inductive ServePhase
  | receiving
  | aborting
  | joining
  | reissuing
  | releasing
  | revoking
  | returned
  deriving DecidableEq

structure Connection (η : Type) where
  key : ℕ
  phase : ServePhase
  writerAlive : Bool
  exchange : Exchange η

def openConnection (identity : Option PeerIdentity) (d : DaemonState η) : Connection η where
  key := d.events.register.1
  phase := .receiving
  writerAlive := true
  exchange := ⟨SessionState.new identity, { d with events := d.events.register.2 }⟩

def issueCredential (d : DaemonState η) (issuedAt sweptAt : UnixTime) (token : String) :
    IssuedCredential × DaemonState η :=
  let credential : IssuedCredential := ⟨issuedAt.asNanos + leaseMaxSeconds * 1000000000, false⟩
  let kept := d.credentials.retain fun _ entry => !entry.used && sweptAt.asNanos < entry.expiresAt
  (credential, { d with
    credentials := kept.insert token credential
    credentialsIssued := d.credentialsIssued + 1 })

def issueBootstrapCredentialFile (server : ServerConfig) (clock : ℕ → UnixTime) (token : String)
    (written : Bool) (d : DaemonState η) : Except Unit (Option CredentialFile) × DaemonState η :=
  match server.credentialDir with
  | none => (.ok none, d)
  | some _ =>
    let (credential, d') := issueCredential d (clock 0) (clock 1) token
    let file : CredentialFile := ⟨token, credential.expiresAt, (clock 2).asNanos⟩
    if written then
      (.ok (some file), { d' with
        credentialFile := some file
        fileCredentialExpiry := some credential.expiresAt })
    else (.error (), d')

def releaseConnectionOwnership (d : DaemonState η) (key : ℕ) : DaemonState η :=
  { d with browserOwners := d.browserOwners.retain fun _ owner => owner ≠ key }

def revokeActivations (clock : ℕ → UnixTime) (ids : List String) (broker : Broker) : Broker :=
  ids.zipIdx.foldl
    (fun b id => (b.revokeAgentGrants (clock id.2).unixMs id.1 .disconnect).2) broker

namespace Connection

variable (c : Connection η)

def updateDaemon (f : DaemonState η → DaemonState η) : Connection η :=
  { c with exchange := { c.exchange with daemon := f c.exchange.daemon } }

def stopWriter : Connection η :=
  if c.writerAlive then
    { c.updateDaemon (fun d => { d with events := d.events.unsubscribeAll c.key }) with
      writerAlive := false }
  else c

def joinWriter (next : ServePhase) : Connection η :=
  { c.stopWriter with phase := next }

def reissueCredentialFile (server : ServerConfig) (clock : ℕ → UnixTime) (token : String)
    (written : Bool) (c : Connection η) : Connection η :=
  { c.updateDaemon fun d => (issueBootstrapCredentialFile server clock token written d).2 with
    phase := .releasing }

def releaseOwnership : Connection η :=
  { c.updateDaemon fun d => releaseConnectionOwnership d c.key with phase := .revoking }

def revokeLeases (clock : ℕ → UnixTime) (c : Connection η) : Connection η :=
  { c.updateDaemon fun d => { d with
      broker := revokeActivations clock (c.exchange.session.activations.keys) d.broker } with
    phase := .returned }

def advance (server : ServerConfig) (clock : ℕ → UnixTime) (token : String) (written : Bool)
    (c : Connection η) : Connection η :=
  match c.phase with
  | .receiving | .returned => c
  | .aborting => c.joinWriter .returned
  | .joining => c.joinWriter .reissuing
  | .reissuing => c.reissueCredentialFile server clock token written
  | .releasing => c.releaseOwnership
  | .revoking => c.revokeLeases clock

end Connection

inductive PeerAction (η : Type)
  | register
  | subscribe (sessionId : String)
  | unsubscribe (sessionId : String)
  | publish (event : RouterEvent)
  | unsubscribeAll
  | own (sessionId : String)
  | disown (sessionId : String)
  | releaseOwnership
  | broker (b : Broker)
  | countId
  | transport (credentials : Table String IssuedCredential) (issued : ℕ)
      (file : Option CredentialFile) (expiry : Option ℕ)
  | host (h : η)

def PeerAction.apply (actor : ℕ) (d : DaemonState η) : PeerAction η → DaemonState η
  | register => { d with events := d.events.register.2 }
  | subscribe sessionId => { d with events := d.events.subscribe actor sessionId }
  | unsubscribe sessionId => { d with events := d.events.unsubscribe actor sessionId }
  | publish event => { d with events := d.events.publish event }
  | unsubscribeAll => { d with events := d.events.unsubscribeAll actor }
  | own sessionId => { d with browserOwners := d.browserOwners.insert sessionId actor }
  | disown sessionId => { d with browserOwners := d.browserOwners.erase sessionId }
  | releaseOwnership => releaseConnectionOwnership d actor
  | broker b => { d with broker := b }
  | countId => { d with idCounter := d.idCounter + 1 }
  | transport credentials issued file expiry =>
    { d with
      credentials := credentials
      credentialsIssued := issued
      credentialFile := file
      fileCredentialExpiry := expiry }
  | host h => { d with host := h }

/-- A frame comes with the success of each send of its replies. -/
inductive ServeEvent (η : Type)
  | frame (bytes : List UInt8) (sur : Surroundings η) (sends : ℕ → Bool)
  | disconnected
  | eventSendFails
  | advance (clock : ℕ → UnixTime) (token : String) (written : Bool)
  | peer (actor : ℕ) (action : PeerAction η)

def allSent (sends : ℕ → Bool) (replies : List Envelope) : Bool :=
  (List.range replies.length).all sends

variable (server : ServerConfig) (lib : JsonLibrary)

def Connection.receive (bytes : List UInt8)
    (sur : Surroundings η) (sends : ℕ → Bool) (c : Connection η) : Connection η :=
  let outcome := handleFrame server lib sur c.key c.exchange bytes
  { c with
    exchange := outcome.exchange
    phase := if allSent sends outcome.replies then .receiving else .aborting }

/-- A thread that has returned takes no further step, and nothing done by others
afterwards is observed. -/
def serveStep (c : Connection η) : ServeEvent η → Connection η
  | .frame bytes sur sends =>
    if c.phase = .receiving then c.receive server lib bytes sur sends else c
  | .disconnected => if c.phase = .receiving then { c with phase := .joining } else c
  | .eventSendFails => if c.phase = .returned then c else c.stopWriter
  | .advance clock token written => c.advance server clock token written
  | .peer actor action =>
    if c.phase = .returned ∨ actor = c.key then c
    else c.updateDaemon fun d => action.apply actor d

def serve (c : Connection η)
    (events : List (ServeEvent η)) : Connection η :=
  Runs.run (serveStep server lib) c events

open Supervisor ServePhase

variable {η : Type} (clock : ℕ → UnixTime) (act : PeerAction η)

def LeasesRevoked (broker : Broker) (activationId : String) : Prop :=
  ∀ id l, broker.leases.lookup id = some l →
    broker.agentGeneration l.owner activationId = some l.generation → l.revoked ≠ none

section
variable {brk : Broker} {now : ℕ} {x y : String} {rsn : LeaseRevocationReason}

theorem leasesRevoked_revokeAgentGrants (h : y = x ∨ LeasesRevoked brk x) :
    LeasesRevoked (brk.revokeAgentGrants now y rsn).2 x := by
  intro id l hl hgen
  rw [Broker.revokeAgentGrants_leases, Option.map_eq_some_iff] at hl
  obtain ⟨l₀, hl₀, rfl⟩ := hl
  rw [Broker.revokeAgentGrants_agentGeneration] at hgen
  split_ifs with hy
  · exact Broker.revokeLease_revoked _ _
  · rw [if_neg hy] at hgen
    rcases h with rfl | h
    · exact absurd hgen hy
    · exact h id l₀ hl₀ hgen

theorem revokeActivations_leasesRevoked {ids : List String} (hx : x ∈ ids) :
    LeasesRevoked (revokeActivations clock ids brk) x := by
  have hlp (ids : List (String × ℕ)) (b : Broker)
      (h : LeasesRevoked b x ∨ x ∈ ids.map Prod.fst) :
      LeasesRevoked (ids.foldl
        (fun b id => (b.revokeAgentGrants (clock id.2).unixMs id.1 .disconnect).2) b) x := by
    induction ids generalizing b with
    | nil => simpa using h
    | cons id ids ih =>
      refine ih _ ?_
      rcases h with h | h
      · exact Or.inl (leasesRevoked_revokeAgentGrants (Or.inr h))
      · rcases List.mem_cons.mp h with rfl | h
        · exact Or.inl (leasesRevoked_revokeAgentGrants (Or.inl rfl))
        · exact Or.inr h
  refine hlp _ _ (Or.inr ?_)
  rw [List.zipIdx_map_fst]
  exact hx

end

def Unowned (d : DaemonState η) (key : ℕ) : Prop :=
  ∀ sessionId, d.browserOwners.lookup sessionId ≠ some key

theorem releaseConnectionOwnership_unowned {d : DaemonState η} {key : ℕ} :
    Unowned (releaseConnectionOwnership d key) key := by
  intro sid h
  have hrt := (Table.lookup_retain_some.mp h).2
  simp at hrt

structure TornDown (c : Connection η) : Prop where
  leases_revoked : ∀ x a, c.exchange.session.activations.lookup x = some a →
    LeasesRevoked c.exchange.daemon.broker x
  ownership_released : Unowned c.exchange.daemon c.key
  unsubscribed : c.exchange.daemon.events.Unsubscribed c.key

/-- The step puts a new credential into the registry and, if the file can be written, into
the file. -/
def IssuesCredential (server : ServerConfig) (lib : JsonLibrary) (c : Connection η) :
    ServeEvent η → Prop
  | .advance clock token written =>
    let after := (serveStep server lib c (.advance clock token written)).exchange.daemon
    let expiresAt := (clock 0).asNanos + leaseMaxSeconds * 1000000000
    after.credentials.lookup token = some ⟨expiresAt, false⟩ ∧
      after.credentialsIssued = c.exchange.daemon.credentialsIssued + 1 ∧
      (written → after.credentialFile = some ⟨token, expiresAt, (clock 2).asNanos⟩)
  | _ => False

section
variable {d : DaemonState η} {key actor : ℕ}

theorem PeerAction.apply_unowned (hac : actor ≠ key) (h : Unowned d key) :
    Unowned (act.apply actor d) key := by
  cases act with
  | own sid =>
    intro s hs
    simp only [PeerAction.apply, Table.lookup_insert_ite] at hs
    split_ifs at hs
    · exact hac (Option.some.inj hs)
    · exact h s hs
  | disown sid =>
    intro s hs
    simp only [PeerAction.apply, Table.lookup_erase_ite] at hs
    split_ifs at hs
    exact h s hs
  | releaseOwnership =>
    intro s hs
    exact h s (Table.lookup_retain_some.mp hs).1
  | _ => exact h

theorem PeerAction.apply_unsubscribed (hac : actor ≠ key) (h : d.events.Unsubscribed key) :
    (act.apply actor d).events.Unsubscribed key := by
  cases act with
  | register => exact h.register
  | subscribe sid => exact h.subscribe hac
  | unsubscribe sid => exact h.unsubscribe
  | publish ev => exact h.publish ev
  | unsubscribeAll => exact h.unsubscribeAll
  | _ => exact h

end

def ServePhase.done : ServePhase → ℕ
  | receiving | aborting | joining => 0
  | reissuing => 1
  | releasing => 2
  | revoking => 3
  | returned => 4

structure Progress (c : Connection η) : Prop where
  not_aborting : c.phase ≠ .aborting
  joined : 1 ≤ c.phase.done → c.writerAlive = false
  unsubscribed : c.writerAlive = false → c.exchange.daemon.events.Unsubscribed c.key
  released : 3 ≤ c.phase.done → Unowned c.exchange.daemon c.key
  revoked : 4 ≤ c.phase.done → ∀ x a, c.exchange.session.activations.lookup x = some a →
    LeasesRevoked c.exchange.daemon.broker x

def CallsHost (lib : JsonLibrary) (sur : Surroundings η) (x : Exchange η) (bytes : List UInt8)
    (m : HostMethod) (payload : Json) : Prop :=
  ∃ env c method a, lib.readEnvelope bytes = .ok env ∧ env.id ∉ x.session.seenIds ∧
    validateEnvelope lib.shapeErrors env = .ok () ∧ env.kind = .invocation ∧
    env.capability = some c ∧ env.method = some method ∧
    gateInvocation sur.clock x env.participant c = .ok a ∧ HostMethod.find c method = some m ∧
    env.payload.getD .null = payload

/-- All replies of the frame are sent, and no host subscribes the connection to a
session in a call made after the writer has stopped. -/
def Orderly (server : ServerConfig) (lib : JsonLibrary) (c : Connection η) : ServeEvent η → Prop
  | .frame bytes sur sends => c.phase = .receiving →
      allSent sends (handleFrame server lib sur c.key c.exchange bytes).replies = true ∧
      (c.writerAlive = false → ∀ m payload, CallsHost lib sur c.exchange bytes m payload →
        (sur.hosts.call m c.exchange.daemon c.key payload).2.events.Unsubscribed c.key)
  | _ => True

section
variable {srv : ServerConfig} {lib : JsonLibrary} {sur : Surroundings η} {key : ℕ}
  {x : Exchange η} {env : Envelope}

theorem handleInvocation_unsubscribed (h : x.daemon.events.Unsubscribed key)
    (hcall : ∀ c mth a m, env.capability = some c → env.method = some mth →
      gateInvocation sur.clock x env.participant c = .ok a → HostMethod.find c mth = some m →
      (sur.hosts.call m x.daemon key (env.payload.getD .null)).2.events.Unsubscribed key) :
    (handleInvocation sur key x env).exchange.daemon.events.Unsubscribed key := by
  simp only [handleInvocation]
  split
  · rename_i c mth hc hm
    cases hgt : gateInvocation sur.clock x env.participant c with
    | error rfs => exact h
    | ok a =>
      simp only [runHandler_exchange, Exchange.countId, Exchange.countGeneration]
      rcases dispatch_state sur.hosts key c mth (env.payload.getD .null) x.daemon with
        heq | ⟨m, hfn, heq⟩
      · rwa [heq]
      · rw [heq]
        exact hcall c mth a m hc hm hgt hfn
  · exact h

theorem Handled.unsubscribed {bytes : List UInt8} {o : Outcome η}
    (hfr : Handled srv lib sur key x bytes o) (h : x.daemon.events.Unsubscribed key)
    (hcall : ∀ m pay, CallsHost lib sur x bytes m pay →
      (sur.hosts.call m x.daemon key pay).2.events.Unsubscribed key) :
    o.exchange.daemon.events.Unsubscribed key := by
  cases hfr with
  | hello hrd hsn hvl hkn =>
    rw [(handleHello_keeps ..).1]
    exact h
  | invocation hrd hsn hvl hkn =>
    refine handleInvocation_unsubscribed h fun c mth a m hc hm hgt hfn => ?_
    exact hcall m _ ⟨_, c, mth, a, hrd, hsn, hvl, hkn, hc, hm, hgt, hfn, rfl⟩
  | _ => exact h

end

section
variable {srv : ServerConfig} {lib : JsonLibrary} {c : Connection η}

theorem openConnection_progress {ident : Option PeerIdentity} {d : DaemonState η} :
    Progress (openConnection ident d) where
  not_aborting := by simp [openConnection]
  joined := by simp [openConnection, done]
  unsubscribed := by simp [openConnection]
  released := by simp [openConnection, done]
  revoked := by simp [openConnection, done]

theorem Progress.torn_down (h : Progress c) (hret : c.phase = .returned) : TornDown c := by
  have hdn : c.phase.done = 4 := by rw [hret]; rfl
  exact ⟨h.revoked (by omega), h.released (by omega), h.unsubscribed (h.joined (by omega))⟩

theorem stopWriter_cases : (c.writerAlive = false ∧ c.stopWriter = c) ∨
    (c.writerAlive ∧ c.stopWriter =
      { c.updateDaemon (fun d => { d with events := d.events.unsubscribeAll c.key }) with
        writerAlive := false }) := by
  cases h : c.writerAlive with
  | false => exact Or.inl ⟨rfl, by simp [Connection.stopWriter, h]⟩
  | true => exact Or.inr ⟨rfl, by simp [Connection.stopWriter, h]⟩

theorem Progress.stopWriter (h : Progress c) : Progress c.stopWriter := by
  rcases stopWriter_cases with ⟨-, heq⟩ | ⟨-, heq⟩
  · rw [heq]
    exact h
  · rw [heq]
    exact ⟨h.not_aborting, fun _ => rfl, fun _ => EventRouter.unsubscribeAll_unsubscribed _ _,
      h.released, h.revoked⟩

theorem stopWriter_joined : c.stopWriter.writerAlive = false := by
  rcases stopWriter_cases with ⟨hdd, heq⟩ | ⟨-, heq⟩
  · rw [heq]
    exact hdd
  · rw [heq]

theorem issueBootstrapCredentialFile_events (clock : ℕ → UnixTime) (token : String)
    (written : Bool) (d : DaemonState η) :
    (issueBootstrapCredentialFile srv clock token written d).2.events = d.events := by
  rw [issueBootstrapCredentialFile]
  cases srv.credentialDir with
  | none => rfl
  | some dir => cases written <;> rfl

theorem issuesCredential_of_reissuing (hdir : srv.credentialDir ≠ none)
    (hph : c.phase = .reissuing) (clock : ℕ → UnixTime) (token : String) (written : Bool) :
    IssuesCredential srv lib c (.advance clock token written) := by
  obtain ⟨dir, hd⟩ := Option.ne_none_iff_exists'.mp hdir
  simp only [IssuesCredential, serveStep, Connection.advance, hph,
    Connection.reissueCredentialFile, Connection.updateDaemon, issueBootstrapCredentialFile, hd]
  cases written with
  | false => exact ⟨AList.lookup_insert _, rfl, nofun⟩
  | true => exact ⟨AList.lookup_insert _, rfl, fun _ => rfl⟩

theorem Progress.joinWriter (h : Progress c) : Progress (c.joinWriter .reissuing) :=
  ⟨by simp [Connection.joinWriter], fun _ => stopWriter_joined, h.stopWriter.unsubscribed,
    by simp [Connection.joinWriter, done],
    by simp [Connection.joinWriter, done]⟩

theorem Progress.reissueCredentialFile (h : Progress c) (hph : c.phase = .reissuing)
    (clock : ℕ → UnixTime) (token : String) (written : Bool) :
    Progress (c.reissueCredentialFile srv clock token written) := by
  have hjn := h.joined (by simp [hph, done])
  refine ⟨by simp [Connection.reissueCredentialFile], fun _ => hjn, fun _ => ?_,
    by simp [Connection.reissueCredentialFile, done],
    by simp [Connection.reissueCredentialFile, done]⟩
  simp only [Connection.reissueCredentialFile, Connection.updateDaemon,
    issueBootstrapCredentialFile_events]
  exact h.unsubscribed hjn

theorem Progress.releaseOwnership (h : Progress c) (hph : c.phase = .releasing) :
    Progress c.releaseOwnership := by
  have hjn := h.joined (by simp [hph, done])
  exact ⟨by simp [Connection.releaseOwnership], fun _ => hjn,
    fun _ => h.unsubscribed hjn, fun _ => releaseConnectionOwnership_unowned,
    by simp [Connection.releaseOwnership, done]⟩

theorem Progress.revokeLeases (h : Progress c) (hph : c.phase = .revoking)
    (clock : ℕ → UnixTime) : Progress (c.revokeLeases clock) := by
  have hjn := h.joined (by simp [hph, done])
  have hrel := h.released (by simp [hph, done])
  refine ⟨by simp [Connection.revokeLeases], fun _ => hjn, fun _ => h.unsubscribed hjn,
    fun _ => hrel, fun _ x a hx => ?_⟩
  have hkey : x ∈ c.exchange.session.activations.keys :=
    AList.lookup_isSome.mp (Option.isSome_iff_exists.mpr ⟨a, hx⟩)
  exact revokeActivations_leasesRevoked _ hkey

theorem Progress.advance (h : Progress c) (clock : ℕ → UnixTime) (token : String) (wri : Bool) :
    Progress (c.advance srv clock token wri) := by
  simp only [Connection.advance]
  cases hph : c.phase with
  | receiving | returned => exact h
  | aborting => exact absurd hph h.not_aborting
  | joining => exact h.joinWriter
  | reissuing => exact h.reissueCredentialFile hph clock token wri
  | releasing => exact h.releaseOwnership hph
  | revoking => exact h.revokeLeases hph clock

theorem Progress.peer (h : Progress c) {actor : ℕ} (hac : actor ≠ c.key)
    (hph : c.phase ≠ .returned) (action : PeerAction η) :
    Progress (c.updateDaemon fun d => action.apply actor d) where
  not_aborting := h.not_aborting
  joined := h.joined
  unsubscribed hdead := action.apply_unsubscribed hac (h.unsubscribed hdead)
  released hdone := action.apply_unowned hac (h.released hdone)
  revoked hdone := by
    refine absurd ?_ hph
    cases hc : c.phase <;> simp_all [Connection.updateDaemon, done]

theorem Progress.step (e : ServeEvent η) (hok : Orderly srv lib c e) (h : Progress c) :
    Progress (serveStep srv lib c e) := by
  cases e with
  | frame bytes sur sends =>
    simp only [serveStep]
    split_ifs with hph
    · obtain ⟨hsn, hcalls⟩ := hok hph
      have hsub (hdd : c.writerAlive = false) :=
        (handleFrame_handled srv lib sur c.key c.exchange bytes).unsubscribed
          (h.unsubscribed hdd) (hcalls hdd)
      have hrecv : (c.receive srv lib bytes sur sends).phase = .receiving := if_pos hsn
      have hdn : (c.receive srv lib bytes sur sends).phase.done = 0 := by rw [hrecv]; rfl
      exact ⟨by rw [hrecv]; decide, by omega, hsub, by omega, by omega⟩
    · exact h
  | disconnected =>
    simp only [serveStep]
    split_ifs with hph
    · exact ⟨by simp, by simp [done], h.unsubscribed, by simp [done],
        by simp [done]⟩
    · exact h
  | eventSendFails =>
    simp only [serveStep]
    split_ifs
    · exact h
    · exact h.stopWriter
  | advance clock token wri => exact h.advance clock token wri
  | peer actor action =>
    simp only [serveStep]
    split_ifs with hsk
    · exact h
    · rw [not_or] at hsk
      exact h.peer hsk.2 hsk.1 action

theorem done_step (h : Progress c) (e : ServeEvent η) (hlt : c.phase.done < 2)
    (hne : ∀ clock token written, e = .advance clock token written → c.phase ≠ .reissuing) :
    (serveStep srv lib c e).phase.done < 2 := by
  cases e with
  | frame bytes sur sends =>
    simp only [serveStep, Connection.receive]
    split_ifs <;> first | exact hlt | simp [done]
  | disconnected =>
    simp only [serveStep]
    split_ifs
    · simp [done]
    · exact hlt
  | eventSendFails =>
    simp only [serveStep]
    split_ifs
    · exact hlt
    · rcases stopWriter_cases with ⟨-, heq⟩ | ⟨-, heq⟩ <;> rw [heq] <;> exact hlt
  | advance clock token written =>
    simp only [serveStep, Connection.advance]
    cases hph : c.phase with
    | receiving => simp [hph, done]
    | aborting => exact absurd hph h.not_aborting
    | joining => simp [Connection.joinWriter, done]
    | reissuing => exact absurd hph (hne clock token written rfl)
    | releasing | revoking | returned => simp [hph, done] at hlt
  | peer actor action =>
    simp only [serveStep]
    split_ifs <;> exact hlt

end

/-- In every run whose frames are all orderly, a returned connection has given
back everything it held, and one of its steps has issued a credential. -/
theorem returned_connection_is_torn_down (server : ServerConfig) (lib : JsonLibrary)
    (hdir : server.credentialDir ≠ none) (identity : Option PeerIdentity) (d : DaemonState η)
    (events : List (ServeEvent η))
    (hok : Runs.Along (serveStep server lib) (Orderly server lib)
      (openConnection identity d) events)
    (hret : (serve server lib (openConnection identity d) events).phase = .returned) :
    TornDown (serve server lib (openConnection identity d) events) ∧
      ∃ before event after, events = before ++ event :: after ∧
        IssuesCredential server lib
          (serve server lib (openConnection identity d) before) event := by
  have hprogress : Progress (serve server lib (openConnection identity d) events) :=
    Runs.run_invariant_along (Orderly server lib) Progress (fun _ e hok h => h.step e hok) hok
      openConnection_progress
  refine ⟨hprogress.torn_down hret, ?_⟩
  let leaves (c : Connection η) (e : ServeEvent η) :=
    ∃ clock token written, e = .advance clock token written ∧ c.phase = .reissuing
  rcases Runs.run_until (Orderly server lib) leaves (fun c => Progress c ∧ c.phase.done < 2)
    (fun c e hok hc hnl => ⟨hc.1.step e hok, done_step hc.1 e hc.2 fun clock token written he hph =>
      hnl ⟨clock, token, written, he, hph⟩⟩) hok ⟨openConnection_progress, Nat.zero_lt_two⟩ with
    hend | ⟨before, event, after, hsplit, -, clock, token, written, rfl, hph⟩
  · have hdn := hend.2
    rw [show Runs.run _ _ events = serve server lib _ events from rfl, hret] at hdn
    exact absurd hdn (by decide)
  · exact ⟨before, _, after, hsplit, issuesCredential_of_reissuing hdir hph clock token written⟩

def sampleShell : JsonLibrary := sampleLibrary (sampleHello "hello-01" "dsh-desktop-shell" "shell")

def sampleRun (sent : Bool) : List (ServeEvent Unit) :=
  .frame [] sampleSurroundings (fun _ => sent) :: .disconnected ::
    List.replicate 4 (.advance sampleSurroundings.clock "token" true)

theorem returned_connection_is_torn_down_after_hello :
    let c := openConnection none sampleDaemon
    TornDown (serve sampleServer sampleShell c (sampleRun true)) ∧ ∃ before event after,
      sampleRun true = before ++ event :: after ∧
        IssuesCredential sampleServer sampleShell (serve sampleServer sampleShell c before) event :=
  returned_connection_is_torn_down sampleServer sampleShell (by decide) none sampleDaemon
    (sampleRun true)
    ⟨fun _ => ⟨rfl, fun h => absurd h (by decide)⟩, trivial, trivial, trivial, trivial, trivial,
      trivial⟩ rfl

/-- When the Agreement cannot be sent the call returns with the lease of the new
activation in force and without a new credential. -/
theorem failed_send_returns_before_cleanup :
    let c := serve sampleServer sampleShell (openConnection none sampleDaemon) (sampleRun false)
    c.phase = .returned ∧ c.exchange.daemon.credentialsIssued = sampleDaemon.credentialsIssued ∧
      ∃ x a id l, c.exchange.session.activations.lookup x = some a ∧
        c.exchange.daemon.broker.leases.lookup id = some l ∧
        c.exchange.daemon.broker.agentGeneration l.owner x = some l.generation ∧
        l.revoked = none := by
  intro c
  refine ⟨rfl, rfl, "act-0000000000000000-0000", _,
    "agent-dsh-desktop-shell-shell-act-0000000000000000-0000-" ++
      "system.dsh-desktop.local/v1alpha1-System", _, rfl, rfl, rfl, rfl⟩

end DshDesktop.Daemon
