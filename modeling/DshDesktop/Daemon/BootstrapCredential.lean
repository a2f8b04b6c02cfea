import DshDesktop.Transport.Admission

/-!
# The bootstrap credential of a running daemon

The threads that touch the credential file: the transport workers, the `serve_connection`
calls and the main loop. A step is one critical section; `issue_bootstrap_credential_file`
has three (registry, file, expiry). Every write of the file succeeds. An issued token can
still be used, has been used or has expired.
-/

namespace DshDesktop.Daemon.Bootstrap
open Function
open Transport (Store Credential)

def credentialTtl : ℕ := leaseMaxSeconds * 1000000000

def bootstrapRefreshLead : ℕ := 60 * 1000000000

def expiring (recorded : Option ℕ) (now : ℕ) : Bool :=
  match recorded with
  | some expiry => expiry - now ≤ bootstrapRefreshLead
  | none => true

inductive Issuing
  | issue
  | write (credential : Credential)
  | record (expiry : ℕ)
  deriving DecidableEq

/-- A worker of the transport; `registered` is in the table of open connections
with its acknowledgement not yet sent. -/
inductive Worker
  | handshaking
  | authenticated
  | registered
  | established
  | closed
  deriving DecidableEq

/-- A `serve_connection` call; a call that has returned remembers whether it
reissued the credential. -/
inductive Serving
  | unserved
  | receiving
  | aborting
  | joining
  | reissuing (call : Issuing)
  | releasing
  | revoking
  | returned (reissued : Bool)
  deriving DecidableEq

/-- The main thread. A refresh and the end of `maintain_bootstrap_credential` keep
the reading of the clock by which it decided. -/
inductive MainLoop
  | booting (call : Issuing)
  | idle
  | checking (fileMissing : Bool)
  | refreshing (decided : ℕ) (call : Issuing)
  | maintained (decided : ℕ)
  | spawning (conns : List ℕ)
  deriving DecidableEq

/-- What all threads share. `written` lists the tokens the file has held, latest
first, and `latest` is the latest reading of the clock. -/
structure Credentials where
  store : Store
  file : Option CredentialFile
  fileCredentialExpiry : Option ℕ
  written : List String
  latest : ℕ

structure Draw where
  bytes : List UInt8
  sixteen : bytes.length = 16
  now : ℕ
  sweptAt : ℕ

namespace Credentials

variable (k : Credentials)

def issue (draw : Draw) : Credentials :=
  { k with
    store := k.store.step (.issue draw.bytes draw.now credentialTtl draw.sweptAt)
    latest := draw.sweptAt }

def write (credential : Credential) (now : ℕ) : Credentials :=
  { k with
    file := some ⟨credential.token, credential.expiresAt, now⟩
    written := credential.token :: k.written
    latest := now }

def record (expiry : ℕ) : Credentials :=
  { k with fileCredentialExpiry := some expiry }

def issuing (draw : Draw) : Issuing → Credentials × Option Issuing
  | .issue => (k.issue draw, some (.write (Credential.issue draw.bytes draw.now credentialTtl)))
  | .write credential => (k.write credential draw.now, some (.record credential.expiresAt))
  | .record expiry => (k.record expiry, none)

def authenticate (id : ℕ) (token : String) (now : ℕ) : Credentials :=
  { k with store := k.store.step (.authenticate id token now), latest := now }

def accepts (token : String) (now : ℕ) : Bool :=
  match (k.store.registry.authenticate token now).1 with
  | .ok () => true
  | .error _ => false

def tick (now : ℕ) : Credentials := { k with latest := now }

end Credentials

structure System where
  credentials : Credentials
  conns : List ℕ
  worker : ℕ → Worker
  serving : ℕ → Serving
  main : MainLoop
  served : List ℕ

inductive Event
  | handshake (id : ℕ) (token : String) (now : ℕ)
  | giveUp (id : ℕ)
  | register (id : ℕ)
  | acknowledge (id : ℕ) (sent : Bool)
  | hangUp (id : ℕ)
  | replyLost (id : ℕ)
  | disconnected (id : ℕ)
  | serve (id : ℕ) (draw : Draw)
  | maintain
  | poll (snapshot : List ℕ)
  | advance (draw : Draw)
  | finish (now : ℕ)

namespace System

def setCredentials (s : System) (k : Credentials) : System := { s with credentials := k }

def setWorker (s : System) (id : ℕ) (w : Worker) : System :=
  { s with worker := update s.worker id w }

def setServing (s : System) (id : ℕ) (v : Serving) : System :=
  { s with serving := update s.serving id v }

def setMain (s : System) (m : MainLoop) : System := { s with main := m }

def handshake (s : System) (id : ℕ) (token : String) (now : ℕ) : System :=
  if s.worker id = .handshaking then
    (s.setCredentials (s.credentials.authenticate id token now)).setWorker id
      (if s.credentials.accepts token now then .authenticated else .closed)
  else s

def giveUp (s : System) (id : ℕ) : System :=
  if s.worker id = .handshaking then s.setWorker id .closed else s

def register (s : System) (id : ℕ) : System :=
  if s.worker id = .authenticated then
    { s.setWorker id .registered with conns := s.conns ++ [id] }
  else s

def drop (s : System) (id : ℕ) : System :=
  { s.setWorker id .closed with conns := s.conns.erase id }

def acknowledge (s : System) (id : ℕ) (sent : Bool) : System :=
  if s.worker id = .registered then
    if sent then s.setWorker id .established else s.drop id
  else s

def hangUp (s : System) (id : ℕ) : System :=
  if s.worker id = .established then s.drop id else s

def replyLost (s : System) (id : ℕ) : System :=
  if s.serving id = .receiving then s.setServing id .aborting else s

def disconnected (s : System) (id : ℕ) : System :=
  if s.serving id = .receiving ∧ s.worker id = .closed then s.setServing id .joining else s

def serve (s : System) (id : ℕ) (draw : Draw) : System :=
  match s.serving id with
  | .unserved | .receiving | .returned _ => s
  | .aborting => s.setServing id (.returned false)
  | .joining => s.setServing id (.reissuing .issue)
  | .reissuing call =>
    let r := s.credentials.issuing draw call
    (s.setCredentials r.1).setServing id (r.2.elim .releasing .reissuing)
  | .releasing => s.setServing id .revoking
  | .revoking => s.setServing id (.returned true)

def maintain (s : System) : System :=
  if s.main = .idle then s.setMain (.checking s.credentials.file.isNone) else s

/-- The table has no order of its own. -/
def poll (s : System) (snapshot : List ℕ) : System :=
  if s.main = .idle ∧ snapshot.Perm s.conns then s.setMain (.spawning snapshot) else s

def spawn (s : System) (id : ℕ) : System :=
  if id ∈ s.served then s
  else { s.setServing id .receiving with served := id :: s.served }

def advance (s : System) (draw : Draw) : System :=
  match s.main with
  | .booting call =>
    let r := s.credentials.issuing draw call
    (s.setCredentials r.1).setMain (r.2.elim .idle .booting)
  | .idle | .maintained _ => s
  | .checking fileMissing =>
    (s.setCredentials (s.credentials.tick draw.now)).setMain
      (if fileMissing || expiring s.credentials.fileCredentialExpiry draw.now then
        .refreshing draw.now .issue
      else .maintained draw.now)
  | .refreshing decided call =>
    let r := s.credentials.issuing draw call
    (s.setCredentials r.1).setMain (r.2.elim (.maintained decided) (.refreshing decided))
  | .spawning [] => s.setMain .idle
  | .spawning (id :: rest) => (s.spawn id).setMain (.spawning rest)

def finish (s : System) (now : ℕ) : System :=
  match s.main with
  | .maintained _ => (s.setCredentials (s.credentials.tick now)).setMain .idle
  | _ => s

def step (s : System) : Event → System
  | .handshake id token now => s.handshake id token now
  | .giveUp id => s.giveUp id
  | .register id => s.register id
  | .acknowledge id sent => s.acknowledge id sent
  | .hangUp id => s.hangUp id
  | .replyLost id => s.replyLost id
  | .disconnected id => s.disconnected id
  | .serve id draw => s.serve id draw
  | .maintain => s.maintain
  | .poll snapshot => s.poll snapshot
  | .advance draw => s.advance draw
  | .finish now => s.finish now

def start : System where
  credentials := ⟨Store.initial, none, none, [], 0⟩
  conns := []
  worker := fun _ => .handshaking
  serving := fun _ => .unserved
  main := .booting .issue
  served := []

end System

variable {η : Type}

section
variable {srv : ServerConfig} {bytes : List UInt8} (hdir : srv.credentialDir.isSome = true)
  (h : bytes.length = 16) (clock : ℕ → UnixTime) (s : System) (d : DaemonState η)

include hdir in

include hdir in

end

open List Option
open Transport (Store Credential Authentication isValidFormat)
open Bootstrap.System
variable {now id : ℕ} {e : Event} {draw : Draw} {c : Credential} {token : String} {m m' : MainLoop}
  {v : Serving} (s : System)

def Draw.Regular (draw : Draw) (k : Credentials) : Prop :=
  k.latest ≤ draw.now ∧ draw.now ≤ draw.sweptAt ∧
    (Credential.issue draw.bytes 0 0).token ∉ k.store.tokens

/-- Besides, nobody presents a token of the daemon before the file has held it. -/
def System.Regular (s : System) : Event → Prop
  | .handshake _ token now => s.credentials.latest ≤ now ∧
      (token ∈ s.credentials.store.tokens → token ∈ s.credentials.written)
  | .serve _ draw | .advance draw => draw.Regular s.credentials
  | .finish now => s.credentials.latest ≤ now
  | _ => True

structure Backed (k : Credentials) : Prop where
  sound : Transport.Sound k.store
  distinct : k.store.tokens.Nodup
  wellFormed : ∀ token ∈ k.store.tokens, isValidFormat token = true
  kept : ∀ c ∈ k.store.issued, k.store.registry.lookup c.token = some ⟨c.expiresAt, false⟩ ∨
    (∃ a ∈ k.store.authenticated, a.token = c.token) ∨ c.expiresAt ≤ k.latest
  known : ∀ a ∈ k.store.authenticated, a.token ∈ k.written
  written : ∀ token ∈ k.written, token ∈ k.store.tokens
  file : ∀ f ∈ k.file, ⟨f.token, f.expiresAt⟩ ∈ k.store.issued

section
variable {k : Credentials}

theorem Backed.tick (h : Backed k) (htime : k.latest ≤ now) : Backed (k.tick now) := by
  refine { h with kept := ?_ }
  intro c hc
  rcases h.kept c hc with hen | hus | hexp
  · exact .inl hen
  · exact .inr (.inl hus)
  · exact .inr (.inr (hexp.trans htime))

theorem Backed.issue (h : Backed k) (hdraw : draw.Regular k) : Backed (k.issue draw) := by
  obtain ⟨hnow, hsw, hfr⟩ := hdraw
  refine ⟨h.sound.issue _ _ _ _ hfr, nodup_cons.mpr ⟨hfr, h.distinct⟩, ?_, ?_, h.known, ?_, ?_⟩
  · intro token htk
    rcases mem_cons.mp htk with rfl | hold
    · exact Transport.isValidFormat_issue draw.sixteen _ _
    · exact h.wellFormed token hold
  · intro c hc
    rcases mem_cons.mp hc with rfl | hold
    · left
      change ((k.store.registry.retain _).insert _ _).lookup _ = _
      rw [Table.lookup_insert_ite, if_pos rfl]
    have hne : c.token ≠ (Credential.issue draw.bytes draw.now credentialTtl).token := by
      intro heq
      exact hfr (heq ▸ mem_map_of_mem hold)
    rcases h.kept c hold with hen | hus | hexp
    · by_cases hst : c.expiresAt ≤ draw.sweptAt
      · exact .inr (.inr hst)
      · left
        change ((k.store.registry.retain _).insert _ _).lookup _ = _
        rw [Table.lookup_insert_ite, if_neg hne, Table.lookup_retain_some]
        exact ⟨hen, by simpa using hst⟩
    · exact .inr (.inl hus)
    · exact .inr (.inr (hexp.trans (hnow.trans hsw)))
  · intro token htk
    exact mem_cons_of_mem _ (h.written token htk)
  · intro f hf
    exact mem_cons_of_mem _ (h.file f hf)

theorem Backed.write (h : Backed k) (hc : c ∈ k.store.issued) (htime : k.latest ≤ now) :
    Backed (k.write c now) := by
  refine { h.tick htime with known := ?_, written := ?_, file := ?_ }
  · intro a ha
    exact mem_cons_of_mem _ (h.known a ha)
  · intro token htk
    rcases mem_cons.mp htk with rfl | hold
    · exact mem_map_of_mem hc
    · exact h.written token hold
  · intro f hf
    obtain rfl : _ = f := some.inj hf
    exact hc

theorem Backed.record (h : Backed k) (expiry : ℕ) : Backed (k.record expiry) := { h with }

theorem accepts_eq_true :
    k.accepts token now ↔ (k.store.registry.authenticate token now).1 = .ok () := by
  unfold Credentials.accepts
  split
  · next hok => simp [hok]
  · next error heo => simp [heo]

theorem Backed.authenticate (h : Backed k) (htime : k.latest ≤ now)
    (hkn : token ∈ k.store.tokens → token ∈ k.written) : Backed (k.authenticate id token now) := by
  have hiss := Store.issued_authenticate k.store id token now
  have htk : (k.authenticate id token now).store.tokens = k.store.tokens :=
    congrArg (List.map Credential.token) hiss
  have hmem := fun a => Store.mem_authenticated_step k.store id token now (a := a)
  refine ⟨h.sound.authenticate id token now, htk ▸ h.distinct, htk ▸ h.wellFormed, ?_, ?_,
    htk ▸ h.written, ?_⟩
  · intro c hc
    rw [Credentials.authenticate, hiss] at hc
    rcases h.kept c hc with hen | ⟨a, ha, hto⟩ | hexp
    · rcases Transport.Registry.lookup_of_authenticate hen token now with
        hkp | ⟨heq, hok | hst⟩
      · exact .inl ((congrArg _ (Store.registry_authenticate k.store id token now)).trans hkp)
      · exact .inr (.inl ⟨_, (hmem _).mpr (.inr ⟨hok, rfl⟩), heq.symm⟩)
      · exact .inr (.inr hst)
    · exact .inr (.inl ⟨a, (hmem a).mpr (.inl ha), hto⟩)
    · exact .inr (.inr (hexp.trans htime))
  · intro a ha
    rcases (hmem a).mp ha with hold | ⟨hok, rfl⟩
    · exact h.known a hold
    · obtain ⟨entry, hen, -, -⟩ := Transport.Registry.authenticate_ok hok
      exact hkn (mem_map_of_mem (h.sound.entries token entry hen))
  · intro f hf
    rw [Credentials.authenticate, hiss]
    exact h.file f hf

end

def Serving.call : Serving → Option Issuing
  | reissuing call => some call
  | _ => none

def Serving.rewrote : Serving → Bool
  | reissuing (.record _) | releasing | revoking | returned true => true
  | _ => false

def MainLoop.call : MainLoop → Option Issuing
  | booting call | refreshing _ call => some call
  | _ => none

def MainLoop.unspawned : MainLoop → List ℕ
  | spawning conns => conns
  | _ => []

/-- Where a thread is in `issue_bootstrap_credential_file`: the main thread, or the
call that serves a connection. -/
def System.call (s : System) : Option ℕ → Option Issuing
  | none => s.main.call
  | some id => (s.serving id).call

theorem call_setMain : (s.setMain m).call = update s.call none m.call := by
  funext t
  cases t with
  | none => exact (update_self none m.call s.call).symm
  | some id => exact (update_of_ne (some_ne_none id) m.call s.call).symm

theorem serving_setServing {u : ℕ} :
    (s.setServing id v).serving u = if u = id then v else s.serving u :=
  update_apply ..

theorem call_setServing : (s.setServing id v).call = update s.call (some id) v.call := by
  funext t
  cases t with
  | none => exact (update_of_ne (some_ne_none id).symm v.call s.call).symm
  | some u =>
    rw [call, serving_setServing]
    by_cases hu : u = id
    · rw [if_pos hu, hu, update_self]
    · rw [if_neg hu, update_of_ne (mt some.inj hu)]
      rfl

structure Links (s : System) : Prop where
  unserved : ∀ id, id ∉ s.served → s.serving id = .unserved
  handshaking : ∀ id, s.worker id = .handshaking →
    id ∉ s.served ∧ id ∉ s.conns ∧ id ∉ s.main.unspawned

inductive Moved (s s' : System) : Prop
  | linked (now : ℕ) (htime : s.credentials.latest ≤ now)
      (hcredentials : s'.credentials = s.credentials.tick now)
      (hcall : ∀ t, s'.call t = s.call t ∨ s.call t = none ∧ s'.call t = some .issue)
      (hrewrote : ∀ id, (s'.serving id).rewrote = true → (s.serving id).rewrote = true)
  | issuing (t : Option ℕ) (draw : Draw) (call : Issuing) (hdraw : draw.Regular s.credentials)
      (ht : s.call t = some call)
      (hcredentials : s'.credentials = (s.credentials.issuing draw call).1)
      (hcall : s'.call = update s.call t (s.credentials.issuing draw call).2)
      (hrewrote : ∀ id, (s'.serving id).rewrote = true →
        (s.serving id).rewrote = true ∨ ∃ c, call = .write c)
  | handshake (id : ℕ) (token : String) (now : ℕ) (hid : s.worker id = .handshaking)
      (htime : s.credentials.latest ≤ now)
      (hknown : token ∈ s.credentials.store.tokens → token ∈ s.credentials.written)
      (hcredentials : s'.credentials = s.credentials.authenticate id token now)
      (hcall : s'.call = s.call) (hserving : s'.serving = s.serving)

section
variable {s s' : System}

theorem Moved.same (hcr : s'.credentials = s.credentials)
    (hsr : s'.serving = s.serving) (hmain : s'.main = s.main) : Moved s s' := by
  refine .linked s.credentials.latest le_rfl hcr ?_ fun id h => hsr ▸ h
  intro t
  left
  cases t with
  | none => exact congrArg MainLoop.call hmain
  | some id => exact congrArg Serving.call (congrFun hsr id)

theorem Moved.setMain (hm : s.main = m) (htime : s.credentials.latest ≤ now)
    (h : m'.call = m.call ∨ m.call = none ∧ m'.call = some .issue) :
    Moved s ((s.setCredentials (s.credentials.tick now)).setMain m') := by
  subst hm
  refine .linked now htime rfl ?_ fun id hrew => hrew
  intro t
  cases t with
  | none => exact h
  | some id => exact .inl rfl

theorem Moved.setServing
    (hcall : v.call = (s.serving id).call ∨ (s.serving id).call = none ∧ v.call = some .issue)
    (hrew : v.rewrote → (s.serving id).rewrote) : Moved s (s.setServing id v) := by
  refine .linked s.credentials.latest le_rfl rfl ?_ ?_
  · intro t
    rw [call_setServing]
    by_cases ht : t = some id
    · subst ht
      rw [update_self]
      exact hcall
    · rw [update_of_ne ht]
      exact .inl rfl
  · intro u hu
    rw [serving_setServing] at hu
    split at hu
    · next hid =>
      subst hid
      exact hrew hu
    · exact hu

theorem moved_serve (hdraw : draw.Regular s.credentials) : Moved s (s.serve id draw) := by
  unfold System.serve
  cases hs : s.serving id with
  | unserved | receiving | returned reissued => exact .same rfl rfl rfl
  | aborting | joining | releasing | revoking =>
    apply Moved.setServing <;> simp [hs, Serving.call, Serving.rewrote]
  | reissuing call =>
    refine .issuing (some id) draw call hdraw (congrArg Serving.call hs) rfl ?_ ?_
    · rw [call_setServing]
      cases call <;> rfl
    · intro u hu
      rw [serving_setServing] at hu
      split at hu
      · next hid =>
        subst hid
        cases call with
        | issue => cases hu
        | write c => exact .inr ⟨c, rfl⟩
        | record expiry =>
          rw [hs]
          exact .inl rfl
      · exact .inl hu

variable (h : Links s)
include h

theorem moved_spawn (id : ℕ) (rest : List ℕ) (hmain : s.main.call = none) :
    Moved s ((s.spawn id).setMain (.spawning rest)) := by
  unfold spawn
  split
  · exact .setMain rfl le_rfl (.inl hmain.symm)
  next hnew =>
  have hsr := h.unserved id hnew
  have hv : (Serving.receiving).call = (s.serving id).call := by rw [hsr]; rfl
  refine .linked s.credentials.latest le_rfl rfl ?_ ?_
  · intro t
    left
    cases t with
    | none => exact hmain.symm
    | some u =>
      by_cases hu : u = id
      · subst hu
        simp [call, setMain, setServing, hv]
      · simp [call, setMain, setServing, update_of_ne hu]
  · intro u hu
    by_cases hid : u = id
    · subst hid
      simp [setMain, setServing, Serving.rewrote] at hu
    · simpa [setMain, setServing, update_of_ne hid] using hu

theorem moved_advance (hdraw : draw.Regular s.credentials) : Moved s (s.advance draw) := by
  unfold advance
  cases hm : s.main with
  | idle | maintained decided => exact .same rfl rfl rfl
  | booting call | refreshing decided call =>
    refine .issuing none draw call hdraw (congrArg MainLoop.call hm) rfl ?_ fun id hu => .inl hu
    rw [call_setMain]
    cases call <;> rfl
  | checking fileMissing =>
    refine .setMain hm hdraw.1 ?_
    split
    · exact .inr ⟨rfl, rfl⟩
    · exact .inl rfl
  | spawning conns =>
    cases conns with
    | nil => exact .setMain hm le_rfl (.inl rfl)
    | cons id rest => exact moved_spawn h id rest (congrArg MainLoop.call hm)

theorem step_moved (hreg : s.Regular e) : Moved s (s.step e) := by
  cases e with
  | handshake id token now =>
    simp only [step, handshake]
    split
    · next hid => exact .handshake id token now hid hreg.1 hreg.2 rfl rfl rfl
    · exact .same rfl rfl rfl
  | giveUp id | register id | hangUp id =>
    simp only [step, giveUp, register, hangUp]
    split <;> exact .same rfl rfl rfl
  | acknowledge id sent =>
    simp only [step, acknowledge]
    split
    · split <;> exact .same rfl rfl rfl
    · exact .same rfl rfl rfl
  | replyLost id =>
    simp only [step, replyLost]
    split
    · next hs => apply Moved.setServing <;> simp [hs, Serving.call, Serving.rewrote]
    · exact .same rfl rfl rfl
  | disconnected id =>
    simp only [step, disconnected]
    split
    · next hs => apply Moved.setServing <;> simp [hs.1, Serving.call, Serving.rewrote]
    · exact .same rfl rfl rfl
  | serve id draw => exact moved_serve hreg
  | maintain =>
    simp only [step, maintain]
    split
    · next hm => exact .setMain hm le_rfl (.inl rfl)
    · exact .same rfl rfl rfl
  | poll snapshot =>
    simp only [step, poll]
    split
    · next hm => exact .setMain hm.1 le_rfl (.inl rfl)
    · exact .same rfl rfl rfl
  | advance draw => exact moved_advance h hreg
  | finish now =>
    simp only [step, finish]
    split
    · next decided hm => exact .setMain hm hreg (.inl rfl)
    · exact .same rfl rfl rfl

theorem Links.of
    (hsr : ∀ id, id ∉ s'.served → id ∉ s.served ∧ (s.serving id = .unserved →
      s'.serving id = .unserved))
    (hwr : ∀ id, s'.worker id = .handshaking → s.worker id = .handshaking ∧ (id ∈ s'.served →
      id ∈ s.served ∨ id ∈ s.main.unspawned) ∧ (id ∈ s'.conns → id ∈ s.conns) ∧
      (id ∈ s'.main.unspawned → id ∈ s.conns ∨ id ∈ s.main.unspawned)) : Links s' where
  unserved := by
    intro id hid
    obtain ⟨hpre, hst⟩ := hsr id hid
    exact hst (h.unserved id hpre)
  handshaking := by
    intro id hid
    obtain ⟨hpre, hsr, hconns, hun⟩ := hwr id hid
    obtain ⟨hnS, hnotOpen, hno⟩ := h.handshaking id hpre
    refine ⟨?_, fun hin => hnotOpen (hconns hin), ?_⟩
    · intro hin
      rcases hsr hin with hold | hsn
      · exact hnS hold
      · exact hno hsn
    · intro hin
      rcases hun hin with hoe | hsn
      · exact hnotOpen hoe
      · exact hno hsn

theorem Links.setWorker {w : Worker} (hw : w ≠ .handshaking) (hsr : s'.served = s.served)
    (hse : s'.serving = s.serving) (hmain : s'.main = s.main)
    (hwr : s'.worker = update s.worker id w)
    (hconns : ∀ u, u ≠ id → u ∈ s'.conns → u ∈ s.conns) : Links s' := by
  refine h.of ?_ ?_
  · intro u hu
    rw [hsr] at hu
    rw [hse]
    exact ⟨hu, fun hs => hs⟩
  · intro u hu
    rw [hwr, update_apply] at hu
    split at hu
    · exact absurd hu hw
    · next hid =>
      rw [hsr, hmain]
      exact ⟨hu, .inl, hconns u hid, .inr⟩

theorem Links.setServing (hid : s.serving id ≠ .unserved) : Links (s.setServing id v) := by
  refine h.of ?_ fun u hu => ⟨hu, .inl, fun hin => hin, .inr⟩
  intro u hu
  refine ⟨hu, ?_⟩
  intro hs
  rw [serving_setServing, if_neg]
  · exact hs
  · intro heq
    exact hid (heq ▸ hs)

theorem Links.setMain (hm : ∀ id ∈ m.unspawned, id ∈ s.conns ∨ id ∈ s.main.unspawned) :
    Links (s.setMain m) :=
  h.of (fun _ hu => ⟨hu, fun hs => hs⟩) fun u hu => ⟨hu, .inl, fun hin => hin, hm u⟩

theorem Links.setCredentials (k : Credentials) : Links (s.setCredentials k) :=
  ⟨h.unserved, h.handshaking⟩

theorem links_serve (id : ℕ) (draw : Draw) : Links (s.serve id draw) := by
  unfold System.serve
  cases hs : s.serving id with
  | unserved | receiving | returned reissued => exact h
  | aborting | joining | releasing | revoking => exact h.setServing (by simp [hs])
  | reissuing call => exact (h.setCredentials _).setServing (by simp [setCredentials, hs])

theorem links_advance (draw : Draw) : Links (s.advance draw) := by
  unfold advance
  cases hm : s.main with
  | idle | maintained decided => exact h
  | booting call | refreshing decided call =>
    refine (h.setCredentials _).setMain ?_
    cases call <;> exact forall_mem_nil _
  | checking fileMissing =>
    refine (h.setCredentials _).setMain ?_
    split <;> exact forall_mem_nil _
  | spawning conns =>
    cases conns with
    | nil => exact h.setMain (forall_mem_nil _)
    | cons id rest =>
      have hrs : ∀ u ∈ rest, u ∈ s.main.unspawned := by
        intro u hu
        rw [hm]
        exact mem_cons_of_mem _ hu
      simp only [spawn]
      split
      · exact h.setMain fun u hu => .inr (hrs u hu)
      refine h.of ?_ ?_
      · intro u hu
        have hnew := not_mem_of_not_mem_cons hu
        refine ⟨hnew, ?_⟩
        intro hs
        simp [setMain, serving_setServing, if_neg (ne_of_not_mem_cons hu), hs]
      · intro u hu
        refine ⟨hu, ?_, fun hin => hin, fun hin => .inr (hrs u hin)⟩
        intro hin
        rcases mem_cons.mp hin with rfl | hold
        · right
          rw [hm]
          exact mem_cons_self
        · exact .inl hold

theorem step_links (e : Event) : Links (s.step e) := by
  cases e with
  | handshake id token now =>
    simp only [step, handshake]
    split
    · refine h.setWorker ?_ rfl rfl rfl rfl fun _ _ hin => hin
      split <;> decide
    · exact h
  | giveUp id =>
    simp only [step, giveUp]
    split
    · exact h.setWorker (by decide) rfl rfl rfl rfl fun _ _ hin => hin
    · exact h
  | register id =>
    simp only [step, register]
    split
    · refine h.setWorker (by decide) rfl rfl rfl rfl ?_
      intro u hu hin
      rcases mem_append.mp hin with hold | hnew
      · exact hold
      · exact absurd (mem_singleton.mp hnew) hu
    · exact h
  | acknowledge id sent =>
    simp only [step, acknowledge]
    split
    · split
      · exact h.setWorker (by decide) rfl rfl rfl rfl fun _ _ hin => hin
      · exact h.setWorker (by decide) rfl rfl rfl rfl fun _ _ hin => mem_of_mem_erase hin
    · exact h
  | hangUp id =>
    simp only [step, hangUp]
    split
    · exact h.setWorker (by decide) rfl rfl rfl rfl fun _ _ hin => mem_of_mem_erase hin
    · exact h
  | replyLost id =>
    simp only [step, replyLost]
    split
    · next hs => exact h.setServing (by simp [hs])
    · exact h
  | disconnected id =>
    simp only [step, disconnected]
    split
    · next hs => exact h.setServing (by simp [hs.1])
    · exact h
  | serve id draw => exact links_serve h id draw
  | maintain =>
    simp only [step, maintain]
    split
    · exact h.setMain (forall_mem_nil _)
    · exact h
  | poll snapshot =>
    simp only [step, poll]
    split
    · next hpl => exact h.setMain fun id hid => .inl (hpl.2.mem_iff.mp hid)
    · exact h
  | advance draw => exact links_advance h draw
  | finish now =>
    simp only [step, finish]
    split
    · exact (h.setCredentials _).setMain (forall_mem_nil _)
    · exact h

end

structure Pending (k : Credentials) (call : Option ℕ → Option Issuing) : Prop where
  issued : ∀ t c, call t = some (.write c) → c ∈ k.store.issued ∧ c.token ∉ k.written
  apart : ∀ t u c d, call t = some (.write c) → call u = some (.write d) → c.token = d.token → t = u

section
variable {k k' : Credentials} {call call' : Option ℕ → Option Issuing} (h : Pending k call)
include h

theorem Pending.mono (hcall : ∀ t c, call' t = some (.write c) → call t = some (.write c))
    (hiss : ∀ c ∈ k.store.issued, c ∈ k'.store.issued) (hwr : k'.written = k.written) :
    Pending k' call' where
  issued := by
    intro t c htc
    obtain ⟨hc, hnew⟩ := h.issued t c (hcall t c htc)
    exact ⟨hiss c hc, hwr ▸ hnew⟩
  apart t u c d htc hud := h.apart t u c d (hcall t c htc) (hcall u d hud)

theorem Pending.issue (hk : Backed k) (hdraw : draw.Regular k) (t : Option ℕ) :
    Pending (k.issue draw) (update call t
      (some (.write (Credential.issue draw.bytes draw.now credentialTtl)))) := by
  have hfr := hdraw.2.2
  -- a call that already holds a credential took it from those issued before
  have hot : ∀ u c, call u = some (.write c) →
      c.token ≠ (Credential.issue draw.bytes draw.now credentialTtl).token := by
    intro u c huc heq
    exact hfr (heq ▸ mem_map_of_mem (h.issued u c huc).1)
  constructor
  · intro u c huc
    rw [update_apply] at huc
    split at huc
    · cases huc
      exact ⟨mem_cons_self, fun hin => hfr (hk.written _ hin)⟩
    · obtain ⟨hc, hnew⟩ := h.issued u c huc
      exact ⟨mem_cons_of_mem _ hc, hnew⟩
  · intro u v c d huc hvd heq
    rw [update_apply] at huc hvd
    split at huc <;> split at hvd
    · next hu hv => exact hu.trans hv.symm
    · cases huc
      exact absurd heq.symm (hot v d hvd)
    · cases hvd
      exact absurd heq (hot u c huc)
    · exact h.apart u v c d huc hvd heq

theorem Pending.write {t : Option ℕ} (htc : call t = some (.write c)) (now expiry : ℕ) :
    Pending (k.write c now) (update call t (some (.record expiry))) := by
  have hold : ∀ u d, update call t (some (.record expiry)) u = some (.write d) →
      u ≠ t ∧ call u = some (.write d) := by
    intro u d hud
    rw [update_apply] at hud
    split at hud
    · cases hud
    · next hu => exact ⟨hu, hud⟩
  constructor
  · intro u d hud
    obtain ⟨hu, hpre⟩ := hold u d hud
    obtain ⟨hd, hnew⟩ := h.issued u d hpre
    refine ⟨hd, ?_⟩
    intro hin
    rcases mem_cons.mp hin with heq | hin
    · exact hu (h.apart u t d c hpre htc heq)
    · exact hnew hin
  · intro u v d d' hud hvd
    exact h.apart u v d d' (hold u d hud).2 (hold v d' hvd).2

theorem Pending.record (t : Option ℕ) (expiry : ℕ) :
    Pending (k.record expiry) (update call t none) := by
  refine h.mono ?_ (fun _ hc => hc) rfl
  intro u c huc
  rw [update_apply] at huc
  split at huc
  · cases huc
  · exact huc

end

def Replaced (s : System) : Prop :=
  ∀ a ∈ s.credentials.store.authenticated, (s.serving a.connection).rewrote = true →
    ∀ f ∈ s.credentials.file, f.token ≠ a.token

structure Books (s : System) : Prop where
  links : Links s
  backed : Backed s.credentials
  pending : Pending s.credentials s.call
  replaced : Replaced s

variable {s s' : System}

theorem Books.moved_pending (h : Books s) (hmv : Moved s s') :
    Backed s'.credentials ∧ Pending s'.credentials s'.call := by
  cases hmv with
  | linked now htime hcr hcall hrew =>
    rw [hcr]
    refine ⟨h.backed.tick htime, h.pending.mono ?_ (fun _ hc => hc) rfl⟩
    intro t c htc
    rcases hcall t with heq | ⟨-, hiu⟩
    · exact heq ▸ htc
    · rw [hiu] at htc
      cases htc
  | issuing t draw call hdraw ht hcr hcall hrew =>
    rw [hcr, hcall]
    cases call with
    | issue => exact ⟨h.backed.issue hdraw, h.pending.issue h.backed hdraw t⟩
    | write c =>
      exact ⟨h.backed.write (h.pending.issued t c ht).1 hdraw.1, h.pending.write ht _ _⟩
    | record expiry => exact ⟨h.backed.record expiry, h.pending.record t expiry⟩
  | handshake id token now hid htime hkn hcr hcall hsr =>
    rw [hcr, hcall]
    refine ⟨h.backed.authenticate htime hkn, h.pending.mono (fun _ _ htc => htc) ?_ rfl⟩
    intro c hc
    rw [Credentials.authenticate, Store.issued_authenticate]
    exact hc

theorem Books.moved_replaced (h : Books s) (hmv : Moved s s') : Replaced s' := by
  intro a ha hwr f hf
  cases hmv with
  | linked now htime hcr hcall hrew =>
    rw [hcr] at ha hf
    exact h.replaced a ha (hrew _ hwr) f hf
  | issuing t draw call hdraw ht hcr hcall hrew =>
    rw [hcr] at ha hf
    cases call with
    | issue | record expiry =>
      rcases hrew _ hwr with hpre | ⟨c, hc⟩
      · exact h.replaced a ha hpre f hf
      · cases hc
    | write c =>
      -- the token that replaces the file was never in it, the one used was
      obtain rfl : _ = f := some.inj hf
      intro (heq : c.token = a.token)
      exact (h.pending.issued t c ht).2 (heq ▸ h.backed.known a ha)
  | handshake id token now hid htime hkn hcr hcall hsr =>
    rw [hcr] at ha hf
    rw [hsr] at hwr
    rcases (Store.mem_authenticated_step _ id token now).mp ha with hold | ⟨-, rfl⟩
    · exact h.replaced a hold hwr f hf
    · rw [h.links.unserved id (h.links.handshaking id hid).1] at hwr
      cases hwr

theorem Books.step (h : Books s) (hreg : s.Regular e) : Books (s.step e) := by
  have hmv := step_moved h.links hreg
  obtain ⟨hbc, hpn⟩ := h.moved_pending hmv
  exact ⟨step_links h.links e, hbc, hpn, h.moved_replaced hmv⟩

theorem books_start : Books start where
  links := ⟨fun _ _ => rfl, fun _ _ => ⟨nofun, nofun, nofun⟩⟩
  backed := by
    refine ⟨?_, nodup_nil, nofun, nofun, nofun, nofun, nofun⟩
    exact ⟨nofun, nodup_nil, nofun, nofun⟩
  pending := by
    constructor
    · intro t c htc
      cases t <;> cases htc
    · intro t u c d htc
      cases t <;> cases htc
  replaced := nofun

def MainLoop.unwritten : MainLoop → Bool
  | booting .issue | booting (.write _) => true
  | _ => false

theorem Moved.file_eq_none (h : Moved s s') (hfile : s'.credentials.file = none) :
    s.credentials.file = none := by
  cases h with
  | linked now htime hcr hcall hrew
  | handshake id token now hid htime hkn hcr hcall hsr =>
    rw [hcr] at hfile
    exact hfile
  | issuing t draw call hdraw ht hcr hcall hrew =>
    rw [hcr] at hfile
    cases call with
    | issue | record expiry => exact hfile
    | write c => cases hfile

def Event.ofMain : Event → Bool
  | maintain | poll _ | advance _ | finish _ => true
  | _ => false

theorem main_step (h : e.ofMain = false) : (s.step e).main = s.main := by
  cases e with
  | handshake id token now | giveUp id | register id | hangUp id | replyLost id | disconnected id =>
    simp only [step, handshake, giveUp, register, hangUp, replyLost, disconnected]
    split <;> rfl
  | acknowledge id sent =>
    simp only [step, acknowledge]
    split
    · split <;> rfl
    · rfl
  | serve id draw =>
    simp only [step, System.serve]
    split <;> rfl
  | maintain | poll snapshot | advance draw | finish now => cases h

theorem main_step_of_unwritten (h : s.main.unwritten)
    (hfile : (s.step e).credentials.file = none) : (s.step e).main.unwritten := by
  have hmain : ∀ m : MainLoop, m.unwritten = false → s.main ≠ m := by
    intro m hm heq
    rw [heq, hm] at h
    cases h
  cases e with
  | maintain =>
    simp only [step, maintain, if_neg (hmain .idle rfl)]
    exact h
  | poll snapshot =>
    simp only [step, poll]
    rw [if_neg fun hpl => hmain .idle rfl hpl.1]
    exact h
  | finish now =>
    simp only [step, finish]
    split
    · next decided hm => exact absurd hm (hmain _ rfl)
    · exact h
  | advance draw =>
    simp only [step, advance] at hfile ⊢
    cases hm : s.main with
    | booting call =>
      rw [hm] at h hfile
      cases call with
      | issue => rfl
      | write c => cases hfile
      | record expiry => cases h
    | idle | checking fileMissing | refreshing decided call | maintained decided | spawning conns =>
      exact absurd hm (hmain _ rfl)
  | handshake id token now | giveUp id | register id | acknowledge id sent | hangUp id
  | replyLost id | disconnected id | serve id draw =>
    rw [main_step rfl]
    exact h

def Booted (s : System) : Prop := s.credentials.file = none → s.main.unwritten = true

theorem Booted.step (h : Booted s) (hlinks : Links s) (hreg : s.Regular e) : Booted (s.step e) := by
  intro hfile
  exact main_step_of_unwritten (h ((step_moved hlinks hreg).file_eq_none hfile)) hfile

end DshDesktop.Daemon.Bootstrap
