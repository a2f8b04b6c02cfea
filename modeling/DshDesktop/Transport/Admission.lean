import DshDesktop.Daemon.Serve
import DshDesktop.Library.Interleaving

/-!
# Credentials and admission

The credential registry of a local server under any interleaving of its two critical
sections, `issue_credential` and `authenticate`, with a log of what was issued and which
connections authenticated; times are nanoseconds. Then the accept loops and the connection
workers over the shared limiter and statistics: each accepted connection is one thread of the
crew, and a step is one atomic operation.
-/

namespace DshDesktop.Transport
open List Table
open Daemon (IssuedCredential)

abbrev Registry := Table String IssuedCredential

inductive AuthError
  | invalid
  | replay
  | stale
  | malformed

structure Credential where
  token : String
  expiresAt : ℕ
  deriving DecidableEq

def tokenHexChars : ℕ := 32

def Credential.issue (bytes : List UInt8) (now ttl : ℕ) : Credential :=
  ⟨String.ofList (['l', 't', '_'] ++ bytes.flatMap fun b => Text.digits 16 2 b.toNat), now + ttl⟩

def isAsciiHexdigit (c : Char) : Bool :=
  c.isDigit || ('a' ≤ c && c ≤ 'f') || ('A' ≤ c && c ≤ 'F')

def isValidFormat (token : String) : Bool :=
  match token.toList with
  | 'l' :: 't' :: '_' :: rest => rest.length == tokenHexChars && rest.all isAsciiHexdigit
  | _ => false

namespace Registry

def issue (registry : Registry) (credential : Credential) (now : ℕ) : Registry :=
  (registry.retain fun _ entry => !entry.used && now < entry.expiresAt).insert credential.token
    ⟨credential.expiresAt, false⟩

def authenticate (registry : Registry) (token : String) (now : ℕ) :
    Except AuthError Unit × Registry :=
  if !isValidFormat token then (.error .malformed, registry)
  else
    match registry.lookup token with
    | none => (.error .invalid, registry)
    | some entry =>
      if entry.expiresAt ≤ now then (.error .stale, registry.erase token)
      else if entry.used then (.error .replay, registry)
      else (.ok (), registry.insert token { entry with used := true })

end Registry

structure Authentication where
  connection : ℕ
  token : String
  time : ℕ
  deriving DecidableEq

structure Store where
  registry : Registry
  issued : List Credential
  authenticated : List Authentication

inductive CredentialEvent
  | issue (bytes : List UInt8) (issuedAt ttl sweptAt : ℕ)
  | authenticate (connection : ℕ) (token : String) (now : ℕ)

namespace Store

def initial : Store := ⟨∅, [], []⟩

def step (s : Store) : CredentialEvent → Store
  | .issue bytes issuedAt ttl sweptAt =>
    let credential := Credential.issue bytes issuedAt ttl
    { s with registry := s.registry.issue credential sweptAt, issued := credential :: s.issued }
  | .authenticate connection token now =>
    match s.registry.authenticate token now with
    | (.error _, registry) => { s with registry := registry }
    | (.ok (), registry) =>
      { s with
        registry := registry
        authenticated := ⟨connection, token, now⟩ :: s.authenticated }

def run (events : List CredentialEvent) : Store := Runs.run step initial events

def tokens (s : Store) : List String := s.issued.map Credential.token

end Store

section
variable {reg : Registry} {tok pres : String} {entry : IssuedCredential} {now : ℕ}

theorem Registry.lookup_issue {cred : Credential}
    (h : (reg.issue cred now).lookup tok = some entry) :
    tok = cred.token ∧ entry = ⟨cred.expiresAt, false⟩ ∨
      tok ≠ cred.token ∧ reg.lookup tok = some entry := by
  unfold issue at h
  rw [lookup_insert_ite] at h
  by_cases ht : tok = cred.token
  · rw [if_pos ht] at h
    exact .inl ⟨ht, (Option.some.inj h).symm⟩
  · rw [if_neg ht] at h
    exact .inr ⟨ht, (lookup_retain_some.mp h).1⟩

theorem Registry.lookup_authenticate (h : (reg.authenticate pres now).2.lookup tok = some entry) :
    ∃ bef, reg.lookup tok = some bef ∧ entry.expiresAt = bef.expiresAt ∧ (bef.used → entry.used) ∧
      ((reg.authenticate pres now).1 = .ok () → tok = pres → entry.used) := by
  unfold authenticate at h ⊢
  split at h
  · next hfr =>
    rw [if_pos hfr]
    exact ⟨entry, h, rfl, id, nofun⟩
  next hfr =>
  rw [if_neg hfr]
  cases hp : reg.lookup pres with
  | none =>
    simp only [hp] at h ⊢
    exact ⟨entry, h, rfl, id, nofun⟩
  | some found =>
    simp only [hp] at h ⊢
    by_cases hst : found.expiresAt ≤ now
    · simp only [hst, if_true] at h ⊢
      rw [lookup_erase_ite] at h
      split at h
      · cases h
      · exact ⟨entry, h, rfl, id, nofun⟩
    simp only [hst, if_false] at h ⊢
    by_cases hus : found.used
    · simp only [hus, if_true] at h ⊢
      exact ⟨entry, h, rfl, id, nofun⟩
    simp only [hus] at h ⊢
    rw [if_neg (by simp), lookup_insert_ite] at h
    by_cases ht : tok = pres
    · rw [if_pos ht] at h
      rw [← Option.some.inj h, ht]
      exact ⟨found, hp, rfl, fun _ => rfl, fun _ _ => rfl⟩
    · rw [if_neg ht] at h
      exact ⟨entry, h, rfl, id, fun _ he => absurd he ht⟩

theorem Registry.authenticate_ok (h : (reg.authenticate pres now).1 = .ok ()) :
    ∃ bef, reg.lookup pres = some bef ∧ now < bef.expiresAt ∧ bef.used = false := by
  unfold authenticate at h
  split at h
  · cases h
  cases hp : reg.lookup pres with
  | none =>
    simp only [hp] at h
    cases h
  | some found =>
    simp only [hp] at h
    by_cases hst : found.expiresAt ≤ now
    · simp only [hst, if_true] at h
      cases h
    · by_cases hus : found.used
      · simp only [hst, hus, if_true, if_false] at h
        cases h
      · exact ⟨found, rfl, not_le.mp hst, Bool.eq_false_iff.mpr hus⟩

theorem Registry.authenticate_of_lookup (hfr : isValidFormat tok)
    (h : reg.lookup tok = some entry) (htime : now < entry.expiresAt)
    (hun : entry.used = false) : (reg.authenticate tok now).1 = .ok () := by
  unfold authenticate
  rw [hfr, h]
  simp [not_le.mpr htime, hun]

theorem Registry.lookup_of_authenticate (h : reg.lookup tok = some entry)
    (pres : String) (now : ℕ) :
    (reg.authenticate pres now).2.lookup tok = some entry ∨
      tok = pres ∧ ((reg.authenticate pres now).1 = .ok () ∨ entry.expiresAt ≤ now) := by
  unfold authenticate
  split
  · exact .inl h
  cases hp : reg.lookup pres with
  | none => exact .inl h
  | some found =>
    by_cases ht : tok = pres
    · subst ht
      obtain rfl : found = entry := Option.some.inj (hp.symm.trans h)
      by_cases hst : found.expiresAt ≤ now
      · exact .inr ⟨rfl, .inr hst⟩
      by_cases hus : found.used
      · left
        simp only [hst, hus, if_true, if_false]
        exact h
      · exact .inr ⟨rfl, .inl (by simp [hst, hus])⟩
    left
    dsimp only
    split
    · rw [lookup_erase_ite, if_neg ht]
      exact h
    split
    · exact h
    · rw [lookup_insert_ite, if_neg ht]
      exact h

end

theorem hex_digits {b : UInt8} : (Text.digits 16 2 b.toNat).length = 2 ∧
      (Text.digits 16 2 b.toNat).all isAsciiHexdigit := by
  have hall : ∀ n < 256, (Text.digits 16 2 n).length = 2 ∧
      (Text.digits 16 2 n).all isAsciiHexdigit := by decide +kernel
  exact hall b.toNat b.toNat_lt

theorem isValidFormat_issue {bytes : List UInt8} (h : bytes.length = 16) (now ttl : ℕ) :
    isValidFormat (Credential.issue bytes now ttl).token := by
  have hlength : ∀ bs : List UInt8,
      (bs.flatMap fun b => Text.digits 16 2 b.toNat).length = 2 * bs.length ∧
        (bs.flatMap fun b => Text.digits 16 2 b.toNat).all isAsciiHexdigit := by
    intro bs
    induction bs with
    | nil => exact ⟨rfl, rfl⟩
    | cons b bs ih =>
      obtain ⟨hlen, hhex⟩ := hex_digits
      rw [flatMap_cons, length_append, all_append, hlen, hhex, ih.1, ih.2, length_cons]
      exact ⟨by omega, rfl⟩
  obtain ⟨hlen, hhex⟩ := hlength bytes
  simp [isValidFormat, Credential.issue, hlen, hhex, h, tokenHexChars]

section
variable (s : Store) (conn : ℕ) (token : String) (now : ℕ)

theorem Store.registry_authenticate : (s.step (.authenticate conn token now)).registry =
      (s.registry.authenticate token now).2 := by
  unfold step
  dsimp only
  split
  · next hat => rw [hat]
  · next hat => rw [hat]

theorem Store.issued_authenticate : (s.step (.authenticate conn token now)).issued = s.issued := by
  unfold step
  dsimp only
  split <;> rfl

theorem Store.authenticated_step : (s.registry.authenticate token now).1 = .ok () ∧
        (s.step (.authenticate conn token now)).authenticated =
          ⟨conn, token, now⟩ :: s.authenticated ∨
      (s.registry.authenticate token now).1 ≠ .ok () ∧
        (s.step (.authenticate conn token now)).authenticated = s.authenticated := by
  unfold step
  dsimp only
  split
  · next hat =>
    rw [hat]
    exact .inr ⟨nofun, rfl⟩
  · next hat =>
    rw [hat]
    exact .inl ⟨rfl, rfl⟩

theorem Store.mem_authenticated_step {a : Authentication} :
    a ∈ (s.step (.authenticate conn token now)).authenticated ↔
      a ∈ s.authenticated ∨ (s.registry.authenticate token now).1 = .ok () ∧
        a = ⟨conn, token, now⟩ := by
  rcases s.authenticated_step conn token now with ⟨hok, hlist⟩ | ⟨heo, hlist⟩
  · rw [hlist, mem_cons, or_comm]
    simp [hok]
  · rw [hlist]
    simp [heo]

end

structure Sound (s : Store) : Prop where
  entries : ∀ token entry, s.registry.lookup token = some entry →
    ⟨token, entry.expiresAt⟩ ∈ s.issued
  once : (s.authenticated.map Authentication.token).Nodup
  backed : ∀ a ∈ s.authenticated, ∃ c ∈ s.issued, c.token = a.token ∧ a.time < c.expiresAt
  used : ∀ a ∈ s.authenticated, ∀ entry, s.registry.lookup a.token = some entry → entry.used = true

theorem Sound.issue {s : Store} (h : Sound s) (bytes : List UInt8) (issuedAt ttl sweptAt : ℕ)
    (fresh : (Credential.issue bytes issuedAt ttl).token ∉ s.tokens) :
    Sound (s.step (.issue bytes issuedAt ttl sweptAt)) where
  entries := by
    intro token entry hget
    rcases Registry.lookup_issue hget with ⟨rfl, rfl⟩ | ⟨-, hold⟩
    · exact mem_cons_self
    · exact mem_cons_of_mem _ (h.entries token entry hold)
  once := h.once
  backed := by
    intro a ha
    obtain ⟨c, hc, htk, htime⟩ := h.backed a ha
    exact ⟨c, mem_cons_of_mem _ hc, htk, htime⟩
  used := by
    intro a ha entry hget
    rcases Registry.lookup_issue hget with ⟨htk, -⟩ | ⟨-, hold⟩
    · obtain ⟨c, hc, hct, -⟩ := h.backed a ha
      exact absurd (mem_map.mpr ⟨c, hc, hct.trans htk⟩) fresh
    · exact h.used a ha entry hold

theorem Sound.authenticate {s : Store} (h : Sound s) (connection : ℕ) (token : String)
    (now : ℕ) : Sound (s.step (.authenticate connection token now)) where
  entries := by
    intro t entry hget
    rw [s.registry_authenticate] at hget
    obtain ⟨bef, hpre, hexp, -, -⟩ := Registry.lookup_authenticate hget
    rw [s.issued_authenticate, hexp]
    exact h.entries t bef hpre
  once := by
    rcases s.authenticated_step connection token now with ⟨hok, hlist⟩ | ⟨-, hlist⟩
    · rw [hlist, map_cons, nodup_cons]
      refine ⟨?_, h.once⟩
      intro hmem
      obtain ⟨a, ha, htk⟩ := mem_map.mp hmem
      obtain ⟨bef, hpre, -, hun⟩ := Registry.authenticate_ok hok
      have hwas := h.used a ha bef (htk ▸ hpre)
      rw [hun] at hwas
      cases hwas
    · rw [hlist]
      exact h.once
  backed := by
    intro a ha
    rw [s.issued_authenticate]
    rcases (s.mem_authenticated_step connection token now).mp ha with hold | ⟨hok, rfl⟩
    · exact h.backed a hold
    · obtain ⟨bef, hpre, htime, -⟩ := Registry.authenticate_ok hok
      exact ⟨_, h.entries token bef hpre, rfl, htime⟩
  used := by
    intro a ha entry hget
    rw [s.registry_authenticate] at hget
    obtain ⟨bef, hpre, -, hkp, hmr⟩ := Registry.lookup_authenticate hget
    rcases (s.mem_authenticated_step connection token now).mp ha with hold | ⟨hok, rfl⟩
    · exact hkp (h.used a hold bef hpre)
    · exact hmr hok rfl

theorem tokens_step_suffix {s : Store} {e : CredentialEvent} : s.tokens <:+ (s.step e).tokens := by
  cases e with
  | issue bytes issuedAt ttl sweptAt => exact suffix_cons _ _
  | authenticate connection token now =>
    unfold Store.step
    dsimp only
    split <;> exact suffix_rfl

theorem run_sound (evs : List CredentialEvent) (distinct : (Store.run evs).tokens.Nodup) :
    Sound (Store.run evs) := by
  have hst : ∀ (s : Store) e, (s.tokens.Nodup → Sound s) →
      (s.step e).tokens.Nodup → Sound (s.step e) := by
    intro s e h hnd
    have hs := h (hnd.sublist tokens_step_suffix.sublist)
    cases e with
    | issue bytes issuedAt ttl sweptAt =>
      exact hs.issue bytes issuedAt ttl sweptAt (nodup_cons.mp hnd).1
    | authenticate connection token now => exact hs.authenticate connection token now
  refine Runs.run_invariant (fun s : Store => s.tokens.Nodup → Sound s) hst evs ?_ distinct
  intro _
  exact ⟨nofun, nodup_nil, nofun, nofun⟩

/-- Each issued token authenticates at most one connection, only before its
expiry, and nothing else authenticates. -/
theorem credentials_single_use (events : List CredentialEvent)
    (distinct : (Store.run events).tokens.Nodup) :
    ((Store.run events).authenticated.map Authentication.token).Nodup ∧
      ∀ a ∈ (Store.run events).authenticated, a.token ∈ (Store.run events).tokens ∧
          ∀ c ∈ (Store.run events).issued, c.token = a.token → a.time < c.expiresAt := by
  have h := run_sound events distinct
  refine ⟨h.once, ?_⟩
  intro a ha
  obtain ⟨c, hc, htk, htime⟩ := h.backed a ha
  refine ⟨List.mem_map.mpr ⟨c, hc, htk⟩, ?_⟩
  intro c' hc' htk'
  have heq : c' = c := List.inj_on_of_nodup_map distinct hc' hc (htk'.trans htk.symm)
  rw [heq]
  exact htime

def credentialRun : List CredentialEvent :=
  [.issue (List.replicate 16 0) 0 10 0, .authenticate 1 "lt_00000000000000000000000000000000" 3,
    .authenticate 2 "lt_00000000000000000000000000000000" 4,
    .authenticate 3 "lt_00000000000000000000000000000000" 12]

theorem credentials_single_use_run : (Store.run credentialRun).authenticated =
      [⟨1, "lt_00000000000000000000000000000000", 3⟩] ∧
    ((Store.run credentialRun).authenticated.map Authentication.token).Nodup ∧
      ∀ a ∈ (Store.run credentialRun).authenticated, a.token ∈ (Store.run credentialRun).tokens ∧
          ∀ c ∈ (Store.run credentialRun).issued, c.token = a.token → a.time < c.expiresAt :=
  ⟨by decide +kernel, credentials_single_use credentialRun (by decide +kernel)⟩

inductive Ending
  | rejectedBusy
  | rejectedAuth
  | closedPeer
  | closedProtocol
  | closedTimeout
  | closedIo
  deriving DecidableEq

structure ServerStats where
  accepted : ℕ
  authenticated : ℕ
  rejectedAuth : ℕ
  rejectedBusy : ℕ
  closedPeer : ℕ
  closedProtocol : ℕ
  closedTimeout : ℕ
  closedIo : ℕ

namespace ServerStats

variable (s : ServerStats)

def count : Ending → ℕ
  | .rejectedBusy => s.rejectedBusy
  | .rejectedAuth => s.rejectedAuth
  | .closedPeer => s.closedPeer
  | .closedProtocol => s.closedProtocol
  | .closedTimeout => s.closedTimeout
  | .closedIo => s.closedIo

def tally : Ending → ServerStats
  | .rejectedBusy => { s with rejectedBusy := s.rejectedBusy + 1 }
  | .rejectedAuth => { s with rejectedAuth := s.rejectedAuth + 1 }
  | .closedPeer => { s with closedPeer := s.closedPeer + 1 }
  | .closedProtocol => { s with closedProtocol := s.closedProtocol + 1 }
  | .closedTimeout => { s with closedTimeout := s.closedTimeout + 1 }
  | .closedIo => { s with closedIo := s.closedIo + 1 }

theorem count_tally {e e' : Ending} :
    (s.tally e).count e' = s.count e' + if e = e' then 1 else 0 := by
  cases e <;> cases e' <;> rfl

end ServerStats

inductive EndReason
  | peerClosed
  | protocol
  | timeout
  | io
  deriving DecidableEq

def EndReason.ending : EndReason → Ending
  | .peerClosed => .closedPeer
  | .protocol => .closedProtocol
  | .timeout => .closedTimeout
  | .io => .closedIo

inductive HandshakeResult
  | authenticated
  | rejected (error : AuthError)
  | closed
  | timedOut
  | protocol
  | io

inductive Stage
  | arrived
  | accepted
  | observing (observed : ℕ)
  | refused
  | preparing
  | handshaking
  | authenticated
  | replying
  | working
  | ending (e : Ending)
  | leaving (e : Ending)
  | leavingUncounted
  | uncounted
  | ended (e : Ending)

structure Conn where
  stage : Stage
  acquired : ℕ
  released : ℕ
  tallies : List Ending

def Conn.new : Conn := ⟨.arrived, 0, 0, []⟩

structure Shared where
  current : ℕ
  stats : ServerStats

def Shared.initial : Shared := ⟨0, ⟨0, 0, 0, 0, 0, 0, 0, 0⟩⟩

/-- What a step depends on: whether a weak exchange fails spuriously, and how the
stream and the handshake turn out. -/
structure Outcome where
  spurious : Bool
  prepared : Bool
  handshake : HandshakeResult
  replied : Bool
  reason : EndReason

namespace Shared

def tally (g : Shared) (e : Ending) : Shared := { g with stats := g.stats.tally e }

/-- `fetch_sub(1)`, which wraps around at zero. -/
def release (g : Shared) : Shared :=
  { g with current := if g.current = 0 then 2 ^ 64 - 1 else g.current - 1 }

end Shared

namespace Conn

def goTo (c : Conn) (stage : Stage) : Conn := { c with stage := stage }

def tally (c : Conn) (e : Ending) (next : Stage) : Conn :=
  { c with stage := next, tallies := e :: c.tallies }

def release (c : Conn) (next : Stage) : Conn :=
  { c with stage := next, released := c.released + 1 }

end Conn

variable (max : ℕ) (g : Shared)

def tryAcquire (c : Conn) (observed : ℕ) (spurious : Bool) : Shared × Conn :=
  if observed ≥ max then (g, c.goTo .refused)
  else if g.current = observed ∧ spurious = false then
    ({ g with current := observed + 1 }, { c with stage := .preparing, acquired := c.acquired + 1 })
  else (g, c.goTo (.observing g.current))

def handshakeNext : HandshakeResult → Stage
  | .authenticated => .authenticated
  | .rejected _ => .ending .rejectedAuth
  | .closed => .ending .closedPeer
  | .timedOut => .ending .closedTimeout
  | .protocol => .ending .closedProtocol
  | .io => .ending .closedIo

/-- A step of `accept_loop` or `connection_worker` for one connection. A failed
handshake reply releases the slot before it counts the end, every other exit of
the worker counts first. -/
def serve (c : Conn) (o : Outcome) : Shared × Conn :=
  match c.stage with
  | .arrived =>
    ({ g with stats := { g.stats with accepted := g.stats.accepted + 1 } }, c.goTo .accepted)
  | .accepted => (g, c.goTo (.observing g.current))
  | .observing observed => tryAcquire max g c observed o.spurious
  | .refused => (g.tally .rejectedBusy, c.tally .rejectedBusy (.ended .rejectedBusy))
  | .preparing => (g, c.goTo (if o.prepared then .handshaking else .ending .closedIo))
  | .handshaking => (g, c.goTo (handshakeNext o.handshake))
  | .authenticated =>
    ({ g with stats := { g.stats with authenticated := g.stats.authenticated + 1 } },
      c.goTo .replying)
  | .replying => (g, c.goTo (if o.replied then .working else .leavingUncounted))
  | .working => (g, c.goTo (.ending o.reason.ending))
  | .ending e => (g.tally e, c.tally e (.leaving e))
  | .leaving e => (g.release, c.release (.ended e))
  | .leavingUncounted => (g.release, c.release .uncounted)
  | .uncounted => (g.tally .closedIo, c.tally .closedIo (.ended .closedIo))
  | .ended e => (g, c.goTo (.ended e))

abbrev Server := Crew Shared Conn

variable (events : List (Crew.Event Outcome)) {c : Conn} {obs : ℕ} {next : Stage}

def Server.run : Server :=
  Runs.run (Crew.step Conn.new (serve max)) ⟨.initial, []⟩ events

def Stage.holdsSlot : Stage → Bool
  | .preparing | .handshaking | .authenticated | .replying | .working => true
  | .ending _ | .leaving _ | .leavingUncounted => true
  | _ => false

def Stage.counted : Stage → List Ending
  | .leaving e | .ended e => [e]
  | _ => []

structure Conn.Accounted (c : Conn) : Prop where
  slot : c.acquired = c.released + if c.stage.holdsSlot then 1 else 0
  once : c.acquired ≤ 1
  before : c.stage.holdsSlot = true → c.released = 0
  tallies : c.tallies = c.stage.counted

theorem handshakeNext_holds (h : HandshakeResult) : (handshakeNext h).holdsSlot := by
  cases h <;> rfl

theorem handshakeNext_counted (h : HandshakeResult) : (handshakeNext h).counted = [] := by
  cases h <;> rfl

section
variable (h : c.Accounted)
include h

theorem Conn.Accounted.goTo {stage : Stage} (slot : stage.holdsSlot = c.stage.holdsSlot)
    (counted : stage.counted = c.stage.counted) : (c.goTo stage).Accounted where
  slot := by
    have hs := h.slot
    rw [← slot] at hs
    exact hs
  once := h.once
  before := fun hs => h.before (slot ▸ hs)
  tallies := h.tallies.trans counted.symm

theorem Conn.Accounted.tally {e : Ending} (uncounted : c.stage.counted = [])
    (slot : next.holdsSlot = c.stage.holdsSlot) (counted : next.counted = [e]) :
    (c.tally e next).Accounted where
  slot := by
    have hs := h.slot
    rw [← slot] at hs
    exact hs
  once := h.once
  before := fun hs => h.before (slot ▸ hs)
  tallies := by
    show e :: c.tallies = next.counted
    rw [h.tallies, uncounted, counted]

theorem Conn.Accounted.release (slot : c.stage.holdsSlot) (free : next.holdsSlot = false)
    (counted : next.counted = c.stage.counted) : (c.release next).Accounted where
  slot := by
    have hs := h.slot
    rw [slot] at hs
    show c.acquired = c.released + 1 + if next.holdsSlot then 1 else 0
    rw [free]
    simpa using hs
  once := h.once
  before := by
    intro hs
    have hnx : next.holdsSlot := hs
    rw [free] at hnx
    cases hnx
  tallies := h.tallies.trans counted.symm

theorem Conn.Accounted.acquire (stage : c.stage = .observing obs) (fresh : c.acquired = 0) :
    Conn.Accounted { c with stage := .preparing, acquired := c.acquired + 1 } := by
  have hslot := h.slot
  have htl := h.tallies
  rw [stage] at hslot htl
  refine ⟨?_, ?_, fun _ => ?_, htl⟩
  · show c.acquired + 1 = c.released + 1
    omega
  · show c.acquired + 1 ≤ 1
    omega
  · show c.released = 0
    omega

end

def Stage.beforeSlot : Stage → Bool
  | .arrived | .accepted | .observing _ | .refused => true
  | _ => false

def Conn.Fresh (c : Conn) : Prop := c.stage.beforeSlot = true → c.acquired = 0

theorem tryAcquire_accounted {max : ℕ} {g : Shared} {spurious : Bool} (h : c.Accounted)
    (hfr : c.Fresh) (hst : c.stage = .observing obs) :
    (tryAcquire max g c obs spurious).2.Accounted ∧ (tryAcquire max g c obs spurious).2.Fresh := by
  have hnn : c.acquired = 0 := hfr (by rw [hst]; rfl)
  unfold tryAcquire
  split
  · exact ⟨h.goTo (by rw [hst]; rfl) (by rw [hst]; rfl), fun _ => hnn⟩
  · split
    · exact ⟨h.acquire hst hnn, nofun⟩
    · exact ⟨h.goTo (by rw [hst]; rfl) (by rw [hst]; rfl), fun _ => hnn⟩

theorem serve_accounted (c : Conn) (o : Outcome)
    (h : c.Accounted ∧ c.Fresh) : (serve max g c o).2.Accounted ∧ (serve max g c o).2.Fresh := by
  obtain ⟨h, hfr⟩ := h
  unfold serve
  split <;> rename_i hst
  · have hnn : c.acquired = 0 := hfr (by rw [hst]; rfl)
    exact ⟨h.goTo (by rw [hst]; rfl) (by rw [hst]; rfl), fun _ => hnn⟩
  · have hnn : c.acquired = 0 := hfr (by rw [hst]; rfl)
    exact ⟨h.goTo (by rw [hst]; rfl) (by rw [hst]; rfl), fun _ => hnn⟩
  · exact tryAcquire_accounted h hfr hst
  · exact ⟨h.tally (by rw [hst]; rfl) (by rw [hst]; rfl) rfl, nofun⟩
  · refine ⟨h.goTo ?_ ?_, ?_⟩ <;> cases o.prepared <;> first | (rw [hst]; rfl) | exact nofun
  · refine ⟨h.goTo ?_ ?_, ?_⟩
    · rw [hst, handshakeNext_holds]
      rfl
    · rw [hst, handshakeNext_counted]
      rfl
    · show (handshakeNext o.handshake).beforeSlot → c.acquired = 0
      cases o.handshake <;> exact nofun
  · exact ⟨h.goTo (by rw [hst]; rfl) (by rw [hst]; rfl), nofun⟩
  · refine ⟨h.goTo ?_ ?_, ?_⟩ <;> cases o.replied <;> first | (rw [hst]; rfl) | exact nofun
  · exact ⟨h.goTo (by rw [hst]; rfl) (by rw [hst]; rfl), nofun⟩
  · exact ⟨h.tally (by rw [hst]; rfl) (by rw [hst]; rfl) rfl, nofun⟩
  · exact ⟨h.release (by rw [hst]; rfl) rfl (by rw [hst]; rfl), nofun⟩
  · exact ⟨h.release (by rw [hst]; rfl) rfl (by rw [hst]; rfl), nofun⟩
  · exact ⟨h.tally (by rw [hst]; rfl) (by rw [hst]; rfl) rfl, nofun⟩
  · exact ⟨h.goTo (by rw [hst]) (by rw [hst]), nofun⟩

theorem run_accounted : ∀ c ∈ (Server.run max events).members, c.Accounted ∧ c.Fresh :=
  Crew.members_run ⟨⟨rfl, Nat.zero_le _, nofun, rfl⟩, fun _ => rfl⟩
    (serve_accounted max) events

def Conn.share (c : Conn) : ℕ := if c.stage.holdsSlot then 1 else 0

theorem tryAcquire_current (c : Conn) (obs : ℕ) (spurious : Bool) :
    (tryAcquire max g c obs spurious).1.current =
      g.current + (tryAcquire max g c obs spurious).2.share := by
  unfold tryAcquire
  split
  · rfl
  split
  · next hec =>
    show obs + 1 = g.current + 1
    rw [hec.1]
  · rfl

theorem release_current {g : Shared} (h : 1 ≤ g.current) : g.release.current + 1 = g.current := by
  unfold Shared.release
  have hpos : g.current ≠ 0 := by omega
  simp only [hpos, if_false]
  omega

/-- Every step changes the limiter's counter as it changes the holding of the
connection; a connection that holds a slot finds the counter positive. -/
theorem serve_current (c : Conn) (o : Outcome) (h : c.share ≤ g.current) :
    (serve max g c o).1.current + c.share = g.current + (serve max g c o).2.share := by
  unfold serve
  split <;> rename_i hst <;> unfold Conn.share at h ⊢ <;> rw [hst] at h ⊢
  · rfl
  · rfl
  · exact tryAcquire_current max g c _ o.spurious
  · rfl
  · cases o.prepared <;> rfl
  · rw [show (c.goTo (handshakeNext o.handshake)).stage = handshakeNext o.handshake from rfl,
      handshakeNext_holds]
    rfl
  · rfl
  · cases o.replied <;> rfl
  · rfl
  · rfl
  · exact release_current h
  · exact release_current h
  · rfl
  · rfl

theorem run_current :
    (Server.run max events).shared.current = (Server.run max events).census Conn.share :=
  Crew.census_run (q := Shared.current) (f := Conn.share) rfl (serve_current max) rfl events

theorem serve_current_le {max : ℕ} (g : Shared) (c : Conn) (o : Outcome)
    (h : c.share ≤ g.current) (hmax : g.current ≤ max) : (serve max g c o).1.current ≤ max := by
  have hrelease : 1 ≤ g.current → g.release.current ≤ max := by
    intro hpos
    have hcr := release_current hpos
    omega
  unfold Conn.share at h
  unfold serve
  cases hst : c.stage with
  | observing obs =>
    unfold tryAcquire
    dsimp only
    split
    · exact hmax
    next hbelow =>
    split
    · show _ + 1 ≤ max
      omega
    · exact hmax
  | leaving e | leavingUncounted =>
    rw [hst] at h
    exact hrelease h
  | _ => exact hmax

theorem run_current_le : (Server.run max events).shared.current ≤ max :=
  Crew.census_run_le (q := Shared.current) (f := Conn.share) rfl (serve_current max)
    serve_current_le rfl events

theorem serve_tallies (e : Ending) (g : Shared) (c : Conn) (o : Outcome) :
    (serve max g c o).1.stats.count e + c.tallies.count e =
      g.stats.count e + (serve max g c o).2.tallies.count e := by
  have htl : ∀ e', (g.tally e').stats.count e + c.tallies.count e =
      g.stats.count e + (e' :: c.tallies).count e := by
    intro e'
    show (g.stats.tally e').count e + _ = _
    rw [ServerStats.count_tally, List.count_cons]
    simp only [beq_iff_eq]
    omega
  unfold serve
  split
  · cases e <;> rfl
  · rfl
  · unfold tryAcquire
    split
    · rfl
    · split <;> rfl
  · exact htl _
  · rfl
  · rfl
  · cases e <;> rfl
  · rfl
  · rfl
  · exact htl _
  · rfl
  · rfl
  · exact htl _
  · rfl

theorem run_tallies (e : Ending) (events : List (Crew.Event Outcome)) :
    (Server.run max events).shared.stats.count e =
      (Server.run max events).census fun c => c.tallies.count e := by
  have hzr : Shared.initial.stats.count e = 0 := by cases e <;> rfl
  have hact : ∀ (g : Shared) (c : Conn) (o : Outcome), c.tallies.count e ≤ g.stats.count e →
      (serve max g c o).1.stats.count e + c.tallies.count e =
        g.stats.count e + (serve max g c o).2.tallies.count e :=
    fun g c o _ => serve_tallies max e g c o
  exact Crew.census_run (q := fun g : Shared => g.stats.count e)
    (f := fun c : Conn => c.tallies.count e) rfl hact hzr events

def Stage.releases : Stage → Bool
  | .leaving _ | .leavingUncounted => true
  | _ => false

theorem share_eq (h : c.Accounted) : c.share = c.acquired - c.released := by
  have hslot := h.slot
  unfold Conn.share
  omega

/-- In every interleaving the limiter counts the slots in use, within its maximum, no connection
acquires or releases twice, and an ended one was counted in exactly one statistic. -/
theorem admission_accounted (max : ℕ) (events : List (Crew.Event Outcome)) :
    let s := Server.run max events
    s.shared.current = (s.members.map fun c => c.acquired - c.released).sum ∧
    s.shared.current ≤ max ∧
    (∀ c ∈ s.members, c.stage.releases = true → 1 ≤ s.shared.current) ∧
    (∀ c ∈ s.members, c.released ≤ c.acquired ∧ c.acquired ≤ 1) ∧
    (∀ c ∈ s.members, ∀ e, c.stage = .ended e → c.released = c.acquired ∧ c.tallies = [e]) ∧
    ∀ e, s.shared.stats.count e = (s.members.map fun c => c.tallies.count e).sum := by
  intro s
  have hac := run_accounted max events
  refine ⟨?_, run_current_le max events, ?_, ?_, ?_, fun e => run_tallies max e events⟩
  · rw [show s.shared.current = s.census Conn.share from run_current max events]
    unfold Crew.census
    congr 1
    refine List.map_congr_left ?_
    intro c hc
    exact share_eq (hac c hc).1
  · intro c hc hreleases
    obtain ⟨i, hi⟩ := List.mem_iff_getElem?.mp hc
    have hle := Crew.le_census (f := Conn.share) hi
    rw [← show s.shared.current = s.census Conn.share from run_current max events] at hle
    have hsh : c.share = 1 := by
      unfold Conn.share
      cases hst : c.stage <;> rw [hst] at hreleases <;> first | rfl | cases hreleases
    omega
  · intro c hc
    have h := (hac c hc).1
    have hslot := h.slot
    exact ⟨by omega, h.once⟩
  · intro c hc e hen
    have h := (hac c hc).1
    have hslot := h.slot
    have htl := h.tallies
    rw [hen] at hslot htl
    exact ⟨hslot.symm, htl⟩

end DshDesktop.Transport
