import DshDesktop.Browser.Sessions
import DshDesktop.Runtime.Environment
import DshDesktop.Daemon.Serve
import DshDesktop.Library.Interleaving

/-!
# The browser host of the daemon and the owners of its sessions

`crates/daemon/src/browser.rs`: the requests and their checks, the two maps of the host, and
the handlers of `browser.create`, `browser.navigate`, `browser.load-failed` and
`browser.close`. Any number of served connections share the host; a step is one critical
section of a handler. The session map and the owner map have a lock each, and
`browser.create` enters the session before it records the owner, so that another connection
may find none.
-/

namespace DshDesktop.Daemon
open Browser Json

def browserSchemaVersion : ℕ := 1

structure BrowserCreateRequest where
  schemaVersion : ℕ
  mode : String

structure BrowserCloseRequest where
  schemaVersion : ℕ
  sessionId : String

structure BrowserNavigateRequest where
  schemaVersion : ℕ
  sessionId : String
  url : String

structure BrowserLoadFailedRequest where
  schemaVersion : ℕ
  sessionId : String
  message : String

def BrowserCreateRequest.read (v : Json) : Option BrowserCreateRequest := do
  let ms ← v.readRecord ["schemaVersion", "mode"]
  let schemaVersion ← readField readU8 ms "schemaVersion"
  let mode ← readField readString ms "mode"
  return ⟨schemaVersion, mode⟩

def BrowserCloseRequest.read (v : Json) : Option BrowserCloseRequest := do
  let ms ← v.readRecord ["schemaVersion", "sessionId"]
  let schemaVersion ← readField readU8 ms "schemaVersion"
  let sessionId ← readField readString ms "sessionId"
  return ⟨schemaVersion, sessionId⟩

def BrowserNavigateRequest.read (v : Json) : Option BrowserNavigateRequest := do
  let ms ← v.readRecord ["schemaVersion", "sessionId", "url"]
  let schemaVersion ← readField readU8 ms "schemaVersion"
  let sessionId ← readField readString ms "sessionId"
  let url ← readField readString ms "url"
  return ⟨schemaVersion, sessionId, url⟩

def BrowserLoadFailedRequest.read (v : Json) : Option BrowserLoadFailedRequest := do
  let ms ← v.readRecord ["schemaVersion", "sessionId", "message"]
  let schemaVersion ← readField readU8 ms "schemaVersion"
  let sessionId ← readField readString ms "sessionId"
  let message ← readField readString ms "message"
  return ⟨schemaVersion, sessionId, message⟩

/-- The pattern `^brw-[a-z0-9-]+$` with at most 64 bytes. -/
def validSessionId (sessionId : String) : Bool :=
  "brw-".toList.isPrefixOf sessionId.toList && 4 < sessionId.utf8ByteSize &&
    sessionId.utf8ByteSize ≤ 64 &&
    sessionId.toList.all fun c => c.isLower || c.isDigit || c == '-'

def BrowserCreateRequest.isValid (r : BrowserCreateRequest) : Bool :=
  r.schemaVersion == browserSchemaVersion && r.mode == "human_surface"

def BrowserCloseRequest.isValid (r : BrowserCloseRequest) : Bool :=
  r.schemaVersion == browserSchemaVersion && validSessionId r.sessionId

def BrowserNavigateRequest.isValid (r : BrowserNavigateRequest) : Bool :=
  r.schemaVersion == browserSchemaVersion && validSessionId r.sessionId

def BrowserLoadFailedRequest.isValid (r : BrowserLoadFailedRequest) : Bool :=
  r.schemaVersion == browserSchemaVersion && validSessionId r.sessionId &&
    !Runtime.isBlank r.message

inductive BrowserMethod
  | create
  | navigate
  | loadFailed
  | close

def BrowserMethod.wire : BrowserMethod → String
  | create => "browser.create"
  | navigate => "browser.navigate"
  | loadFailed => "browser.load-failed"
  | close => "browser.close"

inductive SessionChange
  | navigate (url : String)
  | loadFailed (message : String)
  | close
  deriving DecidableEq

structure Mutation where
  sessionId : String
  change : SessionChange
  deriving DecidableEq

inductive BrowserCall
  | create
  | mutation (m : Mutation)

def parseCall (unreadable : String → Json → String) (payload : Json) :
    BrowserMethod → Except HostError BrowserCall
  | .create => do
    let _ ← parseRequest unreadable BrowserMethod.create.wire BrowserCreateRequest.read
      BrowserCreateRequest.isValid
      "browser.create request is malformed (schemaVersion must be 1 and mode must be human_surface)"
      payload
    return .create
  | .navigate => do
    let r ← parseRequest unreadable BrowserMethod.navigate.wire BrowserNavigateRequest.read
      BrowserNavigateRequest.isValid
      ("browser.navigate request is malformed (schemaVersion must be 1 and sessionId must be a " ++
        "valid session id)")
      payload
    return .mutation ⟨r.sessionId, .navigate r.url⟩
  | .loadFailed => do
    let r ← parseRequest unreadable BrowserMethod.loadFailed.wire BrowserLoadFailedRequest.read
      BrowserLoadFailedRequest.isValid
      ("browser.load-failed request is malformed (schemaVersion must be 1, sessionId valid and " ++
        "message non-empty)")
      payload
    return .mutation ⟨r.sessionId, .loadFailed r.message⟩
  | .close => do
    let r ← parseRequest unreadable BrowserMethod.close.wire BrowserCloseRequest.read
      BrowserCloseRequest.isValid "browser.close request is malformed" payload
    return .mutation ⟨r.sessionId, .close⟩

structure BrowserHost where
  registry : SessionRegistry
  owners : Table String ℕ

def mapBrowserError : BrowserError → HostError
  | .notFound => .failed .unavailable "browser session is unknown or already closed" false
  | .closed => .failed .unavailable "browser session is already closed" false
  | .invalidUrl _ => .failed .malformedMessage "url rejected by the browser navigation policy" false
  | .other => .failed .unavailable "browser provider state is unavailable" true

inductive OwnerCheck
  | refused (e : HostError)
  | owned
  | ownerless

namespace BrowserHost

def new : BrowserHost := ⟨.new, ∅⟩

variable (h : BrowserHost)

variable (sessionId : String)

def recordOwner (owner : ℕ) : BrowserHost :=
  { h with owners := h.owners.insert sessionId owner }

def dropOwner : BrowserHost :=
  { h with owners := h.owners.erase sessionId }

variable (connectionId : ℕ)

def releaseConnectionOwnership : BrowserHost :=
  { h with owners := h.owners.retain fun _ owner => owner ≠ connectionId }

/-- The first half of `check_owner`: the owner is looked up. -/
def checkOwner (sessionId : String) : OwnerCheck :=
  match h.owners.lookup sessionId with
  | none => .ownerless
  | some owner =>
    if owner ≠ connectionId then
      .refused (.failed .notProcessOwner "browser session is owned by another connection" false)
    else .owned

def checkKnown : Except HostError Unit :=
  match h.registry.get sessionId with
  | .error _ => .error (.failed .unavailable "browser session is unknown or already closed" false)
  | .ok _ => .ok ()

def change (now : ℕ) (m : Mutation) : Except BrowserError BrowserSession × SessionRegistry :=
  match m.change with
  | .navigate url => h.registry.recordNavigation now m.sessionId url
  | .loadFailed message => h.registry.failLoad now m.sessionId message
  | .close => h.registry.close now m.sessionId

theorem change_changed (now : ℕ) (m : Mutation) :
    SessionRegistry.Changed h.registry m.sessionId (h.change now m) := by
  rw [change]
  cases m.change with
  | navigate url => exact SessionRegistry.recordNavigation_changed now m.sessionId url
  | loadFailed message | close => exact SessionRegistry.changeLive_changed now m.sessionId _

end BrowserHost
end DshDesktop.Daemon

namespace DshDesktop.Daemon.Ownership
open Browser SessionRegistry List Option Table

structure World where
  host : BrowserHost
  creators : Table String ℕ
  recorded : List String
  released : List ℕ

/-- What a connection does next. `early` says that the owner was looked up before
it was recorded. -/
inductive Stage
  | idle
  | numbered (id : String) (now : ℕ)
  | entered (session : BrowserSession)
  | checking (m : Mutation) (early : Bool)
  | admitted (m : Mutation) (early : Bool)
  | reporting (id : String)
  | forgetting (id : String) (session : BrowserSession)
  | left
  deriving DecidableEq

structure Conn where
  key : ℕ
  stage : Stage
  answer : Option (Except HostError BrowserSession)

inductive Input
  | begin (method : BrowserMethod) (payload : Json) (now : ℕ)
  | next (now : ℕ)
  | release

def Conn.answered (c : Conn) (answer : Except HostError BrowserSession) : Conn :=
  { c with stage := .idle, answer := some answer }

def Conn.goto (c : Conn) (stage : Stage) : Conn := { c with stage := stage }

namespace World
variable (w : World) (c : Conn)

def withRegistry (registry : SessionRegistry) : World :=
  { w with host := { w.host with registry := registry } }

def number (now : ℕ) : World × Conn :=
  let (id, registry) := w.host.registry.number now
  ({ w.withRegistry registry with creators := w.creators.insert id c.key },
    c.goto (.numbered id now))

def enter (id : String) (now : ℕ) : World × Conn :=
  let (session, registry) := w.host.registry.enter now id
  (w.withRegistry registry, c.goto (.entered session))

def recordOwner (session : BrowserSession) : World × Conn :=
  ({ w with
      host := w.host.recordOwner session.sessionId c.key
      recorded := session.sessionId :: w.recorded },
    c.answered (.ok session))

variable (m : Mutation)

def checkOwner : World × Conn :=
  let early := decide (m.sessionId ∉ w.recorded)
  match w.host.checkOwner c.key m.sessionId with
  | .refused e => (w, c.answered (.error e))
  | .owned => (w, c.goto (.admitted m early))
  | .ownerless => (w, c.goto (.checking m early))

def checkKnown (early : Bool) : World × Conn :=
  match w.host.checkKnown m.sessionId with
  | .error e => (w, c.answered (.error e))
  | .ok _ => (w, c.goto (.admitted m early))

def changed (session : BrowserSession) : Conn :=
  match m.change with
  | .navigate _ => c.answered (.ok session)
  | .loadFailed _ => c.goto (.reporting m.sessionId)
  | .close => c.goto (.forgetting m.sessionId session)

def change (now : ℕ) : World × Conn :=
  match w.host.change now m with
  | (.error e, registry) => (w.withRegistry registry, c.answered (.error (mapBrowserError e)))
  | (.ok session, registry) => (w.withRegistry registry, changed c m session)

def report (id : String) : World × Conn :=
  (w, c.answered ((w.host.registry.get id).mapError mapBrowserError))

def forget (id : String) (session : BrowserSession) : World × Conn :=
  ({ w with host := w.host.dropOwner id }, c.answered (.ok session))

def release : World × Conn :=
  ({ w with
      host := w.host.releaseConnectionOwnership c.key
      released := c.key :: w.released },
    c.goto .left)

def begin (unreadable : String → Json → String) (method : BrowserMethod) (payload : Json)
    (now : ℕ) : World × Conn :=
  match parseCall unreadable payload method with
  | .error e => (w, c.answered (.error e))
  | .ok .create => w.number c now
  | .ok (.mutation m) => w.checkOwner c m

def next (now : ℕ) : World × Conn :=
  match c.stage with
  | .idle | .left => (w, c)
  | .numbered id created => w.enter c id created
  | .entered session => w.recordOwner c session
  | .checking m early => w.checkKnown c m early
  | .admitted m _ => w.change c m now
  | .reporting id => w.report c id
  | .forgetting id session => w.forget c id session

def act (unreadable : String → Json → String) : Input → World × Conn
  | .begin method payload now =>
    if c.stage = .idle then w.begin c unreadable method payload now else (w, c)
  | .next now => w.next c now
  | .release => if c.stage = .idle then w.release c else (w, c)

def new : World := ⟨.new, ∅, [], []⟩

end World

abbrev Event := Interleaving.Event Input Empty

variable (unreadable bad : String → Json → String) {id : String} {s s' : BrowserSession}
  {m : Mutation}

def step : Interleaving.Pool World Conn → Event → Interleaving.Pool World Conn :=
  Interleaving.step (fun w c => w.act c unreadable) fun w _ => w

def start : Interleaving.Pool World Conn := ⟨.new, fun t => ⟨t, .idle, none⟩⟩

def run (events : List Event) : Interleaving.Pool World Conn :=
  Runs.run (step unreadable) start events

namespace World

def session (w : World) (id : String) : Option BrowserSession :=
  w.host.registry.sessions.lookup id

def Closed (w : World) (id : String) : Prop :=
  ∃ s, w.session id = some s ∧ s.state = .closed

def Entitled (w : World) (key : ℕ) (id : String) : Prop :=
  ∃ creator, w.creators.lookup id = some creator ∧ (key = creator ∨ creator ∈ w.released)

structure Books (w : World) : Prop where
  numbered : ∀ id key, w.creators.lookup id = some key →
    ∃ now seq, seq < w.host.registry.nextSeq ∧ id = sessionId now seq
  created : ∀ id s, w.session id = some s → ∃ key, w.creators.lookup id = some key
  entered : ∀ id ∈ w.recorded, ∃ s, w.session id = some s
  owned : ∀ id ∈ w.recorded, ∀ s key, w.session id = some s → s.state ≠ .closed →
    w.creators.lookup id = some key → key ∉ w.released → w.host.owners.lookup id = some key

/-- What a step of the connection `key` may do: sessions stay and stay closed, and
it enters and records only sessions that it made. -/
structure Advance (key : ℕ) (w w' : World) : Prop where
  creators : ∀ id creator, w.creators.lookup id = some creator →
    w'.creators.lookup id = some creator
  released : ∀ k ∈ w.released, k ∈ w'.released
  known : ∀ id s, w.session id = some s → ∃ s', w'.session id = some s'
  closed : ∀ id, w.Closed id → w'.Closed id
  unknown : ∀ id creator, w.creators.lookup id = some creator → creator ≠ key →
    w.session id = none → w'.session id = none
  unrecorded : ∀ id creator, w.creators.lookup id = some creator → creator ≠ key →
    id ∉ w.recorded → id ∉ w'.recorded

theorem Advance.refl (key : ℕ) (w : World) : Advance key w w where
  creators := fun _ _ h => h
  released := fun _ h => h
  known := fun _ s h => ⟨s, h⟩
  closed := fun _ h => h
  unknown := fun _ _ _ _ h => h
  unrecorded := fun _ _ _ _ h => h

theorem Advance.entitled {key other : ℕ} {w w' : World} (h : Advance key w w')
    (he : w.Entitled other id) : w'.Entitled other id := by
  obtain ⟨crt, hcr, hwho⟩ := he
  exact ⟨crt, h.creators id crt hcr, hwho.imp_right (h.released crt)⟩

end World

inductive Stage.Kept (w : World) (key : ℕ) : Stage → Prop
  | idle : Kept w key .idle
  | numbered (id : String) (now : ℕ) (creator : w.creators.lookup id = some key)
      (unknown : w.session id = none) : Kept w key (.numbered id now)
  | entered (s : BrowserSession) (creator : w.creators.lookup s.sessionId = some key)
      (known : ∃ s', w.session s.sessionId = some s') (unrecorded : s.sessionId ∉ w.recorded) :
      Kept w key (.entered s)
  | checking (m : Mutation) (early : Bool)
      (due : early = false → w.Closed m.sessionId ∨ w.Entitled key m.sessionId) :
      Kept w key (.checking m early)
  | admitted (m : Mutation) (early : Bool)
      (due : early = false → w.Closed m.sessionId ∨ w.Entitled key m.sessionId) :
      Kept w key (.admitted m early)
  | reporting (id : String) : Kept w key (.reporting id)
  | forgetting (id : String) (s : BrowserSession) (closed : w.Closed id) :
      Kept w key (.forgetting id s)
  | left : Kept w key .left

theorem Stage.Kept.advance {w w' : World} {key other : ℕ} {stage : Stage}
    (h : stage.Kept w other) (hst : World.Advance key w w') (hot : other ≠ key) :
    stage.Kept w' other := by
  have hdue : ∀ id, w.Closed id ∨ w.Entitled other id → w'.Closed id ∨ w'.Entitled other id :=
    fun id hid => hid.imp (hst.closed id) hst.entitled
  cases h with
  | idle => exact .idle
  | numbered id now crt unknown =>
    exact .numbered id now (hst.creators id other crt)
      (hst.unknown id other crt hot unknown)
  | entered s crt known unrecorded =>
    obtain ⟨s', hs'⟩ := known
    exact .entered s (hst.creators _ other crt) (hst.known _ s' hs')
      (hst.unrecorded _ other crt hot unrecorded)
  | checking m early due => exact .checking m early fun hea => hdue _ (due hea)
  | admitted m early due => exact .admitted m early fun hea => hdue _ (due hea)
  | reporting id => exact .reporting id
  | forgetting id s closed => exact .forgetting id s (hst.closed id closed)
  | left => exact .left

structure Sound (w : World) (c : Conn) (r : World × Conn) : Prop where
  key : r.2.key = c.key
  books : r.1.Books
  advance : World.Advance c.key w r.1
  kept : r.2.stage.Kept r.1 c.key

section
variable {w : World} {c : Conn} (hw : w.Books)
include hw

theorem sound_stay {c' : Conn} (hkey : c'.key = c.key) (hkp : c'.stage.Kept w c.key) :
    Sound w c (w, c') :=
  ⟨hkey, hw, .refl c.key w, hkp⟩

theorem sound_answered (answer : Except HostError BrowserSession) :
    Sound w c (w, c.answered answer) :=
  sound_stay hw rfl .idle

theorem creators_fresh (now : ℕ) :
    w.creators.lookup (sessionId now w.host.registry.nextSeq) = none := by
  by_contra hne
  obtain ⟨key, hkey⟩ := ne_none_iff_exists'.mp hne
  obtain ⟨now', seq, hseq, hid⟩ := hw.numbered _ key hkey
  have heq := (sessionId_inj hid).2
  omega

theorem session_fresh (now : ℕ) : w.session (sessionId now w.host.registry.nextSeq) = none := by
  by_contra hne
  obtain ⟨s, hs⟩ := ne_none_iff_exists'.mp hne
  obtain ⟨key, hkey⟩ := hw.created _ s hs
  rw [creators_fresh hw now] at hkey
  exact absurd hkey (by simp)

theorem sound_number (now : ℕ) : Sound w c (w.number c now) := by
  have hfr := creators_fresh hw now
  have hunk := session_fresh hw now
  set fresh := sessionId now w.host.registry.nextSeq with hid
  have hot : ∀ id crt, w.creators.lookup id = some crt →
      (w.creators.insert fresh c.key).lookup id = some crt := by
    intro id crt hcr
    have hne : id ≠ fresh := by
      intro heq
      rw [heq, hfr] at hcr
      exact absurd hcr (by simp)
    rw [lookup_insert_ite, if_neg hne, hcr]
  refine ⟨rfl, ⟨?_, ?_, hw.entered, ?_⟩, { World.Advance.refl c.key w with creators := hot }, ?_⟩
  · intro id key hkey
    change (w.creators.insert fresh c.key).lookup id = some key at hkey
    rw [lookup_insert_ite] at hkey
    split_ifs at hkey with heq
    · exact ⟨now, w.host.registry.nextSeq, Nat.lt_succ_self _, heq.trans hid⟩
    · obtain ⟨now', seq, hseq, hsq⟩ := hw.numbered id key hkey
      exact ⟨now', seq, Nat.lt_succ_of_lt hseq, hsq⟩
  · intro id s hs
    obtain ⟨key, hkey⟩ := hw.created id s hs
    exact ⟨key, hot id key hkey⟩
  · intro id hrec s key hs hlv hkey hhl
    obtain ⟨crt, hcr⟩ := hw.created id s hs
    obtain rfl := some.inj ((hot id crt hcr).symm.trans hkey)
    exact hw.owned id hrec s crt hs hlv hcr hhl
  · exact .numbered fresh now (AList.lookup_insert _) hunk

section
variable {reg : SessionRegistry}
  (hregistry : reg = { w.host.registry with sessions := w.host.registry.sessions.insert id s })
include hregistry

omit hw in
theorem session_put (id' : String) :
    (w.withRegistry reg).session id' = if id' = id then some s else w.session id' := by
  subst hregistry
  exact lookup_insert_ite ..

omit hw in
theorem known_put {id' : String} (h : w.session id' = some s') :
    ∃ s'', (w.withRegistry reg).session id' = some s'' := by
  rw [session_put hregistry]
  split_ifs with heq
  · exact ⟨s, rfl⟩
  · exact ⟨s', h⟩

-- a session is put by its maker while it is unknown, or in the place of a live one
variable (hfrom : (w.session id = none ∧ w.creators.lookup id = some c.key) ∨
  ∃ old, w.session id = some old ∧ old.state ≠ .closed)
include hfrom

theorem books_put : (w.withRegistry reg).Books := by
  have hrec : id ∈ w.recorded → ∃ old, w.session id = some old ∧ old.state ≠ .closed := by
    intro hmem
    obtain ⟨old, hold⟩ := hw.entered id hmem
    refine hfrom.resolve_left fun hnn => ?_
    rw [hnn.1] at hold
    exact absurd hold (by simp)
  have hnx : reg.nextSeq = w.host.registry.nextSeq := by rw [hregistry]
  refine ⟨?_, ?_, ?_, ?_⟩
  · intro id' key hkey
    obtain ⟨now, seq, hseq, hid⟩ := hw.numbered id' key hkey
    exact ⟨now, seq, hseq.trans_eq hnx.symm, hid⟩
  · intro id' s' hs'
    rw [session_put hregistry] at hs'
    split_ifs at hs' with heq
    · subst heq
      rcases hfrom with ⟨-, hmd⟩ | ⟨old, hold, -⟩
      · exact ⟨c.key, hmd⟩
      · exact hw.created id' old hold
    · exact hw.created id' s' hs'
  · intro id' hmem
    obtain ⟨s', hs'⟩ := hw.entered id' hmem
    exact known_put hregistry hs'
  · intro id' hmem s' key hs' hlv hkey hhl
    rw [session_put hregistry] at hs'
    split_ifs at hs' with heq
    · subst heq
      obtain ⟨old, hold, hwas⟩ := hrec hmem
      exact hw.owned id' hmem old key hold hwas hkey hhl
    · exact hw.owned id' hmem s' key hs' hlv hkey hhl

omit hw in
theorem advance_put : World.Advance c.key w (w.withRegistry reg) := by
  refine ⟨fun _ _ h => h, fun _ h => h, fun _ _ h => known_put hregistry h, ?_, ?_,
    fun _ _ _ _ h => h⟩
  · intro id' hclosed
    obtain ⟨s', hs', hst⟩ := hclosed
    refine ⟨s', ?_, hst⟩
    rw [session_put hregistry, if_neg]
    · exact hs'
    · intro heq
      rcases hfrom with ⟨hnn, -⟩ | ⟨old, hold, hlv⟩
      · rw [heq, hnn] at hs'
        exact absurd hs' (by simp)
      · rw [heq, hold] at hs'
        exact hlv ((some.inj hs').symm ▸ hst)
  · intro id' crt hcr hnotmine hnn
    rw [session_put hregistry, if_neg]
    · exact hnn
    · intro heq
      rcases hfrom with ⟨-, hmd⟩ | ⟨old, hold, -⟩
      · rw [heq, hmd] at hcr
        exact hnotmine (some.inj hcr).symm
      · rw [heq, hold] at hnn
        exact absurd hnn (by simp)

end

theorem sound_enter {now : ℕ} (hcr : w.creators.lookup id = some c.key)
    (hunk : w.session id = none) : Sound w c (w.enter c id now) := by
  refine ⟨rfl, books_put hw rfl (.inl ⟨hunk, hcr⟩),
    advance_put rfl (.inl ⟨hunk, hcr⟩), .entered _ hcr ⟨_, AList.lookup_insert _⟩ ?_⟩
  intro hmem
  obtain ⟨s, hs⟩ := hw.entered id hmem
  rw [hunk] at hs
  exact absurd hs (by simp)

theorem sound_recordOwner (hcr : w.creators.lookup s.sessionId = some c.key)
    (hkn : ∃ s', w.session s.sessionId = some s') : Sound w c (w.recordOwner c s) := by
  refine ⟨rfl, { hw with entered := ?_, owned := ?_ },
    { World.Advance.refl c.key w with unrecorded := ?_ }, .idle⟩
  · intro id hmem
    rcases mem_cons.mp hmem with heq | hmem
    · exact heq ▸ hkn
    · exact hw.entered id hmem
  · intro id hmem s' key hs' hlv hkey hhl
    change (w.host.owners.insert s.sessionId c.key).lookup id = some key
    rw [lookup_insert_ite]
    split_ifs with heq
    · rw [heq] at hkey
      exact hcr.symm.trans hkey
    · have hmm' := (mem_cons.mp hmem).resolve_left heq
      exact hw.owned id hmm' s' key hs' hlv hkey hhl
  · intro id crt hot hne hnot hmem
    rcases mem_cons.mp hmem with heq | hmem
    · rw [heq, hcr] at hot
      exact hne (some.inj hot).symm
    · exact hnot hmem

theorem due_of_recorded (hmem : id ∈ w.recorded)
    (hfn : ∀ owner, w.host.owners.lookup id = some owner → owner = c.key) :
    w.Closed id ∨ w.Entitled c.key id := by
  obtain ⟨s, hs⟩ := hw.entered id hmem
  obtain ⟨crt, hcr⟩ := hw.created id s hs
  by_cases hclosed : s.state = .closed
  · exact .inl ⟨s, hs, hclosed⟩
  · by_cases hrel : crt ∈ w.released
    · exact .inr ⟨crt, hcr, .inr hrel⟩
    · have how := hw.owned id hmem s crt hs hclosed hcr hrel
      exact .inr ⟨crt, hcr, .inl (hfn crt how).symm⟩

theorem sound_checkOwner (m : Mutation) : Sound w c (w.checkOwner c m) := by
  have hdue : (∀ owner, w.host.owners.lookup m.sessionId = some owner → owner = c.key) →
      decide (m.sessionId ∉ w.recorded) = false →
      w.Closed m.sessionId ∨ w.Entitled c.key m.sessionId := by
    intro hfn hea
    have hmem : m.sessionId ∈ w.recorded := not_not.mp (of_decide_eq_false hea)
    exact due_of_recorded hw hmem hfn
  rw [World.checkOwner, BrowserHost.checkOwner]
  cases how : w.host.owners.lookup m.sessionId with
  | none => exact sound_stay hw rfl (.checking m _ (hdue (by simp [how])))
  | some owner =>
    by_cases hown : owner = c.key
    · simp only [hown, ne_eq, not_true_eq_false, if_false]
      exact sound_stay hw rfl (.admitted m _ (hdue (by simp [how, hown])))
    · simp only [ne_eq, hown, not_false_eq_true, if_true]
      exact sound_answered hw _

theorem sound_checkKnown {early : Bool}
    (hdue : early = false → w.Closed m.sessionId ∨ w.Entitled c.key m.sessionId) :
    Sound w c (w.checkKnown c m early) := by
  rw [World.checkKnown]
  cases w.host.checkKnown m.sessionId with
  | error e => exact sound_answered hw _
  | ok _ => exact sound_stay hw rfl (.admitted m early hdue)

theorem sound_change (m : Mutation) (now : ℕ) : Sound w c (w.change c m now) := by
  have hdf := w.host.change_changed now m
  rw [World.change]
  generalize hres : w.host.change now m = result at hdf
  cases hdf with
  | refused e => exact sound_answered hw _
  | replaced old s hold hlv =>
    have hbk := books_put (c := c) (s := s) hw rfl (.inr ⟨old, hold, hlv⟩)
    have had := advance_put (c := c) (s := s) rfl (.inr ⟨old, hold, hlv⟩)
    simp only [World.changed]
    cases hkn : m.change with
    | navigate url => exact ⟨rfl, hbk, had, .idle⟩
    | loadFailed msg => exact ⟨rfl, hbk, had, .reporting m.sessionId⟩
    | close =>
      have hok : (w.host.registry.close now m.sessionId).1 = .ok s := by
        rw [BrowserHost.change, hkn] at hres
        exact congrArg Prod.fst hres
      exact ⟨rfl, hbk, had, .forgetting _ _ ⟨s, AList.lookup_insert _, close_ok now hok⟩⟩

theorem sound_forget (hclosed : w.Closed id) : Sound w c (w.forget c id s) := by
  refine ⟨rfl, { hw with owned := ?_ }, { World.Advance.refl c.key w with }, .idle⟩
  intro id' hmem s' key hs' hlv hkey hhl
  obtain ⟨s'', hs'', hst⟩ := hclosed
  have hne : id' ≠ id := by
    intro heq
    have hsame : s'' = s' := some.inj (hs''.symm.trans (heq ▸ hs'))
    exact hlv (hsame ▸ hst)
  change (w.host.owners.erase id).lookup id' = some key
  rw [lookup_erase_ite, if_neg hne]
  exact hw.owned id' hmem s' key hs' hlv hkey hhl

theorem sound_release : Sound w c (w.release c) := by
  refine ⟨rfl, { hw with owned := ?_ },
    { World.Advance.refl c.key w with released := fun _ h => mem_cons_of_mem _ h }, .left⟩
  intro id hmem s key hs hlv hkey hhl
  obtain ⟨hne, hst⟩ := not_or.mp (mt mem_cons.mpr hhl)
  exact lookup_retain_some.mpr
    ⟨hw.owned id hmem s key hs hlv hkey hst, decide_eq_true hne⟩

theorem sound_next (hc : c.stage.Kept w c.key) (now : ℕ) : Sound w c (w.next c now) := by
  have hst := hc
  rw [World.next]
  generalize c.stage = stage at hst
  cases hst with
  | idle | left => exact sound_stay hw rfl hc
  | reporting id => exact sound_answered hw _
  | admitted m early => exact sound_change hw m now
  | numbered id created crt unknown => exact sound_enter hw crt unknown
  | entered s crt known _ => exact sound_recordOwner hw crt known
  | checking m early due => exact sound_checkKnown hw due
  | forgetting id s closed => exact sound_forget hw closed

theorem sound_begin (unreadable : String → Json → String) (mth : BrowserMethod)
    (pay : Json) (now : ℕ) : Sound w c (w.begin c unreadable mth pay now) := by
  rw [World.begin]
  cases parseCall unreadable pay mth with
  | error e => exact sound_answered hw _
  | ok call =>
    cases call with
    | create => exact sound_number hw now
    | mutation m => exact sound_checkOwner hw m

theorem sound_act (hc : c.stage.Kept w c.key) (unreadable : String → Json → String)
    (input : Input) : Sound w c (w.act c unreadable input) := by
  cases input with
  | begin mth pay now =>
    by_cases hil : c.stage = .idle
    · rw [World.act, if_pos hil]
      exact sound_begin hw unreadable mth pay now
    · rw [World.act, if_neg hil]
      exact sound_stay hw rfl hc
  | next now => exact sound_next hw hc now
  | release =>
    by_cases hil : c.stage = .idle
    · rw [World.act, if_pos hil]
      exact sound_release hw
    · rw [World.act, if_neg hil]
      exact sound_stay hw rfl hc

end

theorem books_new : World.new.Books where
  numbered := fun _ _ h => by simp [World.new] at h
  created := by
    intro _ _ h
    simp [World.new, World.session, BrowserHost.new, new] at h
  entered := fun _ h => by simp [World.new] at h
  owned := fun _ h => by simp [World.new] at h

theorem holds_run (evs : List Event) : (run bad evs).shared.Books ∧
      ∀ t, ((run bad evs).thread t).stage.Kept (run bad evs).shared
        ((run bad evs).thread t).key := by
  have hhl : Interleaving.Holds World.Books (fun w c => c.stage.Kept w c.key)
        (Runs.run (Interleaving.step (fun w c => w.act c bad) fun w (_ : Empty) => w) start
          evs) ∧
      Interleaving.Apart (fun c c' => c.key ≠ c'.key)
        (Runs.run (Interleaving.step (fun w c => w.act c bad) fun w (_ : Empty) => w) start
          evs) := by
    refine Interleaving.holds_apart_run ?_ ?_ ?_ (fun _ e => e.elim) (fun _ e => e.elim) evs
      ⟨books_new, fun _ => .idle⟩ fun t u htu => htu
    · intro w c input hw hc
      have hsn := sound_act hw hc bad input
      exact ⟨hsn.books, hsn.key ▸ hsn.kept⟩
    · intro w c input c' hw hc hc' hne _
      exact hc'.advance (sound_act hw hc bad input).advance hne.symm
    · intro w c input c' hw hc hc' hne hne'
      have hkey := (sound_act hw hc bad input).key
      exact ⟨hkey ▸ hne, hkey ▸ hne'⟩
  exact hhl.1

def Changes (p : Interleaving.Pool World Conn) (e : Event) (c : Conn) (m : Mutation)
    (early : Bool) : Prop :=
  ∃ t now s, e = .act t (.next now) ∧ c = p.thread t ∧ c.stage = .admitted m early ∧
    (p.shared.host.change now m).1 = .ok s

/-- Whoever looked the owner up after it was recorded changes the session only as
its maker or after the maker has released it. -/
theorem entitled_of_late {evs : List Event} {e : Event} {c : Conn}
    (h : Changes (run bad evs) e c m false) : (run bad evs).shared.Entitled c.key m.sessionId := by
  obtain ⟨t, now, s, -, rfl, hst, hok⟩ := h
  obtain ⟨-, hkp⟩ := holds_run bad evs
  have hmine := hkp t
  rw [hst] at hmine
  cases hmine with
  | admitted _ _ due =>
    refine (due rfl).resolve_left fun hclosed => ?_
    obtain ⟨s', hs', hsa⟩ := hclosed
    have hdf := (run bad evs).shared.host.change_changed now m
    generalize (run bad evs).shared.host.change now m = result at hdf hok
    cases hdf with
    | refused e => exact absurd hok (by simp)
    | replaced old s hold hlv =>
      have heq : s' = old := some.inj (hs'.symm.trans hold)
      exact hlv (heq ▸ hsa)

theorem changed_by_maker_iff (events : List Event) :
    Runs.Along (step unreadable) (fun p e => ∀ c m early, Changes p e c m early →
      p.shared.Entitled c.key m.sessionId) start events ↔
    Runs.Along (step unreadable) (fun p e => ∀ c m, Changes p e c m true →
      p.shared.Entitled c.key m.sessionId) start events := by
  refine Runs.along_congr ?_ events
  intro xs e
  constructor
  · intro hall c m hch
    exact hall c m true hch
  · intro hea c m early hch
    cases early with
    | true => exact hea c m hch
    | false => exact entitled_of_late unreadable hch

def createPayload : Json :=
  .object [("schemaVersion", Json.nat 1), ("mode", .string "human_surface")]

def closePayload : Json :=
  .object [("schemaVersion", Json.nat 1), ("sessionId", .string "brw-1000-1")]

def sampleEvents : List Event :=
  [.act 0 (.begin .create createPayload 1000), .act 0 (.next 1000),
    .act 1 (.begin .close closePayload 1001), .act 1 (.next 1001), .act 0 (.next 1001)]

theorem sample_close_admitted :
    let p := run (fun _ _ => "") sampleEvents
    p.shared.creators.lookup "brw-1000-1" = some 0 ∧ p.shared.released = [] ∧
      (p.thread 1).key = 1 ∧ (p.thread 1).stage = .admitted ⟨"brw-1000-1", .close⟩ true ∧
      (p.shared.host.change 1002 ⟨"brw-1000-1", .close⟩).1 =
        .ok ⟨"brw-1000-1", .closed, none, 1000, some 1002, none⟩ := by
  decide +kernel

/-- The second connection looks the owner up between the two steps of the creation
and closes the session after them. -/
theorem closed_by_other_connection :
    ¬ Runs.Along (step fun _ _ => "") (fun p e => ∀ c m early, Changes p e c m early →
      p.shared.Entitled c.key m.sessionId) start (sampleEvents ++ [.act 1 (.next 1002)]) := by
  intro hall
  rw [Runs.along_iff_forall_split] at hall
  obtain ⟨hcr, hreleased, hkey, hst, hch⟩ := sample_close_admitted
  obtain ⟨creator, hmd, hwho⟩ := hall sampleEvents (.act 1 (.next 1002)) [] rfl _ _ true
    ⟨1, 1002, _, rfl, rfl, hst, hch⟩
  obtain rfl : 0 = creator := some.inj (hcr.symm.trans hmd)
  rcases hwho with hmine | hgn
  · exact absurd (hkey.symm.trans hmine) (by decide)
  · exact absurd (hreleased ▸ hgn) not_mem_nil

end DshDesktop.Daemon.Ownership
