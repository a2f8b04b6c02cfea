import DshDesktop.Library.Table
import DshDesktop.Library.Text
import DshDesktop.Library.Runs

/-!
# Browser sessions

`crates/browser-provider`: the navigation policy of `url_policy.rs`, the session registry of
`session.rs` and the audit history of `event.rs`. `SessionRegistry` has what the daemon reads
of a session, and makes one in two steps; `AuditedRegistry` has the whole record, and a
function that records an event changes the session in one critical section (its `begin`
definition) and appends to the history in another.
-/

namespace DshDesktop.Browser

def maxUrlLen : ℕ := 2048

inductive UrlError
  | empty
  | unsupportedScheme
  | userinfoNotAllowed
  | tooLong
  deriving DecidableEq

def splitScheme : List Char → Option (List Char × List Char)
  | [] => none
  | c :: rest =>
    if c = ':' ∧ ['/', '/'] <+: rest then some ([], rest.drop 2)
    else (splitScheme rest).map fun parts => (c :: parts.1, parts.2)

def eqIgnoreAsciiCase (text : List Char) (word : String) : Bool :=
  text.map Char.toLower == word.toList

def stripHttpScheme (url : String) : Option (List Char) :=
  match splitScheme url.toList with
  | none => none
  | some (scheme, rest) =>
    if eqIgnoreAsciiCase scheme "http" || eqIgnoreAsciiCase scheme "https" then some rest else none

def authorityHasUserinfo (rest : List Char) : Bool :=
  (rest.takeWhile fun c => c ≠ '/' ∧ c ≠ '?' ∧ c ≠ '#').contains '@'

def UrlPolicy.validate (url : String) : Except UrlError String :=
  if url.isEmpty then .error .empty
  else if maxUrlLen < url.length then .error .tooLong
  else
    match stripHttpScheme url with
    | none => .error .unsupportedScheme
    | some rest => if authorityHasUserinfo rest then .error .userinfoNotAllowed else .ok url

theorem UrlPolicy.validate_ok {url accepted : String} (h : UrlPolicy.validate url = .ok accepted) :
    accepted = url ∧ url.length ≤ maxUrlLen ∧
      ∃ rest, stripHttpScheme url = some rest ∧ authorityHasUserinfo rest = false := by
  rw [UrlPolicy.validate] at h
  split_ifs at h with _ hlen
  cases hrs : stripHttpScheme url with
  | none => simp [hrs] at h
  | some rest =>
    simp only [hrs] at h
    split_ifs at h with hus
    cases h
    exact ⟨rfl, Nat.le_of_not_lt hlen, rest, rfl, Bool.eq_false_iff.mpr hus⟩

inductive SessionState
  | created
  | loading
  | ready
  | closed
  | error
  deriving DecidableEq

structure BrowserSession where
  sessionId : String
  state : SessionState
  currentUrl : Option String
  createdAtUnixMs : ℕ
  lastActivityUnixMs : Option ℕ
  error : Option String
  deriving DecidableEq

inductive BrowserError
  | notFound
  | invalidUrl (cause : UrlError)
  | closed
  | other
  deriving DecidableEq

def maxErrorLen : ℕ := 256

structure SessionRegistry where
  nextSeq : ℕ
  sessions : Table String BrowserSession

namespace SessionRegistry

def new : SessionRegistry := ⟨1, ∅⟩

def sessionId (now seq : ℕ) : String := "brw-" ++ toString now ++ "-" ++ toString seq

variable (r : SessionRegistry) (now : ℕ)

def number : String × SessionRegistry :=
  (sessionId now r.nextSeq, { r with nextSeq := r.nextSeq + 1 })

variable (id : String)

def createdSession : BrowserSession := ⟨id, .created, none, now, none, none⟩

def enter : BrowserSession × SessionRegistry :=
  (createdSession now id, { r with sessions := r.sessions.insert id (createdSession now id) })

def create : BrowserSession × SessionRegistry :=
  let (id, r') := r.number now
  r'.enter now id

def get : Except BrowserError BrowserSession :=
  match r.sessions.lookup id with
  | none => .error .notFound
  | some session => .ok session

def liveSession : Except BrowserError BrowserSession :=
  match r.sessions.lookup id with
  | none => .error .notFound
  | some session => if session.state = .closed then .error .closed else .ok session

def changeLive (change : BrowserSession → BrowserSession) :
    Except BrowserError BrowserSession × SessionRegistry :=
  match r.liveSession id with
  | .error e => (.error e, r)
  | .ok session =>
    let changed := { change session with lastActivityUnixMs := some now }
    (.ok changed, { r with sessions := r.sessions.insert id changed })

def recordNavigation (id url : String) : Except BrowserError BrowserSession × SessionRegistry :=
  match UrlPolicy.validate url with
  | .error e => (.error (.invalidUrl e), r)
  | .ok url => r.changeLive now id fun session =>
      { session with state := .ready, currentUrl := some url, error := none }

/-- The part of `mark_load_failed` before it reads the report. -/
def failLoad (id message : String) : Except BrowserError BrowserSession × SessionRegistry :=
  r.changeLive now id fun session =>
    { session with
      state := .error
      error := some (String.ofList (message.toList.take maxErrorLen)) }

def close : Except BrowserError BrowserSession × SessionRegistry :=
  r.changeLive now id fun session => { session with state := .closed }

theorem sessionId_inj {now now' seq seq' : ℕ} (h : sessionId now seq = sessionId now' seq') :
    now = now' ∧ seq = seq' :=
  Text.dashed_inj h

inductive Changed (r : SessionRegistry) (id : String) :
    Except BrowserError BrowserSession × SessionRegistry → Prop
  | refused (e : BrowserError) : Changed r id (.error e, r)
  | replaced (session changed : BrowserSession) (lookup : r.sessions.lookup id = some session)
      (live : session.state ≠ .closed) :
      Changed r id (.ok changed, { r with sessions := r.sessions.insert id changed })

variable {r} {session : BrowserSession}

theorem liveSession_ok {id : String} (h : r.liveSession id = .ok session) :
    r.sessions.lookup id = some session ∧ session.state ≠ .closed := by
  rw [liveSession] at h
  cases hget : r.sessions.lookup id with
  | none => simp [hget] at h
  | some found =>
    simp only [hget] at h
    split_ifs at h with hsh
    cases h
    exact ⟨rfl, hsh⟩

theorem changeLive_changed (change : BrowserSession → BrowserSession) :
    Changed r id (r.changeLive now id change) := by
  rw [changeLive]
  cases hlv : r.liveSession id with
  | error e => exact .refused e
  | ok session =>
    obtain ⟨hget, hst⟩ := liveSession_ok hlv
    exact .replaced session _ hget hst

theorem recordNavigation_changed (id url : String) :
    Changed r id (r.recordNavigation now id url) := by
  rw [recordNavigation]
  cases UrlPolicy.validate url with
  | error e => exact .refused _
  | ok accepted => exact changeLive_changed now id _

theorem close_ok {id : String} (h : (r.close now id).1 = .ok session) :
    session.state = .closed := by
  rw [close, changeLive] at h
  cases hlv : r.liveSession id with
  | error e => simp [hlv] at h
  | ok found =>
    simp only [hlv] at h
    cases h
    rfl

end SessionRegistry

open UrlPolicy Table

structure Session where
  id : String
  state : SessionState
  currentUrl : Option String
  createdAtUnixMs : ℕ
  lastActivityUnixMs : Option ℕ
  error : Option String
  snapshot : Option String
  title : Option String
  deriving DecidableEq

namespace Session

def report (s : Session) : BrowserSession :=
  ⟨s.id, s.state, s.currentUrl, s.createdAtUnixMs, s.lastActivityUnixMs, s.error⟩

def touch (now : ℕ) (s : Session) : Session := { s with lastActivityUnixMs := some now }

end Session

inductive BrowserEventKind
  | navigationChanged
  | loadFailed
  | closed
  | titleChanged
  deriving DecidableEq

structure EventDraft where
  sessionId : String
  kind : BrowserEventKind
  url : Option String
  title : Option String
  deriving DecidableEq

structure BrowserEvent extends EventDraft where
  occurredAtUnixMs : ℕ
  deriving DecidableEq

structure AuditedRegistry where
  nextSeq : ℕ
  sessions : Table String Session
  events : List BrowserEvent

namespace AuditedRegistry

def new : AuditedRegistry := ⟨1, ∅, []⟩

variable (r : AuditedRegistry) (now pushedAt pat : ℕ)

def createdSession (id : String) : Session := ⟨id, .created, none, now, none, none, none, none⟩

def create : Except BrowserError BrowserSession × AuditedRegistry :=
  let id := SessionRegistry.sessionId now r.nextSeq
  let session := createdSession now id
  (.ok session.report,
    { r with nextSeq := r.nextSeq + 1, sessions := r.sessions.insert id session })

def get (id : String) : Except BrowserError BrowserSession :=
  match r.sessions.lookup id with
  | none => .error .notFound
  | some session => .ok session.report

def liveSession (id : String) : Except BrowserError Session :=
  match r.sessions.lookup id with
  | none => .error .notFound
  | some session => if session.state = .closed then .error .closed else .ok session

def withLive (id : String) (change : Session → Session) :
    Except BrowserError Session × AuditedRegistry :=
  match r.liveSession id with
  | .error e => (.error e, r)
  | .ok session =>
    (.ok (change session), { r with sessions := r.sessions.insert id (change session) })

def pushEvent (event : BrowserEvent) : AuditedRegistry := { r with events := r.events ++ [event] }

def beginReport (id : String) (change : Session → Session) (draft : Session → EventDraft) :
    Except BrowserError (BrowserSession × EventDraft) × AuditedRegistry :=
  match r.withLive id change with
  | (.error e, r') => (.error e, r')
  | (.ok session, r') => (.ok (session.report, draft session), r')

def finishReport : Except BrowserError (BrowserSession × EventDraft) × AuditedRegistry →
      Except BrowserError BrowserSession × AuditedRegistry
  | (.error e, r) => (.error e, r)
  | (.ok (report, draft), r) => (.ok report, r.pushEvent ⟨draft, pushedAt⟩)

def beginNavigate (id url : String) :
    Except BrowserError (BrowserSession × EventDraft) × AuditedRegistry :=
  match validate url with
  | .error e => (.error (.invalidUrl e), r)
  | .ok url =>
    r.beginReport id
      (fun s => ({ s with
        state := .loading, currentUrl := some url, error := none, snapshot := none }).touch now)
      fun _ => ⟨id, .navigationChanged, some url, none⟩

def beginRecordNavigation (id url : String) :
    Except BrowserError (BrowserSession × EventDraft) × AuditedRegistry :=
  match validate url with
  | .error e => (.error (.invalidUrl e), r)
  | .ok url =>
    r.beginReport id
      (fun s => ({ s with
        state := .ready, currentUrl := some url, error := none, snapshot := none }).touch now)
      fun _ => ⟨id, .navigationChanged, some url, none⟩

def beginSetTitle (id title : String) :
    Except BrowserError (BrowserSession × EventDraft) × AuditedRegistry :=
  r.beginReport id
    (fun s => if s.title = some title then s else ({ s with title := some title }).touch now)
    fun _ => ⟨id, .titleChanged, none, some title⟩

def beginMarkLoadFailed (id message : String) :
    Except BrowserError (BrowserSession × EventDraft) × AuditedRegistry :=
  r.beginReport id
    (fun s => ({ s with
      state := .error
      error := some (String.ofList (message.toList.take maxErrorLen)) }).touch now)
    fun s => ⟨id, .loadFailed, s.currentUrl, none⟩

def beginClose (id : String) :
    Except BrowserError (BrowserSession × EventDraft) × AuditedRegistry :=
  r.beginReport id (fun s => ({ s with state := .closed }).touch now)
    fun _ => ⟨id, .closed, none, none⟩

def navigate (id url : String) : Except BrowserError BrowserSession × AuditedRegistry :=
  finishReport pushedAt (r.beginNavigate now id url)

def recordNavigation (id url : String) : Except BrowserError BrowserSession × AuditedRegistry :=
  finishReport pushedAt (r.beginRecordNavigation now id url)

def setTitle (id title : String) : Except BrowserError BrowserSession × AuditedRegistry :=
  finishReport pushedAt (r.beginSetTitle now id title)

/-- The report is read again after the event is recorded. -/
def markLoadFailed (id message : String) : Except BrowserError BrowserSession × AuditedRegistry :=
  match finishReport pushedAt (r.beginMarkLoadFailed now id message) with
  | (.error e, r') => (.error e, r')
  | (.ok _, r') => (r'.get id, r')

def close (id : String) : Except BrowserError BrowserSession × AuditedRegistry :=
  finishReport pushedAt (r.beginClose now id)

def onlyReport : Except BrowserError Session × AuditedRegistry →
      Except BrowserError BrowserSession × AuditedRegistry
  | (.error e, r) => (.error e, r)
  | (.ok session, r) => (.ok session.report, r)

def markReady (id : String) : Except BrowserError BrowserSession × AuditedRegistry :=
  onlyReport <| r.withLive id fun s =>
    if s.state = .loading ∨ s.state = .error then
      ({ s with state := .ready, error := none }).touch now
    else s

def setSnapshot (id text : String) : Except BrowserError BrowserSession × AuditedRegistry :=
  onlyReport <| r.withLive id fun s => ({ s with snapshot := some text }).touch now

inductive Call
  | create (now : ℕ)
  | navigate (now pushedAt : ℕ) (id url : String)
  | recordNavigation (now pushedAt : ℕ) (id url : String)
  | markReady (now : ℕ) (id : String)
  | markLoadFailed (now pushedAt : ℕ) (id message : String)
  | setTitle (now pushedAt : ℕ) (id title : String)
  | setSnapshot (now : ℕ) (id text : String)
  | close (now pushedAt : ℕ) (id : String)

def call : Call → Except BrowserError BrowserSession × AuditedRegistry
  | .create now => r.create now
  | .navigate now pushedAt id url => r.navigate now pushedAt id url
  | .recordNavigation now pushedAt id url => r.recordNavigation now pushedAt id url
  | .markReady now id => r.markReady now id
  | .markLoadFailed now pushedAt id message => r.markLoadFailed now pushedAt id message
  | .setTitle now pushedAt id title => r.setTitle now pushedAt id title
  | .setSnapshot now id text => r.setSnapshot now id text
  | .close now pushedAt id => r.close now pushedAt id

def step (c : Call) : AuditedRegistry := (r.call c).2

abbrev run (calls : List Call) : AuditedRegistry := Runs.run step new calls

inductive Moved (id : String) : Call → Session → Session → Prop
  | navigated {now pushedAt : ℕ} {url : String} {s : Session}
      (accepted : validate url = .ok url) :
      Moved id (.navigate now pushedAt id url) s
        (({ s with
          state := .loading, currentUrl := some url, error := none, snapshot := none }).touch now)
  | recorded {now pushedAt : ℕ} {url : String} {s : Session}
      (accepted : validate url = .ok url) :
      Moved id (.recordNavigation now pushedAt id url) s
        (({ s with
          state := .ready, currentUrl := some url, error := none, snapshot := none }).touch now)
  | becameReady {now : ℕ} {s : Session} (waiting : s.state = .loading ∨ s.state = .error) :
      Moved id (.markReady now id) s (({ s with state := .ready, error := none }).touch now)
  | stayed {now : ℕ} {s : Session} (settled : ¬ (s.state = .loading ∨ s.state = .error)) :
      Moved id (.markReady now id) s s
  | failed {now pushedAt : ℕ} {message : String} {s : Session} :
      Moved id (.markLoadFailed now pushedAt id message) s
        (({ s with
          state := .error
          error := some (String.ofList (message.toList.take maxErrorLen)) }).touch now)
  | titled {now pushedAt : ℕ} {title : String} {s : Session} :
      Moved id (.setTitle now pushedAt id title) s (({ s with title := some title }).touch now)
  | sameTitle {now pushedAt : ℕ} {title : String} {s : Session} (same : s.title = some title) :
      Moved id (.setTitle now pushedAt id title) s s
  | read {now : ℕ} {text : String} {s : Session} :
      Moved id (.setSnapshot now id text) s (({ s with snapshot := some text }).touch now)
  | closed {now pushedAt : ℕ} {s : Session} :
      Moved id (.close now pushedAt id) s (({ s with state := .closed }).touch now)

inductive Called (r : AuditedRegistry) (c : Call) :
    Except BrowserError BrowserSession × AuditedRegistry → Prop
  | refused (e : BrowserError) : Called r c (.error e, r)
  | created {now : ℕ} (made : c = .create now) : Called r c (r.create now)
  | changed {id : String} {s s' : Session} {events : List BrowserEvent}
      (found : r.sessions.lookup id = some s) (live : s.state ≠ .closed) (moved : Moved id c s s') :
      Called r c (.ok s'.report, { r with sessions := r.sessions.insert id s', events := events })

variable {r now pat}
variable {id : String} {c : Call} {change : Session → Session} {s : Session}

theorem liveSession_ok (h : r.liveSession id = .ok s) :
    r.sessions.lookup id = some s ∧ s.state ≠ .closed := by
  rw [liveSession] at h
  cases hget : r.sessions.lookup id with
  | none => simp [hget] at h
  | some found =>
    simp only [hget] at h
    split_ifs at h with hsh
    cases h
    exact ⟨rfl, hsh⟩

theorem withLive_called (moved : ∀ s, Moved id c s (change s)) :
    Called r c (onlyReport (r.withLive id change)) := by
  rw [withLive]
  cases hlv : r.liveSession id with
  | error e => exact .refused e
  | ok s =>
    obtain ⟨hfn, hst⟩ := liveSession_ok hlv
    exact .changed hfn hst (moved s)

theorem beginReport_called (draft : Session → EventDraft) (moved : ∀ s, Moved id c s (change s)) :
    Called r c (finishReport pat (r.beginReport id change draft)) := by
  rw [beginReport, withLive]
  cases hlv : r.liveSession id with
  | error e => exact .refused e
  | ok s =>
    obtain ⟨hfn, hst⟩ := liveSession_ok hlv
    exact .changed hfn hst (moved s)

theorem markReady_called : Called r (.markReady now id) (r.markReady now id) := by
  refine withLive_called fun s => ?_
  split_ifs with hwt
  · exact .becameReady hwt
  · exact .stayed hwt

theorem setTitle_called {title : String} : Called r (.setTitle now pat id title)
    (r.setTitle now pat id title) := by
  refine beginReport_called _ fun s => ?_
  split_ifs with heq
  · exact .sameTitle heq
  · exact .titled

theorem markLoadFailed_called {msg : String} : Called r (.markLoadFailed now pat id msg)
      (r.markLoadFailed now pat id msg) := by
  rw [markLoadFailed, beginMarkLoadFailed, beginReport, withLive]
  cases hlv : r.liveSession id with
  | error e => exact .refused e
  | ok s =>
    obtain ⟨hfn, hst⟩ := liveSession_ok hlv
    simp only [finishReport, pushEvent, get, AList.lookup_insert]
    exact .changed hfn hst .failed

theorem call_called (c : Call) : Called r c (r.call c) := by
  cases c with
  | create now => exact .created rfl
  | navigate now pushedAt id url | recordNavigation now pushedAt id url =>
    simp only [call, navigate, beginNavigate, recordNavigation, beginRecordNavigation]
    cases hurl : validate url with
    | error e => exact .refused _
    | ok acc =>
      obtain ⟨rfl, -, -⟩ := validate_ok hurl
      refine beginReport_called _ fun s => ?_
      first | exact .navigated hurl | exact .recorded hurl
  | markReady now id => exact markReady_called
  | markLoadFailed now pushedAt id msg => exact markLoadFailed_called
  | setTitle now pushedAt id title => exact setTitle_called
  | setSnapshot now id text => exact withLive_called fun s => .read
  | close now pushedAt id => exact beginReport_called _ fun s => .closed

def Numbered (r : AuditedRegistry) : Prop :=
  ∀ id s, r.sessions.lookup id = some s → ∃ now seq, seq < r.nextSeq ∧
    id = SessionRegistry.sessionId now seq

theorem Numbered.fresh (h : Numbered r) (now : ℕ) :
    r.sessions.lookup (SessionRegistry.sessionId now r.nextSeq) = none := by
  cases hget : r.sessions.lookup (SessionRegistry.sessionId now r.nextSeq) with
  | none => rfl
  | some s =>
    obtain ⟨_, seq, hlt, hid⟩ := h _ s hget
    have hseq := (SessionRegistry.sessionId_inj hid).2
    omega

theorem step_numbered (h : Numbered r) (c : Call) : Numbered (r.step c) := by
  intro id s hs
  rw [step] at hs ⊢
  have hcall := call_called (r := r) c
  generalize r.call c = result at hs hcall ⊢
  cases hcall with
  | refused e => exact h id s hs
  | @created now made =>
    simp only [create, lookup_insert_ite] at hs ⊢
    split_ifs at hs with hid
    · exact ⟨now, r.nextSeq, Nat.lt_succ_self _, hid⟩
    · obtain ⟨made, seq, hlt, heq⟩ := h id s hs
      exact ⟨made, seq, Nat.lt_succ_of_lt hlt, heq⟩
  | @changed changed old _ _ found live moved =>
    simp only [lookup_insert_ite] at hs
    split_ifs at hs with hid
    · subst hid
      exact h id old found
    · exact h id s hs

theorem run_numbered (calls : List Call) : Numbered (run calls) := by
  refine Runs.run_invariant Numbered (fun r c h => step_numbered h c) calls ?_
  intro id s hs
  simp [new] at hs

/-- Whatever the clock says, the id of a new session is not that of an open or closed one. -/
theorem created_id_unknown (calls : List Call) (now : ℕ) :
    ∃ report, ((run calls).create now).1 = .ok report ∧
      (run calls).get report.sessionId = .error .notFound := by
  refine ⟨_, rfl, ?_⟩
  have hfr := (run_numbered calls).fresh now
  simp [get, Session.report, createdSession, hfr]

theorem step_cases (h : Numbered r) {s' : Session} (hs : (r.step c).sessions.lookup id = some s') :
    (∃ now, c = .create now ∧ r.sessions.lookup id = none ∧ s' = createdSession now id) ∨
      (∃ s, r.sessions.lookup id = some s ∧ s.state ≠ .closed ∧ Moved id c s s' ∧
        (r.call c).1 = .ok s'.report) ∨
      r.sessions.lookup id = some s' := by
  rw [step] at hs
  have hcall := call_called (r := r) c
  generalize r.call c = result at hs hcall ⊢
  cases hcall with
  | refused e => exact .inr (.inr hs)
  | @created now made =>
    simp only [create, lookup_insert_ite] at hs
    split_ifs at hs with hid
    · cases hs
      refine .inl ⟨now, made, ?_, by rw [hid]⟩
      rw [hid]
      exact h.fresh now
    · exact .inr (.inr hs)
  | @changed changed old new _ found live moved =>
    simp only [lookup_insert_ite] at hs
    split_ifs at hs with hid
    · cases hs
      subst hid
      exact .inr (.inl ⟨old, found, live, moved, rfl⟩)
    · exact .inr (.inr hs)

theorem step_closed_kept (h : Numbered r) (c : Call) (hs : r.sessions.lookup id = some s)
    (hsh : s.state = .closed) : (r.step c).sessions.lookup id = some s := by
  rw [step]
  have hcall := call_called (r := r) c
  generalize r.call c = result at hcall ⊢
  cases hcall with
  | refused e => exact hs
  | @created now made =>
    simp only [create, lookup_insert_ite]
    split_ifs with hid
    · rw [hid, h.fresh now] at hs
      cases hs
    · exact hs
  | @changed changed old new _ found live moved =>
    simp only [lookup_insert_ite]
    split_ifs with hid
    · subst hid
      rw [hs] at found
      cases found
      exact absurd hsh live
    · exact hs

theorem call_refused {e : BrowserError} (h : (r.call c).1 = .error e) : (r.call c).2 = r := by
  have hcall := call_called (r := r) c
  generalize r.call c = result at h hcall ⊢
  cases hcall with
  | refused e => rfl
  | created made | changed found live moved => cases h

end AuditedRegistry
end DshDesktop.Browser
