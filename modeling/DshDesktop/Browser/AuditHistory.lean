import Mathlib.Data.List.Induction
import DshDesktop.Browser.Sessions
import DshDesktop.Library.Interleaving

/-!
# Browser sessions and their audit history

What holds of every session after every call; a session whose first load failed before any
address was recorded can still be marked ready. Under concurrent calls the session changes
under one lock and the history grows under another. The shared state carries two logs that
the program does not have: every change in the order of its effect, and the number of the
change that each recorded event reports.
-/

namespace DshDesktop.Browser
open Runs

namespace Session

def UrlAccepted (s : Session) : Prop :=
  ∀ url, s.currentUrl = some url → UrlPolicy.validate url = .ok url

def Located (s : Session) : Prop :=
  s.state = .loading ∨ s.state = .ready → s.currentUrl.isSome = true

def ErrorMatches (s : Session) : Prop :=
  s.state ≠ .closed → (s.error.isSome = true ↔ s.state = .error)

end Session

namespace AuditedRegistry
variable {P : Session → Prop} {c : Call}

def Navigates (r : AuditedRegistry) (id : String) (c : Call) : Prop :=
  (match c with
    | .navigate _ _ other _ => other = id
    | .recordNavigation _ _ other _ => other = id
    | _ => False) ∧
  ∃ report, (r.call c).1 = .ok report

def TextCurrent (calls : List Call) (id text : String) : Prop :=
  ∃ xs now ys, calls = xs ++ .setSnapshot now id text :: ys ∧
    (∃ report, ((run xs).setSnapshot now id text).1 = .ok report) ∧
    Runs.Along step (fun r c => ¬ r.Navigates id c) (run (xs ++ [.setSnapshot now id text])) ys

structure SessionLaws (calls : List Call) : Prop where
  closed_kept : Runs.Along step (fun r c => ∀ id s, r.sessions.lookup id = some s →
    s.state = .closed → (r.step c).sessions.lookup id = some s) new calls
  url_accepted : ∀ xs, xs <+: calls → ∀ id s, (run xs).sessions.lookup id = some s → s.UrlAccepted
  located : ∀ xs, xs <+: calls → ∀ id s, (run xs).sessions.lookup id = some s → s.Located
  error_matches : ∀ xs, xs <+: calls → ∀ id s, (run xs).sessions.lookup id = some s → s.ErrorMatches
  text_current : ∀ xs, xs <+: calls → ∀ id s text, (run xs).sessions.lookup id = some s →
    s.snapshot = some text → TextCurrent xs id text
  refused_unchanged : Runs.Along step (fun r c => ∀ e, (r.call c).1 = .error e →
    (r.step c).sessions = r.sessions) new calls

/-- A session that failed before any address was recorded is marked ready. -/
def RecoversUnvisited (r : AuditedRegistry) : Call → Prop
  | .markReady _ id => ∃ s, r.sessions.lookup id = some s ∧ s.state = .error ∧ s.currentUrl = none
  | _ => False

section
variable {id : String} {s s' : Session} (hmoved : Moved id c s s')
include hmoved

theorem Moved.urlAccepted (h : s.UrlAccepted) : s'.UrlAccepted := by
  cases hmoved with
  | navigated accepted | recorded accepted =>
    intro url hurl
    cases hurl
    exact accepted
  | _ => exact h

theorem Moved.errorMatches (hlv : s.state ≠ .closed) (h : s.ErrorMatches) : s'.ErrorMatches := by
  cases hmoved with
  | navigated | recorded | becameReady | failed => simp [Session.ErrorMatches, Session.touch]
  | stayed | sameTitle => exact h
  | titled | read => exact fun _ => h hlv
  | closed => exact fun hoe => absurd rfl hoe

theorem Moved.located (h : s.Located)
    (hrecov : ∀ now, c = .markReady now id → s.state = .error → s.currentUrl ≠ none) :
    s'.Located := by
  cases hmoved with
  | navigated | recorded => exact fun _ => rfl
  | becameReady waiting =>
    intro _
    rcases waiting with hld | heo
    · exact h (.inl hld)
    · exact Option.isSome_iff_ne_none.mpr (hrecov _ rfl heo)
  | stayed | sameTitle | titled | read => exact h
  | failed | closed => simp [Session.Located, Session.touch]

theorem Moved.snapshot {text : String} (h : s'.snapshot = some text) :
    s.snapshot = some text ∨ ∃ now, c = .setSnapshot now id text := by
  cases hmoved with
  | navigated | recorded => cases h
  | @read now text s =>
    cases h
    exact .inr ⟨now, rfl⟩
  | _ => exact .inl h

end

section
variable {r : AuditedRegistry}

theorem step_forall (hr : Numbered r) (hmd : ∀ now id, P (createdSession now id))
    (hmoved : ∀ id s s', r.sessions.lookup id = some s → s.state ≠ .closed → Moved id c s s' →
      P s → P s') (h : ∀ id s, r.sessions.lookup id = some s → P s) :
    ∀ id s, (r.step c).sessions.lookup id = some s → P s := by
  intro id s' hs'
  rcases step_cases hr hs' with ⟨now, -, -, rfl⟩ | ⟨s, hs, hlv, hmv, -⟩ | hs
  · exact hmd now id
  · exact hmoved id s s' hs hlv hmv (h id s hs)
  · exact h id s' hs

theorem step_navigates {id : String} {s : Session} (h : r.Navigates id c)
    (hs : (r.step c).sessions.lookup id = some s) : s.snapshot = none := by
  obtain ⟨hcall, report, hok⟩ := h
  rw [step] at hs
  have hcalled := call_called (r := r) c
  generalize r.call c = result at hs hok hcalled
  cases hcalled with
  | refused e => cases hok
  | created made =>
    subst made
    exact hcall.elim
  | changed found live moved =>
    cases moved with
    | navigated accepted | recorded accepted =>
      cases hcall
      rw [AList.lookup_insert] at hs
      cases hs
      rfl
    | _ => exact hcall.elim

theorem step_recoversUnvisited (h : r.RecoversUnvisited c) :
    ∃ id s, (r.step c).sessions.lookup id = some s ∧ ¬ s.Located := by
  cases c with
  | markReady now id =>
    obtain ⟨s, hs, heo, hurl⟩ := h
    have hlv : r.liveSession id = .ok s := by simp [liveSession, hs, heo]
    refine ⟨id, ({ s with state := .ready, error := none }).touch now, ?_, ?_⟩
    · simp [step, call, markReady, withLive, hlv, heo, onlyReport]
    · intro hloc
      have hsome := hloc (.inr rfl)
      simp [Session.touch, hurl] at hsome
  | _ => exact h.elim

end

theorem run_forall {allowed : AuditedRegistry → Call → Prop}
    (hmd : ∀ now id, P (createdSession now id))
    (hmoved : ∀ r c, allowed r c → ∀ id s s', r.sessions.lookup id = some s → s.state ≠ .closed →
      Moved id c s s' → P s → P s') {calls : List Call} (hal : Runs.Along step allowed new calls) :
    ∀ id s, (run calls).sessions.lookup id = some s → P s := by
  have hst : ∀ r c, allowed r c → (Numbered r ∧ ∀ id s, r.sessions.lookup id = some s → P s) →
      Numbered (r.step c) ∧ ∀ id s, (r.step c).sessions.lookup id = some s → P s :=
    fun r c hc h => ⟨step_numbered h.1 c, step_forall h.1 hmd (hmoved r c hc) h.2⟩
  refine (run_invariant_along allowed _ hst hal ⟨run_numbered [], ?_⟩).2
  intro id s hs
  simp [new] at hs

variable (calls : List Call)

theorem along_true : Runs.Along step (fun _ _ => True) new calls :=
  along_of_forall fun _ _ => trivial

theorem run_urlAccepted : ∀ id s, (run calls).sessions.lookup id = some s → s.UrlAccepted := by
  refine run_forall (fun now id url hurl => ?_) ?_ (along_true calls)
  · cases hurl
  · intro r c _ id s s' _ _ hmv h
    exact hmv.urlAccepted h

theorem run_errorMatches : ∀ id s, (run calls).sessions.lookup id = some s → s.ErrorMatches := by
  refine run_forall (fun now id => ?_) ?_ (along_true calls)
  · simp [Session.ErrorMatches, createdSession]
  · intro r c _ id s s' _ hlv hmv h
    exact hmv.errorMatches hlv h

theorem run_located {calls : List Call}
    (h : Runs.Along step (fun r c => ¬ r.RecoversUnvisited c) new calls) :
    ∀ id s, (run calls).sessions.lookup id = some s → s.Located := by
  refine run_forall (fun now id => ?_) ?_ h
  · simp [Session.Located, createdSession]
  · intro r c hal id s s' hs _ hmv hloc
    refine hmv.located hloc ?_
    intro now hc heo hurl
    subst hc
    exact hal ⟨s, hs, heo, hurl⟩

theorem TextCurrent.append {calls : List Call} {id text : String} (h : TextCurrent calls id text)
    (hc : ¬ (run calls).Navigates id c) : TextCurrent (calls ++ [c]) id text := by
  obtain ⟨xs, now, ys, rfl, hok, hys⟩ := h
  refine ⟨xs, now, ys ++ [c], by simp, hok, ?_⟩
  refine along_append.mpr ⟨hys, ?_, trivial⟩
  rw [run, ← run_append]
  simpa using hc

theorem run_textCurrent :
    ∀ id s text, (run calls).sessions.lookup id = some s → s.snapshot = some text →
      TextCurrent calls id text := by
  induction calls using List.reverseRecOn with
  | nil =>
    intro id s text hs
    simp [run, new] at hs
  | append_singleton calls c ih =>
    intro id s' text hs' htx
    have hrun : run (calls ++ [c]) = (run calls).step c := run_append calls [c]
    rw [hrun] at hs'
    have hnav : ¬ (run calls).Navigates id c := by
      intro hnav
      rw [step_navigates hnav hs'] at htx
      cases htx
    rcases step_cases (run_numbered calls) hs' with
      ⟨now, -, -, rfl⟩ | ⟨s, hs, hlv, hmv, hok⟩ | hs
    · cases htx
    · rcases hmv.snapshot htx with hold | ⟨now, rfl⟩
      · exact (ih id s text hs hold).append hnav
      · exact ⟨calls, now, [], rfl, ⟨_, hok⟩, trivial⟩
    · exact (ih id s' text hs htx).append hnav

theorem along_closed_kept :
    Runs.Along step (fun r c => ∀ id s, r.sessions.lookup id = some s → s.state = .closed →
      (r.step c).sessions.lookup id = some s) new calls :=
  along_mono Numbered (fun _ c _ h => step_numbered h c)
    (fun _ c _ h _ _ _ hs hsh => step_closed_kept h c hs hsh) (along_true calls)
    (run_numbered []) (along_true calls)

theorem along_refused_unchanged : Runs.Along step (fun r c => ∀ e, (r.call c).1 = .error e →
      (r.step c).sessions = r.sessions) new calls := by
  refine along_mono (fun _ => True) (fun _ _ _ _ => trivial) ?_ (along_true calls) trivial
    (along_true calls)
  intro r c _ _ _ e he
  rw [step, call_refused he]

/-- Every law holds of every history in which no session that failed before any
address was recorded is marked ready, and of no other history. -/
theorem sessionLaws_iff (calls : List Call) :
    SessionLaws calls ↔ Runs.Along step (fun r c => ¬ r.RecoversUnvisited c) new calls := by
  constructor
  · intro hlw
    refine along_iff_forall_split.mpr ?_
    intro xs c ys hsp hrecovers
    obtain ⟨id, s, hs, hlost⟩ := step_recoversUnvisited hrecovers
    have hpre : xs ++ [c] <+: calls := ⟨ys, by rw [hsp]; simp⟩
    have hrun : run (xs ++ [c]) = (run xs).step c := run_append xs [c]
    exact hlost (hlw.located (xs ++ [c]) hpre id s (by rw [hrun]; exact hs))
  · intro h
    refine ⟨along_closed_kept calls, fun xs _ => run_urlAccepted xs, ?_,
      fun xs _ => run_errorMatches xs, fun xs _ => run_textCurrent xs,
      along_refused_unchanged calls⟩
    intro xs hpre
    obtain ⟨ys, rfl⟩ := hpre
    exact run_located (along_append.mp h).1

/-- The load of a new session fails, and then the page is reported as ready. -/
theorem ready_without_url : ¬ SessionLaws
    [.create 5, .markLoadFailed 6 6 "brw-5-1" "net::ERR_FAILED", .markReady 7 "brw-5-1"] := by
  intro hlw
  have hlc := hlw.located _ List.prefix_rfl "brw-5-1"
    ⟨"brw-5-1", .ready, none, 5, some 7, none, none, none⟩ (by decide +kernel) (.inr rfl)
  cases hlc

end AuditedRegistry

open List Function

inductive Request
  | navigate (id url : String)
  | recordNavigation (id url : String)
  | setTitle (id title : String)
  | markLoadFailed (id message : String)
  | close (id : String)

namespace Request

def sessionId : Request → String
  | navigate id _ => id
  | recordNavigation id _ => id
  | setTitle id _ => id
  | markLoadFailed id _ => id
  | close id => id

def begin (r : AuditedRegistry) (now : ℕ) :
    Request → Except BrowserError (BrowserSession × EventDraft) × AuditedRegistry
  | navigate id url => r.beginNavigate now id url
  | recordNavigation id url => r.beginRecordNavigation now id url
  | setTitle id title => r.beginSetTitle now id title
  | markLoadFailed id message => r.beginMarkLoadFailed now id message
  | close id => r.beginClose now id

inductive Began (r : AuditedRegistry) (id : String) :
    Except BrowserError (BrowserSession × EventDraft) × AuditedRegistry → Prop
  | refused (e : BrowserError) : Began r id (.error e, r)
  | changed {s s' : Session} {draft : EventDraft} (found : r.sessions.lookup id = some s)
      (live : s.state ≠ .closed) (about : draft.sessionId = id)
      (closes : draft.kind = .closed → s'.state = .closed) :
      Began r id (.ok (s'.report, draft), { r with sessions := r.sessions.insert id s' })

theorem beginReport_began {r : AuditedRegistry} {id : String} {change : Session → Session}
    {draft : Session → EventDraft} (about : ∀ s, (draft s).sessionId = id)
    (closes : ∀ s, (draft (change s)).kind = .closed → (change s).state = .closed) :
    Began r id (r.beginReport id change draft) := by
  rw [AuditedRegistry.beginReport, AuditedRegistry.withLive]
  cases hlv : r.liveSession id with
  | error e => exact .refused e
  | ok s =>
    obtain ⟨hfn, hst⟩ := AuditedRegistry.liveSession_ok hlv
    exact .changed hfn hst (about _) (closes s)

theorem begin_began (r : AuditedRegistry) (now : ℕ) (req : Request) :
    Began r req.sessionId (req.begin r now) := by
  cases req with
  | navigate id url | recordNavigation id url =>
    simp only [begin, AuditedRegistry.beginNavigate, AuditedRegistry.beginRecordNavigation]
    cases UrlPolicy.validate url with
    | error e => exact .refused _
    | ok acc => exact beginReport_began (fun _ => rfl) fun s hkn => by cases hkn
  | setTitle id title | markLoadFailed id msg =>
    exact beginReport_began (fun _ => rfl) fun s hkn => by cases hkn
  | close id => exact beginReport_began (fun _ => rfl) fun s _ => rfl

end Request

inductive QuietCall
  | create (now : ℕ)
  | markReady (now : ℕ) (id : String)
  | setSnapshot (now : ℕ) (id text : String)

def QuietCall.toCall : QuietCall → AuditedRegistry.Call
  | create now => .create now
  | markReady now id => .markReady now id
  | setSnapshot now id text => .setSnapshot now id text

structure Audit where
  registry : AuditedRegistry
  /-- The changes that are to be reported, in the order of their effect. -/
  effects : List EventDraft
  /-- The recorded events, each with the number of the change it reports. -/
  history : List (ℕ × BrowserEvent)

inductive Phase
  | idle
  | changed (draft : EventDraft) (number : ℕ)

inductive Section
  | begin (now : ℕ) (request : Request)
  | push (pushedAt : ℕ)

namespace Audit

variable (a : Audit)

def act : Phase → Section → Audit × Phase
  | .idle, .begin now request =>
    match request.begin a.registry now with
    | (.error _, r) => ({ a with registry := r }, .idle)
    | (.ok (_, draft), r) =>
      (⟨r, a.effects ++ [draft], a.history⟩, .changed draft a.effects.length)
  | .changed draft number, .push pushedAt =>
    (⟨a.registry.pushEvent ⟨draft, pushedAt⟩, a.effects,
      a.history ++ [(number, ⟨draft, pushedAt⟩)]⟩, .idle)
  | phase, _ => (a, phase)

def quiet (c : QuietCall) : Audit := { a with registry := a.registry.step c.toCall }

abbrev Pool := Interleaving.Pool Audit Phase
abbrev Event := Interleaving.Event Section QuietCall

def step : Pool → Event → Pool := Interleaving.step act quiet

def start : Pool := ⟨⟨.new, [], []⟩, fun _ => .idle⟩

abbrev run (events : List Event) : Pool := Runs.run step start events

structure Faithful (a : Audit) : Prop where
  events_eq : a.registry.events = a.history.map Prod.snd
  reports : ∀ entry ∈ a.history, a.effects[entry.1]? = some entry.2.toEventDraft
  in_order : a.history.Pairwise fun x y => x.2.sessionId = y.2.sessionId → x.1 < y.1
  closed_last : a.registry.events.Pairwise fun x y => x.sessionId = y.sessionId → x.kind ≠ .closed

/-- The thread is about to record its event although another thread, which is still
to record one in the rest of the run, changed the same session before it. -/
def Overtakes (p : Pool) (t : ℕ) (rest : List Event) : Prop :=
  ∃ draft number u earlier smaller, p.thread t = .changed draft number ∧
    p.thread u = .changed earlier smaller ∧ earlier.sessionId = draft.sessionId ∧
    smaller < number ∧ ∃ pushedAt, .act u (.push pushedAt) ∈ rest

inductive Acted (a : Audit) : Phase → Section → Audit × Phase → Prop
  | nothing {phase : Phase} {part : Section}
      (idle : ∀ draft number pushedAt, ¬ (phase = .changed draft number ∧ part = .push pushedAt)) :
      Acted a phase part (a, phase)
  | began {now : ℕ} {request : Request} {s s' : Session} {draft : EventDraft}
      (found : a.registry.sessions.lookup request.sessionId = some s) (live : s.state ≠ .closed)
      (about : draft.sessionId = request.sessionId)
      (closes : draft.kind = .closed → s'.state = .closed) :
      Acted a .idle (.begin now request)
        (⟨{ a.registry with sessions := a.registry.sessions.insert request.sessionId s' },
          a.effects ++ [draft], a.history⟩, .changed draft a.effects.length)
  | pushed {draft : EventDraft} {number pushedAt : ℕ} :
      Acted a (.changed draft number) (.push pushedAt)
        (⟨a.registry.pushEvent ⟨draft, pushedAt⟩, a.effects,
          a.history ++ [(number, ⟨draft, pushedAt⟩)]⟩, .idle)

theorem act_acted (phase : Phase) (part : Section) : Acted a phase part (a.act phase part) := by
  cases phase with
  | idle =>
    cases part with
    | begin now req =>
      have hbg := Request.begin_began a.registry now req
      rw [act]
      generalize req.begin a.registry now = result at hbg ⊢
      cases hbg with
      | refused e => exact .nothing fun _ _ _ h => by cases h.1
      | changed found live about closes => exact .began found live about closes
    | push pat => exact .nothing fun _ _ _ h => by cases h.1
  | changed draft number =>
    cases part with
    | begin now req => exact .nothing fun _ _ _ h => by cases h.2
    | push pat => exact .pushed

def ClosedFinal (number : ℕ) (draft : EventDraft) : Prop :=
  (∃ s, a.registry.sessions.lookup draft.sessionId = some s ∧ s.state = .closed) ∧
    ∀ other later, a.effects[other]? = some later → later.sessionId = draft.sessionId →
      other ≤ number

structure Recorded (a : Audit) : Prop where
  numbered : a.registry.Numbered
  events_eq : a.registry.events = a.history.map Prod.snd
  reports : ∀ entry ∈ a.history, a.effects[entry.1]? = some entry.2.toEventDraft
  closed_final : ∀ number draft, a.effects[number]? = some draft → draft.kind = .closed →
    ClosedFinal a number draft

def Held (phase : Phase) : Prop :=
  ∀ draft number, phase = .changed draft number →
    a.effects[number]? = some draft ∧ ∀ entry ∈ a.history, entry.1 ≠ number

def Different (phase other : Phase) : Prop :=
  ∀ draft number draft' number', phase = .changed draft number → other = .changed draft' number' →
    number ≠ number'

variable {draft old : EventDraft} {number : ℕ} {p : Pool}

theorem lt_length_of_effect {a : Audit} (h : a.effects[number]? = some draft) :
    number < a.effects.length :=
  (List.getElem?_eq_some_iff.mp h).1

theorem effect_append {effs : List EventDraft} (h : effs[number]? = some old) :
    (effs ++ [draft])[number]? = some old := by
  rw [List.getElem?_append_left (List.getElem?_eq_some_iff.mp h).1]
  exact h

theorem effect_concat {effs : List EventDraft} (h : (effs ++ [draft])[number]? = some old) :
    effs[number]? = some old ∨ number = effs.length ∧ old = draft := by
  rcases Nat.lt_or_ge number effs.length with hlt | hge
  · rw [getElem?_append_left hlt] at h
    exact .inl h
  · rw [getElem?_append_right hge, getElem?_singleton] at h
    split_ifs at h with hzr
    cases h
    exact .inr ⟨by omega, rfl⟩

theorem Recorded.began {a : Audit} (h : Recorded a) {id : String} {s s' : Session}
    (found : a.registry.sessions.lookup id = some s) (live : s.state ≠ .closed)
    (about : draft.sessionId = id) (closes : draft.kind = .closed → s'.state = .closed) :
    Recorded ⟨{ a.registry with sessions := a.registry.sessions.insert id s' },
      a.effects ++ [draft], a.history⟩ := by
  refine ⟨?_, h.events_eq, fun entry hen => effect_append (h.reports entry hen), ?_⟩
  · intro other ses hot
    simp only [Table.lookup_insert_ite] at hot
    split_ifs at hot with hid
    · subst hid
      exact h.numbered other s found
    · exact h.numbered other ses hot
  · intro number closing hcl hkn
    rcases effect_concat hcl with hcl | ⟨rfl, rfl⟩
    · obtain ⟨⟨ses, hss, hst⟩, hlast⟩ := h.closed_final number closing hcl hkn
      have hne : closing.sessionId ≠ id := by
        intro hid
        rw [hid, found] at hss
        cases hss
        exact live hst
      refine ⟨⟨ses, ?_, hst⟩, ?_⟩
      · rw [AList.lookup_insert_ne hne]
        exact hss
      · intro other later hla heq
        rcases effect_concat hla with hla | ⟨-, rfl⟩
        · exact hlast other later hla heq
        · exact absurd (heq.symm.trans about) hne
    refine ⟨⟨s', ?_, closes hkn⟩, ?_⟩
    · rw [about]
      exact AList.lookup_insert _
    · intro other later hla _
      have hlt := (List.getElem?_eq_some_iff.mp hla).1
      rw [length_append, length_singleton] at hlt
      omega

theorem Recorded.pushed {a : Audit} (h : Recorded a) (hef : a.effects[number]? = some draft)
    (pat : ℕ) :
    Recorded ⟨a.registry.pushEvent ⟨draft, pat⟩, a.effects,
      a.history ++ [(number, ⟨draft, pat⟩)]⟩ := by
  refine ⟨h.numbered, ?_, ?_, h.closed_final⟩
  · simp [AuditedRegistry.pushEvent, h.events_eq]
  · intro entry hen
    rcases mem_append.mp hen with hold | hnew
    · exact h.reports entry hold
    · rw [mem_singleton.mp hnew]
      exact hef

section
variable {a : Audit} {phase other : Phase} {part : Section} {out : Audit × Phase}
  (hac : Acted a phase part out)
include hac

theorem Acted.own (h : Recorded a) (hhl : Held a phase) : Recorded out.1 ∧ Held out.1 out.2 := by
  cases hac with
  | nothing idle => exact ⟨h, hhl⟩
  | began found live about closes =>
    refine ⟨h.began found live about closes, ?_⟩
    intro draft number hph
    cases hph
    refine ⟨by simp, ?_⟩
    intro entry hen
    exact Nat.ne_of_lt (lt_length_of_effect (h.reports entry hen))
  | pushed =>
    refine ⟨h.pushed (hhl _ _ rfl).1 _, ?_⟩
    intro draft number hph
    cases hph

theorem Acted.stable (hot : Held a other) (hdf : Different phase other) : Held out.1 other := by
  intro draft number hph
  obtain ⟨hef, hun⟩ := hot draft number hph
  cases hac with
  | nothing idle => exact ⟨hef, hun⟩
  | began found live about closes => exact ⟨effect_append hef, hun⟩
  | pushed =>
    refine ⟨hef, ?_⟩
    intro entry hen
    rcases mem_append.mp hen with hold | hnew
    · exact hun entry hold
    · rw [mem_singleton.mp hnew]
      exact hdf _ _ draft number rfl hph

theorem Acted.apart (hot : Held a other) (hdf : Different phase other)
    (hdf' : Different other phase) : Different out.2 other ∧ Different other out.2 := by
  cases hac with
  | nothing idle => exact ⟨hdf, hdf'⟩
  | began found live about closes =>
    have hlt : ∀ draft number, other = .changed draft number → number < a.effects.length :=
      fun draft number hph => lt_length_of_effect (hot draft number hph).1
    constructor
    · intro draft number draft' number' hph hph'
      cases hph
      exact Nat.ne_of_gt (hlt _ _ hph')
    · intro draft number draft' number' hph hph'
      cases hph'
      exact Nat.ne_of_lt (hlt _ _ hph)
  | pushed =>
    constructor
    · intro draft number draft' number' hph
      cases hph
    · intro draft number draft' number' _ hph'
      cases hph'

theorem Acted.history : a.history <+: out.1.history := by
  cases hac with
  | nothing idle | began found live about closes => exact prefix_rfl
  | pushed => exact prefix_append _ _

end

variable (r : AuditedRegistry) {events rest : List Event} {t u : ℕ}

theorem withLive_events (id : String) (change : Session → Session) :
    (AuditedRegistry.onlyReport (r.withLive id change)).2.events = r.events := by
  rw [AuditedRegistry.withLive]
  cases r.liveSession id <;> rfl

theorem quiet_events (c : QuietCall) : (r.step c.toCall).events = r.events := by
  cases c with
  | create now => rfl
  | markReady now id | setSnapshot now id text => exact withLive_events r id _

theorem quiet_recorded (c : QuietCall) (h : Recorded a) : Recorded (a.quiet c) := by
  refine ⟨AuditedRegistry.step_numbered h.numbered _, ?_, h.reports, ?_⟩
  · exact (quiet_events a.registry c).trans h.events_eq
  · intro number draft hdr hkn
    obtain ⟨⟨s, hs, hst⟩, hlast⟩ := h.closed_final number draft hdr hkn
    exact ⟨⟨s, AuditedRegistry.step_closed_kept h.numbered _ hs hst, hst⟩, hlast⟩

def Consistent (p : Pool) : Prop :=
  Interleaving.Holds Recorded Held p ∧ Interleaving.Apart Different p

theorem step_consistent (p : Pool) (e : Event) (h : Consistent p) : Consistent (step p e) :=
  Interleaving.holds_apart_step (fun a phase part => (act_acted a phase part).own)
    (fun a phase part _ _ _ hot hdf _ => (act_acted a phase part).stable hot hdf)
    (fun a phase part _ _ _ => (act_acted a phase part).apart) quiet_recorded
    (fun _ _ _ _ hhl => hhl) p e h

theorem start_consistent : Consistent start := by
  refine ⟨⟨⟨AuditedRegistry.run_numbered [], rfl, ?_, ?_⟩, ?_⟩, ?_⟩
  · exact fun entry hen => absurd hen not_mem_nil
  · intro number draft hdr
    simp [start] at hdr
  · intro t draft number hph
    cases hph
  · intro t u _ draft number draft' number' hph
    cases hph

theorem run_consistent (events : List Event) : Consistent (run events) :=
  Runs.run_invariant Consistent step_consistent events start_consistent

theorem step_history {e : Event} : p.shared.history <+: (step p e).shared.history := by
  cases e with
  | act t part => exact (act_acted p.shared (p.thread t) part).history
  | surroundings c => exact prefix_rfl

theorem run_history : p.shared.history <+: (Runs.run step p events).shared.history :=
  Runs.run_related (fun _ => True) (fun p q : Pool => p.shared.history <+: q.shared.history)
    (fun _ => prefix_rfl) (fun h h' => h.trans h') (fun _ _ _ => trivial)
    (fun _ _ _ => step_history) events trivial

theorem step_push {pat : ℕ} (h : p.thread t = .changed draft number) :
    (step p (.act t (.push pat))).shared.history =
      p.shared.history ++ [(number, ⟨draft, pat⟩)] := by
  simp only [step, Interleaving.step, h]
  rfl

theorem step_held (h : p.thread u = .changed draft number) {e : Event}
    (he : ∀ pat, e ≠ .act u (.push pat)) : (step p e).thread u = .changed draft number := by
  cases e with
  | act t part =>
    by_cases hu : u = t
    · subst hu
      cases part with
      | begin now req =>
        rw [step, Interleaving.step_act_self, h]
        rfl
      | push pat => exact absurd rfl (he pat)
    · rw [step, Interleaving.step_act_other hu]
      exact h
  | surroundings c => exact h

theorem run_pushes (h : p.thread u = .changed draft number) {pat : ℕ}
    (hps : .act u (.push pat) ∈ events) :
    ∃ more entry, (Runs.run step p events).shared.history = p.shared.history ++ more ∧
      entry ∈ more ∧ entry.1 = number ∧ entry.2.sessionId = draft.sessionId := by
  induction events generalizing p with
  | nil => cases hps
  | cons e events ih =>
    by_cases he : ∃ pat, e = .act u (.push pat)
    · obtain ⟨now, rfl⟩ := he
      obtain ⟨more, hmr⟩ := run_history
      rw [step_push h, append_assoc] at hmr
      exact ⟨_, (number, ⟨draft, now⟩), hmr.symm, by simp, rfl, rfl⟩
    have hne : ∀ pat, e ≠ .act u (.push pat) := fun now heq => he ⟨now, heq⟩
    have htl : .act u (.push pat) ∈ events := by
      rcases mem_cons.mp hps with heq | htl
      · exact absurd heq.symm (hne pat)
      · exact htl
    obtain ⟨more, entry, hmr, hen, hnum, hss⟩ := ih (step_held h hne) htl
    obtain ⟨first, hfr⟩ := step_history
    refine ⟨first ++ more, entry, ?_, mem_append_right _ hen, hnum, hss⟩
    rw [Runs.run_cons, hmr, ← hfr, append_assoc]

def InOrder (p : Pool) : Prop :=
  p.shared.history.Pairwise fun x y => x.2.sessionId = y.2.sessionId → x.1 < y.1

theorem not_inOrder_of_overtakes (h : Overtakes p t rest) (pat : ℕ) :
    ¬ InOrder (Runs.run step p (.act t (.push pat) :: rest)) := by
  obtain ⟨draft, number, u, earl, smaller, ht, hu, hsame, hlt, now, hps⟩ := h
  have hne : u ≠ t := by
    intro heq
    rw [heq, ht] at hu
    cases hu
    exact absurd hlt (Nat.lt_irrefl _)
  have hhl : (step p (.act t (.push pat))).thread u = .changed earl smaller := by
    refine step_held hu ?_
    intro now heq
    cases heq
    exact hne rfl
  obtain ⟨more, entry, hmr, hen, hnum, hss⟩ := run_pushes hhl hps
  intro hor
  rw [InOrder, Runs.run_cons, hmr, step_push ht] at hor
  have hpre := (pairwise_append.mp hor).2.2 (number, ⟨draft, pat⟩) (by simp)
    entry hen (hsame.symm.trans hss.symm)
  rw [hnum] at hpre
  exact absurd hpre (Nat.lt_asymm hlt)

def Timely (p : Pool) (rest : List Event) : Prop :=
  ∀ entry ∈ p.shared.history, ∀ u draft number, p.thread u = .changed draft number →
    draft.sessionId = entry.2.sessionId → number < entry.1 →
    ∀ pushedAt, .act u (.push pushedAt) ∉ rest

theorem step_timely (hp : Consistent p) {e : Event} (hor : InOrder p) (htime : Timely p (e :: rest))
    (hov : ∀ t pat, e = .act t (.push pat) → ¬ Overtakes p t rest) :
    InOrder (step p e) ∧ Timely (step p e) rest := by
  have hrs : Timely p rest := by
    intro entry hen u draft number hu heq hlt pat hmem
    exact htime entry hen u draft number hu heq hlt pat (mem_cons_of_mem e hmem)
  cases e with
  | surroundings c => exact ⟨hor, hrs⟩
  | act t part =>
    have hac := act_acted p.shared (p.thread t) part
    rw [step, Interleaving.step]
    generalize hph : p.thread t = phase at hac ⊢
    generalize p.shared.act phase part = result at hac ⊢
    cases hac with
    | nothing idle =>
      rw [← hph, update_eq_self]
      exact ⟨hor, hrs⟩
    | began found live about closes =>
      refine ⟨hor, ?_⟩
      intro entry hen u draft number hu heq hlt
      by_cases hut : u = t
      · rw [hut] at hu
        simp only [update_self, Phase.changed.injEq] at hu
        have hrec := lt_length_of_effect (hp.1.1.reports entry hen)
        omega
      · simp only [update_of_ne hut] at hu
        exact hrs entry hen u draft number hu heq hlt
    | @pushed draft number pat =>
      constructor
      · refine pairwise_append.mpr ⟨hor, pairwise_singleton _ _, ?_⟩
        intro entry hen new hnew heq
        rw [mem_singleton.mp hnew] at heq ⊢
        have hne := (hp.1.2 t draft number hph).2 entry hen
        have hnotlt : ¬ number < entry.1 := fun hlt =>
          htime entry hen t draft number hph heq.symm hlt pat mem_cons_self
        omega
      · intro entry hen u earl smaller hu heq hlt now hmem
        have hut : u ≠ t := by
          intro hut
          rw [hut] at hu
          simp only [update_self] at hu
          cases hu
        simp only [update_of_ne hut] at hu
        rcases mem_append.mp hen with hold | hnew
        · exact hrs entry hold u earl smaller hu heq hlt now hmem
        · rw [mem_singleton.mp hnew] at heq hlt
          exact hov t pat rfl
            ⟨draft, number, u, earl, smaller, hph, hu, heq, hlt, now, hmem⟩

theorem run_inOrder (hp : Consistent p) (hor : InOrder p) (htime : Timely p events)
    (hov : ∀ xs t pat ys, events = xs ++ .act t (.push pat) :: ys →
      ¬ Overtakes (Runs.run step p xs) t ys) : InOrder (Runs.run step p events) := by
  induction events generalizing p with
  | nil => exact hor
  | cons e events ih =>
    obtain ⟨hor', htm'⟩ := step_timely hp hor htime
      fun t pat he => hov [] t pat events (by rw [he]; rfl)
    refine ih (step_consistent p e hp) hor' htm' ?_
    intro xs t pat ys hsp
    exact hov (e :: xs) t pat ys (by rw [hsp]; rfl)

theorem InOrder.closed_last (h : InOrder p) (hp : Consistent p) : p.shared.registry.events.Pairwise
      fun x y => x.sessionId = y.sessionId → x.kind ≠ .closed := by
  rw [hp.1.1.events_eq, pairwise_map]
  refine List.Pairwise.imp_of_mem ?_ h
  intro x y hx hy hlt heq hkn
  have hfn := (hp.1.1.closed_final x.1 _ (hp.1.1.reports x hx) hkn).2 y.1 _
    (hp.1.1.reports y hy) heq.symm
  have := hlt heq
  omega

/-- The history of a run is faithful exactly when no thread records its event while
another, which changed the same session before it, is still to record one. -/
theorem faithful_iff (events : List Event) : Faithful (run events).shared ↔
      ∀ xs t pushedAt ys, events = xs ++ .act t (.push pushedAt) :: ys →
        ¬ Overtakes (run xs) t ys := by
  constructor
  · intro hft xs t pushedAt ys hsp hov
    refine not_inOrder_of_overtakes hov pushedAt ?_
    rw [← Runs.run_append, ← hsp]
    exact hft.in_order
  · intro hov
    have hp := run_consistent events
    have hor : InOrder (run events) := by
      refine run_inOrder start_consistent List.Pairwise.nil ?_ hov
      exact fun entry hen => absurd hen not_mem_nil
    exact ⟨hp.1.1.events_eq, hp.1.1.reports, hor, hor.closed_last hp⟩

def closingRace : List Event :=
  [.surroundings (.create 5), .act 0 (.begin 6 (.navigate "brw-5-1" "http://127.0.0.1/")),
    .act 1 (.begin 7 (.close "brw-5-1")),
    .act 1 (.push 7),
    .act 0 (.push 8)]

theorem navigation_after_closed : ¬ Faithful (run closingRace).shared := by
  intro hft
  have hlast := hft.closed_last
  exact absurd hlast (by decide)

end Audit
end DshDesktop.Browser
