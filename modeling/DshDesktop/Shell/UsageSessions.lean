import DshDesktop.Library.Interleaving
import DshDesktop.Library.Table
import DshDesktop.Shell.Usage
import Mathlib.Data.List.Induction

/-!
# Session marks from several threads

Any number of threads mark terminal sessions and report runtime states. An opening call
reads the clock before its critical section. `act` logs each section on the tables in
`marks`, and a record carries the position of its closing section.
-/

namespace DshDesktop.Shell.Usage
open List Function Nat Prod

inductive Side
  | terminal
  | runtime
  deriving DecidableEq

def Side.source : Side → String
  | .terminal => sourceTerminal
  | .runtime => sourceRuntime

inductive Mark
  | opened (side : Side) (key : String) (read : ℕ)
  | closed (side : Side) (key : String)

structure Collector where
  sequence : ℕ
  sessions : Side → Table String ℕ
  time : ℕ
  marks : List Mark
  received : List (ℕ × UsageRecord)

/-- Where a call is; `mark` is the position of its closing section. -/
inductive Task
  | idle
  | opening (side : Side) (key : String) (now : ℕ)
  | removed (side : Side) (start mark : ℕ)
  | ended (side : Side) (start ends mark : ℕ)
  | timed (side : Side) (start ends now mark : ℕ)

def Task.mark : Task → Option ℕ
  | .idle | .opening _ _ _ => none
  | .removed _ _ mark | .ended _ _ _ mark | .timed _ _ _ _ mark => some mark

inductive Input
  | markTerminalSessionStart (sessionId : String)
  | markTerminalSessionEnd (sessionId : String)
  | observeRuntimeState (environmentId runtimeState : String)
  | next

def Task.performs : Task → Input → Option Mark
  | .opening side key now, .next => some (.opened side key now)
  | .idle, .markTerminalSessionEnd sessionId => some (.closed .terminal sessionId)
  | .idle, .observeRuntimeState environmentId runtimeState =>
    if runtimeState ∈ runtimeEndStates then some (.closed .runtime environmentId) else none
  | _, _ => none

namespace Collector
variable (c : Collector)

def openSession (side : Side) (key : String) (now : ℕ) : Collector :=
  { c with
    sessions := update c.sessions side
      (match (c.sessions side).lookup key with
        | some _ => c.sessions side
        | none => (c.sessions side).insert key now) }

def closeSession (side : Side) (key : String) : Collector × Task :=
  ({ c with sessions := update c.sessions side ((c.sessions side).erase key) },
    match (c.sessions side).lookup key with
    | none => .idle
    | some start => .removed side start c.marks.length)

def record (side : Side) (start ends now mark : ℕ) : Collector :=
  match validate (sessionRequest side.source start ends) now with
  | .error _ => c
  | .ok _ =>
    { c with
      sequence := (c.sequence + 1) % 2 ^ 64
      received := c.received ++ [(mark, recordOf (sessionRequest side.source start ends) now)] }

def observe (environmentId runtimeState : String) : Collector × Task :=
  if runtimeState = "healthy" then (c, .opening .runtime environmentId c.time)
  else if runtimeState ∉ runtimeEndStates then (c, .idle)
  else c.closeSession .runtime environmentId

def next : Task → Collector × Task
  | .idle => (c, .idle)
  | .opening side key now => (c.openSession side key now, .idle)
  | .removed side start mark => (c, .ended side start c.time mark)
  | .ended side start ends mark => (c, .timed side start ends c.time mark)
  | .timed side start ends now mark => (c.record side start ends now mark, .idle)

def call (t : Task) : Input → Collector × Task
  | .next => c.next t
  | .markTerminalSessionStart sessionId =>
    match t with
    | .idle => (c, .opening .terminal sessionId c.time)
    | _ => (c, t)
  | .markTerminalSessionEnd sessionId =>
    match t with
    | .idle => c.closeSession .terminal sessionId
    | _ => (c, t)
  | .observeRuntimeState environmentId runtimeState =>
    match t with
    | .idle => c.observe environmentId runtimeState
    | _ => (c, t)

def log (mark : Mark) : Collector := { c with marks := c.marks ++ [mark] }

def act (t : Task) (input : Input) : Collector × Task :=
  match t.performs input with
  | none => c.call t input
  | some mark => ((c.call t input).1.log mark, (c.call t input).2)

def tick (d : ℕ) : Collector := { c with time := c.time + d }

end Collector

abbrev Event := Interleaving.Event Input ℕ

abbrev Pool := Interleaving.Pool Collector Task

def step : Pool → Event → Pool := Interleaving.step Collector.act Collector.tick

def run (now : ℕ) (events : List Event) : Pool :=
  Runs.run step ⟨⟨0, fun _ => ∅, now, [], []⟩, fun _ => .idle⟩ events

def openStep (side : Side) (key : String) (current : Option ℕ) : Mark → Option ℕ
  | .opened s k read => if s = side ∧ k = key then some (current.getD read) else current
  | .closed s k => if s = side ∧ k = key then none else current

def openSince (side : Side) (key : String) (marks : List Mark) : Option ℕ :=
  marks.foldl (openStep side key) none

variable {side : Side} {key : String} {marks added : List Mark} {start n : ℕ} {t u : Task}
  {c d : Collector}
  {r : Collector × Task} {p : Pool}

theorem openSince_append {m : Mark} :
    openSince side key (marks ++ [m]) = openStep side key (openSince side key marks) m := by
  rw [openSince, foldl_append]
  rfl

def OpenedBy (marks : List Mark) (side : Side) (key : String) (start : ℕ) : Prop :=
  ∃ before since, marks = before ++ .opened side key start :: since ∧ .closed side key ∉ since ∧
    openSince side key before = none

def FollowsOpen (marks : List Mark) (side : Side) (key : String) : Prop :=
  ∃ before read since, marks = before ++ .opened side key read :: since ∧ .closed side key ∉ since

theorem openedBy_of_openSince (h : openSince side key marks = some start) :
    OpenedBy marks side key start := by
  induction marks using reverseRecOn with
  | nil => cases h
  | append_singleton marks m ih =>
    rw [openSince_append] at h
    by_cases hoe : openSince side key marks = some start
    · obtain ⟨bef, since, hmr, hsh, hnn⟩ := ih hoe
      refine ⟨bef, since ++ [m], by rw [hmr]; simp, ?_, hnn⟩
      intro hmem
      rcases mem_append.mp hmem with hold | hnew
      · exact hsh hold
      · rw [mem_singleton] at hnew
        rw [← hnew, openStep, if_pos ⟨rfl, rfl⟩] at h
        cases h
    · -- the last section is the one that opened the session
      cases m with
      | closed s k =>
        rw [openStep] at h
        split_ifs at h
        exact absurd h hoe
      | opened s k read =>
        rw [openStep] at h
        split_ifs at h with heq
        · obtain ⟨rfl, rfl⟩ := heq
          cases hcr : openSince s k marks with
          | some current =>
            rw [hcr] at h hoe
            exact absurd h hoe
          | none =>
            rw [hcr] at h
            cases h
            exact ⟨marks, [], rfl, by simp, hcr⟩
        · exact absurd h hoe

theorem openSince_of_followsOpen (h : FollowsOpen marks side key) :
    ∃ start, openSince side key marks = some start := by
  obtain ⟨bef, read, since, rfl, hsh⟩ := h
  induction since using reverseRecOn with
  | nil =>
    rw [openSince_append, openStep, if_pos ⟨rfl, rfl⟩]
    exact ⟨_, rfl⟩
  | append_singleton since m ih =>
    obtain ⟨start, hst⟩ := ih fun hmem => hsh (mem_append_left _ hmem)
    rw [← cons_append, ← append_assoc, openSince_append, hst]
    cases m with
    | opened s k other =>
      rw [openStep]
      split_ifs
      · exact ⟨start, rfl⟩
      · exact ⟨start, rfl⟩
    | closed s k =>
      rw [openStep]
      split_ifs with heq
      · obtain ⟨rfl, rfl⟩ := heq
        exact absurd (mem_append_right _ mem_cons_self) hsh
      · exact ⟨start, rfl⟩

def Owed (marks : List Mark) (n : ℕ) (side : Side) (start : ℕ) : Prop :=
  ∃ key, marks[n]? = some (.closed side key) ∧ openSince side key (marks.take n) = some start

theorem Owed.append (h : Owed marks n side start) (added : List Mark) :
    Owed (marks ++ added) n side start := by
  obtain ⟨key, hsh, hoe⟩ := h
  have hn : n < marks.length := (List.getElem?_eq_some_iff.mp hsh).1
  refine ⟨key, ?_, ?_⟩
  · rw [List.getElem?_append_left hn]
    exact hsh
  · rw [take_append_of_le_length (le_of_lt hn)]
    exact hoe

theorem Owed.concat {m : Mark} (h : Owed (marks ++ [m]) n side start) :
    n < marks.length ∨ n = marks.length ∧
      ∃ key, m = .closed side key ∧ openSince side key marks = some start := by
  obtain ⟨key, hsh, hoe⟩ := h
  have hn : n < (marks ++ [m]).length := (List.getElem?_eq_some_iff.mp hsh).1
  rw [length_append] at hn
  rcases Nat.lt_succ_iff_lt_or_eq.mp hn with hlt | rfl
  · exact .inl hlt
  · rw [getElem?_concat_length] at hsh
    rw [take_left] at hoe
    exact .inr ⟨rfl, key, Option.some.inj hsh, hoe⟩

def Recorded (marks : List Mark) (e : ℕ × UsageRecord) : Prop :=
  ∃ side start ends now, Owed marks e.1 side start ∧ start ≤ ends ∧ ends ≤ now ∧
    e.2 = recordOf (sessionRequest side.source start ends) now

structure Books (c : Collector) : Prop where
  table : ∀ side key, (c.sessions side).lookup key = openSince side key c.marks
  past : ∀ side key read, .opened side key read ∈ c.marks → read ≤ c.time
  recorded : ∀ e ∈ c.received, Recorded c.marks e
  once : (c.received.map fst).Nodup

inductive Kept (c : Collector) : Task → Prop
  | idle : Kept c .idle
  | opening (side : Side) (key : String) {now : ℕ} (read : now ≤ c.time) :
      Kept c (.opening side key now)
  | removed {side : Side} {start mark : ℕ} (owed : Owed c.marks mark side start)
      (missing : mark ∉ c.received.map fst) (past : start ≤ c.time) :
      Kept c (.removed side start mark)
  | ended {side : Side} {start ends mark : ℕ} (owed : Owed c.marks mark side start)
      (missing : mark ∉ c.received.map fst) (ordered : start ≤ ends) (past : ends ≤ c.time) :
      Kept c (.ended side start ends mark)
  | timed {side : Side} {start ends now mark : ℕ} (owed : Owed c.marks mark side start)
      (missing : mark ∉ c.received.map fst) (ordered : start ≤ ends) (read : ends ≤ now) :
      Kept c (.timed side start ends now mark)

structure Sound (c : Collector) (t : Task) (r : Collector × Task) : Prop where
  books : Books r.1
  kept : Kept r.1 r.2
  time : r.1.time = c.time
  marks : ∃ added, r.1.marks = c.marks ++ added
  received : ∃ added, r.1.received = c.received ++ added ∧ ∀ e ∈ added, t.mark = some e.1
  holds : ∀ n, t.mark = some n → r.2.mark = some n ∨ n ∈ r.1.received.map fst
  fresh : ∀ n, r.2.mark = some n → t.mark = some n ∨ n = c.marks.length
  owes : ∀ n side start, Owed r.1.marks n side start → n < c.marks.length ∨ r.2.mark = some n

theorem Owed.lt (h : Owed marks n side start) : n < marks.length := by
  obtain ⟨key, hsh, -⟩ := h
  exact (List.getElem?_eq_some_iff.mp hsh).1

theorem Books.lt (hc : Books c) (hn : n ∈ c.received.map fst) : n < c.marks.length := by
  obtain ⟨e, he, rfl⟩ := mem_map.mp hn
  obtain ⟨side, start, ends, now, how, -⟩ := hc.recorded e he
  exact how.lt

theorem Kept.lt (ht : Kept c t) (hn : t.mark = some n) : n < c.marks.length := by
  cases ht with
  | idle | opening side key read => cases hn
  | removed owed miss past | ended owed miss ordered past | timed owed miss ordered read =>
    cases hn
    exact owed.lt

theorem Recorded.append {e : ℕ × UsageRecord} (h : Recorded marks e) (added : List Mark) :
    Recorded (marks ++ added) e := by
  obtain ⟨side, start, ends, now, how, hrs⟩ := h
  exact ⟨side, start, ends, now, how.append added, hrs⟩

section
variable (hc : Books c)
include hc

theorem sound_move {t' : Task} (ht : Kept c t') (hmr : t'.mark = t.mark) : Sound c t (c, t') where
  books := hc
  kept := ht
  time := rfl
  marks := ⟨[], by simp⟩
  received := ⟨[], by simp⟩
  holds := fun n hn => .inl (hmr.trans hn)
  fresh := fun n hn => .inl (hmr.symm.trans hn)
  owes := fun n side start how => .inl how.lt

theorem table_update {table : Table String ℕ} {f : Option ℕ → Option ℕ}
    (hself : table.lookup key = f ((c.sessions side).lookup key))
    (hother : ∀ k ≠ key, table.lookup k = (c.sessions side).lookup k) (s : Side) (k : String) :
    (update c.sessions side table s).lookup k =
      if side = s ∧ key = k then f (openSince s k c.marks) else openSince s k c.marks := by
  rw [← hc.table s k]
  by_cases hside : s = side
  · subst hside
    rw [update_self]
    by_cases hkey : k = key
    · subst hkey
      rw [if_pos ⟨rfl, rfl⟩, hself]
    · rw [if_neg fun h => hkey h.2.symm, hother k hkey]
  · rw [update_of_ne hside, if_neg fun h => hside h.1.symm]

theorem table_openSession (side : Side) (key : String) (now : ℕ) (s : Side) (k : String) :
    ((c.openSession side key now).sessions s).lookup k =
      openSince s k (c.marks ++ [.opened side key now]) := by
  rw [openSince_append]
  refine table_update hc (f := fun start => some (start.getD now)) ?_ ?_ s k
  · cases hget : (c.sessions side).lookup key with
    | some start => exact hget
    | none => exact AList.lookup_insert _
  · intro k hkey
    cases (c.sessions side).lookup key with
    | some start => rfl
    | none => exact AList.lookup_insert_ne hkey

theorem sound_openSession {now : ℕ} (hnow : now ≤ c.time) :
    Sound c (.opening side key now)
      ((c.openSession side key now).log (.opened side key now), .idle) where
  books :=
    { table := table_openSession hc side key now
      past := by
        intro s k read hmem
        rcases mem_append.mp hmem with hold | hnew
        · exact hc.past s k read hold
        · rw [mem_singleton] at hnew
          cases hnew
          exact hnow
      recorded := fun e he => (hc.recorded e he).append _
      once := hc.once }
  kept := .idle
  time := rfl
  marks := ⟨_, rfl⟩
  received := ⟨[], by simp [Collector.openSession, Collector.log]⟩
  holds := fun n hn => by cases hn
  fresh := fun n hn => by cases hn
  owes := by
    intro n s start how
    rcases how.concat with hlt | ⟨-, k, hsh, -⟩
    · exact .inl hlt
    · cases hsh

theorem table_closeSession (side : Side) (key : String) (s : Side) (k : String) :
    ((c.closeSession side key).1.sessions s).lookup k =
      openSince s k (c.marks ++ [.closed side key]) := by
  rw [openSince_append]
  exact table_update hc (f := fun _ => none) (AList.lookup_erase key _)
    (fun _ hkey => AList.lookup_erase_ne hkey) s k

theorem start_le_time (h : openSince side key c.marks = some start) : start ≤ c.time := by
  obtain ⟨bef, since, hmr, -⟩ := openedBy_of_openSince h
  refine hc.past side key start ?_
  rw [hmr]
  exact mem_append_right _ mem_cons_self

omit hc in
theorem owed_closed (h : openSince side key c.marks = some start) :
    Owed (c.marks ++ [.closed side key]) c.marks.length side start := by
  refine ⟨key, getElem?_concat_length, ?_⟩
  rw [take_left]
  exact h

theorem closeSession_task (side : Side) (key : String) :
    (c.closeSession side key).2 =
      match openSince side key c.marks with
      | none => .idle
      | some start => .removed side start c.marks.length := by
  rw [← hc.table]
  rfl

theorem sound_closeSession (side : Side) (key : String) :
    Sound c .idle ((c.closeSession side key).1.log (.closed side key),
      (c.closeSession side key).2) where
  books :=
    { table := table_closeSession hc side key
      past := by
        intro s k read hmem
        rcases mem_append.mp hmem with hold | hnew
        · exact hc.past s k read hold
        · rw [mem_singleton] at hnew
          cases hnew
      recorded := fun e he => (hc.recorded e he).append _
      once := hc.once }
  kept := by
    rw [closeSession_task hc]
    cases hoe : openSince side key c.marks with
    | none => exact .idle
    | some start =>
      have hst := start_le_time hc hoe
      refine .removed (owed_closed hoe) ?_ hst
      intro hmem
      exact lt_irrefl _ (hc.lt hmem)
  time := rfl
  marks := ⟨_, rfl⟩
  received := ⟨[], by simp [Collector.closeSession, Collector.log]⟩
  holds := fun n hn => by cases hn
  fresh := by
    intro n hn
    rw [closeSession_task hc] at hn
    cases hoe : openSince side key c.marks with
    | none =>
      rw [hoe] at hn
      cases hn
    | some start =>
      rw [hoe] at hn
      cases hn
      exact .inr rfl
  owes := by
    intro n s start how
    rcases how.concat with hlt | ⟨rfl, k, hsh, hoe⟩
    · exact .inl hlt
    · cases hsh
      rw [closeSession_task hc, show openSince side key c.marks = some start from hoe]
      exact .inr rfl

theorem sound_record {ends now mark : ℕ} (ht : Kept c (.timed side start ends now mark)) :
    Sound c (.timed side start ends now mark) (c.record side start ends now mark, .idle) := by
  cases ht with
  | timed owed miss ordered read =>
    have hsrc : side.source = sourceTerminal ∨ side.source = sourceRuntime := by
      cases side with
      | terminal => exact .inl rfl
      | runtime => exact .inr rfl
    rw [Collector.record, validate_sessionRequest hsrc ordered read]
    refine ⟨⟨hc.table, hc.past, ?_, ?_⟩, .idle, rfl, ⟨[], by simp⟩, ⟨_, rfl, ?_⟩, ?_, ?_, ?_⟩
    · intro e he
      rcases mem_append.mp he with hold | hnew
      · exact hc.recorded e hold
      · rw [mem_singleton] at hnew
        rw [hnew]
        exact ⟨side, start, ends, now, owed, ordered, read, rfl⟩
    · rw [map_append, nodup_append]
      refine ⟨hc.once, nodup_singleton _, ?_⟩
      intro a ha b hb hab
      have hb' : b = mark := mem_singleton.mp hb
      rw [hab, hb'] at ha
      exact miss ha
    · intro e he
      rw [mem_singleton] at he
      rw [he]
      rfl
    · intro n hn
      cases hn
      right
      rw [map_append]
      exact mem_append_right _ mem_cons_self
    · intro n hn
      cases hn
    · intro n s start' how
      exact .inl how.lt

theorem sound_next (ht : Kept c t) : Sound c t (c.act t .next) := by
  cases t with
  | idle => exact sound_move hc .idle rfl
  | opening side key now =>
    cases ht with
    | opening _ _ read => exact sound_openSession hc read
  | removed side start mark =>
    cases ht with
    | removed owed miss past => exact sound_move hc (.ended owed miss past le_rfl) rfl
  | ended side start ends mark =>
    cases ht with
    | ended owed miss ordered past => exact sound_move hc (.timed owed miss ordered past) rfl
  | timed side start ends now mark => exact sound_record hc ht

theorem sound_observe (env rs : String) :
    Sound c .idle (c.act .idle (.observeRuntimeState env rs)) := by
  simp only [Collector.act, Task.performs, Collector.call, Collector.observe]
  by_cases hhealthy : rs = "healthy"
  · rw [if_neg (by rw [hhealthy]; decide), if_pos hhealthy]
    exact sound_move hc (.opening .runtime env le_rfl) rfl
  by_cases hend : rs ∈ runtimeEndStates
  · rw [if_pos hend, if_neg hhealthy, if_neg (not_not_intro hend)]
    exact sound_closeSession hc .runtime env
  · rw [if_neg hend, if_neg hhealthy, if_pos hend]
    exact sound_move hc .idle rfl

theorem sound_act (ht : Kept c t) (input : Input) : Sound c t (c.act t input) := by
  cases input with
  | next => exact sound_next hc ht
  | markTerminalSessionStart sessionId =>
    cases t with
    | idle => exact sound_move hc (.opening .terminal sessionId le_rfl) rfl
    | _ => exact sound_move hc ht rfl
  | markTerminalSessionEnd sessionId =>
    cases t with
    | idle => exact sound_closeSession hc .terminal sessionId
    | _ => exact sound_move hc ht rfl
  | observeRuntimeState envId rst =>
    cases t with
    | idle => exact sound_observe hc envId rst
    | _ => exact sound_move hc ht rfl

end

def Separate (t u : Task) : Prop := ∀ n, t.mark = some n → u.mark ≠ some n

theorem Kept.mono (ht : Kept c t) (htime : c.time ≤ d.time) (hmr : d.marks = c.marks ++ added)
    (hms : ∀ n, t.mark = some n → n ∉ c.received.map fst → n ∉ d.received.map fst) :
      Kept d t := by
  have how : ∀ {n side start}, Owed c.marks n side start → Owed d.marks n side start := by
    intro n side start h
    rw [hmr]
    exact h.append added
  cases ht with
  | idle => exact .idle
  | opening side key read => exact .opening side key (le_trans read htime)
  | removed owed miss past =>
    exact .removed (how owed) (hms _ rfl miss) (le_trans past htime)
  | ended owed miss ordered past =>
    exact .ended (how owed) (hms _ rfl miss) ordered (le_trans past htime)
  | timed owed miss ordered read =>
    exact .timed (how owed) (hms _ rfl miss) ordered read

theorem Sound.stable (h : Sound c t r) (hu : Kept c u) (hsep : Separate t u) : Kept r.1 u := by
  obtain ⟨added, hmr⟩ := h.marks
  obtain ⟨ents, hrecv, hown⟩ := h.received
  refine hu.mono (le_of_eq h.time.symm) hmr ?_
  intro n hn hms hmem
  rw [hrecv, map_append] at hmem
  rcases mem_append.mp hmem with hold | hnew
  · exact hms hold
  · obtain ⟨e, he, rfl⟩ := mem_map.mp hnew
    exact hsep e.1 (hown e he) hn

theorem Sound.separate (h : Sound c t r) (hu : Kept c u) (hsep : Separate t u) :
    Separate r.2 u := by
  intro n hn hun
  rcases h.fresh n hn with hmine | hnew
  · exact hsep n hmine hun
  · have hlt := hu.lt hun
    omega

theorem Separate.symm (h : Separate t u) : Separate u t :=
  fun n hu ht => h n ht hu

theorem books_tick (hc : Books c) (d : ℕ) : Books (c.tick d) :=
  ⟨hc.table,
    fun side key read hmem => Nat.le_trans (hc.past side key read hmem) (Nat.le_add_right ..),
    hc.recorded, hc.once⟩

theorem kept_tick (ht : Kept c t) {d : ℕ} : Kept (c.tick d) t :=
  ht.mono (Nat.le_add_right ..) (append_nil _).symm fun _ _ h => h

def Answered (p : Pool) : Prop :=
  ∀ n side start, Owed p.shared.marks n side start →
    n ∈ p.shared.received.map fst ∨ ∃ t, (p.thread t).mark = some n

structure Orderly (p : Pool) : Prop where
  holds : Interleaving.Holds Books Kept p
  apart : Interleaving.Apart Separate p
  answered : Answered p

theorem answered_act (h : Orderly p) {t : ℕ} {input : Input} :
    Answered (step p (.act t input)) := by
  have hsn := sound_act h.holds.1 (h.holds.2 t) input
  obtain ⟨added, hmr⟩ := hsn.marks
  obtain ⟨ents, hrecv, -⟩ := hsn.received
  intro n side start how
  have hmine : (p.shared.act (p.thread t) input).2.mark = some n →
      ∃ u, ((step p (.act t input)).thread u).mark = some n := by
    intro hma
    refine ⟨t, ?_⟩
    rw [step, Interleaving.step_act_self]
    exact hma
  rcases hsn.owes n side start how with hlt | hnew
  · -- the section is an old one
    have hold : Owed p.shared.marks n side start := by
      obtain ⟨key, hsh, hoe⟩ := how
      change (p.shared.act (p.thread t) input).1.marks[n]? = _ at hsh
      change openSince side key ((p.shared.act (p.thread t) input).1.marks.take n) = _ at hoe
      rw [hmr, getElem?_append_left hlt] at hsh
      rw [hmr, take_append_of_le_length (le_of_lt hlt)] at hoe
      exact ⟨key, hsh, hoe⟩
    rcases h.answered n side start hold with hin | ⟨u, hu⟩
    · left
      change n ∈ (p.shared.act (p.thread t) input).1.received.map fst
      rw [hrecv, map_append]
      exact mem_append_left _ hin
    · by_cases hut : u = t
      · subst hut
        rcases hsn.holds n hu with hst | hin
        · exact .inr (hmine hst)
        · exact .inl hin
      · right
        refine ⟨u, ?_⟩
        rw [step, Interleaving.step_act_other hut]
        exact hu
  · exact .inr (hmine hnew)

theorem orderly_step (p : Pool) (e : Event) (h : Orderly p) : Orderly (step p e) := by
  have hbt := Interleaving.holds_apart_step (D := Separate)
    (fun g l i hs ht => ⟨(sound_act hs ht i).books, (sound_act hs ht i).kept⟩)
    (fun g l i m hs ht hm hd _ => (sound_act hs ht i).stable hm hd)
    (fun g l i m hs ht hm hd _ =>
      ⟨(sound_act hs ht i).separate hm hd, ((sound_act hs ht i).separate hm hd).symm⟩)
    (fun g d hs => books_tick hs d) (fun g d m _ hm => kept_tick hm) p e ⟨h.holds, h.apart⟩
  refine ⟨hbt.1, hbt.2, ?_⟩
  cases e with
  | act t input => exact answered_act h
  | surroundings d => exact h.answered

theorem orderly_run (now : ℕ) (evs : List Event) : Orderly (run now evs) := by
  refine Runs.run_invariant Orderly orderly_step evs ⟨⟨?_, fun _ => .idle⟩, ?_, ?_⟩
  · refine ⟨fun _ _ => rfl, ?_, ?_, nodup_nil⟩
    · intro side key read hmem
      cases hmem
    · intro e hmem
      cases hmem
  · intro t u _ n hn
    cases hn
  · intro n side start how
    obtain ⟨key, hsh, -⟩ := how
    cases hsh

def Task.left : Task → ℕ
  | .idle => 0
  | .opening _ _ _ | .timed _ _ _ _ _ => 1
  | .ended _ _ _ _ => 2
  | .removed _ _ _ => 3

theorem left_next {c : Collector} {t : Task} : (c.act t .next).2.left = t.left - 1 := by
  cases t with
  | _ => rfl

theorem left_eq_zero (h : t.left = 0) : t.mark = none := by
  cases t with
  | idle | opening side key now => rfl
  | removed side start mark | ended side start ends mark | timed side start ends now mark => cases h

def Carried (t n : ℕ) (p : Pool) : Prop :=
  (p.thread t).mark = some n ∨ n ∈ p.shared.received.map fst

theorem carried_next (h : Orderly p) {t : ℕ} (hn : Carried t n p) :
    Carried t n (step p (.act t .next)) := by
  have hsn := sound_act h.holds.1 (h.holds.2 t) .next
  obtain ⟨ents, hrecv, -⟩ := hsn.received
  rcases hn with hmr | hin
  · rcases hsn.holds n hmr with hst | hin
    · left
      rw [step, Interleaving.step_act_self]
      exact hst
    · exact .inr hin
  · right
    change n ∈ (p.shared.act (p.thread t) .next).1.received.map fst
    rw [hrecv, map_append]
    exact mem_append_left _ hin

theorem carried_arrives (t n : ℕ) (k : ℕ) (h : Orderly p) (hn : Carried t n p)
    (hk : (p.thread t).left ≤ k) :
    n ∈ (Runs.run step p (replicate k (.act t .next))).shared.received.map fst := by
  induction k generalizing p with
  | zero =>
    rcases hn with hmr | hin
    · rw [left_eq_zero (le_zero.mp hk)] at hmr
      cases hmr
    · exact hin
  | succ k ih =>
    have hlf : ((step p (.act t .next)).thread t).left ≤ k := by
      rw [step, Interleaving.step_act_self]
      rw [left_next]
      omega
    exact ih (orderly_step p _ h) (carried_next h hn) hlf

theorem left_le (t : Task) : t.left ≤ 3 := by
  cases t with
  | _ => simp [Task.left]

def sampleMarks : List Event :=
  [.act 0 (.markTerminalSessionStart "s"), .surroundings 2, .act 0 .next, .surroundings 3,
    .act 1 (.markTerminalSessionEnd "s"), .act 2 (.markTerminalSessionEnd "s"), .act 1 .next,
    .act 1 .next, .act 1 .next]

end DshDesktop.Shell.Usage
