import DshDesktop.Library.Interleaving
import DshDesktop.Daemon.EventRouting

/-!
# Subscriptions of served connections

Any number of `serve_connection` calls with their writer threads over one event router,
while resource hosts publish. Only the writer gives the subscriptions of its connection
up, when it ends; a session subscribed after that stays with a dead key.
-/

namespace DshDesktop.Daemon.Subscriptions
open Routing

/-- Where the call is; `leaving` sets the stop flag and waits for the writer. -/
inductive Phase
  | idle
  | claimed
  | receiving
  | leaving
  | returned
  deriving DecidableEq

inductive Writer
  | absent
  | polling
  | sending
  | stopping
  | dropping
  | done
  deriving DecidableEq

def Writer.gone : Writer → Bool
  | dropping | done => true
  | _ => false

def Writer.running : Writer → Bool
  | polling | sending | stopping => true
  | _ => false

structure Conn where
  phase : Phase
  writer : Writer
  key : ℕ
  deriving DecidableEq

inductive Input
  | claim
  | enter
  | subscribe (sessionId : String)
  | unsubscribe (sessionId : String)
  | leave
  | join
  | poll (seesStop : Bool)
  | sent (ok : Bool)
  | finish
  | drop

/-- A hello or an invocation that subscribes nothing is no step here, and a poll
that finds no event changes nothing. -/
def act (g : State) (c : Conn) : Input → State × Conn
  | .claim =>
    if c.phase = .idle then (g.claim, ⟨.claimed, .absent, g.nextConnection + 1⟩) else (g, c)
  | .enter =>
    if c.phase = .claimed then (g.enter c.key, ⟨.receiving, .polling, c.key⟩) else (g, c)
  | .subscribe sessionId =>
    if c.phase = .receiving then (g.subscribe c.key sessionId, c) else (g, c)
  | .unsubscribe sessionId =>
    if c.phase = .receiving then (g.unsubscribe c.key sessionId, c) else (g, c)
  | .leave => if c.phase = .receiving then (g, { c with phase := .leaving }) else (g, c)
  | .join =>
    if c.phase = .leaving ∧ c.writer = .done then (g, { c with phase := .returned }) else (g, c)
  | .poll seesStop =>
    if c.writer = .polling then
      if c.phase = .leaving ∧ seesStop = true then (g, { c with writer := .stopping })
      else if g.queues c.key = [] then (g, c)
      else (g.receive c.key, { c with writer := .sending })
    else (g, c)
  | .sent ok =>
    if c.writer = .sending then
      (g, { c with writer := if ok then .polling else .stopping })
    else (g, c)
  | .finish =>
    if c.writer = .stopping then (g.unsubscribeAll c.key, { c with writer := .dropping })
    else (g, c)
  | .drop => if c.writer = .dropping then (g.close c.key, { c with writer := .done }) else (g, c)

inductive Publishing
  | lookup (thread : ℕ) (event : RouterEvent)
  | enqueue (thread : ℕ)

def change (g : State) : Publishing → State
  | .lookup thread event => g.lookup thread event
  | .enqueue thread => g.enqueue thread

abbrev Pool := Interleaving.Pool State Conn

abbrev Event := Interleaving.Event Input Publishing

def step : Pool → Event → Pool := Interleaving.step act change

def start : Pool := ⟨.spawn, fun _ => ⟨.idle, .absent, 0⟩⟩

def run (events : List Event) : Pool := Runs.run step start events

inductive Acted (g : State) (c : Conn) : Input → State → Conn → Prop
  | nothing (i : Input) : Acted g c i g c
  | claimed : c.phase = .idle → Acted g c .claim g.claim ⟨.claimed, .absent, g.nextConnection + 1⟩
  | entered : c.phase = .claimed → Acted g c .enter (g.enter c.key) ⟨.receiving, .polling, c.key⟩
  | subscribed (sessionId : String) : c.phase = .receiving →
      Acted g c (.subscribe sessionId) (g.subscribe c.key sessionId) c
  | unsubscribed (sessionId : String) : c.phase = .receiving →
      Acted g c (.unsubscribe sessionId) (g.unsubscribe c.key sessionId) c
  | left : c.phase = .receiving → Acted g c .leave g { c with phase := .leaving }
  | joined : c.phase = .leaving → c.writer = .done → Acted g c .join g { c with phase := .returned }
  | stopped (seesStop : Bool) : c.writer = .polling →
      Acted g c (.poll seesStop) g { c with writer := .stopping }
  | received (seesStop : Bool) : c.writer = .polling →
      Acted g c (.poll seesStop) (g.receive c.key) { c with writer := .sending }
  | sent (ok : Bool) : c.writer = .sending →
      Acted g c (.sent ok) g { c with writer := if ok then .polling else .stopping }
  | finished : c.writer = .stopping →
      Acted g c .finish (g.unsubscribeAll c.key) { c with writer := .dropping }
  | dropped : c.writer = .dropping → Acted g c .drop (g.close c.key) { c with writer := .done }

theorem act_acted (g : State) (c : Conn) (i : Input) : Acted g c i (act g c i).1 (act g c i).2 := by
  cases i with
  | claim =>
    simp only [act]
    split_ifs with hph
    · exact .claimed hph
    · exact .nothing _
  | enter =>
    simp only [act]
    split_ifs with hph
    · exact .entered hph
    · exact .nothing _
  | subscribe sid =>
    simp only [act]
    split_ifs with hph
    · exact .subscribed sid hph
    · exact .nothing _
  | unsubscribe sid =>
    simp only [act]
    split_ifs with hph
    · exact .unsubscribed sid hph
    · exact .nothing _
  | leave =>
    simp only [act]
    split_ifs with hph
    · exact .left hph
    · exact .nothing _
  | join =>
    simp only [act]
    split_ifs with hdn
    · exact .joined hdn.1 hdn.2
    · exact .nothing _
  | poll seesStop =>
    simp only [act]
    split_ifs with hpl hso hem
    · exact .stopped seesStop hpl
    · exact .nothing _
    · exact .received seesStop hpl
    · exact .nothing _
  | sent ok =>
    by_cases hsn : c.writer = .sending
    · simp only [act, if_pos hsn]
      exact .sent ok hsn
    · simp only [act, if_neg hsn]
      exact .nothing _
  | finish =>
    simp only [act]
    split_ifs with hst
    · exact .finished hst
    · exact .nothing _
  | drop =>
    simp only [act]
    split_ifs with hdr
    · exact .dropped hdr
    · exact .nothing _

def Phase.serving : Phase → Bool
  | receiving | leaving => true
  | _ => false

/-- How far a connection is, and what the router then knows of its key. -/
inductive Conn.Kept (g : State) : Conn → Prop
  | idle (key : ℕ) : Conn.Kept g ⟨.idle, .absent, key⟩
  | claimed {key : ℕ} : key ∈ g.claimed → Conn.Kept g ⟨.claimed, .absent, key⟩
  | served {phase : Phase} {writer : Writer} {key : ℕ} : phase.serving = true →
      writer.running = true → key ∈ g.connections → Conn.Kept g ⟨phase, writer, key⟩
  | deserted {phase : Phase} {writer : Writer} {key : ℕ} : phase.serving = true →
      writer.gone = true → Left g key → Conn.Kept g ⟨phase, writer, key⟩
  | returned {key : ℕ} : Left g key → Conn.Kept g ⟨.returned, .done, key⟩

def Conn.Apart (c d : Conn) : Prop := c.phase ≠ .idle → d.phase ≠ .idle → c.key ≠ d.key

variable {i : Input} {key : ℕ}

section
variable {g g' : State} {c d m : Conn}

section
variable (hc : c.Kept g)
include hc

theorem Conn.Kept.bounded (hg : Keys g) (hil : c.phase ≠ .idle) : c.key ≤ g.nextConnection := by
  cases hc with
  | idle => exact absurd rfl hil
  | claimed hin => exact hg.claimed_le _ hin
  | served _ _ hin => exact hg.handles_le _ (hg.handed hin)
  | deserted _ _ hlf | returned hlf => exact hg.handles_le _ hlf.handed

theorem Conn.Kept.mono (hclaim : c.phase ≠ .idle → c.key ∈ g.claimed → c.key ∈ g'.claimed)
    (hconns : c.phase ≠ .idle → c.key ∈ g.connections → c.key ∈ g'.connections)
    (hlf : Left g c.key → Left g' c.key) : c.Kept g' := by
  have hnotidle : ∀ {phase : Phase}, phase.serving → phase ≠ .idle := by
    intro phase hsr hil
    rw [hil] at hsr
    cases hsr
  cases hc with
  | idle key => exact .idle key
  | claimed hin => exact .claimed (hclaim (by simp) hin)
  | served hsr hrun hin =>
    exact .served hsr hrun (hconns (hnotidle hsr) hin)
  | deserted hsr hgn h => exact .deserted hsr hgn (hlf h)
  | returned h => exact .returned (hlf h)

theorem Conn.Kept.same (h : SameKeys g g') : c.Kept g' :=
  hc.mono (fun _ hin => h.claimed.symm ▸ hin) (fun _ hin => h.connections.symm ▸ hin)
    fun hlf => hlf.same h

theorem Conn.Kept.claim : c.Kept g.claim :=
  hc.mono (fun _ hin => Finset.mem_insert_of_mem hin) (fun _ hin => hin)
    fun hlf => ⟨hlf.handed, hlf.gone⟩

theorem Conn.Kept.enter_other (hg : Keys g) (hne : c.phase ≠ .idle → c.key ≠ key) :
    c.Kept (g.enter key) := by
  refine hc.mono ?_ ?_ fun hlf => hlf.step hg (.enter key)
  · intro hil hin
    unfold State.enter
    split_ifs
    · exact Finset.mem_erase.mpr ⟨hne hil, hin⟩
    · exact hin
  · intro _ hin
    unfold State.enter
    split_ifs
    · exact Finset.mem_insert_of_mem hin
    · exact hin

theorem Conn.Kept.unsubscribeAll_other (hg : Keys g) (hne : c.phase ≠ .idle → c.key ≠ key) :
    c.Kept (g.unsubscribeAll key) := by
  refine hc.mono ?_ ?_ fun hlf => hlf.step hg (.unsubscribeAll key)
  · intro _ hin
    unfold State.unsubscribeAll
    split_ifs
    · exact hin
    · exact hin
  · intro hil hin
    unfold State.unsubscribeAll
    split_ifs
    · exact Finset.mem_erase.mpr ⟨hne hil, hin⟩
    · exact hin

theorem Conn.Kept.claimed_key (hph : c.phase = .claimed) : c.key ∈ g.claimed := by
  cases hc with
  | claimed hin => exact hin
  | idle | returned => cases hph
  | served hsr | deserted hsr =>
    cases hph
    cases hsr

theorem Conn.Kept.of_serving (hsr : c.phase.serving) :
    c.writer.running ∧ c.key ∈ g.connections ∨ c.writer.gone ∧ Left g c.key := by
  cases hc with
  | idle | claimed | returned => cases hsr
  | served _ hrun hin => exact .inl ⟨hrun, hin⟩
  | deserted _ hgn hlf => exact .inr ⟨hgn, hlf⟩

theorem Conn.Kept.of_running (hrun : c.writer.running) :
    c.phase.serving ∧ c.key ∈ g.connections := by
  cases hc with
  | idle | claimed | returned => cases hrun
  | served hsr _ hin => exact ⟨hsr, hin⟩
  | @deserted phase writer key _ hgn =>
    cases writer <;> simp [Writer.running, Writer.gone] at hrun hgn

theorem Conn.Kept.of_gone (hgn : c.writer.gone) : Left g c.key := by
  cases hc with
  | idle | claimed => cases hgn
  | @served phase writer key _ hrun =>
    cases writer <;> simp [Writer.running, Writer.gone] at hrun hgn
  | deserted _ _ hlf | returned hlf => exact hlf

theorem Conn.Kept.of_returned (hph : c.phase = .returned) : Left g c.key := by
  cases hc with
  | idle | claimed => cases hph
  | served hsr =>
    cases hph
    cases hsr
  | deserted _ _ hlf | returned hlf => exact hlf

theorem Conn.Kept.of_dropping (hwr : c.writer = .dropping) : c.phase.serving := by
  cases hc with
  | idle | claimed | returned => cases hwr
  | served hsr | deserted hsr => exact hsr

end

theorem kept_own (h : Acted g c i g' d) (hg : Keys g) (hc : c.Kept g) : Keys g' ∧ d.Kept g' := by
  cases h with
  | nothing => exact ⟨hg, hc⟩
  | claimed => exact ⟨hg.claim, .claimed (Finset.mem_insert_self _ _)⟩
  | entered hph =>
    have hin := hc.claimed_key hph
    refine ⟨hg.enter c.key, .served rfl rfl ?_⟩
    rw [State.enter, if_pos hin]
    exact Finset.mem_insert_self _ _
  | subscribed sid =>
    exact ⟨hg.same ⟨rfl, rfl, rfl, rfl⟩, hc.same ⟨rfl, rfl, rfl, rfl⟩⟩
  | unsubscribed sid =>
    have heq := sameKeys_unsubscribe g c.key sid
    exact ⟨hg.same heq, hc.same heq⟩
  | left hph =>
    refine ⟨hg, ?_⟩
    rcases hc.of_serving (by rw [hph]; rfl) with ⟨hrun, hin⟩ | ⟨hgn, hlf⟩
    · exact .served rfl hrun hin
    · exact .deserted rfl hgn hlf
  | joined hph hdn =>
    refine ⟨hg, ?_⟩
    have hlf := hc.of_gone (by rw [hdn]; rfl)
    rw [hdn]
    exact .returned hlf
  | stopped seesStop hpl =>
    obtain ⟨hsr, hin⟩ := hc.of_running (by rw [hpl]; rfl)
    exact ⟨hg, .served hsr rfl hin⟩
  | received seesStop hpl =>
    obtain ⟨hsr, hin⟩ := hc.of_running (by rw [hpl]; rfl)
    exact ⟨hg.same ⟨rfl, rfl, rfl, rfl⟩, .served hsr rfl hin⟩
  | sent ok hsn =>
    obtain ⟨hsr, hin⟩ := hc.of_running (by rw [hsn]; rfl)
    refine ⟨hg, .served hsr ?_ hin⟩
    cases ok <;> rfl
  | finished hst =>
    obtain ⟨hsr, hin⟩ := hc.of_running (by rw [hst]; rfl)
    exact ⟨hg.unsubscribeAll c.key, .deserted hsr rfl (left_unsubscribeAll (hg.handed hin))⟩
  | dropped hdr =>
    have heq := sameKeys_close g c.key
    have hlf : Left g c.key := hc.of_gone (by rw [hdr]; rfl)
    exact ⟨hg.same heq, .deserted (hc.of_dropping hdr) rfl (hlf.same heq)⟩

theorem kept_other (h : Acted g c i g' d) (hg : Keys g) (hc : c.Kept g) (hm : m.Kept g)
    (hap : Conn.Apart m c) : m.Kept g' := by
  cases h with
  | nothing | left | joined | stopped | sent => exact hm
  | claimed => exact hm.claim
  | entered hph => exact hm.enter_other hg fun hil => hap hil (by rw [hph]; decide)
  | subscribed sid | received => exact hm.same ⟨rfl, rfl, rfl, rfl⟩
  | unsubscribed sid => exact hm.same (sameKeys_unsubscribe g c.key sid)
  | finished hst =>
    obtain ⟨hsr, -⟩ := hc.of_running (by rw [hst]; rfl)
    refine hm.unsubscribeAll_other hg fun hil => hap hil ?_
    intro heq
    rw [heq] at hsr
    cases hsr
  | dropped => exact hm.same (sameKeys_close g c.key)

theorem Conn.Apart.rekey (hcm : Conn.Apart c m) (hmc : Conn.Apart m c) (hkey : d.key = c.key)
    (hil : d.phase ≠ .idle → c.phase ≠ .idle) : Conn.Apart d m ∧ Conn.Apart m d := by
  refine ⟨?_, ?_⟩
  · intro hd hm
    rw [hkey]
    exact hcm (hil hd) hm
  · intro hm hd
    rw [hkey]
    exact hmc hm (hil hd)

theorem apart_acted (h : Acted g c i g' d) (hg : Keys g) (hm : m.Kept g) (hcm : Conn.Apart c m)
    (hmc : Conn.Apart m c) : Conn.Apart d m ∧ Conn.Apart m d := by
  cases h with
  | claimed =>
    -- The key is new: all others are at most the counter.
    refine ⟨?_, ?_⟩
    · intro _ hil heq
      have hle := hm.bounded hg hil
      rw [← heq] at hle
      exact absurd hle (Nat.not_succ_le_self _)
    · intro hil _ heq
      have hle := hm.bounded hg hil
      rw [heq] at hle
      exact absurd hle (Nat.not_succ_le_self _)
  | nothing | subscribed | unsubscribed => exact ⟨hcm, hmc⟩
  | entered hph | left hph | joined hph =>
    exact hcm.rekey hmc rfl fun _ => by rw [hph]; decide
  | stopped | received | sent | finished | dropped => exact hcm.rekey hmc rfl id

theorem sameKeys_change {e : Publishing} : SameKeys g (change g e) := by
  cases e with
  | lookup thr ev => exact sameKeys_lookup g thr ev
  | enqueue thr => exact sameKeys_enqueue g thr

end

abbrev Holds : Pool → Prop := fun p =>
  Interleaving.Holds Keys Conn.Kept p ∧ Interleaving.Apart Conn.Apart p

theorem holds_start : Holds start := by
  refine ⟨⟨?_, fun _ => .idle 0⟩, ?_⟩
  · exact keys_run []
  · intro t u _ hil
    exact absurd rfl hil

theorem holds_step (p : Pool) (e : Event) (h : Holds p) : Holds (step p e) :=
  Interleaving.holds_apart_step
    (fun g c i hg hc => kept_own (act_acted g c i) hg hc)
    (fun g c i _ hg hc hm _ hmc => kept_other (act_acted g c i) hg hc hm hmc)
    (fun g c i _ hg _ hm hcm hmc => apart_acted (act_acted g c i) hg hm hcm hmc)
    (fun _ _ hg => hg.same sameKeys_change)
    (fun _ _ _ _ hm => hm.same sameKeys_change) p e h

theorem holds_run (evs : List Event) : Holds (run evs) :=
  Runs.run_invariant Holds holds_step evs holds_start

def Registered (g : State) : Prop :=
  ∀ sessionId key, g.sessions.lookup sessionId = some key → key ∈ g.connections

/-- A connection subscribes a session only while its writer has not given the
subscriptions up. -/
def SubscribesInTime (p : Pool) (e : Event) : Prop :=
  ∀ t sessionId, e = .act t (.subscribe sessionId) → (p.thread t).phase = .receiving →
    (p.thread t).writer.gone = false

section
variable {g g' : State} {c d : Conn}

section
variable (hr : Registered g)
include hr

theorem Registered.same (hss : g'.sessions = g.sessions)
    (hconns : ∀ key ∈ g.connections, key ∈ g'.connections) : Registered g' := by
  intro sid key hkey
  rw [hss] at hkey
  exact hconns key (hr sid key hkey)

theorem Registered.unsubscribe (key : ℕ) (sid : String) : Registered (g.unsubscribe key sid) := by
  unfold State.unsubscribe
  split_ifs
  · intro s k hk
    rw [Table.lookup_erase_ite] at hk
    split_ifs at hk
    exact hr s k hk
  · exact hr

theorem Registered.unsubscribeAll (key : ℕ) : Registered (g.unsubscribeAll key) := by
  unfold State.unsubscribeAll
  split_ifs
  · intro s k hk
    obtain ⟨hold, hne⟩ := Table.lookup_retain_some.mp hk
    exact Finset.mem_erase.mpr ⟨of_decide_eq_true hne, hr s k hold⟩
  · exact hr

theorem Registered.subscribe (hkey : key ∈ g.connections) (sid : String) :
    Registered (g.subscribe key sid) := by
  intro s k hk
  rw [State.subscribe, Table.lookup_insert_ite] at hk
  split_ifs at hk
  · rw [← Option.some.inj hk]
    exact hkey
  · exact hr s k hk

theorem Registered.enter (key : ℕ) : Registered (g.enter key) := by
  unfold State.enter
  split_ifs
  · exact hr.same rfl fun k hk => Finset.mem_insert_of_mem hk
  · exact hr

theorem Registered.close (key : ℕ) : Registered (g.close key) := by
  unfold State.close
  split_ifs
  · exact hr.same rfl fun k hk => hk
  · exact hr

end

theorem Registered.acted (h : Acted g c i g' d) (hc : c.Kept g)
    (htime : ∀ sid, i = .subscribe sid → c.phase = .receiving → c.writer.gone = false)
    (hr : Registered g) : Registered g' := by
  cases h with
  | nothing | left | joined | stopped | sent => exact hr
  | claimed | received => exact hr.same rfl fun k hk => hk
  | entered => exact hr.enter c.key
  | subscribed sid hph =>
    have hrun := hc.of_serving (by rw [hph]; rfl)
    have hal := htime sid rfl hph
    rw [hal] at hrun
    exact hr.subscribe (hrun.resolve_right (by simp)).2 sid
  | unsubscribed sid => exact hr.unsubscribe c.key sid
  | finished => exact hr.unsubscribeAll c.key
  | dropped => exact hr.close c.key

end

theorem registered_change {g : State} {e : Publishing} (hr : Registered g) :
    Registered (change g e) := by
  have hss : (change g e).sessions = g.sessions := by
    cases e with
    | lookup thr ev =>
      show (g.lookup thr ev).sessions = g.sessions
      unfold State.lookup
      split_ifs <;> rfl
    | enqueue thr =>
      show (g.enqueue thr).sessions = g.sessions
      unfold State.enqueue
      cases g.sending thr with
      | none => rfl
      | some p =>
        dsimp only
        unfold State.deliver
        split_ifs <;> rfl
  exact hr.same hss fun key hk => sameKeys_change.connections.symm ▸ hk

theorem registered_step {p : Pool} {e : Event} (h : Holds p) (htime : SubscribesInTime p e)
    (hr : Registered p.shared) : Registered (step p e).shared := by
  cases e with
  | act t i =>
    exact hr.acted (act_acted p.shared (p.thread t) i) (h.1.2 t) fun sid hi hph =>
      htime t sid (by rw [hi]) hph
  | surroundings e => exact registered_change hr

theorem registered_run {evs : List Event} (h : Runs.Along step SubscribesInTime start evs) :
    Registered (run evs).shared := by
  have hbt := Runs.run_invariant_along SubscribesInTime
    (fun p => Holds p ∧ Registered p.shared)
    (fun p e htime hp => ⟨holds_step p e hp.1, registered_step hp.1 htime hp.2⟩) h
    ⟨holds_start, fun sid key hkey => by cases hkey⟩
  exact hbt.2

/-- No dead connection holds a subscription and every subscribed key is registered,
at every moment of a run, exactly when no connection subscribes a session after
its writer has given the subscriptions up. -/
theorem no_dead_subscriptions_iff (events : List Event) : (∀ xs ys, events = xs ++ ys →
      (∀ t, ((run xs).thread t).phase = .returned → ∀ sessionId,
        (run xs).shared.sessions.lookup sessionId ≠ some ((run xs).thread t).key) ∧
      ∀ sessionId key, (run xs).shared.sessions.lookup sessionId = some key →
        key ∈ (run xs).shared.connections) ↔
    Runs.Along step SubscribesInTime start events := by
  constructor
  · intro hall
    rw [Runs.along_iff_forall_split]
    intro xs e ys hsp t sessionId he hph
    change ((run xs).thread t).phase = .receiving at hph
    by_contra hgn
    rw [Bool.not_eq_false] at hgn
    have hlf := ((holds_run xs).1.2 t).of_gone hgn
    have hnx : (run (xs ++ [e])).shared =
        (run xs).shared.subscribe ((run xs).thread t).key sessionId := by
      have hst : run (xs ++ [e]) = step (run xs) e := Runs.run_append xs [e]
      rw [hst, he]
      simp [step, Interleaving.step, act, hph]
    have hmm := (hall (xs ++ [e]) ys (by simp [hsp])).2 sessionId ((run xs).thread t).key
    rw [hnx, State.subscribe, Table.lookup_insert_ite, if_pos rfl] at hmm
    exact hlf.gone (hmm rfl)
  · intro hin xs ys hsp
    rw [hsp, Runs.along_append] at hin
    have hrg := registered_run hin.1
    refine ⟨?_, hrg⟩
    intro t hph sessionId hkey
    have hlf := ((holds_run xs).1.2 t).of_returned hph
    exact hlf.gone (hrg sessionId _ hkey)

/-- An event cannot be sent, the writer ends, and the next invocation creates a
session. -/
theorem session_created_after_failed_send :
    let events : List Event := [.act 0 .claim, .act 0 .enter, .act 0 (.subscribe "term-1"),
      .surroundings (.lookup 0 ⟨"term-1", .null⟩), .surroundings (.enqueue 0),
      .act 0 (.poll false), .act 0 (.sent false), .act 0 .finish, .act 0 .drop,
      .act 0 (.subscribe "term-2"), .act 0 .leave, .act 0 .join]
    (run events).thread 0 = ⟨.returned, .done, 1⟩ ∧
      (run events).shared.sessions.lookup "term-2" = some 1 ∧
      1 ∉ (run events).shared.connections := by
  decide +kernel

end DshDesktop.Daemon.Subscriptions
