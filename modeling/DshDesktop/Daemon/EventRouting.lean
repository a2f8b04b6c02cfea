import DshDesktop.Library.Table
import DshDesktop.Library.Json
import Mathlib.Data.Finset.Basic
import DshDesktop.Library.Runs

/-!
# The event router

`crates/daemon/src/events.rs`: every session has at most one subscriber, the connection that
created it, and every connection a bounded queue. `Routing` has the steps in which other
threads can intervene: `register` takes a key and then enters its queue, `publish` looks the
queue up and sends to it later. A queue is named by the key of its connection and outlives
its entry. Over all interleavings an event in a queue was looked up for its session and that
connection, a connection that has left gets no event of a later publish, and the events of
one thread keep their order.
-/

namespace DshDesktop.Daemon

structure RouterEvent where
  sessionId : String
  body : Json

structure EventRouter where
  nextConnection : ℕ
  sessions : Table String ℕ
  connections : Table ℕ (List RouterEvent)

namespace EventRouter

def eventQueueCapacity : ℕ := 256

def spawn : EventRouter := ⟨0, ∅, ∅⟩

def register (r : EventRouter) : ℕ × EventRouter :=
  let key := r.nextConnection + 1
  (key, { r with nextConnection := key, connections := r.connections.insert key [] })

def subscribe (r : EventRouter) (key : ℕ) (sessionId : String) : EventRouter :=
  { r with sessions := r.sessions.insert sessionId key }

def unsubscribe (r : EventRouter) (key : ℕ) (sessionId : String) : EventRouter :=
  if r.sessions.lookup sessionId = some key then
    { r with sessions := r.sessions.erase sessionId }
  else r

def publish (r : EventRouter) (event : RouterEvent) : EventRouter :=
  match r.sessions.lookup event.sessionId with
  | none => r
  | some key =>
    { r with connections := r.connections.mapVal fun k queue =>
        if k = key ∧ queue.length < eventQueueCapacity then queue ++ [event] else queue }

def unsubscribeAll (r : EventRouter) (key : ℕ) : EventRouter :=
  { r with
    connections := r.connections.erase key
    sessions := r.sessions.retain fun _ owner => owner ≠ key }

def Unsubscribed (r : EventRouter) (key : ℕ) : Prop :=
  ∀ sessionId, r.sessions.lookup sessionId ≠ some key

variable {r : EventRouter} {key k : ℕ} {sessionId : String}

theorem unsubscribeAll_unsubscribed (r : EventRouter) (key : ℕ) :
    (r.unsubscribeAll key).Unsubscribed key := by
  intro sessionId h
  have hrt := (Table.lookup_retain_some.mp h).2
  simp at hrt

variable (h : r.Unsubscribed key)
include h

theorem Unsubscribed.register : r.register.2.Unsubscribed key := h

theorem Unsubscribed.subscribe (hk : k ≠ key) : (r.subscribe k sessionId).Unsubscribed key := by
  intro s hs
  rw [EventRouter.subscribe, Table.lookup_insert_ite] at hs
  split_ifs at hs
  · exact hk (Option.some.inj hs)
  · exact h s hs

theorem Unsubscribed.unsubscribe : (r.unsubscribe k sessionId).Unsubscribed key := by
  intro s hs
  simp only [EventRouter.unsubscribe] at hs
  split_ifs at hs
  · rw [Table.lookup_erase_ite] at hs
    split_ifs at hs
    exact h s hs
  · exact h s hs

theorem Unsubscribed.publish (ev : RouterEvent) : (r.publish ev).Unsubscribed key := by
  simp only [EventRouter.publish]
  split
  · exact h
  · exact h

theorem Unsubscribed.unsubscribeAll : (r.unsubscribeAll k).Unsubscribed key := by
  intro s hs
  exact h s (Table.lookup_retain_some.mp hs).1

end EventRouter
end DshDesktop.Daemon

namespace DshDesktop.Daemon.Routing
open Finset List Option Function

structure Placed where
  event : RouterEvent
  thread : ℕ
  number : ℕ

structure Sending where
  item : Placed
  key : ℕ

structure State where
  nextConnection : ℕ
  sessions : Table String ℕ
  connections : Finset ℕ
  /-- Keys that were taken and whose queue is not entered yet. -/
  claimed : Finset ℕ
  /-- Keys of the subscribers that `register` has returned. -/
  handles : Finset ℕ
  /-- Keys whose subscriber, and with it the receiver, is gone. -/
  closed : Finset ℕ
  queues : ℕ → List Placed
  placed : ℕ → List Placed
  started : ℕ → ℕ
  sending : ℕ → Option Sending

def State.spawn : State where
  nextConnection := 0
  sessions := ∅
  connections := ∅
  claimed := ∅
  handles := ∅
  closed := ∅
  queues _ := []
  placed _ := []
  started _ := 0
  sending _ := none

inductive Op
  | claim
  | enter (key : ℕ)
  | subscribe (key : ℕ) (sessionId : String)
  | unsubscribe (key : ℕ) (sessionId : String)
  | unsubscribeAll (key : ℕ)
  | lookup (thread : ℕ) (event : RouterEvent)
  | enqueue (thread : ℕ)
  | receive (key : ℕ)
  | close (key : ℕ)

namespace State
variable (s : State)

def claim : State :=
  { s with
    nextConnection := s.nextConnection + 1
    claimed := insert (s.nextConnection + 1) s.claimed }

def enter (key : ℕ) : State :=
  if key ∈ s.claimed then { s with
    claimed := s.claimed.erase key
    connections := insert key s.connections
    handles := insert key s.handles }
  else s

def subscribe (key : ℕ) (sessionId : String) : State :=
  { s with sessions := s.sessions.insert sessionId key }

def unsubscribe (key : ℕ) (sessionId : String) : State :=
  if s.sessions.lookup sessionId = some key then
    { s with sessions := s.sessions.erase sessionId }
  else s

def unsubscribeAll (key : ℕ) : State :=
  if key ∈ s.handles then { s with
    connections := s.connections.erase key
    sessions := s.sessions.retain fun _ owner => owner ≠ key }
  else s

/-- The sender that `publish` finds under the lock. -/
def sender (event : RouterEvent) : Option ℕ :=
  (s.sessions.lookup event.sessionId).filter fun key => key ∈ s.connections

/-- A thread publishes one event after the other. -/
def lookup (thread : ℕ) (event : RouterEvent) : State :=
  if (s.sending thread).isSome then s
  else { s with
    started := update s.started thread (s.started thread + 1)
    sending := update s.sending thread
      ((s.sender event).map fun key => ⟨⟨event, thread, s.started thread⟩, key⟩) }

def deliver (p : Sending) : State :=
  if p.key ∉ s.closed ∧ (s.queues p.key).length < EventRouter.eventQueueCapacity then
    { s with
      queues := update s.queues p.key (s.queues p.key ++ [p.item])
      placed := update s.placed p.key (s.placed p.key ++ [p.item]) }
  else s

def enqueue (thread : ℕ) : State :=
  match s.sending thread with
  | none => s
  | some p => { s with sending := update s.sending thread none }.deliver p

def receive (key : ℕ) : State :=
  { s with queues := update s.queues key (s.queues key).tail }

def close (key : ℕ) : State :=
  if key ∈ s.handles then { s with
    closed := insert key s.closed
    queues := update s.queues key [] }
  else s

def step : Op → State
  | .claim => s.claim
  | .enter key => s.enter key
  | .subscribe key sessionId => s.subscribe key sessionId
  | .unsubscribe key sessionId => s.unsubscribe key sessionId
  | .unsubscribeAll key => s.unsubscribeAll key
  | .lookup thread event => s.lookup thread event
  | .enqueue thread => s.enqueue thread
  | .receive key => s.receive key
  | .close key => s.close key

end State

def run (ops : List Op) : State := Runs.run State.step .spawn ops

theorem run_append_singleton (ops : List Op) (op : Op) : run (ops ++ [op]) = (run ops).step op := by
  rw [run, Runs.run_append]
  rfl

variable {key : ℕ} (s : State) (thread : ℕ) (event : RouterEvent)

structure Quiet (s s' : State) : Prop where
  started : s'.started = s.started
  sending : s'.sending = s.sending
  placed : s'.placed = s.placed
  queues : ∀ key, s'.queues key <:+ s.queues key

inductive Stepped (s : State) : Op → State → Prop
  | quiet {op : Op} {s' : State} : (∀ thread event, op ≠ .lookup thread event) → Quiet s s' →
      Stepped s op s'
  | busy (thread : ℕ) (event : RouterEvent) : Stepped s (.lookup thread event) s
  | started (thread : ℕ) (event : RouterEvent) (sending : Option Sending) :
      s.sending thread = none →
      (∀ p, sending = some p → p.item = ⟨event, thread, s.started thread⟩ ∧
        s.sessions.lookup event.sessionId = some p.key ∧ p.key ∈ s.connections) →
      Stepped s (.lookup thread event) { s with
        started := update s.started thread (s.started thread + 1)
        sending := update s.sending thread sending }
  | dropped (thread : ℕ) (p : Sending) : s.sending thread = some p →
      Stepped s (.enqueue thread) { s with sending := update s.sending thread none }
  | delivered (thread : ℕ) (p : Sending) : s.sending thread = some p →
      Stepped s (.enqueue thread) { s with
        sending := update s.sending thread none
        queues := update s.queues p.key (s.queues p.key ++ [p.item])
        placed := update s.placed p.key (s.placed p.key ++ [p.item]) }

theorem sender_some {s : State} {event : RouterEvent} (h : s.sender event = some key) :
    s.sessions.lookup event.sessionId = some key ∧ key ∈ s.connections := by
  rw [State.sender, filter_eq_some_iff, decide_eq_true_iff] at h
  exact h

theorem quiet_refl : Quiet s s := ⟨rfl, rfl, rfl, fun _ => suffix_rfl⟩

theorem lookup_stepped : Stepped s (.lookup thread event) (s.lookup thread event) := by
  unfold State.lookup
  split_ifs with hbs
  · exact .busy thread event
  rw [Bool.not_eq_true, isSome_eq_false_iff, isNone_iff_eq_none] at hbs
  refine .started thread event _ hbs ?_
  intro p hp
  obtain ⟨key, hkey, rfl⟩ := map_eq_some_iff.mp hp
  exact ⟨rfl, sender_some hkey⟩

theorem enqueue_stepped : Stepped s (.enqueue thread) (s.enqueue thread) := by
  unfold State.enqueue
  cases hsn : s.sending thread with
  | none => exact .quiet (by simp) (quiet_refl s)
  | some p =>
    dsimp only
    unfold State.deliver
    split_ifs
    · exact .delivered thread p hsn
    · exact .dropped thread p hsn

theorem suffix_update {queues : ℕ → List Placed} {queue : List Placed} (h : queue <:+ queues key)
    (k : ℕ) : update queues key queue k <:+ queues k := by
  by_cases hk : k = key
  · rw [hk, update_self]
    exact h
  · rw [update_of_ne hk]

theorem step_stepped (op : Op) : Stepped s op (s.step op) := by
  cases op with
  | claim | subscribe key sid =>
    exact .quiet (by simp) ⟨rfl, rfl, rfl, fun _ => suffix_rfl⟩
  | enter key =>
    refine .quiet (by simp) ?_
    unfold State.step State.enter
    dsimp only
    split_ifs
    · exact ⟨rfl, rfl, rfl, fun _ => suffix_rfl⟩
    · exact quiet_refl s
  | unsubscribe key sid =>
    refine .quiet (by simp) ?_
    unfold State.step State.unsubscribe
    dsimp only
    split_ifs
    · exact ⟨rfl, rfl, rfl, fun _ => suffix_rfl⟩
    · exact quiet_refl s
  | unsubscribeAll key =>
    refine .quiet (by simp) ?_
    unfold State.step State.unsubscribeAll
    dsimp only
    split_ifs
    · exact ⟨rfl, rfl, rfl, fun _ => suffix_rfl⟩
    · exact quiet_refl s
  | lookup thread event => exact lookup_stepped s thread event
  | enqueue thread => exact enqueue_stepped s thread
  | receive key =>
    exact .quiet (by simp) ⟨rfl, rfl, rfl, suffix_update (tail_suffix _)⟩
  | close key =>
    refine .quiet (by simp) ?_
    unfold State.step State.close
    dsimp only
    split_ifs
    · exact ⟨rfl, rfl, rfl, suffix_update (nil_suffix)⟩
    · exact quiet_refl s

structure Keys (s : State) : Prop where
  handed : s.connections ⊆ s.handles
  apart : ∀ key ∈ s.claimed, key ∉ s.handles
  claimed_le : ∀ key ∈ s.claimed, key ≤ s.nextConnection
  handles_le : ∀ key ∈ s.handles, key ≤ s.nextConnection

structure SameKeys (s s' : State) : Prop where
  nextConnection : s'.nextConnection = s.nextConnection
  connections : s'.connections = s.connections
  claimed : s'.claimed = s.claimed
  handles : s'.handles = s.handles

theorem sameKeys_lookup : SameKeys s (s.lookup thread event) := by
  unfold State.lookup
  split_ifs
  · exact ⟨rfl, rfl, rfl, rfl⟩
  · exact ⟨rfl, rfl, rfl, rfl⟩

theorem sameKeys_enqueue : SameKeys s (s.enqueue thread) := by
  unfold State.enqueue
  cases s.sending thread with
  | none => exact ⟨rfl, rfl, rfl, rfl⟩
  | some p =>
    dsimp only
    unfold State.deliver
    split_ifs
    · exact ⟨rfl, rfl, rfl, rfl⟩
    · exact ⟨rfl, rfl, rfl, rfl⟩

theorem sameKeys_unsubscribe (key : ℕ) (sid : String) : SameKeys s (s.unsubscribe key sid) := by
  unfold State.unsubscribe
  split_ifs
  · exact ⟨rfl, rfl, rfl, rfl⟩
  · exact ⟨rfl, rfl, rfl, rfl⟩

theorem sameKeys_close (key : ℕ) : SameKeys s (s.close key) := by
  unfold State.close
  split_ifs
  · exact ⟨rfl, rfl, rfl, rfl⟩
  · exact ⟨rfl, rfl, rfl, rfl⟩

variable {s s' : State}

section
variable (hs : Keys s)
include hs

theorem Keys.same (h : SameKeys s s') : Keys s' where
  handed := by
    rw [h.connections, h.handles]
    exact hs.handed
  apart := by
    rw [h.claimed, h.handles]
    exact hs.apart
  claimed_le := by
    rw [h.claimed, h.nextConnection]
    exact hs.claimed_le
  handles_le := by
    rw [h.handles, h.nextConnection]
    exact hs.handles_le

theorem Keys.claim : Keys s.claim where
  handed := hs.handed
  apart k hk hmem := by
    rcases mem_insert.mp hk with hnew | hold
    · have hle := hs.handles_le k hmem
      omega
    · exact hs.apart k hold hmem
  claimed_le k hk := by
    show k ≤ s.nextConnection + 1
    rcases mem_insert.mp hk with hnew | hold
    · omega
    · have hle := hs.claimed_le k hold
      omega
  handles_le k hk := Nat.le_succ_of_le (hs.handles_le k hk)

theorem Keys.enter (key : ℕ) : Keys (s.enter key) := by
  unfold State.enter
  split_ifs with hclaim
  · refine ⟨insert_subset_insert key hs.handed, ?_, ?_, ?_⟩
    · intro k hk hmem
      obtain ⟨hne, hin⟩ := mem_erase.mp hk
      rcases mem_insert.mp hmem with hnew | hold
      · exact hne hnew
      · exact hs.apart k hin hold
    · intro k hk
      exact hs.claimed_le k (mem_of_mem_erase hk)
    · intro k hk
      rcases mem_insert.mp hk with hnew | hold
      · rw [hnew]
        exact hs.claimed_le key hclaim
      · exact hs.handles_le k hold
  · exact hs

theorem Keys.unsubscribeAll (key : ℕ) : Keys (s.unsubscribeAll key) := by
  unfold State.unsubscribeAll
  split_ifs
  · exact ⟨(erase_subset key _).trans hs.handed, hs.apart, hs.claimed_le, hs.handles_le⟩
  · exact hs

theorem Keys.step (op : Op) : Keys (s.step op) := by
  cases op with
  | claim => exact hs.claim
  | enter key => exact hs.enter key
  | subscribe key sid | receive key => exact hs.same ⟨rfl, rfl, rfl, rfl⟩
  | unsubscribe key sid => exact hs.same (sameKeys_unsubscribe s key sid)
  | unsubscribeAll key => exact hs.unsubscribeAll key
  | lookup thread event => exact hs.same (sameKeys_lookup s thread event)
  | enqueue thread => exact hs.same (sameKeys_enqueue s thread)
  | close key => exact hs.same (sameKeys_close s key)

end

theorem keys_run (ops : List Op) : Keys (run ops) :=
  Runs.run_invariant Keys (fun _ op hs => hs.step op) ops
    ⟨Finset.Subset.refl _, fun _ h => absurd h (notMem_empty _),
      fun _ h => absurd h (notMem_empty _), fun _ h => absurd h (notMem_empty _)⟩

structure Left (s : State) (key : ℕ) : Prop where
  handed : key ∈ s.handles
  gone : key ∉ s.connections

theorem Left.same (hl : Left s key) (h : SameKeys s s') : Left s' key :=
  ⟨h.handles.symm ▸ hl.handed, h.connections.symm ▸ hl.gone⟩

theorem left_unsubscribeAll (hkey : key ∈ s.handles) : Left (s.unsubscribeAll key) key := by
  rw [State.unsubscribeAll, if_pos hkey]
  exact ⟨hkey, notMem_erase key _⟩

theorem Left.step (hl : Left s key) (hs : Keys s) (op : Op) : Left (s.step op) key := by
  cases op with
  | claim | subscribe k sid | receive k => exact ⟨hl.handed, hl.gone⟩
  | enter k =>
    show Left (s.enter k) key
    unfold State.enter
    split_ifs with hclaim
    · refine ⟨mem_insert_of_mem hl.handed, ?_⟩
      intro hin
      rcases mem_insert.mp hin with hnew | hold
      · exact hs.apart k hclaim (hnew ▸ hl.handed)
      · exact hl.gone hold
    · exact hl
  | unsubscribe k sid => exact hl.same (sameKeys_unsubscribe s k sid)
  | unsubscribeAll k =>
    show Left (s.unsubscribeAll k) key
    unfold State.unsubscribeAll
    split_ifs
    · exact ⟨hl.handed, fun hin => hl.gone (mem_of_mem_erase hin)⟩
    · exact hl
  | lookup thread event => exact hl.same (sameKeys_lookup s thread event)
  | enqueue thread => exact hl.same (sameKeys_enqueue s thread)
  | close k => exact hl.same (sameKeys_close s k)

variable {thread key t : ℕ} {p : Sending} {f : ℕ → Option Sending} {sending : Option Sending}
  {ops : List Op}

structure Ordered (s : State) : Prop where
  thread : ∀ t p, s.sending t = some p → p.item.thread = t
  last : ∀ t p, s.sending t = some p → p.item.number + 1 = s.started t
  later : ∀ t p, s.sending t = some p → ∀ key, ∀ q ∈ s.placed key, q.thread = t →
    q.number < p.item.number
  past : ∀ key, ∀ q ∈ s.placed key, q.number < s.started q.thread
  order : ∀ key, (s.placed key).Pairwise fun p q => p.thread = q.thread → p.number < q.number
  waiting : ∀ key, s.queues key <:+ s.placed key

theorem ordered_spawn : Ordered .spawn where
  thread _ _ h := by cases h
  last _ _ h := by cases h
  later _ _ h := by cases h
  past _ _ h := by cases h
  order _ := List.Pairwise.nil
  waiting _ := suffix_rfl

section
variable {s s' : State} {op : Op}

theorem update_eq_some (h : update f thread sending t = some p) :
    t = thread ∧ sending = some p ∨ t ≠ thread ∧ f t = some p := by
  by_cases ht : t = thread
  · rw [ht, update_self] at h
    exact .inl ⟨ht, h⟩
  · rw [update_of_ne ht] at h
    exact .inr ⟨ht, h⟩

theorem update_none_eq_some (h : update f thread none t = some p) :
    t ≠ thread ∧ f t = some p := by
  rcases update_eq_some h with ⟨-, hnn⟩ | hot
  · cases hnn
  · exact hot

theorem Ordered.quiet (ho : Ordered s) (hq : Quiet s s') : Ordered s' where
  thread := by
    rw [hq.sending]
    exact ho.thread
  last := by
    rw [hq.sending, hq.started]
    exact ho.last
  later := by
    rw [hq.sending, hq.placed]
    exact ho.later
  past := by
    rw [hq.placed, hq.started]
    exact ho.past
  order := by
    rw [hq.placed]
    exact ho.order
  waiting key := by
    rw [hq.placed]
    exact (hq.queues key).trans (ho.waiting key)

theorem Ordered.idle (ho : Ordered s) (thread : ℕ) :
    Ordered { s with sending := update s.sending thread none } where
  thread t p hp := ho.thread t p (update_none_eq_some hp).2
  last t p hp := ho.last t p (update_none_eq_some hp).2
  later t p hp := ho.later t p (update_none_eq_some hp).2
  past := ho.past
  order := ho.order
  waiting := ho.waiting

theorem Ordered.started {ev : RouterEvent} (ho : Ordered s)
    (hie : ∀ p, sending = some p → p.item = ⟨ev, thread, s.started thread⟩) :
    Ordered { s with
      started := update s.started thread (s.started thread + 1)
      sending := update s.sending thread sending } := by
  refine ⟨?_, ?_, ?_, ?_, ho.order, ho.waiting⟩
  · intro t p hp
    rcases update_eq_some hp with ⟨ht, hown⟩ | ⟨-, hot⟩
    · rw [hie p hown, ht]
    · exact ho.thread t p hot
  · intro t p hp
    dsimp only
    rcases update_eq_some hp with ⟨ht, hown⟩ | ⟨ht, hot⟩
    · rw [hie p hown, ht, update_self]
    · rw [update_of_ne ht]
      exact ho.last t p hot
  · intro t p hp key q hq hqt
    rcases update_eq_some hp with ⟨ht, hown⟩ | ⟨-, hot⟩
    · have hps := ho.past key q hq
      rw [hie p hown]
      rwa [hqt, ht] at hps
    · exact ho.later t p hot key q hq hqt
  · intro key q hq
    dsimp only
    have hps := ho.past key q hq
    by_cases ht : q.thread = thread
    · rw [ht, update_self]
      rw [ht] at hps
      omega
    · rw [update_of_ne ht]
      exact hps

theorem mem_update_append {placed : ℕ → List Placed} {k : ℕ} {item q : Placed}
    (hq : q ∈ update placed k (placed k ++ [item]) key) :
    q ∈ placed key ∨ key = k ∧ q = item := by
  by_cases hk : key = k
  · rw [hk, update_self, mem_append, List.mem_singleton] at hq
    rw [hk]
    exact hq.imp_right fun heq => ⟨rfl, heq⟩
  · rw [update_of_ne hk] at hq
    exact .inl hq

theorem Ordered.delivered (ho : Ordered s) (hp : s.sending thread = some p) :
    Ordered { s with
      sending := update s.sending thread none
      queues := update s.queues p.key (s.queues p.key ++ [p.item])
      placed := update s.placed p.key (s.placed p.key ++ [p.item]) } := by
  have hil := ho.idle thread
  have hth := ho.thread thread p hp
  refine ⟨hil.thread, hil.last, ?_, ?_, ?_, ?_⟩
  · intro t p' hp' key q hq hqt
    rcases mem_update_append hq with hold | ⟨-, hnew⟩
    · exact hil.later t p' hp' key q hold hqt
    · -- The thread of the new item has no publish under way any more.
      rw [hnew, hth] at hqt
      exact absurd hqt.symm (update_none_eq_some hp').1
  · intro key q hq
    rcases mem_update_append hq with hold | ⟨-, hnew⟩
    · exact ho.past key q hold
    · have hlast := ho.last thread p hp
      rw [hnew, hth]
      show p.item.number < s.started thread
      omega
  · intro key
    dsimp only
    by_cases hk : key = p.key
    · rw [hk, update_self, pairwise_append]
      refine ⟨ho.order p.key, pairwise_singleton _ _, ?_⟩
      intro q hq q' hq' heq
      rw [List.mem_singleton.mp hq'] at heq ⊢
      exact ho.later thread p hp p.key q hq (heq.trans hth)
    · rw [update_of_ne hk]
      exact ho.order key
  · intro key
    dsimp only
    by_cases hk : key = p.key
    · rw [hk, update_self, update_self]
      obtain ⟨front, hfr⟩ := ho.waiting p.key
      exact ⟨front, by rw [← append_assoc, hfr]⟩
    · rw [update_of_ne hk, update_of_ne hk]
      exact ho.waiting key

theorem Ordered.stepped (ho : Ordered s) (h : Stepped s op s') : Ordered s' := by
  cases h with
  | quiet _ hq => exact ho.quiet hq
  | busy => exact ho
  | started thread ev sending _ hsn =>
    exact ho.started fun p hp => (hsn p hp).1
  | dropped thread p hp => exact ho.idle thread
  | delivered thread p hp => exact ho.delivered hp

theorem ordered_run : Ordered (run ops) :=
  Runs.run_invariant Ordered (fun s op ho => ho.stepped (step_stepped s op)) ops ordered_spawn

end

def LookedUp (ops : List Op) (item : Placed) (key : ℕ) : Prop :=
  ∃ xs ys, ops = xs ++ .lookup item.thread item.event :: ys ∧
    (run xs).started item.thread = item.number ∧
    (run xs).sessions.lookup item.event.sessionId = some key ∧ key ∈ (run xs).connections

structure Traced (ops : List Op) (s : State) : Prop where
  sending : ∀ t p, s.sending t = some p → LookedUp ops p.item p.key
  placed : ∀ key, ∀ q ∈ s.placed key, LookedUp ops q key

theorem LookedUp.append {item : Placed} (h : LookedUp ops item key) (op : Op) :
    LookedUp (ops ++ [op]) item key := by
  obtain ⟨xs, ys, rfl, hrs⟩ := h
  exact ⟨xs, ys ++ [op], by simp, hrs⟩

theorem Traced.stepped {op : Op} {s' : State} (ht : Traced ops (run ops))
    (h : Stepped (run ops) op s') : Traced (ops ++ [op]) s' := by
  have hsn : ∀ t p, (run ops).sending t = some p → LookedUp (ops ++ [op]) p.item p.key :=
    fun t p hp => (ht.sending t p hp).append op
  have hpl : ∀ key, ∀ q ∈ (run ops).placed key, LookedUp (ops ++ [op]) q key :=
    fun key q hq => (ht.placed key q hq).append op
  have hil : ∀ thread t p, update (run ops).sending thread none t = some p →
      LookedUp (ops ++ [op]) p.item p.key :=
    fun thread t p hp => hsn t p (update_none_eq_some hp).2
  cases h with
  | quiet _ hq =>
    refine ⟨?_, ?_⟩
    · rw [hq.sending]
      exact hsn
    · rw [hq.placed]
      exact hpl
  | busy => exact ⟨hsn, hpl⟩
  | started thread ev sending _ hget =>
    refine ⟨?_, hpl⟩
    intro t p hp
    rcases update_eq_some hp with ⟨-, hown⟩ | ⟨-, hot⟩
    · obtain ⟨hie, hsb, hreg⟩ := hget p hown
      rw [hie]
      exact ⟨ops, [], rfl, rfl, hsb, hreg⟩
    · exact hsn t p hot
  | dropped thread p hp => exact ⟨hil thread, hpl⟩
  | delivered thread p hp =>
    refine ⟨hil thread, ?_⟩
    intro key q hq
    rcases mem_update_append hq with hold | ⟨hkey, hnew⟩
    · exact hpl key q hold
    · rw [hkey, hnew]
      exact hsn thread p hp

theorem traced_run : Traced ops (run ops) := by
  induction ops using reverseRecOn with
  | nil =>
    refine ⟨?_, ?_⟩
    · intro t p hp
      cases hp
    · intro key q hq
      cases hq
  | append_singleton ops op ih =>
    rw [run_append_singleton]
    exact ih.stepped (step_stepped (run ops) op)

structure Retired (bound : ℕ → ℕ) (key : ℕ) (s : State) : Prop where
  left : Left s key
  sending : ∀ t p, s.sending t = some p → p.key = key → p.item.number < bound p.item.thread
  placed : ∀ q ∈ s.placed key, q.number < bound q.thread

theorem retired_unsubscribeAll {s : State} (ho : Ordered s) (hkey : key ∈ s.handles) :
    Retired s.started key (s.unsubscribeAll key) := by
  refine ⟨left_unsubscribeAll hkey, ?_, ?_⟩
  · rw [State.unsubscribeAll, if_pos hkey]
    intro t p hp _
    have hlast := ho.last t p hp
    rw [ho.thread t p hp]
    omega
  · rw [State.unsubscribeAll, if_pos hkey]
    exact ho.past key

theorem Retired.step {bound : ℕ → ℕ} {s : State} (hr : Retired bound key s) (hs : Keys s)
    (op : Op) : Retired bound key (s.step op) := by
  have hlf := hr.left.step hs op
  have hst := step_stepped s op
  generalize s.step op = s' at hlf hst ⊢
  have hil : ∀ thread t p, update s.sending thread none t = some p → p.key = key →
      p.item.number < bound p.item.thread :=
    fun thread t p hp => hr.sending t p (update_none_eq_some hp).2
  cases hst with
  | quiet _ hq =>
    refine ⟨hlf, ?_, ?_⟩
    · rw [hq.sending]
      exact hr.sending
    · rw [hq.placed]
      exact hr.placed
  | busy => exact hr
  | started thread ev sending _ hget =>
    refine ⟨hlf, ?_, hr.placed⟩
    intro t p hp hkey
    rcases update_eq_some hp with ⟨-, hown⟩ | ⟨-, hot⟩
    · -- The queue of a connection that has left is not found.
      exact absurd (hkey ▸ (hget p hown).2.2) hr.left.gone
    · exact hr.sending t p hot hkey
  | dropped thread p hp => exact ⟨hlf, hil thread, hr.placed⟩
  | delivered thread p hp =>
    refine ⟨hlf, hil thread, ?_⟩
    intro q hq
    rcases mem_update_append hq with hold | ⟨hkey, hnew⟩
    · exact hr.placed q hold
    · rw [hnew]
      exact hr.sending thread p hp hkey.symm

theorem retired_run {ys : List Op} {xs : List Op} (hkey : key ∈ (run xs).handles) :
    Retired (run xs).started key (run (xs ++ .unsubscribeAll key :: ys)) := by
  have hsp : run (xs ++ .unsubscribeAll key :: ys) =
      Runs.run State.step ((run xs).unsubscribeAll key) ys := by
    rw [run, Runs.run_append]
    rfl
  rw [hsp]
  have hkeys : Keys ((run xs).unsubscribeAll key) := (keys_run xs).unsubscribeAll key
  have hbt := Runs.run_invariant (fun s => Keys s ∧ Retired (run xs).started key s)
    (fun s op h => ⟨h.1.step op, h.2.step h.1 op⟩) ys
    ⟨hkeys, retired_unsubscribeAll ordered_run hkey⟩
  exact hbt.2

/-- Events do not cross sessions or connections, in any interleaving of the
router's steps. -/
theorem events_do_not_cross (ops : List Op) : (∀ key, ∀ p ∈ (run ops).placed key, ∃ xs ys,
      ops = xs ++ .lookup p.thread p.event :: ys ∧ (run xs).started p.thread = p.number ∧
      (run xs).sessions.lookup p.event.sessionId = some key) ∧
    (∀ key sessionId, (run ops).sessions.lookup sessionId ≠ some key →
      run (ops ++ [.unsubscribe key sessionId]) = run ops) ∧
    (∀ key, key ∈ (run ops).handles → ∀ rest,
      ∀ p ∈ (run (ops ++ .unsubscribeAll key :: rest)).placed key,
        p.number < (run ops).started p.thread) ∧
    (∀ key, (run ops).queues key <:+ (run ops).placed key ∧
      ((run ops).placed key).Pairwise fun p q => p.thread = q.thread → p.number < q.number) := by
  refine ⟨?_, ?_, ?_, ?_⟩
  · intro key p hp
    obtain ⟨xs, ys, hops, hnm, hsb, -⟩ := traced_run.placed key p hp
    exact ⟨xs, ys, hops, hnm, hsb⟩
  · intro key sessionId hot
    rw [run_append_singleton]
    exact if_neg hot
  · intro key hkey rest
    exact (retired_run hkey).placed
  · intro key
    exact ⟨ordered_run.waiting key, ordered_run.order key⟩

end DshDesktop.Daemon.Routing
