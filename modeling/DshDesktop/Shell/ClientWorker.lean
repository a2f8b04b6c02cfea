import DshDesktop.Daemon.Envelope
import DshDesktop.Library.BoundedQueue
import DshDesktop.Library.Runs
import DshDesktop.Library.Table
import DshDesktop.Transport.Framing

/-!
# The worker of the daemon client

`worker_loop` of `daemon_client.rs`: a turn of the loop sends what callers have queued, then
reads at most one frame. An invocation waits on a reply channel; a caller whose sender is
dropped fails. A closed stream and a quiet one look the same to `recv_timeout`.
-/

namespace DshDesktop.Shell.ClientWorker
open Daemon Transport List

def eventQueueCapacity : ℕ := 512

inductive Answer
  | result (envelope : Envelope)
  | transportClosed
  | disconnected

inductive ClientCommand
  | invoke (envelope : Envelope) (reply : ℕ)
  | abandon (id : String)

def ClientCommand.reply : ClientCommand → Option ℕ
  | .invoke _ reply => some reply
  | .abandon _ => none

structure Worker where
  incoming : List Delivery
  commands : List ClientCommand
  pending : Table String ℕ
  events : BoundedQueue Envelope eventQueueCapacity
  answers : List (ℕ × Answer)
  running : Bool

/-- What the surroundings decide in one turn: the stop flag, whether a sender of commands
is left, which invocations the connection takes, and whether its read timeout can be set. -/
structure Turn where
  stop : Bool
  connected : Bool
  send : ℕ → Bool
  timeoutSet : Bool

namespace Worker

def drop (w : Worker) (replies : List ℕ) : Worker :=
  { w with answers := w.answers ++ replies.map fun reply => (reply, .disconnected) }

def quit (w : Worker) : Worker :=
  { w.drop (w.pending.values ++ w.commands.filterMap ClientCommand.reply) with
    commands := []
    pending := ∅
    running := false }

def drain (t : Turn) (w : Worker) : List ClientCommand → Worker
  | [] =>
    let w := { w with commands := [] }
    if t.connected then w else w.quit
  | .invoke envelope reply :: queue =>
    if t.send reply then
      drain t { w.drop (w.pending.lookup envelope.id).toList with
        pending := w.pending.insert envelope.id reply } queue
    else
      quit { w with
        commands := queue
        answers := w.answers ++ [(reply, .transportClosed)] }
  | .abandon id :: queue =>
    drain t { w.drop (w.pending.lookup id).toList with pending := w.pending.erase id } queue

def dispatch (w : Worker) (envelope : Envelope) : Worker :=
  match envelope.kind with
  | .event => { w with events := (w.events.trySend envelope).2 }
  | .result =>
    match envelope.replyTo with
    | none => w
    | some id =>
      match w.pending.lookup id with
      | none => w
      | some reply =>
        { w with
          pending := w.pending.erase id
          answers := w.answers ++ [(reply, .result envelope)] }
  | _ => w

end Worker

def recvTimeout (max : ℕ) (timeoutSet : Bool) (incoming : List Delivery) :
    Except FrameReadError (Option Bytes) × List Delivery :=
  if timeoutSet = false then (.error (.io .failed), incoming)
  else
    match readFrame max incoming with
    | (.ok frame, rest) => (.ok frame, rest)
    | (.error (.io .timedOut), rest) => (.ok none, rest)
    | (.error e, rest) => (.error e, rest)

variable (max : ℕ) (fromSlice slc : Bytes → Option Envelope) {t : Turn}

namespace Worker

def turn (w : Worker) (t : Turn) : Worker :=
  if w.running = false then w
  else if t.stop then w.quit
  else
    let w := w.drain t w.commands
    if w.running = false then w
    else
      match recvTimeout max t.timeoutSet w.incoming with
      | (.error _, rest) => quit { w with incoming := rest }
      | (.ok none, rest) => { w with incoming := rest }
      | (.ok (some bytes), rest) =>
        match fromSlice bytes with
        | none => { w with incoming := rest }
        | some envelope => dispatch { w with incoming := rest } envelope

def Waiting (w : Worker) (reply : ℕ) : Prop :=
  (∃ id, w.pending.lookup id = some reply) ∨ reply ∈ w.commands.filterMap ClientCommand.reply

def Failed (w : Worker) (reply : ℕ) : Prop :=
  (reply, Answer.transportClosed) ∈ w.answers ∨ (reply, Answer.disconnected) ∈ w.answers

variable {w : Worker} {reply : ℕ}

theorem failed_drop {replies : List ℕ} (h : reply ∈ replies ∨ Failed w reply) :
    Failed (w.drop replies) reply := by
  rcases h with hdr | hsh | hds
  · exact .inr (mem_append_right _ (mem_map_of_mem hdr))
  · exact .inl (mem_append_left _ hsh)
  · exact .inr (mem_append_left _ hds)

theorem failed_quit (h : Waiting w reply ∨ Failed w reply) : Failed w.quit reply := by
  refine failed_drop (w := w) ?_
  rcases h with hpn | hfail
  · rcases hpn with hpn | hque
    · exact .inl (mem_append_left _ (Table.mem_values_iff.mpr hpn))
    · exact .inl (mem_append_right _ hque)
  · exact .inr hfail

theorem kept_table {pending : Table String ℕ} {id : String}
    (heq : ∀ other, other ≠ id → pending.lookup other = w.pending.lookup other)
    (h : (∃ other, w.pending.lookup other = some reply) ∨ Failed w reply) :
    (∃ other, pending.lookup other = some reply) ∨
      Failed (w.drop (w.pending.lookup id).toList) reply := by
  rcases h with ⟨other, hget⟩ | hfail
  · by_cases hid : other = id
    · subst hid
      exact .inr (failed_drop (.inl (by rw [hget]; exact mem_singleton_self reply)))
    · exact .inl ⟨other, (heq other hid).trans hget⟩
  · exact .inr (failed_drop (.inr hfail))

theorem kept_drain {queue : List ClientCommand}
    (h : ((∃ id, w.pending.lookup id = some reply) ∨ Failed w reply) ∨
      reply ∈ queue.filterMap ClientCommand.reply) :
    Waiting (w.drain t queue) reply ∨ Failed (w.drain t queue) reply := by
  induction queue generalizing w with
  | nil =>
    have hw : Waiting { w with commands := [] } reply ∨ Failed { w with commands := [] } reply := by
      rcases h with (hpn | hfail) | hque
      · exact .inl (.inl hpn)
      · exact .inr hfail
      · cases hque
    rw [drain]
    split_ifs
    · exact hw
    · exact .inr (failed_quit hw)
  | cons command queue ih =>
    cases command with
    | invoke env chan =>
      rw [drain]
      split_ifs with hsn
      · apply ih
        rcases h with hold | hque
        · refine .inl (kept_table (w := w) ?_ hold)
          intro other hot
          exact AList.lookup_insert_ne hot
        · have hca : reply ∈ chan :: queue.filterMap ClientCommand.reply := hque
          rcases mem_cons.mp hca with rfl | hque
          · exact .inl (.inl ⟨env.id, AList.lookup_insert _⟩)
          · exact .inr hque
      refine .inr (failed_quit ?_)
      rcases h with (hpn | hfail) | hque
      · exact .inl (.inl hpn)
      · exact .inr (hfail.imp (mem_append_left _) (mem_append_left _))
      · have hca : reply ∈ chan :: queue.filterMap ClientCommand.reply := hque
        rcases mem_cons.mp hca with rfl | hque
        · exact .inr (.inl (mem_append_right _ mem_cons_self))
        · exact .inl (.inr hque)
    | abandon id =>
      apply ih
      rcases h with hold | hque
      · refine .inl (kept_table (w := w) ?_ hold)
        intro other hot
        exact AList.lookup_erase_ne hot
      · exact .inr hque

def sends (t : Turn) (queue : List ClientCommand) : Bool :=
  (queue.filterMap ClientCommand.reply).all t.send

theorem drain_running (t : Turn) (queue : List ClientCommand) (hw : w.running) :
    (w.drain t queue).running = (sends t queue && t.connected) := by
  induction queue generalizing w with
  | nil =>
    rw [drain]
    cases t.connected with
    | true => exact hw
    | false => rfl
  | cons command queue ih =>
    cases command with
    | invoke env chan =>
      have hsn : sends t (.invoke env chan :: queue) = (t.send chan && sends t queue) := rfl
      rw [drain, hsn]
      cases hse : t.send chan with
      | true =>
        exact ih hw
      | false => rfl
    | abandon id => exact ih hw

theorem drain_rest (t : Turn) (queue : List ClientCommand) (w : Worker) :
    (w.drain t queue).incoming = w.incoming ∧ (w.drain t queue).commands = [] := by
  induction queue generalizing w with
  | nil =>
    rw [drain]
    split_ifs <;> exact ⟨rfl, rfl⟩
  | cons command queue ih =>
    cases command with
    | invoke env chan =>
      rw [drain]
      split_ifs
      · exact ih _
      · exact ⟨rfl, rfl⟩
    | abandon id => exact ih _

theorem recvTimeout_closed {timeoutSet : Bool} : recvTimeout max timeoutSet [] =
      (if timeoutSet = false then .error (.io .failed) else .ok none, []) := by
  cases timeoutSet with
  | false | true => rfl

def Unnoticed (w : Worker) (t : Turn) : Prop :=
  t.stop = false ∧ t.connected = true ∧ t.timeoutSet = true ∧ sends t w.commands = true

theorem turn_unnoticed (hrun : w.running) (hsh : w.incoming = []) (ht : Unnoticed w t) :
    w.turn max slc t = w.drain t w.commands ∧ (w.drain t w.commands).running := by
  obtain ⟨hst, hconn, hlt, hsn⟩ := ht
  have hdr : (w.drain t w.commands).running := by
    rw [drain_running t w.commands hrun, hsn, hconn]
    rfl
  have hinc : (w.drain t w.commands).incoming = [] := (drain_rest t w.commands w).1.trans hsh
  refine ⟨?_, hdr⟩
  unfold turn
  rw [if_neg (by simp [hrun]), if_neg (by simp [hst])]
  rw [if_neg (by simp [hdr]), hinc, recvTimeout_closed, hlt, ← hinc]
  rfl

theorem not_waiting_quit : ¬ Waiting w.quit reply := by
  intro h
  rcases h with ⟨id, hget⟩ | hque
  · cases hget
  · cases hque

theorem drain_quits {queue : List ClientCommand} (h : (w.drain t queue).running ≠ w.running) :
    ∃ v, w.drain t queue = quit v := by
  induction queue generalizing w with
  | nil =>
    rw [drain] at h ⊢
    cases hconn : t.connected with
    | true =>
      rw [hconn] at h
      exact absurd rfl h
    | false => exact ⟨_, rfl⟩
  | cons command queue ih =>
    cases command with
    | invoke env chan =>
      rw [drain] at h ⊢
      cases hsn : t.send chan with
      | true =>
        rw [hsn, if_pos rfl] at h
        exact ih h
      | false => exact ⟨_, rfl⟩
    | abandon id => exact ih h

theorem turn_noticed (hrun : w.running) (hsh : w.incoming = []) (ht : ¬ Unnoticed w t) :
    (w.turn max slc t).running = false ∧
      ∀ reply, Waiting w reply ∨ Failed w reply → Failed (w.turn max slc t) reply := by
  unfold turn
  rw [if_neg (by simp [hrun])]
  cases hst : t.stop with
  | true => exact ⟨rfl, fun reply => failed_quit⟩
  | false =>
    have hkp : ∀ reply, Waiting w reply ∨ Failed w reply →
        Waiting (w.drain t w.commands) reply ∨ Failed (w.drain t w.commands) reply := by
      intro reply h
      refine kept_drain ?_
      rcases h with (hpn | hque) | hfail
      · exact .inl (.inl hpn)
      · exact .inr hque
      · exact .inl (.inr hfail)
    by_cases hdr : (w.drain t w.commands).running = false
    · rw [if_pos hdr]
      refine ⟨hdr, fun reply h => ?_⟩
      have hdf : (w.drain t w.commands).running ≠ w.running := by simp [hdr, hrun]
      obtain ⟨v, hv⟩ := drain_quits hdf
      rcases hkp reply h with hwt | hfail
      · rw [hv] at hwt
        exact absurd hwt not_waiting_quit
      · exact hfail
    -- the queue was sent and a sender is left, so the read timeout cannot be set
    have hall := drain_running t w.commands hrun
    rw [eq_true_of_ne_false hdr, eq_comm, Bool.and_eq_true] at hall
    have hlt : t.timeoutSet = false := by
      by_contra hset
      exact ht ⟨hst, hall.2, eq_true_of_ne_false hset, hall.1⟩
    rw [if_neg hdr, (drain_rest ..).1, hsh, recvTimeout_closed, hlt]
    exact ⟨rfl, fun reply h => failed_quit (hkp reply h)⟩

def after (w : Worker) (turns : ℕ → Turn) (n : ℕ) : Worker :=
  Schedules.after (turn max fromSlice) w turns n

def EndsWithErrors (w : Worker) (turns : ℕ → Turn) : Prop :=
  ∃ n, (w.after max fromSlice turns n).running = false ∧
    ∀ reply, Waiting w reply → Failed (w.after max fromSlice turns n) reply

theorem after_succ {n : ℕ} (turns : ℕ → Turn) : w.after max slc turns (n + 1) =
      (w.after max slc turns n).turn max slc (turns n) := rfl

theorem after_closed (hrn : w.running) (hsh : w.incoming = []) (turns : ℕ → Turn) (n : ℕ) :
    ((w.after max slc turns n).running ∧ (w.after max slc turns n).incoming = [] ∧
        ∀ reply, Waiting w reply → Waiting (w.after max slc turns n) reply ∨
          Failed (w.after max slc turns n) reply) ∨
      (w.after max slc turns n).running = false ∧
        ∀ reply, Waiting w reply → Failed (w.after max slc turns n) reply := by
  induction n with
  | zero => exact .inl ⟨hrn, hsh, fun reply => .inl⟩
  | succ n ih =>
    rw [after_succ]
    rcases ih with ⟨hrun, hin, hkp⟩ | ⟨hlf, hfail⟩
    · by_cases ht : Unnoticed (w.after max slc turns n) (turns n)
      · obtain ⟨hturn, hdr⟩ := turn_unnoticed max slc hrun hin ht
        rw [hturn]
        refine .inl ⟨hdr, (drain_rest ..).1.trans hin, fun reply hrp => kept_drain ?_⟩
        rcases hkp reply hrp with (hpn | hque) | hfail
        · exact .inl (.inl hpn)
        · exact .inr hque
        · exact .inl (.inr hfail)
      · obtain ⟨hlf, hfail⟩ := turn_noticed max slc hrun hin ht
        exact .inr ⟨hlf, fun reply hrp => hfail reply (hkp reply hrp)⟩
    have heq : (w.after max slc turns n).turn max slc (turns n) = w.after max slc turns n := by
      unfold turn
      rw [if_pos hlf]
    rw [heq]
    exact .inr ⟨hlf, hfail⟩

theorem endsWithErrors_iff_left (hrn : w.running) (hsh : w.incoming = []) (turns : ℕ → Turn) :
    EndsWithErrors max slc w turns ↔ ∃ n, (w.after max slc turns n).running = false := by
  constructor
  · intro h
    obtain ⟨n, hlf, -⟩ := h
    exact ⟨n, hlf⟩
  · intro h
    obtain ⟨n, hlf⟩ := h
    rcases after_closed max slc hrn hsh turns n with ⟨hrun, -⟩ | hend
    · rw [hlf] at hrun
      cases hrun
    · exact ⟨n, hend⟩

def Quiet (t : Turn) : Prop := t.stop = false ∧ t.connected = true ∧ t.timeoutSet = true

theorem after_quiet (hrn : w.running) (hsh : w.incoming = []) (turns : ℕ → Turn)
    (hqt : ∀ n, Quiet (turns n)) (hsn : sends (turns 0) w.commands) (n : ℕ) :
    (w.after max slc turns n).running ∧ (w.after max slc turns n).incoming = [] ∧
      sends (turns n) (w.after max slc turns n).commands := by
  induction n with
  | zero => exact ⟨hrn, hsh, hsn⟩
  | succ n ih =>
    obtain ⟨hrun, hin, hse⟩ := ih
    obtain ⟨hst, hconn, hlt⟩ := hqt n
    obtain ⟨hturn, hdr⟩ := turn_unnoticed max slc hrun hin ⟨hst, hconn, hlt, hse⟩
    rw [after_succ, hturn, (drain_rest ..).2]
    exact ⟨hdr, (drain_rest ..).1.trans hin, rfl⟩

theorem closed_connection_ends_worker_iff {w : Worker} (hrunning : w.running = true)
    (hclosed : w.incoming = []) (turns : ℕ → Turn) :
    EndsWithErrors max fromSlice w turns ↔
      (∃ n, (turns n).stop = true ∨ (turns n).connected = false ∨ (turns n).timeoutSet = false) ∨
        ∃ reply ∈ w.commands.filterMap ClientCommand.reply, (turns 0).send reply = false := by
  rw [endsWithErrors_iff_left max fromSlice hrunning hclosed]
  constructor
  · intro h
    by_contra hnn
    push Not at hnn
    obtain ⟨hturns, hse⟩ := hnn
    obtain ⟨n, hlf⟩ := h
    have hqt : ∀ n, Quiet (turns n) := by
      intro n
      obtain ⟨hst, hconnected, htm⟩ := hturns n
      exact ⟨eq_false_of_ne_true hst, eq_true_of_ne_false hconnected, eq_true_of_ne_false htm⟩
    have hsd : sends (turns 0) w.commands = true :=
      all_eq_true.mpr fun reply hrp => eq_true_of_ne_false (hse reply hrp)
    have hrun := (after_quiet max fromSlice hrunning hclosed turns hqt hsd n).1
    rw [hlf] at hrun
    cases hrun
  · intro h
    rcases h with ⟨n, hnoticed⟩ | ⟨reply, hrp, hfails⟩
    · rcases after_closed max fromSlice hrunning hclosed turns n with ⟨hrun, hin, -⟩ | ⟨hlf, -⟩
      · refine ⟨n + 1, (turn_noticed max fromSlice hrun hin ?_).1⟩
        intro hun
        obtain ⟨hst, hconnected, htm, -⟩ := hun
        simp [hst, hconnected, htm] at hnoticed
      · exact ⟨n, hlf⟩
    refine ⟨1, (turn_noticed max fromSlice hrunning hclosed ?_).1⟩
    intro hun
    have hsn := all_eq_true.mp hun.2.2.2 reply hrp
    rw [hfails] at hsn
    cases hsn

def oneWaiting : Worker :=
  { incoming := []
    commands := []
    pending := (∅ : Table String ℕ).insert "msg-00000001" 0
    events := .empty
    answers := []
    running := true }

def quietTurn : Turn := ⟨false, true, fun _ => true, true⟩

theorem stopped_worker_fails_waiting : oneWaiting.running = true ∧ oneWaiting.incoming = [] ∧
      EndsWithErrors 65536 (fun _ => none) oneWaiting
        (fun n => if n = 3 then { quietTurn with stop := true } else quietTurn) :=
  ⟨rfl, rfl, (closed_connection_ends_worker_iff 65536 (fun _ => none) rfl rfl _).mpr
    (.inl ⟨3, .inl rfl⟩)⟩

/-- The peer has closed and nobody sends: the loop turns for ever and the invocation gets
no answer. -/
theorem closed_connection_unnoticed :
    oneWaiting.running = true ∧ oneWaiting.incoming = [] ∧ Waiting oneWaiting 0 ∧
      ¬ EndsWithErrors 65536 (fun _ => none) oneWaiting fun _ => quietTurn := by
  refine ⟨rfl, rfl, .inl ⟨"msg-00000001", rfl⟩, ?_⟩
  intro hen
  obtain ⟨n, hlf, -⟩ := hen
  have hrun := (after_quiet 65536 (fun _ => none) (w := oneWaiting) rfl rfl (fun _ => quietTurn)
    (fun _ => ⟨rfl, rfl, rfl⟩) rfl n).1
  rw [hlf] at hrun
  cases hrun

end Worker
end DshDesktop.Shell.ClientWorker
