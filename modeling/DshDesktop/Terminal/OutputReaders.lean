import DshDesktop.Library.BoundedQueue
import DshDesktop.Library.Runs
import DshDesktop.Library.Table
import DshDesktop.Library.Utf8

/-!
# Terminal output through the shared event queue

Every session has a reader thread that polls its terminal and sends what it reads to one
bounded queue (`spawn_reader`). A reader whose chunk does not fit leaves its loop, as it
does at the end of the terminal.
-/

namespace DshDesktop.Terminal
open List Runs

def outputQueueCapacity : ℕ := 256

structure OutputEvent where
  sessionId : String
  seq : ℕ
  data : String

inductive Poll
  | pollError
  | timeout
  | notReadable
  | wouldBlock
  | readError
  | eof
  | chunk (bytes : List UInt8)

def Poll.ends : Poll → Bool
  | .pollError | .readError | .eof => true
  | _ => false

/-- A reader with its stop flag. `gone` and `overflowed` record that the terminal has
ended or failed and that a chunk did not fit; the loop does not look at them. -/
structure Reader where
  running : Bool
  stop : Bool
  seq : ℕ
  gone : Bool
  overflowed : Bool

def Reader.spawned : Reader := ⟨true, false, 0, false, false⟩

def Reader.Open (r : Reader) : Prop := r.stop = false ∧ r.gone = false

structure Outputs (capacity : ℕ) where
  readers : Table String Reader
  queue : BoundedQueue OutputEvent capacity
  delivered : List OutputEvent

inductive OutputStep
  | create (sessionId : String)
  | poll (sessionId : String) (poll : Poll)
  | stop (sessionId : String)
  | take

variable {capacity : ℕ} (lossy : List UInt8 → String) {o : Outputs capacity} {r : Reader}
  {sid : String}

def Reader.turn (sessionId : String) (r : Reader) (queue : BoundedQueue OutputEvent capacity)
    (poll : Poll) : Reader × BoundedQueue OutputEvent capacity :=
  if r.running = false then (r, queue)
  else if r.stop then ({ r with running := false }, queue)
  else
    match poll with
    | .pollError | .readError | .eof => ({ r with running := false }, queue)
    | .timeout | .notReadable | .wouldBlock => (r, queue)
    | .chunk bytes =>
      let seq := r.seq + 1
      match queue.trySend ⟨sessionId, seq, lossy bytes⟩ with
      | (true, queue) => ({ r with seq := seq }, queue)
      | (false, queue) => ({ r with seq := seq, running := false, overflowed := true }, queue)

namespace Outputs

def new (capacity : ℕ) : Outputs capacity := ⟨∅, .empty, []⟩

def log (o : Outputs capacity) : List OutputEvent := o.delivered ++ o.queue.items

def step (o : Outputs capacity) : OutputStep → Outputs capacity
  | .create sessionId =>
    match o.readers.lookup sessionId with
    | some _ => o
    | none => { o with readers := o.readers.insert sessionId .spawned }
  | .poll sessionId poll =>
    match o.readers.lookup sessionId with
    | none => o
    | some r =>
      let (r', queue) := r.turn lossy sessionId o.queue poll
      { o with
        readers := o.readers.insert sessionId { r' with gone := r.gone || poll.ends }
        queue := queue }
  | .stop sessionId =>
    match o.readers.lookup sessionId with
    | none => o
    | some r => { o with readers := o.readers.insert sessionId { r with stop := true } }
  | .take =>
    { o with queue := o.queue.recv.2, delivered := o.delivered ++ o.queue.recv.1.toList }

def Attended (o : Outputs capacity) : Prop :=
  ∀ sessionId r, o.readers.lookup sessionId = some r → r.Open → r.running = !r.overflowed

theorem attended_insert (ho : Attended o) (hr : r.Open → r.running = !r.overflowed)
    (queue : BoundedQueue OutputEvent capacity) :
    Attended { o with readers := o.readers.insert sid r, queue := queue } := by
  intro other r' hget hoe
  rw [Table.lookup_insert_ite] at hget
  split_ifs at hget
  · cases hget
    exact hr hoe
  · exact ho other r' hget hoe

theorem turn_attended (sid : String) (hr : r.Open → r.running = !r.overflowed)
    (queue : BoundedQueue OutputEvent capacity) (poll : Poll) (hen : poll.ends = false) :
    (r.turn lossy sid queue poll).1.Open → (r.turn lossy sid queue poll).1.running =
        !(r.turn lossy sid queue poll).1.overflowed := by
  unfold Reader.turn
  split_ifs with hrun hst
  · exact hr
  · intro hoe
    exact absurd hoe.1 (by simp [hst])
  cases poll with
  | pollError | readError | eof => cases hen
  | timeout | notReadable | wouldBlock => exact hr
  | chunk bytes =>
    intro hoe
    dsimp only at hoe ⊢
    split at hoe
    · exact hr hoe
    · rfl

theorem turn_gone (sid : String) (r : Reader) (queue : BoundedQueue OutputEvent capacity)
    (poll : Poll) : (r.turn lossy sid queue poll).1.gone = r.gone := by
  unfold Reader.turn
  split_ifs
  · rfl
  · rfl
  cases poll with
  | chunk bytes =>
    dsimp only
    split <;> rfl
  | _ => rfl

theorem attended_step (ho : Attended o) (s : OutputStep) : Attended (o.step lossy s) := by
  cases s with
  | create sessionId =>
    rw [step]
    cases o.readers.lookup sessionId with
    | some r => exact ho
    | none => exact attended_insert ho (fun _ => rfl) o.queue
  | poll sessionId poll =>
    rw [step]
    cases hget : o.readers.lookup sessionId with
    | none => exact ho
    | some r =>
      refine attended_insert ho ?_ _
      intro hoe
      have hgn : r.gone = false ∧ poll.ends = false := Bool.or_eq_false_iff.mp hoe.2
      have hturn := turn_attended lossy sessionId (ho sessionId r hget) o.queue poll hgn.2
      exact hturn ⟨hoe.1, (turn_gone lossy sessionId r o.queue poll).trans hgn.1⟩
  | stop sessionId =>
    rw [step]
    cases o.readers.lookup sessionId with
    | none => exact ho
    | some r => exact attended_insert ho (fun hoe => absurd hoe.1 (by simp)) o.queue
  | take => exact ho

def Delivers (o : Outputs capacity) : OutputStep → Prop
  | .poll sessionId (.chunk bytes) =>
    ∀ r, o.readers.lookup sessionId = some r → r.Open → o.queue.items.length < capacity →
      (o.step lossy (.poll sessionId (.chunk bytes))).log =
        o.log ++ [⟨sessionId, r.seq + 1, lossy bytes⟩]
  | _ => True

def NeverOverflowed (o : Outputs capacity) : OutputStep → Prop
  | .poll sessionId (.chunk _) =>
    ∀ r, o.readers.lookup sessionId = some r → r.Open → o.queue.items.length < capacity →
      r.overflowed = false
  | _ => True

theorem log_poll (hget : o.readers.lookup sid = some r) (poll : Poll) :
    (o.step lossy (.poll sid poll)).log =
      o.delivered ++ (r.turn lossy sid o.queue poll).2.items := by
  rw [step, hget]
  rfl

theorem delivers_iff (ho : Attended o) (s : OutputStep) :
    Delivers lossy o s ↔ NeverOverflowed o s := by
  cases s with
  | create sessionId | stop sessionId | take => exact Iff.rfl
  | poll sessionId poll =>
    cases poll with
    | chunk bytes =>
      refine forall_congr' fun r => forall_congr' fun hget => forall_congr' fun hoe =>
        forall_congr' fun hrm => ?_
      have hrun := ho sessionId r hget hoe
      obtain ⟨hsn, hie⟩ := BoundedQueue.trySend_room hrm
        (⟨sessionId, r.seq + 1, lossy bytes⟩ : OutputEvent)
      rw [log_poll lossy hget, Reader.turn, log]
      cases hov : r.overflowed with
      | true =>
        -- the reader is gone, and the queue stays as it is
        rw [hov, Bool.not_true] at hrun
        rw [if_pos hrun]
        simp
      | false =>
        rw [hov, Bool.not_false] at hrun
        rw [if_neg (by simp [hrun]), if_neg (by simp [hoe.1])]
        dsimp only
        cases htry : o.queue.trySend ⟨sessionId, r.seq + 1, lossy bytes⟩ with
        | mk sent queue =>
          rw [htry] at hsn hie
          cases hsn
          rw [hie]
          simp
    | _ => exact Iff.rfl

theorem attended_run (capacity : ℕ) (steps : List OutputStep) :
    Attended (run (step lossy) (new capacity) steps) := by
  refine run_invariant Attended (fun o s ho => attended_step lossy ho s) steps ?_
  intro sessionId r hget
  cases hget

theorem output_delivered_iff (capacity : ℕ) (steps : List OutputStep) :
    Runs.Along (step lossy) (Delivers lossy) (new capacity) steps ↔
      Runs.Along (step lossy) NeverOverflowed (new capacity) steps :=
  along_congr (fun earlier s => delivers_iff lossy (attended_run lossy capacity earlier) s)
    steps

def asciiText (bytes : List UInt8) : String :=
  String.ofList (bytes.map fun byte => Char.ofNat byte.toNat)

def crowd (n : ℕ) : List OutputStep :=
  .create "pty-1-1" :: .create "pty-1-2" :: replicate n (.poll "pty-1-1" (.chunk [65]))

structure Crowded (n : ℕ) (o : Outputs capacity) : Prop where
  writer : ∃ r, o.readers.lookup "pty-1-1" = some r ∧ r.running = true ∧ r.stop = false
  other : o.readers.lookup "pty-1-2" = some .spawned
  length : o.queue.items.length = n

theorem crowded_run {n : ℕ} (hn : n ≤ capacity) :
    Crowded n (run (step lossy) (new capacity) (crowd n)) := by
  induction n with
  | zero => exact ⟨⟨.spawned, rfl, rfl, rfl⟩, rfl, rfl⟩
  | succ n ih =>
    obtain ⟨⟨r, hget, hrun, hst⟩, hot, hlen⟩ := ih (Nat.le_of_succ_le hn)
    have hsp : crowd (n + 1) = crowd n ++ [.poll "pty-1-1" (.chunk [65])] := by
      rw [crowd, crowd, replicate_succ']
      rfl
    rw [hsp, run_append, run_cons, run_nil]
    generalize run (step lossy) (new capacity) (crowd n) = o at hget hot hlen
    have hrm : o.queue.items.length < capacity := by omega
    obtain ⟨hsn, hie⟩ := BoundedQueue.trySend_room hrm
      (⟨"pty-1-1", r.seq + 1, lossy [65]⟩ : OutputEvent)
    have hturn : r.turn lossy "pty-1-1" o.queue (.chunk [65]) =
        ({ r with seq := r.seq + 1 }, (o.queue.trySend ⟨"pty-1-1", r.seq + 1, lossy [65]⟩).2) := by
      rw [Reader.turn, if_neg (by simp [hrun]), if_neg (by simp [hst])]
      dsimp only
      cases htry : o.queue.trySend ⟨"pty-1-1", r.seq + 1, lossy [65]⟩ with
      | mk sent queue =>
        rw [htry] at hsn
        cases hsn
        rfl
    rw [step, hget]
    dsimp only
    rw [hturn]
    refine ⟨⟨_, AList.lookup_insert _, hrun, hst⟩, ?_, ?_⟩
    · exact (AList.lookup_insert_ne (by decide)).trans hot
    · dsimp only
      rw [hie, length_append, hlen]
      rfl

theorem lost_after_crowd (hpos : 0 < capacity) : ¬ Delivers lossy
      (run (step lossy) (new capacity)
        (crowd capacity ++ [.poll "pty-1-2" (.chunk [66]), .take]))
      (.poll "pty-1-2" (.chunk [67])) := by
  rw [delivers_iff lossy (attended_run lossy capacity _), run_append]
  obtain ⟨-, hot, hlen⟩ := crowded_run lossy (le_refl capacity)
  generalize run (step lossy) (new capacity) (crowd capacity) = o at hot hlen
  have hfull : ¬ o.queue.items.length < capacity := by omega
  have hturn : Reader.spawned.turn lossy "pty-1-2" o.queue (.chunk [66]) =
      (⟨false, false, 1, false, true⟩, o.queue) := by
    rw [Reader.turn, if_neg (by decide), if_neg (by decide)]
    dsimp only
    rw [BoundedQueue.trySend_full hfull]
    rfl
  rw [run_cons, run_cons, run_nil, step, hot]
  dsimp only
  rw [hturn]
  intro hnv
  have hrm : o.queue.items.tail.length < capacity := by
    rw [length_tail, hlen]
    omega
  have hfa := hnv ⟨false, false, 1, false, true⟩ (AList.lookup_insert _) ⟨rfl, rfl⟩ hrm
  cases hfa

/-- The first session has filled the queue and a chunk of the second one has met it full;
then the consumer makes room. Both sessions are open, and the output of the second one
stays in its terminal. -/
theorem output_lost_after_overflow : ¬ Delivers asciiText
      (run (step asciiText) (new outputQueueCapacity)
        (crowd outputQueueCapacity ++ [.poll "pty-1-2" (.chunk [66]), .take]))
      (.poll "pty-1-2" (.chunk [67])) :=
  lost_after_crowd asciiText (by decide)

end Outputs

def fromUtf8Lossy (bytes : List UInt8) : String := String.ofList (Utf8.decodeLossy bytes)

example : fromUtf8Lossy [0x41, 0xC3, 0xA9, 0xE2, 0x82, 0x41] = "Aé�A" := by decide

def chunksOf : List Poll → List (List UInt8)
  | [] => []
  | .chunk bytes :: polls => bytes :: chunksOf polls
  | .timeout :: polls | .notReadable :: polls | .wouldBlock :: polls => chunksOf polls
  | .pollError :: _ | .readError :: _ | .eof :: _ => []

def outputEvents (sessionId : String) :
    Reader → List (Poll × BoundedQueue OutputEvent capacity) → List OutputEvent
  | _, [] => []
  | r, (poll, queue) :: turns =>
    let next := r.turn fromUtf8Lossy sessionId queue poll
    next.2.items.drop queue.items.length ++ outputEvents sessionId next.1 turns

variable {turns : List (Poll × BoundedQueue OutputEvent capacity)}

theorem outputEvents_ended {sessionId : String} (h : r.running = false) :
    outputEvents sessionId r turns = [] := by
  induction turns with
  | nil => rfl
  | cons turn turns ih =>
    have heq : r.turn fromUtf8Lossy sessionId turn.2 turn.1 = (r, turn.2) := if_pos h
    rw [outputEvents, heq]
    simpa using ih

theorem outputEvents_eq {sessionId : String} (hrun : r.running) (hst : r.stop = false)
    (hrm : ∀ turn ∈ turns, turn.2.items.length < capacity) :
    outputEvents sessionId r turns =
      ((chunksOf (turns.map Prod.fst)).zipIdx (r.seq + 1)).map fun c =>
        ⟨sessionId, c.2, fromUtf8Lossy c.1⟩ := by
  induction turns generalizing r with
  | nil => rfl
  | cons turn turns ih =>
    obtain ⟨poll, queue⟩ := turn
    obtain ⟨hq, hrs⟩ := forall_mem_cons.mp hrm
    rw [outputEvents]
    unfold Reader.turn
    rw [if_neg (by simp [hrun]), if_neg (by simp [hst])]
    cases poll with
    | timeout | notReadable | wouldBlock => simpa [chunksOf] using ih hrun hst hrs
    | pollError | readError | eof => simpa [chunksOf] using outputEvents_ended rfl
    | chunk bytes =>
      have hsn : queue.trySend ⟨sessionId, r.seq + 1, fromUtf8Lossy bytes⟩ =
          (true, ⟨_, BoundedQueue.snoc_fits hq _⟩) := dif_pos hq
      simp only [hsn, drop_left]
      exact congrArg (cons _) (ih (r := { r with seq := r.seq + 1 }) hrun hst hrs)

/-- For every stream and every way it is read: the texts of the events make up the
decoding of the whole stream exactly when no read ends within a character. -/
theorem output_text_iff (sessionId : String)
    (turns : List (Poll × BoundedQueue OutputEvent capacity))
    (hroom : ∀ turn ∈ turns, turn.2.items.length < capacity) :
    let events := outputEvents sessionId .spawned turns
    let chunks := chunksOf (turns.map Prod.fst)
    events.map OutputEvent.seq = range' 1 events.length ∧
      ((events.flatMap fun e => e.data.toList) = (fromUtf8Lossy chunks.flatten).toList ↔
        Utf8.Unsplit chunks) := by
  intro events chunks
  have hev : events = (chunks.zipIdx 1).map fun c => ⟨sessionId, c.2, fromUtf8Lossy c.1⟩ :=
    outputEvents_eq rfl rfl hroom
  have htx : (events.flatMap fun e => e.data.toList) =
      ((chunks.zipIdx 1).map Prod.fst).flatMap Utf8.decodeLossy := by
    rw [hev, flatMap_map, flatMap_map]
    simp [fromUtf8Lossy]
  rw [htx, zipIdx_map_fst, fromUtf8Lossy, String.toList_ofList]
  refine ⟨?_, (Utf8.chunks_decodeLossy _).2⟩
  rw [hev, map_map, length_map, length_zipIdx]
  exact zipIdx_map_snd 1 chunks

def letterInTwoReads : List (Poll × BoundedQueue OutputEvent outputQueueCapacity) :=
  [(.chunk [0xC3], .empty), (.chunk [0xA9], .empty)]

def lettersInTwoReads : List (Poll × BoundedQueue OutputEvent outputQueueCapacity) :=
  [(.chunk [0xC3, 0xA9], .empty), (.chunk [0x41], .empty)]

theorem output_text_two_reads :
    (outputEvents "pty-1-1" .spawned lettersInTwoReads).flatMap (fun e => e.data.toList) =
      (fromUtf8Lossy [0xC3, 0xA9, 0x41]).toList :=
  (output_text_iff "pty-1-1" lettersInTwoReads (by decide)).2.mpr
    ⟨by rintro _ ⟨⟩; unfold Utf8.Continues; decide, nofun, trivial⟩

theorem output_split_within_letter :
    (outputEvents "pty-1-1" .spawned letterInTwoReads).map OutputEvent.data = ["�", "�"] ∧
      fromUtf8Lossy (chunksOf (letterInTwoReads.map Prod.fst)).flatten = "é" := by
  decide

end DshDesktop.Terminal
