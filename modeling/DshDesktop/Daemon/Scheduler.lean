import DshDesktop.Daemon.Capabilities

/-!
# The wake scheduler

`crates/daemon/src/scheduler.rs`: the reading and the checks of a wake request, `register`,
`cancel`, and one round of the worker thread. Instants are nanoseconds of the monotonic
clock. The firing loop ends because a fired entry comes back later than the reading of its
round.
-/

namespace DshDesktop.Daemon.Scheduler
open Json

def wakeIdMinLen : ℕ := 8
def wakeIdMaxLen : ℕ := 128
def minIntervalMs : ℕ := 50
def maxIntervalMs : ℕ := 86400000

structure WakeRepeat where
  intervalMs : ℕ
  count : Option ℕ
  deriving DecidableEq

structure WakeRequestPayload where
  wakeId : String
  requestedAt : String
  deadline : Option String
  reason : WakeReason
  repeating : Option WakeRepeat

structure CancelRequestPayload where
  wakeId : String

structure Entry where
  seq : ℕ
  wakeId : String
  fireAt : ℕ
  reason : WakeReason
  requestedAt : String
  deadline : Option String
  repeating : Option WakeRepeat
  firesLeft : Option ℕ
  deriving DecidableEq

structure Inner where
  entries : List Entry
  nextSeq : ℕ
  shutdown : Bool
  registered : ℕ
  cancelled : ℕ
  fired : ℕ
  lastFired : Option FiredWake

def Inner.default : Inner := ⟨[], 0, false, 0, 0, 0, none⟩

inductive SchedulerError
  | invalidPayload (message : String)
  | conflict (message : String)

structure Texts where
  wake : Json → String
  cancel : Json → String

def readWakeReason : Json → Option WakeReason :=
  readVariant [("scheduled_due", .scheduledDue), ("recovery_retry", .recoveryRetry),
    ("user_requested", .userRequested)]

def WakeRepeat.read (v : Json) : Option WakeRepeat := do
  let ms ← v.readRecord ["intervalMs", "count"]
  let intervalMs ← readField readU64 ms "intervalMs"
  let count ← readOptional readU64 ms "count"
  return ⟨intervalMs, count⟩

def WakeRepeat.toJson (r : WakeRepeat) : Json :=
  .object ([("intervalMs", nat r.intervalMs)] ++ optionalMember "count" nat r.count)

def WakeRequestPayload.read (v : Json) : Option WakeRequestPayload := do
  -- The last field has a default, so an array may end before it.
  let ms ← v.readRecord ["wakeId", "requestedAt", "deadline", "reason", "repeat"] <|>
    v.readRecord ["wakeId", "requestedAt", "deadline", "reason"]
  let wakeId ← readField readString ms "wakeId"
  let requestedAt ← readField readString ms "requestedAt"
  let deadline ← readOptional readString ms "deadline"
  let reason ← readField readWakeReason ms "reason"
  let repeating ← readOptional WakeRepeat.read ms "repeat"
  return ⟨wakeId, requestedAt, deadline, reason, repeating⟩

def CancelRequestPayload.read (v : Json) : Option CancelRequestPayload := do
  let ms ← v.readRecord ["wakeId"]
  let wakeId ← readField readString ms "wakeId"
  return ⟨wakeId⟩

def checkWakeId (wakeId : String) : Except SchedulerError Unit :=
  if wakeIdMinLen ≤ wakeId.utf8ByteSize ∧ wakeId.utf8ByteSize ≤ wakeIdMaxLen then .ok ()
  else .error (.invalidPayload ("wakeId length " ++ toString wakeId.utf8ByteSize ++
    " outside 8..=128"))

def validateWakeRequest (request : WakeRequestPayload) : Except SchedulerError Unit := do
  checkWakeId request.wakeId
  match request.repeating with
  | none => .ok ()
  | some r =>
    if ¬ (minIntervalMs ≤ r.intervalMs ∧ r.intervalMs ≤ maxIntervalMs) then
      .error (.invalidPayload ("repeat.intervalMs " ++ toString r.intervalMs ++
        " outside 50..=86400000"))
    else if r.count = some 0 then .error (.invalidPayload "repeat.count must be >= 1")
    else .ok ()

abbrev Cursor := List UInt8

def Cursor.eat (expected : UInt8) : Cursor → Option Cursor
  | [] => none
  | b :: rest => if b = expected then some rest else none

def Cursor.digits : ℕ → ℕ → Cursor → Option (ℕ × Cursor)
  | 0, value, cursor => some (value, cursor)
  | _ + 1, _, [] => none
  | count + 1, value, b :: rest =>
    if isAsciiDigit b = true ∧ value * 10 + (b.toNat - 48) < 2 ^ 32 then
      Cursor.digits count (value * 10 + (b.toNat - 48)) rest
    else none

/-- At most `count` digits of a fraction, weighted from `scale` down. -/
def Cursor.fraction : ℕ → ℕ → Cursor → ℕ × Cursor
  | 0, _, cursor => (0, cursor)
  | _ + 1, _, [] => (0, [])
  | count + 1, scale, b :: rest =>
    if isAsciiDigit b then
      let (millis, cursor) := Cursor.fraction count (scale / 10) rest
      ((b.toNat - 48) * scale + millis, cursor)
    else (0, b :: rest)

def Cursor.millis : Cursor → ℕ × Cursor
  | [] => (0, [])
  | b :: rest =>
    if b = 46 then
      let (millis, cursor) := Cursor.fraction 3 100 rest
      (millis, cursor.dropWhile isAsciiDigit)
    else (0, b :: rest)

def Cursor.offset : Cursor → Option (ℤ × Cursor)
  | [] => none
  | b :: rest =>
    if b = 90 ∨ b = 122 then some (0, rest)
    else if b = 43 ∨ b = 45 then do
      let (hour, cursor) ← Cursor.digits 2 0 rest
      let cursor ← Cursor.eat 58 cursor
      let (minute, cursor) ← Cursor.digits 2 0 cursor
      if 23 < hour ∨ 59 < minute then none
      else some ((if b = 45 then -1 else 1) * ((hour : ℤ) * 3600 + (minute : ℤ) * 60), cursor)
    else none

def daysFromCivil (year month day : ℤ) : ℤ :=
  let year := if month ≤ 2 then year - 1 else year
  let era := (if 0 ≤ year then year else year - 399).tdiv 400
  let yearOfEra := year - era * 400
  let monthPrime := (month + 9).tmod 12
  let dayOfYear := (153 * monthPrime + 2).tdiv 5 + day - 1
  let dayOfEra := yearOfEra * 365 + yearOfEra.tdiv 4 - yearOfEra.tdiv 100 + dayOfYear
  era * 146097 + dayOfEra - 719468

def checkedI64 (n : ℤ) : Option ℤ := if -(2 ^ 63) ≤ n ∧ n < 2 ^ 63 then some n else none

def ofMillis (ms : ℤ) : Option UnixTime :=
  if h : 0 ≤ ms ∧ ms < 2 ^ 64 then
    some ⟨ms.toNat / 1000, ms.toNat % 1000 * 1000000, by omega, by omega⟩
  else none

def parseRfc3339 (input : String) : Option UnixTime := do
  let (year, cursor) ← Cursor.digits 4 0 (Text.utf8Bytes input)
  let cursor ← Cursor.eat 45 cursor
  let (month, cursor) ← Cursor.digits 2 0 cursor
  let cursor ← Cursor.eat 45 cursor
  let (day, cursor) ← Cursor.digits 2 0 cursor
  let cursor ← Cursor.eat 84 cursor
  let (hour, cursor) ← Cursor.digits 2 0 cursor
  let cursor ← Cursor.eat 58 cursor
  let (minute, cursor) ← Cursor.digits 2 0 cursor
  let cursor ← Cursor.eat 58 cursor
  let (second, cursor) ← Cursor.digits 2 0 cursor
  let (millis, cursor) := Cursor.millis cursor
  let (offsetSecs, cursor) ← Cursor.offset cursor
  if cursor ≠ [] then none
  else if ¬ (1 ≤ month ∧ month ≤ 12) ∨ ¬ (1 ≤ day ∧ day ≤ 31) ∨ 23 < hour ∨ 59 < minute ∨
      60 < second then none
  else
    let days := daysFromCivil year month day
    let unixSecs := days * 86400 + (hour : ℤ) * 3600 + (minute : ℤ) * 60 + (second : ℤ) - offsetSecs
    let scaled ← checkedI64 (unixSecs * 1000)
    let total ← checkedI64 (scaled + (millis : ℤ))
    ofMillis total

def fireTime (request : WakeRequestPayload) : Except SchedulerError UnixTime :=
  match parseRfc3339 request.requestedAt with
  | none => .error (.invalidPayload ("requestedAt \"" ++ request.requestedAt ++
      "\" is not a valid RFC 3339 timestamp"))
  | some requested =>
    match request.deadline with
    | none => .ok requested
    | some deadline =>
      match parseRfc3339 deadline with
      | none => .error (.invalidPayload ("deadline \"" ++ deadline ++
          "\" is not a valid RFC 3339 timestamp"))
      | some time => .ok time

example : (parseRfc3339 "2026-08-31T12:00:00.25+02:00").map UnixTime.unixMs =
    some 1788170400250 := by decide +kernel

structure Readings where
  instant : ℕ
  system : ℤ

def fireInstant (readings : Readings) (time : UnixTime) : ℕ :=
  readings.instant + ((time.asNanos : ℤ) - readings.system).toNat

structure Registration where
  entry : Entry
  reply : WakeAccepted

variable (inner : Inner)

def Inner.entryFor (request : WakeRequestPayload) (fireAt : ℕ) : Entry where
  seq := inner.nextSeq
  wakeId := request.wakeId
  fireAt := fireAt
  reason := request.reason
  requestedAt := request.requestedAt
  deadline := request.deadline
  repeating := request.repeating
  firesLeft := request.repeating.bind WakeRepeat.count

def Inner.push (entry : Entry) : Inner :=
  { inner with
    entries := inner.entries ++ [entry]
    nextSeq := inner.nextSeq + 1
    registered := inner.registered + 1 }

def Inner.admit (request : WakeRequestPayload) (time : UnixTime) (fireAt : ℕ) :
    Except SchedulerError Registration × Inner :=
  if inner.entries.any fun e => e.wakeId == request.wakeId then
    (.error (.conflict ("wakeId \"" ++ request.wakeId ++ "\" is already scheduled")), inner)
  else
    let entry := inner.entryFor request fireAt
    let inner' := inner.push entry
    (.ok ⟨entry, request.wakeId, nowTimestampLike time,
      (request.repeating.map WakeRepeat.toJson).getD .null, inner'.entries.length⟩, inner')

def parseWake (texts : Texts) (payload : Json) :
    Except SchedulerError (WakeRequestPayload × UnixTime) :=
  match WakeRequestPayload.read payload with
  | none => .error (.invalidPayload
      ("wake params do not match the schedule-wake contract: " ++ texts.wake payload))
  | some request => do
    validateWakeRequest request
    let time ← fireTime request
    return (request, time)

def register (texts : Texts) (readings : Readings) (payload : Json) (inner : Inner) :
    Except SchedulerError Registration × Inner :=
  match parseWake texts payload with
  | .error e => (.error e, inner)
  | .ok (request, time) => inner.admit request time (fireInstant readings time)

structure Cancellation where
  removed : List Entry
  reply : WakeCancelled

def Inner.withdraw (wakeId : String) : Cancellation × Inner :=
  let kept := inner.entries.filter fun e => e.wakeId != wakeId
  let removed := inner.entries.length - kept.length
  let inner' := { inner with
    entries := kept
    cancelled := if 0 < removed then inner.cancelled + 1 else inner.cancelled }
  (⟨inner.entries.filter fun e => e.wakeId == wakeId, wakeId, 0 < removed, kept.length⟩, inner')

def parseCancel (texts : Texts) (payload : Json) : Except SchedulerError CancelRequestPayload :=
  match CancelRequestPayload.read payload with
  | none => .error (.invalidPayload ("cancel params invalid: " ++ texts.cancel payload))
  | some request => do
    checkWakeId request.wakeId
    return request

def cancel (texts : Texts) (payload : Json) (inner : Inner) :
    Except SchedulerError Cancellation × Inner :=
  match parseCancel texts payload with
  | .error e => (.error e, inner)
  | .ok request => ((inner.withdraw request.wakeId).map .ok id)

structure FireReading where
  wall : UnixTime
  instant : ℕ

def decrement (left : ℕ) : ℕ := if left = 0 then 2 ^ 64 - 1 else left - 1

def Entry.rescheduled (e : Entry) (instant : ℕ) : Option Entry :=
  match e.repeating with
  | none => none
  | some r =>
    let firesLeft := e.firesLeft.map decrement
    if firesLeft = some 0 then none
    else some { e with
      fireAt := instant + r.intervalMs * 1000000
      repeating := some r
      firesLeft := firesLeft }

def fire (reading : FireReading) (inner : Inner) (e : Entry) : Inner :=
  { inner with
    fired := inner.fired + 1
    lastFired := some ⟨e.wakeId, e.reason, e.requestedAt, e.deadline, nowTimestampLike reading.wall⟩
    entries := inner.entries ++ (e.rescheduled reading.instant).toList }

def takeDue (now : ℕ) : List Entry → Option (Entry × List Entry)
  | [] => none
  | e :: es =>
    if e.fireAt ≤ now then some (e, es)
    else (takeDue now es).map fun p => (p.1, e :: p.2)

/-- The firing loop, with at most `fuel` fires: the fired entries in order and the
state left, or `none` when an entry is still due. -/
def fireDue (now : ℕ) : ℕ → (ℕ → FireReading) → Inner → Option (List Entry × Inner)
  | fuel, readings, inner =>
    match takeDue now inner.entries with
    | none => some ([], inner)
    | some (e, rest) =>
      match fuel with
      | 0 => none
      | fuel + 1 =>
        (fireDue now fuel (fun i => readings (i + 1))
          (fire (readings 0) { inner with entries := rest } e)).map fun p => (e :: p.1, p.2)

structure Round where
  now : ℕ
  readings : ℕ → FireReading
  monotone : ∀ i, now ≤ (readings i).instant

open List Option Prod

inductive Occurrence
  | accepted (e : Entry)
  | cancelled (e : Entry)
  | fired (e : Entry)
  deriving DecidableEq

namespace Occurrence

def entry : Occurrence → Entry
  | accepted e => e
  | cancelled e => e
  | fired e => e

def isAccepted : Occurrence → Bool
  | accepted _ => true
  | _ => false

def isFired : Occurrence → Bool
  | fired _ => true
  | _ => false

def isFireOf (seq : ℕ) : Occurrence → Bool
  | fired e => e.seq == seq
  | _ => false

end Occurrence

def Entry.isLast (e : Entry) : Bool :=
  match e.repeating with
  | none => true
  | some _ => e.firesLeft.map decrement == some 0

def Occurrence.isCompletion : Occurrence → Bool
  | fired e => e.isLast
  | _ => false

def acceptedSeqs (history : List Occurrence) : List ℕ :=
  (history.filter Occurrence.isAccepted).map fun o => o.entry.seq

def fires (history : List Occurrence) (seq : ℕ) : ℕ := history.countP (Occurrence.isFireOf seq)

/-- The lock is held for ever by a firing loop that does not end. -/
inductive Worker
  | serving
  | returned
  | looping
  deriving DecidableEq

structure World where
  inner : Inner
  history : List Occurrence
  worker : Worker

def World.new : World := ⟨Inner.default, [], .serving⟩

inductive Op
  | register (readings : Readings) (payload : Json)
  | cancel (payload : Json)
  | shutdown
  | round (r : Round)

structure Effect where
  inner : Inner
  occurred : List Occurrence
  worker : Worker

/-- A round of a worker that has not returned. Every entry is fired at most once
in a round, so their number is fuel enough (`fireDue_ends`). -/
def roundEffect (inner : Inner) (r : Round) : Effect :=
  match fireDue r.now inner.entries.length r.readings inner with
  | none => ⟨inner, [], .looping⟩
  | some (fired, inner') =>
    ⟨inner', fired.map .fired, if inner'.shutdown then .returned else .serving⟩

def World.effect (texts : Texts) (w : World) (op : Op) : Effect :=
  if w.worker = .looping then ⟨w.inner, [], w.worker⟩
  else match op with
    | .register readings payload =>
      match Scheduler.register texts readings payload w.inner with
      | (.ok registration, inner) => ⟨inner, [.accepted registration.entry], w.worker⟩
      | (.error _, inner) => ⟨inner, [], w.worker⟩
    | .cancel payload =>
      match Scheduler.cancel texts payload w.inner with
      | (.ok cancellation, inner) => ⟨inner, cancellation.removed.map .cancelled, w.worker⟩
      | (.error _, inner) => ⟨inner, [], w.worker⟩
    | .shutdown => ⟨{ w.inner with shutdown := true }, [], w.worker⟩
    | .round r => if w.worker = .serving then roundEffect w.inner r else ⟨w.inner, [], w.worker⟩

def World.step (texts : Texts) (w : World) (op : Op) : World where
  inner := (w.effect texts op).inner
  history := w.history ++ (w.effect texts op).occurred
  worker := (w.effect texts op).worker

def Entry.left (e : Entry) : Option ℕ :=
  match e.repeating with
  | none => some 1
  | some _ => e.firesLeft

structure Entry.Sound (e : Entry) : Prop where
  interval : ∀ r, e.repeating = some r → minIntervalMs ≤ r.intervalMs
  left : e.firesLeft ≠ some 0

structure Entry.Same (e e' : Entry) : Prop where
  seq : e'.seq = e.seq
  wakeId : e'.wakeId = e.wakeId
  repeating : e'.repeating = e.repeating

namespace Entry
variable {e e' : Entry} {instant now : ℕ}

theorem Sound.left_pos (h : e.Sound) {k : ℕ} (hk : e.left = some k) : 0 < k := by
  unfold Entry.left at hk
  cases hrep : e.repeating with
  | none =>
    simp only [hrep, some.injEq] at hk
    omega
  | some r =>
    simp only [hrep] at hk
    have hne := h.left
    rw [hk] at hne
    exact Nat.pos_of_ne_zero fun hzr => hne (by rw [hzr])

theorem rescheduled_none (h : e.rescheduled instant = none) (hs : e.Sound) :
    e.left = some 1 ∧ e.isLast := by
  unfold Entry.rescheduled at h
  cases hrep : e.repeating with
  | none => simp [Entry.left, isLast, hrep]
  | some r =>
    simp only [hrep] at h
    split_ifs at h with hlast
    cases hlf : e.firesLeft with
    | none => simp [hlf] at hlast
    | some k =>
      have hk : k ≠ 0 := fun hzr => hs.left (by rw [hlf, hzr])
      simp only [hlf, map_some, some.injEq, decrement, if_neg hk] at hlast
      have hone : k = 1 := by omega
      subst hone
      exact ⟨by simp [Entry.left, hrep, hlf], by simp [isLast, hrep, hlf, decrement]⟩

theorem rescheduled_same (h : e.rescheduled instant = some e') : e.Same e' := by
  unfold Entry.rescheduled at h
  cases hrep : e.repeating with
  | none => simp [hrep] at h
  | some r =>
    simp only [hrep] at h
    split_ifs at h with hlast
    obtain rfl := some.inj h
    exact ⟨rfl, rfl, hrep.symm⟩

structure Again (e e' : Entry) (instant : ℕ) : Prop where
  same : e.Same e'
  sound : e'.Sound
  left : e.left = e'.left.map (· + 1)
  more : e.isLast = false
  later : instant < e'.fireAt

theorem rescheduled_some (h : e.rescheduled instant = some e') (hs : e.Sound) :
    e.Again e' instant := by
  have heq := rescheduled_same h
  unfold Entry.rescheduled at h
  cases hrep : e.repeating with
  | none => simp [hrep] at h
  | some r =>
    simp only [hrep] at h
    split_ifs at h with hlast
    obtain rfl := some.inj h
    have hiv := hs.interval r hrep
    refine ⟨heq, ⟨?_, hlast⟩, ?_, ?_, ?_⟩
    · intro r' hr'
      obtain rfl := some.inj hr'
      exact hiv
    · cases hlf : e.firesLeft with
      | none => simp [Entry.left, hrep, hlf]
      | some k =>
        have hk : k ≠ 0 := fun hzr => hs.left (by rw [hlf, hzr])
        simp only [Entry.left, hrep, hlf, decrement, if_neg hk, map_some, some.injEq]
        omega
    · simpa [isLast, hrep] using hlast
    · have hpos : 0 < r.intervalMs := lt_of_lt_of_le (by decide) hiv
      show instant < instant + r.intervalMs * 1000000
      omega

end Entry

inductive Tick : Inner → List Occurrence → Inner → Prop
  | idle {inner inner' : Inner} : inner'.entries = inner.entries → inner'.nextSeq = inner.nextSeq →
      inner'.registered = inner.registered → inner'.cancelled = inner.cancelled →
      inner'.fired = inner.fired → Tick inner [] inner'
  | accepted (inner : Inner) (e : Entry) : e.seq = inner.nextSeq →
      (∀ p ∈ inner.entries, p.wakeId ≠ e.wakeId) → e.Sound →
      e.firesLeft = e.repeating.bind WakeRepeat.count →
      Tick inner [.accepted e] (inner.push e)
  | cancelled (inner : Inner) (wakeId : String) :
      Tick inner ((inner.withdraw wakeId).1.removed.map .cancelled) (inner.withdraw wakeId).2
  | fired {inner : Inner} (reading : FireReading) (l₁ : List Entry) (e : Entry) (l₂ : List Entry) :
      inner.entries = l₁ ++ e :: l₂ →
      Tick inner [.fired e] (fire reading { inner with entries := l₁ ++ l₂ } e)

inductive Ticks : Inner → List Occurrence → Inner → Prop
  | nil (inner : Inner) : Ticks inner [] inner
  | cons {i j k : Inner} {os os' : List Occurrence} : Tick i os j → Ticks j os' k →
      Ticks i (os ++ os') k

variable {os os' h : List Occurrence} {req : WakeRequestPayload} {pay : Json}
  {rdgs : ℕ → FireReading} {e : Entry} (rdg : FireReading) (inner : Inner)

theorem Ticks.single {i j : Inner} (h : Tick i os j) : Ticks i os j := by
  have hcons := Ticks.cons h (.nil j)
  rwa [append_nil] at hcons

theorem Ticks.trans {i j k : Inner} (h : Ticks i os j) (h' : Ticks j os' k) :
    Ticks i (os ++ os') k := by
  induction h with
  | nil => exact h'
  | cons htc _ ih =>
    rw [append_assoc]
    exact .cons htc (ih h')

theorem Ticks.keep {P : Inner → List Occurrence → Prop}
    (hkp : ∀ {i j h os}, P i h → Tick i os j → P j (h ++ os)) {i j : Inner}
    (htc : Ticks i os j) (hi : P i h) : P j (h ++ os) := by
  induction htc generalizing h with
  | nil => rwa [append_nil]
  | cons hti _ ih =>
    rw [← append_assoc]
    exact ih (hkp hi hti)

section
variable {now fuel : ℕ}

theorem takeDue_some {es rest : List Entry} (h : takeDue now es = some (e, rest)) :
    e.fireAt ≤ now ∧ ∃ l₁ l₂, es = l₁ ++ e :: l₂ ∧ rest = l₁ ++ l₂ := by
  induction es generalizing rest with
  | nil => cases h
  | cons x es ih =>
    by_cases hdue : x.fireAt ≤ now
    · rw [takeDue, if_pos hdue, some.injEq, mk.injEq] at h
      obtain ⟨rfl, rfl⟩ := h
      exact ⟨hdue, [], es, rfl, rfl⟩
    rw [takeDue, if_neg hdue, map_eq_some_iff] at h
    obtain ⟨⟨y, tail⟩, hy, hpair⟩ := h
    obtain ⟨rfl, rfl⟩ := hpair
    obtain ⟨hdu', l₁, l₂, hes, htl⟩ := ih hy
    exact ⟨hdu', x :: l₁, l₂, by rw [hes]; rfl, by rw [htl]; rfl⟩

theorem takeDue_none {es : List Entry} (h : takeDue now es = none) : ∀ e ∈ es, now < e.fireAt := by
  induction es with
  | nil => simp
  | cons x es ih =>
    by_cases hdue : x.fireAt ≤ now
    · rw [takeDue, if_pos hdue] at h
      cases h
    rw [takeDue, if_neg hdue, map_eq_none_iff] at h
    intro e he
    rcases mem_cons.mp he with hx | hes
    · rw [hx]
      omega
    · exact ih h e hes

theorem fireDue_spec {inner inner' : Inner} {fired : List Entry}
    (h : fireDue now fuel rdgs inner = some (fired, inner')) :
    Ticks inner (fired.map .fired) inner' ∧ (∀ e ∈ inner'.entries, now < e.fireAt) ∧
      fired.length ≤ fuel := by
  induction fuel generalizing rdgs inner fired with
  | zero =>
    unfold fireDue at h
    cases hdue : takeDue now inner.entries with
    | none =>
      simp only [hdue, some.injEq, mk.injEq] at h
      obtain ⟨rfl, rfl⟩ := h
      exact ⟨.nil inner, takeDue_none hdue, Nat.le_refl _⟩
    | some p => simp [hdue] at h
  | succ fuel ih =>
    unfold fireDue at h
    cases hdue : takeDue now inner.entries with
    | none =>
      simp only [hdue, some.injEq, mk.injEq] at h
      obtain ⟨rfl, rfl⟩ := h
      exact ⟨.nil inner, takeDue_none hdue, Nat.zero_le _⟩
    | some p =>
      obtain ⟨e, rest⟩ := p
      simp only [hdue, map_eq_some_iff, mk.injEq] at h
      obtain ⟨⟨fired', last⟩, hlp, rfl, rfl⟩ := h
      obtain ⟨-, l₁, l₂, hrw, rfl⟩ := takeDue_some hdue
      obtain ⟨htc, hdn, hlen⟩ := ih hlp
      exact ⟨.cons (.fired (rdgs 0) l₁ e l₂ hrw) htc, hdn, Nat.succ_le_succ hlen⟩

def dueCount (now : ℕ) (es : List Entry) : ℕ := es.countP fun e => e.fireAt ≤ now

theorem dueCount_fire (l₁ l₂ : List Entry) (hs : e.Sound) (hdue : e.fireAt ≤ now)
    (hrd : now ≤ rdg.instant) :
    dueCount now (fire rdg { inner with entries := l₁ ++ l₂ } e).entries + 1 =
      dueCount now (l₁ ++ e :: l₂) := by
  have hbc : dueCount now (e.rescheduled rdg.instant).toList = 0 := by
    cases hag : e.rescheduled rdg.instant with
    | none => rfl
    | some e' =>
      have hlt := (Entry.rescheduled_some hag hs).later
      have hnot : ¬ e'.fireAt ≤ now := by omega
      simp [dueCount, hnot]
  have hsp : dueCount now (fire rdg { inner with entries := l₁ ++ l₂ } e).entries =
      dueCount now l₁ + dueCount now l₂ + dueCount now (e.rescheduled rdg.instant).toList := by
    simp only [fire, dueCount, countP_append]
  have hmd : dueCount now (l₁ ++ e :: l₂) = dueCount now l₁ + (dueCount now l₂ + 1) := by
    simp [dueCount, hdue]
  omega

theorem sound_fire {l₁ l₂ : List Entry} (hs : ∀ x ∈ l₁ ++ e :: l₂, x.Sound) :
    ∀ x ∈ (fire rdg { inner with entries := l₁ ++ l₂ } e).entries, x.Sound := by
  intro x hx
  rw [fire, mem_append, mem_toList] at hx
  rcases hx with hold | hag
  · apply hs
    rw [mem_append] at hold ⊢
    exact hold.imp_right (mem_cons_of_mem e)
  · exact (Entry.rescheduled_some hag (hs e (by simp))).sound

theorem fireDue_ends {inner : Inner} (hs : ∀ e ∈ inner.entries, e.Sound)
    (hrd : ∀ i, now ≤ (rdgs i).instant) (hfuel : dueCount now inner.entries ≤ fuel) :
    ∃ fired inner', fireDue now fuel rdgs inner = some (fired, inner') := by
  induction fuel generalizing rdgs inner with
  | zero =>
    unfold fireDue
    cases hdue : takeDue now inner.entries with
    | none => exact ⟨[], inner, rfl⟩
    | some p =>
      obtain ⟨hle, l₁, l₂, hrw, -⟩ := takeDue_some hdue
      have hpos : 0 < dueCount now inner.entries := by
        rw [hrw]
        simp [dueCount, hle]
      omega
  | succ fuel ih =>
    unfold fireDue
    cases hdue : takeDue now inner.entries with
    | none => exact ⟨[], inner, rfl⟩
    | some p =>
      obtain ⟨e, rest⟩ := p
      obtain ⟨hle, l₁, l₂, hrw, rfl⟩ := takeDue_some hdue
      rw [hrw] at hs hfuel
      have hcount := dueCount_fire (rdgs 0) inner l₁ l₂ (hs e (by simp)) hle (hrd 0)
      obtain ⟨fired, inner', hlp⟩ := ih (sound_fire (rdgs 0) inner hs)
        (fun i => hrd (i + 1)) (by omega)
      exact ⟨e :: fired, inner', by simp [hlp]⟩

end

theorem validateWakeRequest_ok (h : validateWakeRequest req = .ok ()) {r : WakeRepeat}
    (hr : req.repeating = some r) : minIntervalMs ≤ r.intervalMs ∧ r.count ≠ some 0 := by
  unfold validateWakeRequest at h
  cases hid : checkWakeId req.wakeId with
  | error e => simp [hid, bind, Except.bind] at h
  | ok u =>
    simp only [hid, hr, bind, Except.bind] at h
    split_ifs at h with hiv hcount
    exact ⟨hiv.1, hcount⟩

theorem parseWake_ok {texts : Texts} {time : UnixTime}
    (h : parseWake texts pay = .ok (req, time)) : validateWakeRequest req = .ok () := by
  unfold parseWake at h
  cases hrd : WakeRequestPayload.read pay with
  | none => simp [hrd] at h
  | some request' =>
    simp only [hrd, bind, Except.bind, pure, Except.pure] at h
    cases hvalid : validateWakeRequest request' with
    | error e => simp [hvalid] at h
    | ok u =>
      cases htime : fireTime request' with
      | error e => simp [hvalid, htime] at h
      | ok time' =>
        simp only [hvalid, htime, Except.ok.injEq, mk.injEq] at h
        rw [← h.1, hvalid]

theorem entryFor_sound (h : validateWakeRequest req = .ok ()) {inner : Inner} {fireAt : ℕ} :
    (inner.entryFor req fireAt).Sound where
  interval _ hr := (validateWakeRequest_ok h hr).1
  left := by
    show req.repeating.bind WakeRepeat.count ≠ some 0
    cases hrep : req.repeating with
    | none => simp
    | some r => exact (validateWakeRequest_ok h hrep).2

variable {texts : Texts} {inner inner' : Inner}

theorem register_ok {rdgs : Readings} {reg : Registration}
    (h : register texts rdgs pay inner = (.ok reg, inner')) :
    Tick inner [.accepted reg.entry] inner' := by
  unfold register at h
  cases hparse : parseWake texts pay with
  | error e => simp [hparse] at h
  | ok p =>
    obtain ⟨request, time⟩ := p
    simp only [hparse, Inner.admit] at h
    split_ifs at h with hpn
    · simp at h
    rw [mk.injEq, Except.ok.injEq] at h
    obtain ⟨rfl, rfl⟩ := h
    have hvl := parseWake_ok hparse
    refine .accepted inner _ rfl ?_ (entryFor_sound hvl) rfl
    intro p hp heq
    exact hpn (any_eq_true.mpr ⟨p, hp, beq_iff_eq.mpr heq⟩)

theorem register_error {rdgs : Readings} {e : SchedulerError}
    (h : register texts rdgs pay inner = (.error e, inner')) : inner' = inner := by
  unfold register at h
  cases hparse : parseWake texts pay with
  | error e' =>
    simp only [hparse, mk.injEq] at h
    exact h.2.symm
  | ok p =>
    obtain ⟨request, time⟩ := p
    simp only [hparse, Inner.admit] at h
    split_ifs at h with hpn
    · exact (mk.inj h).2.symm
    · simp at h

theorem roundEffect_ticks {r : Round} :
    Ticks inner (roundEffect inner r).occurred (roundEffect inner r).inner := by
  unfold roundEffect
  cases hlp : fireDue r.now inner.entries.length r.readings inner with
  | none => exact .nil inner
  | some p => exact (fireDue_spec hlp).1

theorem roundEffect_occurred (inner : Inner) (r : Round) :
    ∃ fired : List Entry, (roundEffect inner r).occurred = fired.map .fired := by
  unfold roundEffect
  cases fireDue r.now inner.entries.length r.readings inner with
  | none => exact ⟨[], rfl⟩
  | some p => exact ⟨p.1, rfl⟩

inductive Effected (w : World) : Effect → Prop
  | idle {inner : Inner} : Tick w.inner [] inner → Effected w ⟨inner, [], w.worker⟩
  | accepted {inner : Inner} {e : Entry} : Tick w.inner [.accepted e] inner →
      Effected w ⟨inner, [.accepted e], w.worker⟩
  | cancelled (wakeId : String) : Effected w ⟨(w.inner.withdraw wakeId).2,
      (w.inner.withdraw wakeId).1.removed.map .cancelled, w.worker⟩
  | round (r : Round) : Effected w (roundEffect w.inner r)

theorem effected (texts : Texts) (w : World) (op : Op) : Effected w (w.effect texts op) := by
  have heq : Effected w ⟨w.inner, [], w.worker⟩ := .idle (.idle rfl rfl rfl rfl rfl)
  unfold World.effect
  by_cases hlp : w.worker = .looping
  · rw [if_pos hlp]
    exact heq
  rw [if_neg hlp]
  cases op with
  | register rdgs pay =>
    dsimp only
    rcases hcall : Scheduler.register texts rdgs pay w.inner with ⟨result, inner⟩
    cases result with
    | ok registration => exact .accepted (register_ok hcall)
    | error e =>
      rw [register_error hcall]
      exact heq
  | cancel pay =>
    simp only [Scheduler.cancel]
    cases parseCancel texts pay with
    | ok request => exact .cancelled request.wakeId
    | error e => exact heq
  | shutdown => exact .idle (.idle rfl rfl rfl rfl rfl)
  | round r =>
    split_ifs
    · exact .round r
    · exact heq

theorem Effected.ticks {w : World} {effect : Effect} (h : Effected w effect) :
    Ticks w.inner effect.occurred effect.inner := by
  cases h with
  | idle htc | accepted htc => exact .single htc
  | cancelled wid => exact .single (.cancelled w.inner wid)
  | round r => exact roundEffect_ticks

end DshDesktop.Daemon.Scheduler
