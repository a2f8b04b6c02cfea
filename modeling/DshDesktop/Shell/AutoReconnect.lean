import DshDesktop.Daemon.Envelope
import DshDesktop.Library.Backoff
import DshDesktop.Library.Interleaving

/-!
# The reconnecting wrapper around the daemon client

Any number of threads call `AutoReconnectConnector::invoke`. A step is one critical section,
or the start or return of an inner invocation or of the factory. The gate is the `try_lock`
of `recover`, held to the end of the call. The invariant says what the log of a call can be
in each phase and how the backoff record follows the factory calls.
-/

namespace DshDesktop.Shell.AutoReconnect
open Daemon (ErrorCode)

def reconnectBaseInterval : ℕ := 2 * 10 ^ 9
def reconnectMaxInterval : ℕ := 30 * 10 ^ 9

inductive DaemonCommandError
  | notConnected
  | transport (message : String)
  | timeout
  | malformedResponse (message : String)
  | remote (code : ErrorCode) (message : String) (retryable : Bool)

def DaemonCommandError.isConnectionClass : DaemonCommandError → Bool
  | .notConnected | .transport _ | .timeout => true
  | .malformedResponse _ | .remote _ _ _ => false

abbrev Outcome (α : Type*) := Except DaemonCommandError α

structure Entry where
  epoch : ℕ
  free : Bool

/-- What one call has done: the epochs of the connectors it invoked with what they
returned, its factory calls, and how it entered `recover`. -/
structure CallLog (α : Type*) where
  invoked : List ℕ
  outcomes : List (Outcome α)
  factoryCalls : ℕ
  entered : Option Entry

inductive Phase (κ : Type*)
  | idle
  | invoking (connector : κ) (epoch : ℕ)
  | failed (epoch : ℕ) (error : DaemonCommandError)
  | locked (epoch : ℕ) (error : DaemonCommandError)
  | checked (error : DaemonCommandError)
  | admitted (error : DaemonCommandError)
  | connecting (error : DaemonCommandError)
  | connected (fresh : κ)
  | resetDone (fresh : κ)
  | retrying (connector : κ)

structure Thread (κ α : Type*) where
  phase : Phase κ
  log : CallLog α
  finished : List (CallLog α × Outcome α)

structure Attempt where
  admitted : ℕ
  started : Option ℕ

/-- `epoch` counts on where the source's counter wraps, after `2 ^ 64` reconnects. -/
structure World (κ : Type*) where
  connector : κ
  epoch : ℕ
  held : Bool
  backoff : Backoff
  time : ℕ
  attempts : List Attempt

inductive Input (κ α : Type*)
  | invoke
  | returns (outcome : Outcome α)
  | factory (result : Option κ)
  | next

variable {κ α : Type*}

def CallLog.empty : CallLog α := ⟨[], [], 0, none⟩

def CallLog.invoke (log : CallLog α) (epoch : ℕ) : CallLog α :=
  { log with invoked := log.invoked ++ [epoch] }

def CallLog.returned (log : CallLog α) (outcome : Outcome α) : CallLog α :=
  { log with outcomes := log.outcomes ++ [outcome] }

def CallLog.enter (log : CallLog α) (epoch : ℕ) (free : Bool) : CallLog α :=
  { log with entered := some ⟨epoch, free⟩ }

def Thread.finish (t : Thread κ α) (log : CallLog α) (outcome : Outcome α) : Thread κ α :=
  ⟨.idle, .empty, (log, outcome) :: t.finished⟩

variable (w : World κ)

def World.release : World κ := { w with held := false }

def World.firstReturns (t : Thread κ α) (epoch : ℕ) (outcome : Outcome α) : World κ × Thread κ α :=
  let log := t.log.returned outcome
  match outcome with
  | .ok _ => (w, t.finish log outcome)
  | .error e =>
    if e.isConnectionClass then (w, { t with phase := .failed epoch e, log := log })
    else (w, t.finish log outcome)

def World.tryLock (t : Thread κ α) (epoch : ℕ) (e : DaemonCommandError) : World κ × Thread κ α :=
  if w.held then (w, t.finish (t.log.enter w.epoch false) (.error e))
  else
    ({ w with held := true }, { t with phase := .locked epoch e, log := t.log.enter w.epoch true })

def World.compareEpoch (t : Thread κ α) (epoch : ℕ) (e : DaemonCommandError) :
    World κ × Thread κ α :=
  if w.epoch ≠ epoch then
    (w, { t with phase := .retrying w.connector, log := t.log.invoke w.epoch })
  else (w, { t with phase := .checked e })

def World.beginAttempt (t : Thread κ α) (e : DaemonCommandError) : World κ × Thread κ α :=
  match w.backoff.begin w.time with
  | (false, _) => (w.release, t.finish t.log (.error e))
  | (true, backoff) =>
    ({ w with backoff := backoff, attempts := ⟨w.time, none⟩ :: w.attempts },
      { t with phase := .admitted e })

def markStarted (now : ℕ) : List Attempt → List Attempt
  | [] => []
  | a :: earlier => { a with started := some now } :: earlier

def World.startFactory (t : Thread κ α) (e : DaemonCommandError) : World κ × Thread κ α :=
  ({ w with attempts := markStarted w.time w.attempts },
    { t with
      phase := .connecting e
      log := { t.log with factoryCalls := t.log.factoryCalls + 1 } })

def World.factoryReturns (t : Thread κ α) (e : DaemonCommandError) : Option κ → World κ × Thread κ α
  | none => (w.release, t.finish t.log (.error e))
  | some fresh => (w, { t with phase := .connected fresh })

def World.resetBackoff (t : Thread κ α) (fresh : κ) : World κ × Thread κ α :=
  ({ w with backoff := w.backoff.reset w.time, attempts := [] },
    { t with phase := .resetDone fresh })

def World.installFresh (t : Thread κ α) (fresh : κ) : World κ × Thread κ α :=
  ({ w with connector := fresh, epoch := w.epoch + 1 },
    { t with phase := .retrying fresh, log := t.log.invoke (w.epoch + 1) })

def World.retryReturns (t : Thread κ α) (outcome : Outcome α) : World κ × Thread κ α :=
  (w.release, t.finish (t.log.returned outcome) outcome)

def World.next (t : Thread κ α) : World κ × Thread κ α :=
  match t.phase with
  | .failed epoch e => w.tryLock t epoch e
  | .locked epoch e => w.compareEpoch t epoch e
  | .checked e => w.beginAttempt t e
  | .admitted e => w.startFactory t e
  | .connected fresh => w.resetBackoff t fresh
  | .resetDone fresh => w.installFresh t fresh
  | _ => (w, t)

def World.act (t : Thread κ α) : Input κ α → World κ × Thread κ α
  | .invoke =>
    match t.phase with
    | .idle =>
      (w, { t with phase := .invoking w.connector w.epoch, log := CallLog.empty.invoke w.epoch })
    | _ => (w, t)
  | .returns outcome =>
    match t.phase with
    | .invoking _ epoch => w.firstReturns t epoch outcome
    | .retrying _ => w.retryReturns t outcome
    | _ => (w, t)
  | .factory result =>
    match t.phase with
    | .connecting e => w.factoryReturns t e result
    | _ => (w, t)
  | .next => w.next t

def World.tick (d : ℕ) : World κ := { w with time := w.time + d }

abbrev Event (κ α : Type*) := Interleaving.Event (Input κ α) ℕ

abbrev Pool (κ α : Type*) := Interleaving.Pool (World κ) (Thread κ α)

def step : Pool κ α → Event κ α → Pool κ α := Interleaving.step World.act World.tick

def Thread.start : Thread κ α := ⟨.idle, .empty, []⟩

def withBaseInterval (initial : κ) (base now : ℕ) : World κ :=
  { connector := initial
    epoch := 0
    held := false
    backoff := ⟨max base reconnectMaxInterval, base, base, now⟩
    time := now
    attempts := [] }

def run (initial : κ) (base now : ℕ) (events : List (Event κ α)) : Pool κ α :=
  Runs.run step ⟨withBaseInterval initial base now, fun _ => .start⟩ events

variable {κ α : Type*}
variable {epoch base current later now : ℕ} {e : DaemonCommandError} {log : CallLog α}
  {outcome : Outcome α}
  {phase : Phase κ} {r : World κ × Thread κ α} {w w' : World κ} {tries : List Attempt}
  {connector fresh : κ}

def Phase.holdsGate : Phase κ → Bool
  | .idle | .invoking _ _ | .failed _ _ => false
  | _ => true

inductive Finished : CallLog α → Outcome α → Prop
  | direct (epoch : ℕ) (outcome : Outcome α)
      (other : ∀ e, outcome = .error e → e.isConnectionClass = false) :
      Finished ⟨[epoch], [outcome], 0, none⟩ outcome
  | busy (epoch current : ℕ) (e : DaemonCommandError) (lost : e.isConnectionClass = true) :
      Finished ⟨[epoch], [.error e], 0, some ⟨current, false⟩⟩ (.error e)
  | late (epoch current fresh : ℕ) (e : DaemonCommandError) (outcome : Outcome α)
      (lost : e.isConnectionClass = true) (replaced : fresh ≠ epoch) :
      Finished ⟨[epoch, fresh], [.error e, outcome], 0, some ⟨current, true⟩⟩ outcome
  | waiting (epoch : ℕ) (e : DaemonCommandError) (lost : e.isConnectionClass = true) :
      Finished ⟨[epoch], [.error e], 0, some ⟨epoch, true⟩⟩ (.error e)
  | down (epoch : ℕ) (e : DaemonCommandError) (lost : e.isConnectionClass = true) :
      Finished ⟨[epoch], [.error e], 1, some ⟨epoch, true⟩⟩ (.error e)
  | recovered (epoch fresh : ℕ) (e : DaemonCommandError) (outcome : Outcome α)
      (lost : e.isConnectionClass = true) :
      Finished ⟨[epoch, fresh], [.error e, outcome], 1, some ⟨epoch, true⟩⟩ outcome

inductive InFlight (current : ℕ) : Phase κ → CallLog α → Prop
  | idle : InFlight current .idle .empty
  | invoking (connector : κ) {epoch : ℕ} (old : epoch ≤ current) :
      InFlight current (.invoking connector epoch) ⟨[epoch], [], 0, none⟩
  | failed {epoch : ℕ} {e : DaemonCommandError} (lost : e.isConnectionClass = true)
      (old : epoch ≤ current) :
      InFlight current (.failed epoch e) ⟨[epoch], [.error e], 0, none⟩
  | locked {epoch entry : ℕ} {e : DaemonCommandError} (lost : e.isConnectionClass = true)
      (old : epoch ≤ entry) (entered : entry ≤ current) :
      InFlight current (.locked epoch e) ⟨[epoch], [.error e], 0, some ⟨entry, true⟩⟩
  | checked {epoch : ℕ} {e : DaemonCommandError} (lost : e.isConnectionClass = true) :
      InFlight current (.checked e) ⟨[epoch], [.error e], 0, some ⟨epoch, true⟩⟩
  | admitted {epoch : ℕ} {e : DaemonCommandError} (lost : e.isConnectionClass = true) :
      InFlight current (.admitted e) ⟨[epoch], [.error e], 0, some ⟨epoch, true⟩⟩
  | connecting {epoch : ℕ} {e : DaemonCommandError} (lost : e.isConnectionClass = true) :
      InFlight current (.connecting e) ⟨[epoch], [.error e], 1, some ⟨epoch, true⟩⟩
  | connected {epoch : ℕ} {e : DaemonCommandError} (lost : e.isConnectionClass = true) (fresh : κ) :
      InFlight current (.connected fresh) ⟨[epoch], [.error e], 1, some ⟨epoch, true⟩⟩
  | resetDone {epoch : ℕ} {e : DaemonCommandError} (lost : e.isConnectionClass = true) (fresh : κ) :
      InFlight current (.resetDone fresh) ⟨[epoch], [.error e], 1, some ⟨epoch, true⟩⟩
  | retryingLate {epoch entry fresh : ℕ} {e : DaemonCommandError}
      (lost : e.isConnectionClass = true) (replaced : fresh ≠ epoch) (connector : κ) :
      InFlight current (.retrying connector)
        ⟨[epoch, fresh], [.error e], 0, some ⟨entry, true⟩⟩
  | retryingFresh {epoch fresh : ℕ} {e : DaemonCommandError} (lost : e.isConnectionClass = true)
      (connector : κ) :
      InFlight current (.retrying connector) ⟨[epoch, fresh], [.error e], 1, some ⟨epoch, true⟩⟩

theorem InFlight.mono (h : InFlight current phase log) (hle : current ≤ later) :
    InFlight later phase log := by
  cases h with
  | idle => exact .idle
  | invoking connector old => exact .invoking connector (le_trans old hle)
  | failed lost old => exact .failed lost (le_trans old hle)
  | locked lost old entered => exact .locked lost old (le_trans entered hle)
  | checked lost => exact .checked lost
  | admitted lost => exact .admitted lost
  | connecting lost => exact .connecting lost
  | connected lost fresh => exact .connected lost fresh
  | resetDone lost fresh => exact .resetDone lost fresh
  | retryingLate lost replaced connector => exact .retryingLate lost replaced connector
  | retryingFresh lost connector => exact .retryingFresh lost connector

def Ordered : ℕ → List Attempt → Prop
  | _, [] => True
  | now, a :: earlier =>
    a.admitted ≤ now ∧ (∀ began, a.started = some began → a.admitted ≤ began ∧ began ≤ now) ∧
      Ordered a.admitted earlier

theorem Ordered.mono (h : Ordered now tries) (hle : now ≤ later) : Ordered later tries := by
  cases tries with
  | nil => trivial
  | cons a earl =>
    obtain ⟨hadm, hst, hps⟩ := h
    refine ⟨le_trans hadm hle, ?_, hps⟩
    intro began hbg
    obtain ⟨haf, hpre⟩ := hst began hbg
    exact ⟨haf, le_trans hpre hle⟩

theorem Ordered.markStarted (h : Ordered now tries) : Ordered now (markStarted now tries) := by
  cases tries with
  | nil => trivial
  | cons a earl =>
    obtain ⟨hadm, -, hps⟩ := h
    refine ⟨hadm, ?_, hps⟩
    intro began hbg
    cases hbg
    exact ⟨hadm, le_rfl⟩

theorem markStarted_admitted :
    (markStarted now tries).map Attempt.admitted = tries.map Attempt.admitted := by
  cases tries with
  | nil | cons a earl => rfl

structure Books (base : ℕ) (w : World κ) : Prop where
  follows : w.backoff.Follows (w.attempts.map Attempt.admitted)
  ordered : Ordered w.time w.attempts
  limits : w.backoff.base = base ∧ w.backoff.cap = max base reconnectMaxInterval

structure Kept (w : World κ) (t : Thread κ α) : Prop where
  inFlight : InFlight w.epoch t.phase t.log
  finished : ∀ f ∈ t.finished, Finished f.1 f.2
  gate : t.phase.holdsGate = true → w.held = true

structure Sound (base : ℕ) (w : World κ) (t : Thread κ α) (r : World κ × Thread κ α) : Prop where
  books : Books base r.1
  kept : Kept r.1 r.2
  epoch : w.epoch ≤ r.1.epoch
  held : t.phase.holdsGate = false → w.held = true → r.1.held = true
  gate : r.2.phase.holdsGate = true → t.phase.holdsGate = true ∨ w.held = false

section
variable {t : Thread κ α} (hw : Books base w) (ht : Kept w t)
include hw ht

theorem sound_stay : Sound base w t (w, t) := ⟨hw, ht, le_rfl, fun _ h => h, fun h => .inl h⟩

omit hw in
theorem finished_finish (h : Finished log outcome) :
    ∀ f ∈ (t.finish log outcome).finished, Finished f.1 f.2 := by
  intro f hf
  rcases List.mem_cons.mp hf with rfl | hf
  · exact h
  · exact ht.finished f hf

theorem sound_finish (h : Finished log outcome) : Sound base w t (w, t.finish log outcome) where
  books := hw
  kept := ⟨.idle, finished_finish ht h, fun h => by cases h⟩
  epoch := le_rfl
  held := fun _ h => h
  gate := fun h => by cases h

theorem sound_release (hgt : t.phase.holdsGate) (h : Finished log outcome) :
    Sound base w t (w.release, t.finish log outcome) where
  books := ⟨hw.follows, hw.ordered, hw.limits⟩
  kept := ⟨.idle, finished_finish ht h, fun h => by cases h⟩
  epoch := le_rfl
  held := fun hfr => by rw [hgt] at hfr; cases hfr
  gate := fun h => by cases h

omit hw in
theorem sound_inside (hgt : t.phase.holdsGate) (hbk : Books base w')
    (hep : w.epoch ≤ w'.epoch) (hhl : w'.held = w.held) (hlog : InFlight w'.epoch phase log) :
    Sound base w t (w', { t with phase := phase, log := log }) where
  books := hbk
  kept := ⟨hlog, ht.finished, fun _ => hhl.trans (ht.gate hgt)⟩
  epoch := hep
  held := fun hfr => by rw [hgt] at hfr; cases hfr
  gate := fun _ => .inl hgt

theorem sound_invoke :
    Sound base w t (w, { t with
      phase := .invoking w.connector w.epoch
      log := CallLog.empty.invoke w.epoch }) where
  books := hw
  kept := ⟨.invoking w.connector le_rfl, ht.finished, fun h => by cases h⟩
  epoch := le_rfl
  held := fun _ h => h
  gate := fun h => by cases h

theorem sound_firstReturns (hph : t.phase = .invoking connector epoch) (outcome : Outcome α) :
    Sound base w t (w.firstReturns t epoch outcome) := by
  have hfly := ht.inFlight
  obtain ⟨phase, log, finished⟩ := t
  cases hph
  cases hfly with
  | invoking _ old =>
    rw [World.firstReturns.eq_def]
    cases outcome with
    | ok value =>
      exact sound_finish hw ht (.direct epoch (.ok value) fun e he => by cases he)
    | error e =>
      dsimp only
      split_ifs with hclass
      · exact ⟨hw, ⟨.failed hclass old, ht.finished, fun h => by cases h⟩, le_rfl, fun _ h => h,
          fun h => by cases h⟩
      · refine sound_finish hw ht (.direct epoch (.error e) fun e' he => ?_)
        cases he
        exact eq_false_of_ne_true hclass

theorem sound_tryLock (hph : t.phase = .failed epoch e) : Sound base w t (w.tryLock t epoch e) := by
  have hfly := ht.inFlight
  obtain ⟨phase, log, finished⟩ := t
  cases hph
  cases hfly with
  | failed lost old =>
    rw [World.tryLock]
    split_ifs with hhl
    · exact sound_finish hw ht (.busy epoch w.epoch e lost)
    · exact ⟨⟨hw.follows, hw.ordered, hw.limits⟩,
        ⟨.locked lost old le_rfl, ht.finished, fun _ => rfl⟩, le_rfl, fun _ _ => rfl,
          fun _ => .inr (eq_false_of_ne_true hhl)⟩

theorem sound_compareEpoch (hph : t.phase = .locked epoch e) :
    Sound base w t (w.compareEpoch t epoch e) := by
  have hfly := ht.inFlight
  obtain ⟨phase, log, finished⟩ := t
  cases hph
  cases hfly with
  | locked lost old entered =>
    rename_i entry
    rw [World.compareEpoch]
    split_ifs with hep
    · exact sound_inside ht rfl hw le_rfl rfl (.retryingLate lost hep w.connector)
    · -- the epoch of the entry lies between two equal epochs
      have hen : entry = epoch := by omega
      subst hen
      exact sound_inside ht rfl hw le_rfl rfl (.checked lost)

theorem sound_beginAttempt (hph : t.phase = .checked e) : Sound base w t (w.beginAttempt t e) := by
  have hfly := ht.inFlight
  obtain ⟨phase, log, finished⟩ := t
  cases hph
  cases hfly with
  | checked lost =>
    rename_i epoch
    rw [World.beginAttempt]
    cases hbg : w.backoff.begin w.time with
    | mk allowed backoff =>
      cases allowed with
      | false => exact sound_release hw ht rfl (.waiting epoch e lost)
      | true =>
        have hfol := Backoff.follows_begin hw.follows (by rw [hbg])
        have hlm := Backoff.begin_limits w.backoff w.time
        rw [hbg] at hfol hlm
        have hkp : backoff.base = base ∧ backoff.cap = max base reconnectMaxInterval :=
          ⟨hlm.1.trans hw.limits.1, hlm.2.trans hw.limits.2⟩
        refine sound_inside ht rfl ⟨hfol, ⟨le_rfl, ?_, hw.ordered⟩, hkp⟩ le_rfl rfl
          (.admitted lost)
        intro began hbe
        cases hbe

theorem sound_startFactory (hph : t.phase = .admitted e) : Sound base w t (w.startFactory t e) := by
  have hfly := ht.inFlight
  obtain ⟨phase, log, finished⟩ := t
  cases hph
  cases hfly with
  | admitted lost =>
    refine sound_inside ht rfl ⟨?_, hw.ordered.markStarted, hw.limits⟩ le_rfl rfl (.connecting lost)
    rw [markStarted_admitted]
    exact hw.follows

theorem sound_factoryReturns (hph : t.phase = .connecting e) (result : Option κ) :
    Sound base w t (w.factoryReturns t e result) := by
  have hfly := ht.inFlight
  obtain ⟨phase, log, finished⟩ := t
  cases hph
  cases hfly with
  | connecting lost =>
    cases result with
    | none => exact sound_release hw ht rfl (.down _ e lost)
    | some fresh => exact sound_inside ht rfl hw le_rfl rfl (.connected lost fresh)

theorem sound_resetBackoff (hph : t.phase = .connected fresh) :
    Sound base w t (w.resetBackoff t fresh) := by
  have hfly := ht.inFlight
  obtain ⟨phase, log, finished⟩ := t
  cases hph
  cases hfly with
  | connected lost _ =>
    exact sound_inside ht rfl ⟨Backoff.follows_reset hw.follows w.time, trivial, hw.limits⟩
      le_rfl rfl (.resetDone lost fresh)

theorem sound_installFresh (hph : t.phase = .resetDone fresh) :
    Sound base w t (w.installFresh t fresh) := by
  have hfly := ht.inFlight
  obtain ⟨phase, log, finished⟩ := t
  cases hph
  cases hfly with
  | resetDone lost _ =>
    exact sound_inside ht rfl ⟨hw.follows, hw.ordered, hw.limits⟩ (Nat.le_succ _) rfl
      (.retryingFresh lost fresh)

theorem sound_retryReturns (hph : t.phase = .retrying connector) (outcome : Outcome α) :
    Sound base w t (w.retryReturns t outcome) := by
  have hfly := ht.inFlight
  obtain ⟨phase, log, finished⟩ := t
  cases hph
  cases hfly with
  | retryingLate lost replaced _ =>
    exact sound_release hw ht rfl (.late _ _ _ _ outcome lost replaced)
  | retryingFresh lost _ => exact sound_release hw ht rfl (.recovered _ _ _ outcome lost)

theorem sound_next : Sound base w t (w.next t) := by
  unfold World.next
  cases hph : t.phase with
  | failed epoch e => exact sound_tryLock hw ht hph
  | locked epoch e => exact sound_compareEpoch hw ht hph
  | checked e => exact sound_beginAttempt hw ht hph
  | admitted e => exact sound_startFactory hw ht hph
  | connected fresh => exact sound_resetBackoff hw ht hph
  | resetDone fresh => exact sound_installFresh hw ht hph
  | _ => exact sound_stay hw ht

theorem sound_act (input : Input κ α) : Sound base w t (w.act t input) := by
  cases input with
  | next => exact sound_next hw ht
  | invoke =>
    unfold World.act
    cases hph : t.phase with
    | idle => exact sound_invoke hw ht
    | _ => exact sound_stay hw ht
  | returns outcome =>
    unfold World.act
    cases hph : t.phase with
    | invoking connector epoch => exact sound_firstReturns hw ht hph outcome
    | retrying connector => exact sound_retryReturns hw ht hph outcome
    | _ => exact sound_stay hw ht
  | factory result =>
    unfold World.act
    cases hph : t.phase with
    | connecting e => exact sound_factoryReturns hw ht hph result
    | _ => exact sound_stay hw ht

end

theorem books_tick (hw : Books base w) (d : ℕ) : Books base (w.tick d) :=
  ⟨hw.follows, hw.ordered.mono (Nat.le_add_right _ _), hw.limits⟩

def Excluded (t u : Thread κ α) : Prop :=
  ¬ (t.phase.holdsGate = true ∧ u.phase.holdsGate = true)

theorem kept_other {t u : Thread κ α} (h : Sound base w t r) (hu : Kept w u)
    (hec : Excluded t u) : Kept r.1 u where
  inFlight := hu.inFlight.mono h.epoch
  finished := hu.finished
  gate := by
    intro hgt
    have hfr : t.phase.holdsGate = false := by
      cases htg : t.phase.holdsGate with
      | false => rfl
      | true => exact absurd ⟨htg, hgt⟩ hec
    exact h.held hfr (hu.gate hgt)

theorem excluded_other {t u : Thread κ α} (h : Sound base w t r) (hu : Kept w u)
    (hec : Excluded t u) : Excluded r.2 u := by
  intro hbt
  rcases h.gate hbt.1 with htg | hfr
  · exact hec ⟨htg, hbt.2⟩
  · have hhl := hu.gate hbt.2
    rw [hfr] at hhl
    cases hhl

theorem kept_run {initial : κ} {evs : List (Event κ α)} : Interleaving.Holds (Books base)
    Kept (run initial base now evs) ∧
      Interleaving.Apart Excluded (run initial base now evs) := by
  refine Interleaving.holds_apart_run ?_ ?_ ?_ (fun w d hw => books_tick hw d) ?_ evs
    ⟨?_, ?_⟩ ?_
  · intro w t input hw ht
    have hsn := sound_act hw ht input
    exact ⟨hsn.books, hsn.kept⟩
  · intro w t input u hw ht hu htu _
    exact kept_other (sound_act hw ht input) hu htu
  · intro w t input u hw ht hu htu _
    have hec := excluded_other (sound_act hw ht input) hu htu
    exact ⟨hec, fun hbt => hec hbt.symm⟩
  · intro w d u _ hu
    exact ⟨hu.inFlight, hu.finished, hu.gate⟩
  · refine ⟨⟨le_max_left _ _, ?_, ?_, trivial⟩, trivial, rfl, rfl⟩
    · change base = min (base * 2 ^ 0) (max base reconnectMaxInterval)
      omega
    · intro t earl ht
      cases ht
  · intro t
    refine ⟨.idle, ?_, ?_⟩
    · intro f hf
      cases hf
    · intro hgt
      cases hgt
  · intro t u _ hbt
    cases hbt.1

def Phase.Connecting (phase : Phase κ) : Prop := ∃ e, phase = .connecting e

variable (log : CallLog α) {answer : Outcome α}

def CallLog.Bounded : Prop := log.invoked.length ≤ 2 ∧ log.factoryCalls ≤ 1

def PassesOn (answer : Outcome α) : Prop :=
  ∀ first later, log.outcomes = first :: later →
    (∀ e, first = .error e → e.isConnectionClass = false) →
    answer = first ∧ log.factoryCalls = 0 ∧ log.invoked.length = 1

theorem InFlight.bounded {log : CallLog α} (h : InFlight current phase log) : log.Bounded := by
  cases h <;> simp [CallLog.Bounded, CallLog.empty]

section
variable {log : CallLog α} (h : Finished log answer)
include h

theorem Finished.bounded : log.Bounded := by
  cases h <;> simp [CallLog.Bounded]

theorem Finished.direct_or_lost : (∃ epoch, log = ⟨[epoch], [answer], 0, none⟩) ∨
      ∃ e later, log.outcomes = .error e :: later ∧ e.isConnectionClass := by
  cases h with
  | direct epoch outcome other => exact .inl ⟨epoch, rfl⟩
  | busy epoch current e lost | late epoch current fresh e outcome lost replaced
  | waiting epoch e lost | down epoch e lost | recovered epoch fresh e outcome lost =>
    exact .inr ⟨e, _, rfl, lost⟩

theorem Finished.passesOn : PassesOn log answer := by
  intro first later hfr hot
  rcases h.direct_or_lost with ⟨epoch, rfl⟩ | ⟨e, rest, hou, hlost⟩
  · cases hfr
    exact ⟨rfl, rfl, rfl⟩
  · rw [hou] at hfr
    cases hfr
    rw [hot e rfl] at hlost
    cases hlost

end

theorem reconnect_bounded (initial : κ) (base now : ℕ) (events : List (Event κ α)) :
    let p := run initial base now events
    (∀ i j, i ≠ j → ¬ ((p.thread i).phase.Connecting ∧ (p.thread j).phase.Connecting)) ∧
      (∀ i, (p.thread i).log.Bounded ∧
        ∀ f ∈ (p.thread i).finished, f.1.Bounded ∧ PassesOn f.1 f.2) ∧
      Backoff.Spaced base (max base reconnectMaxInterval)
        (p.shared.attempts.map Attempt.admitted) ∧
      Ordered p.shared.time p.shared.attempts := by
  intro p
  obtain ⟨⟨hbk, hth⟩, hap⟩ := kept_run
  refine ⟨?_, ?_, ?_, hbk.ordered⟩
  · intro i j hij hbt
    obtain ⟨⟨e, hi⟩, ⟨e', hj⟩⟩ := hbt
    refine hap i j hij ⟨?_, ?_⟩
    · change (p.thread i).phase.holdsGate = true
      rw [hi]
      rfl
    · change (p.thread j).phase.holdsGate = true
      rw [hj]
      rfl
  · intro i
    refine ⟨(hth i).inFlight.bounded, fun f hf => ?_⟩
    have hfn := (hth i).finished f hf
    exact ⟨hfn.bounded, hfn.passesOn⟩
  · have hsp := hbk.follows.spaced
    rw [hbk.limits.1, hbk.limits.2] at hsp
    exact hsp

def lostConnection : DaemonCommandError := .transport "client worker is gone"

def reachesFactory (i : ℕ) : List (Event Unit Unit) :=
  [.act i .invoke, .act i (.returns (.error lostConnection)), .act i .next, .act i .next,
    .act i .next]

/-- The first factory call begins 1.9 s after its admission; the next one is admitted 2 s
after the first and begins at once. -/
theorem factory_starts_too_close :
    ¬ Backoff.Spaced reconnectBaseInterval (max reconnectBaseInterval reconnectMaxInterval)
      ((run () reconnectBaseInterval 0 (reachesFactory 0 ++
        [.surroundings (19 * 10 ^ 8), .act 0 .next, .act 0 (.factory none),
          .surroundings (10 ^ 8)] ++ reachesFactory 1 ++
        [.act 1 .next])).shared.attempts.filterMap Attempt.started) := by
  decide

/-- The call invoked a second connector, of another epoch, and answered with its outcome. -/
def RetriedOnFresh (answer : Outcome α) : Prop :=
  ∃ epoch fresh error, fresh ≠ epoch ∧ log.invoked = [epoch, fresh] ∧ log.outcomes = [error, answer]

theorem late_victim_retried_iff (initial : κ) (base now : ℕ) (events : List (Event κ α))
    (i : ℕ) {log : CallLog α} {answer : Outcome α} {entry : Entry} {epoch : ℕ}
    (hfinished : (log, answer) ∈ ((run initial base now events).thread i).finished)
    (hentered : log.entered = some entry) (hfirst : log.invoked.head? = some epoch)
    (hlate : entry.epoch ≠ epoch) : RetriedOnFresh log answer ↔ entry.free = true := by
  obtain ⟨⟨-, hth⟩, -⟩ := kept_run
  have h : Finished log answer := (hth i).finished _ hfinished
  cases h with
  | direct _ _ other => cases hentered
  | busy first current e lost =>
    cases hentered
    constructor
    · intro hrt
      obtain ⟨_, _, _, _, hin, -⟩ := hrt
      cases hin
    · intro hfr
      cases hfr
  | late first current fresh e outcome lost replaced =>
    cases hentered
    exact ⟨fun _ => rfl, fun _ => ⟨first, fresh, _, replaced, rfl, rfl⟩⟩
  | waiting first e lost | down first e lost | recovered first fresh e outcome lost =>
    cases hentered
    cases hfirst
    exact absurd rfl hlate

def firstInstalls : List (Event Unit Unit) :=
  [.act 1 .invoke, .act 1 (.returns (.error lostConnection))] ++ reachesFactory 0 ++
    [.act 0 .next, .act 0 (.factory (some ())), .act 0 .next, .act 0 .next]

theorem victim_after_retry_retried : RetriedOnFresh (α := Unit)
      ⟨[0, 1], [.error lostConnection, .ok ()], 0, some ⟨1, true⟩⟩ (.ok ()) :=
  (late_victim_retried_iff () reconnectBaseInterval 0
    (firstInstalls ++ [.act 0 (.returns (.ok ())), .act 1 .next, .act 1 .next,
      .act 1 (.returns (.ok ()))]) 1 List.mem_cons_self rfl rfl (by decide)).mpr rfl

/-- The second call enters `recover` with the fresh connector installed, while the first
one still waits for its own retry: it answers with its original error. -/
theorem victim_during_retry_left_behind :
    (⟨[0], [.error lostConnection], 0, some ⟨1, false⟩⟩, .error lostConnection) ∈
        ((run () reconnectBaseInterval 0
          (firstInstalls ++ [.act 1 .next])).thread 1).finished ∧
      ¬ RetriedOnFresh (α := Unit) ⟨[0], [.error lostConnection], 0, some ⟨1, false⟩⟩
        (.error lostConnection) := by
  refine ⟨List.mem_cons_self, ?_⟩
  intro hrt
  obtain ⟨epoch, fresh, error, -, hin, -⟩ := hrt
  cases hin

end DshDesktop.Shell.AutoReconnect
