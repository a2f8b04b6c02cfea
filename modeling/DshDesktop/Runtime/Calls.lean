import DshDesktop.Library.Interleaving
import DshDesktop.Runtime.Supervisor

/-!
# The calls of the managed runtime, step by step

A call to the supervisor takes the mutex several times and works without it in between.
`Phase` says where a caller is, with its live local variables, and `act` is one step: at
most one critical section with the local work next to it. `Acted` lists the ways in which a
step changes the shared state and the caller's phase, with what the step has checked.
-/

namespace DshDesktop.Runtime
open Interleaving

structure Readings where
  machine : Machine
  waitFails : Bool
  crashClock : Option ℕ
  launchClock : Option ℕ
  reportClock : Option ℕ
  spawn : Except ManagedRuntimeError Unit
  line : Option String
  probe : Bool
  deadlinePassed : Bool
  gracePassed : Bool
  stop : Option StopDisposition
  outlives : Bool
  released : Bool

/-- Whether members of a process group are left that was not killed. A job object kills its
processes when the handle is dropped. -/
def Readings.membersLeft (r : Readings) : Bool := !r.machine.windows && r.outlives

/-- `ManagedProcess::stop` with the drop of the handle. A child that has exited or exits in
time after `SIGTERM` is not followed by `SIGKILL`. -/
def Readings.stopped (r : Readings) (pid : ℕ) : Change :=
  ⟨pid, false, r.membersLeft && r.stop == some .graceful⟩

inductive Answer
  | report (r : ManagedRuntimeReport)
  | binding (b : VerifiedSurfaceBinding)

inductive Purpose
  | start
  | status
  | binding (expectedGeneration : ℕ)
  | restart
  deriving DecidableEq

inductive Phase
  | idle
  | starting (environmentId : String) (autoRestart : Bool) (spec : LaunchSpec)
  | checkingStatus (environmentId : String)
  | reportingStatus (environmentId : String)
  | checkingBinding (environmentId : String) (expected : ℕ)
  | readingBinding (environmentId : String) (expected : ℕ)
  | stopRequested (environmentId : String) (expected : ℕ)
  | stoppingTree (environmentId : String) (expected pid : ℕ) (endpoint : Option ManagedEndpoint)
  | recordingStopFailure (environmentId : String) (expected : ℕ)
  | recordingStop (environmentId : String) (expected : ℕ) (disposition : StopDisposition)
      (released : Bool)
  | restartRequested (environment : ManagedEnvironment) (expected : ℕ)
  | restarting (environment : ManagedEnvironment) (pid : Option ℕ) (retained : Option LaunchSpec)
  | spawning (purpose : Purpose) (environmentId : String) (spec : LaunchSpec)
  | awaiting (purpose : Purpose) (environmentId : String) (generation : ℕ)
      (expectedPort : Option ℕ)
  | awaitingMarker (purpose : Purpose) (environmentId : String) (generation port : ℕ)
  | awaitingGrace (purpose : Purpose) (environmentId : String) (generation port : ℕ)
  | confirming (purpose : Purpose) (environmentId : String) (generation : ℕ)
      (candidate : ParsedCandidate)
  | publishing (purpose : Purpose) (environmentId : String) (generation : ℕ)
      (candidate : ParsedCandidate)
  | failing (purpose : Purpose) (environmentId : String) (generation : ℕ)
      (error stale : ManagedRuntimeError)
  | cleaning (purpose : Purpose) (environmentId : String) (pid : ℕ) (error : ManagedRuntimeError)
  | returned (outcome : Except ManagedRuntimeError Answer)

inductive Call
  | start (environment : ManagedEnvironment)
  | status (environment : ManagedEnvironment)
  | binding (environment : ManagedEnvironment) (expected : ℕ)
  | stop (environment : ManagedEnvironment) (expected : ℕ)
  | restart (environment : ManagedEnvironment) (expected : ℕ)

def begin (m : Machine) : Call → Phase
  | .start e =>
    match buildLaunchSpec m e with
    | .error error => .returned (.error error)
    | .ok spec => .starting e.id e.autoRestartOnCrash spec
  | .status e =>
    if !e.isManaged then .returned (.error .notManaged) else .checkingStatus e.id
  | .binding e expected =>
    if !e.isManaged then .returned (.error .notManaged)
    else if expected = 0 then .returned (.error .staleGeneration)
    else .checkingBinding e.id expected
  | .stop e expected =>
    if !e.isManaged then .returned (.error .notManaged) else .stopRequested e.id expected
  | .restart e expected =>
    if !e.isManaged then .returned (.error .notManaged) else .restartRequested e expected

/-- Where a call goes once `start_with_spec` has a result: a binding call
ignores it and reads the record. -/
def Purpose.finish (environmentId : String) (result : Except ManagedRuntimeError Answer) :
    Purpose → Phase
  | .binding expected => .readingBinding environmentId expected
  | .start | .status | .restart => .returned result

namespace Supervisor

variable (s : Supervisor) (environmentId : String)

def foreign : Bool :=
  s.environmentId.any fun id => id != environmentId

def answer (clock : Option ℕ) : Except ManagedRuntimeError Answer :=
  (s.report environmentId clock).map Answer.report

def retainedAnswer (clock : Option ℕ) : Except ManagedRuntimeError Answer :=
  if s.environmentId = some environmentId then s.answer environmentId clock
  else .error .conflict

def restartSpec : Option LaunchSpec :=
  if s.autoRestartEligible then s.retainedSpec else none

def generationIsAlive (generation : ℕ) : Bool :=
  s.environmentId == some environmentId && s.generation == generation && s.process.isSome

def owns (generation : ℕ) : Bool :=
  s.environmentId == some environmentId && s.generation == generation

def verifiedBinding (expected : ℕ) : Except ManagedRuntimeError VerifiedSurfaceBinding :=
  if s.generation ≠ expected then .error .staleGeneration
  else if s.environmentId ≠ some environmentId ∨ s.state ≠ some .healthy ∨ s.process = none then
    .error .surfaceBindingUnavailable
  else
    match s.endpoint with
    | none => .error .surfaceBindingUnavailable
    | some endpoint =>
      match s.bootstrapUrl with
      | none => .error .surfaceBindingUnavailable
      | some url => .ok ⟨s.generation, endpoint.port, url⟩

end Supervisor

namespace ManagedRuntimeState

def refreshed (r : Readings) (w : ManagedRuntimeState) : ManagedRuntimeState :=
  w.refreshExit r.waitFails r.membersLeft r.crashClock

end ManagedRuntimeState

section
variable (r : Readings) (w : ManagedRuntimeState) (purpose : Purpose) (environmentId : String)

def startManaged (autoRestart : Bool) (spec : LaunchSpec) : ManagedRuntimeState × Phase :=
  let w := w.refreshed r
  if w.supervisor.process.isSome then
    (w, .returned (w.supervisor.retainedAnswer environmentId r.reportClock))
  else (w.update (·.configured autoRestart spec), .spawning .start environmentId spec)

def checkRestart (otherwise : Phase) : ManagedRuntimeState × Phase :=
  let w := w.refreshed r
  if w.supervisor.foreign environmentId then (w, .returned (.error .conflict))
  else
    match w.supervisor.restartSpec with
    | some spec => (w, .spawning purpose environmentId spec)
    | none => (w, otherwise)

def readBinding (expected : ℕ) : ManagedRuntimeState × Phase :=
  let w := w.refreshed r
  (w, .returned ((w.supervisor.verifiedBinding environmentId expected).map Answer.binding))

def acceptStop (expected : ℕ) : ManagedRuntimeState × Phase :=
  let w := w.refreshed r
  if w.supervisor.foreign environmentId then (w, .returned (.error .conflict))
  else if expected = 0 ∨ expected ≠ w.supervisor.generation then
    (w, .returned (.error .staleGeneration))
  else
    match w.supervisor.process with
    | none =>
      let w := w.update Supervisor.alreadyStopped
      (w, .returned (w.supervisor.answer environmentId r.reportClock))
    | some pid =>
      (w.update Supervisor.stopping, .stoppingTree environmentId expected pid w.supervisor.endpoint)

def stopTree (expected pid : ℕ) (endpoint : Option ManagedEndpoint) : ManagedRuntimeState × Phase :=
  (w.changed (r.stopped pid),
    match r.stop with
    | none => .recordingStopFailure environmentId expected
    | some disposition =>
      .recordingStop environmentId expected disposition (endpoint.isNone || r.released))

def recordStopFailure (expected : ℕ) : ManagedRuntimeState × Phase :=
  (if w.supervisor.owns environmentId expected then w.update Supervisor.stopFailed else w,
    .returned (.error .stopFailed))

def recordStop (expected : ℕ) (disposition : StopDisposition)
    (released : Bool) : ManagedRuntimeState × Phase :=
  if !w.supervisor.owns environmentId expected then (w, .returned (.error .staleGeneration))
  else
    let w := w.update (·.treeStopped disposition)
    (w, .returned (match w.supervisor.answer environmentId r.reportClock with
      | .error error => .error error
      | .ok report => if released then .ok report else .error .endpointStillReachable))

def acceptRestart (e : ManagedEnvironment) (expected : ℕ) : ManagedRuntimeState × Phase :=
  let w := w.refreshed r
  if w.supervisor.foreign e.id then (w, .returned (.error .conflict))
  else if expected = 0 ∨ expected ≠ w.supervisor.generation then
    (w, .returned (.error .staleGeneration))
  else
    (w.update Supervisor.restarting, .restarting e w.supervisor.process w.supervisor.retainedSpec)

def stopForRestart (e : ManagedEnvironment) (pid : Option ℕ) (retained : Option LaunchSpec) :
    ManagedRuntimeState × Phase :=
  (match pid with
    | some pid => w.changed (r.stopped pid)
    | none => w,
    match retained with
    | some spec => .spawning .restart e.id spec
    | none =>
      match buildLaunchSpec r.machine e with
      | .ok spec => .spawning .restart e.id spec
      | .error error => .returned (.error error))

def spawnGeneration (spec : LaunchSpec) : ManagedRuntimeState × Phase :=
  let w := w.refreshed r
  if w.supervisor.process.isSome then
    (w, purpose.finish environmentId (w.supervisor.retainedAnswer environmentId r.reportClock))
  else
    match w.supervisor.nextGeneration, r.launchClock, r.spawn with
    | none, _, _ => (w, purpose.finish environmentId (.error .stateUnavailable))
    | some _, none, _ => (w, purpose.finish environmentId (.error .clockUnavailable))
    | some _, some _, .error error => (w, purpose.finish environmentId (.error error))
    | some generation, some launchedAt, .ok () =>
      (w.spawn environmentId spec generation launchedAt,
        .awaiting purpose environmentId generation spec.expectedPort)

def whileAlive (generation : ℕ) (next : Phase) : ManagedRuntimeState × Phase :=
  let w := w.refreshed r
  (w, if w.supervisor.generationIsAlive environmentId generation then next
    else .failing purpose environmentId generation .processExited .staleGeneration)

def awaitCandidate (generation : ℕ)
    (expectedPort : Option ℕ) : ManagedRuntimeState × Phase :=
  whileAlive r w purpose environmentId generation <|
    match expectedPort with
    | some port => .awaitingMarker purpose environmentId generation port
    | none =>
      match r.line with
      | some line =>
        match parseCandidate r.machine line none with
        | .ok candidate => .confirming purpose environmentId generation candidate
        | .error error => .failing purpose environmentId generation error error
      | none =>
        if r.deadlinePassed then
          .failing purpose environmentId generation .readinessTimeout .staleGeneration
        else .awaiting purpose environmentId generation none

def awaitMarker (generation port : ℕ) : ManagedRuntimeState × Phase :=
  match r.line with
  | some line =>
    (w, match parseCandidate r.machine line (some port) with
      | .ok candidate => .confirming purpose environmentId generation candidate
      | .error _ => .awaitingGrace purpose environmentId generation port)
  | none =>
    whileAlive r w purpose environmentId generation <|
      if r.probe then .awaitingGrace purpose environmentId generation port
      else if r.deadlinePassed then
        .failing purpose environmentId generation .readinessTimeout .staleGeneration
      else .awaitingMarker purpose environmentId generation port

def awaitGrace (generation port : ℕ) : ManagedRuntimeState × Phase :=
  if r.gracePassed then
    (w, .confirming purpose environmentId generation (fixedPortCandidate port))
  else
    match r.line.map fun line => parseCandidate r.machine line (some port) with
    | some (.ok candidate) => (w, .confirming purpose environmentId generation candidate)
    | _ =>
      whileAlive r w purpose environmentId generation
        (.awaitingGrace purpose environmentId generation port)

def confirm (generation : ℕ)
    (candidate : ParsedCandidate) : ManagedRuntimeState × Phase :=
  whileAlive r w purpose environmentId generation <|
    if r.probe then .publishing purpose environmentId generation candidate
    else if r.deadlinePassed then
      .failing purpose environmentId generation .readinessTimeout .staleGeneration
    else .confirming purpose environmentId generation candidate

def publish (generation : ℕ)
    (candidate : ParsedCandidate) : ManagedRuntimeState × Phase :=
  let w := w.refreshed r
  if !w.supervisor.generationIsAlive environmentId generation then
    (w, purpose.finish environmentId (.error .staleGeneration))
  else
    let w := w.update (·.published candidate)
    (w, purpose.finish environmentId (w.supervisor.answer environmentId r.reportClock))

def failStart (environmentId : String) (generation : ℕ)
    (error stale : ManagedRuntimeError) : ManagedRuntimeState × Phase :=
  if !w.supervisor.owns environmentId generation then
    (w, purpose.finish environmentId (.error stale))
  else
    (w.failStart r.crashClock,
      match w.supervisor.process with
      | some pid => .cleaning purpose environmentId pid error
      | none => purpose.finish environmentId (.error error))

def stepPhase : Phase → ManagedRuntimeState × Phase
  | .idle => (w, .idle)
  | .returned outcome => (w, .returned outcome)
  | .starting id autoRestart spec => startManaged r w id autoRestart spec
  | .checkingStatus id => checkRestart r w .status id (.reportingStatus id)
  | .reportingStatus id => (w, .returned (w.supervisor.answer id r.reportClock))
  | .checkingBinding id expected =>
    checkRestart r w (.binding expected) id (.readingBinding id expected)
  | .readingBinding id expected => readBinding r w id expected
  | .stopRequested id expected => acceptStop r w id expected
  | .stoppingTree id expected pid endpoint => stopTree r w id expected pid endpoint
  | .recordingStopFailure id expected => recordStopFailure w id expected
  | .recordingStop id expected disposition released =>
    recordStop r w id expected disposition released
  | .restartRequested e expected => acceptRestart r w e expected
  | .restarting e pid retained => stopForRestart r w e pid retained
  | .spawning purpose id spec => spawnGeneration r w purpose id spec
  | .awaiting purpose id generation port => awaitCandidate r w purpose id generation port
  | .awaitingMarker purpose id generation port => awaitMarker r w purpose id generation port
  | .awaitingGrace purpose id generation port => awaitGrace r w purpose id generation port
  | .confirming purpose id generation candidate => confirm r w purpose id generation candidate
  | .publishing purpose id generation candidate => publish r w purpose id generation candidate
  | .failing purpose id generation error stale =>
    failStart r w purpose id generation error stale
  | .cleaning purpose id pid error =>
    (w.changed (r.stopped pid), purpose.finish id (.error error))

end

inductive Input
  | call (machine : Machine) (call : Call)
  | step (readings : Readings)

def Phase.ready : Phase → Bool
  | .idle | .returned _ => true
  | _ => false

def act (w : ManagedRuntimeState) (p : Phase) : Input → ManagedRuntimeState × Phase
  | .call m c => (w, if p.ready then begin m c else p)
  | .step r => stepPhase r w p

abbrev System := Pool ManagedRuntimeState Phase

/-- A step of the whole system: a caller acts, or processes of a tree end or appear. -/
def System.step : System → Event Input Change → System :=
  Interleaving.step act fun w c => w.changed c

def System.initial : System := ⟨.initial, fun _ => .idle⟩

def System.run (events : List (Event Input Change)) : System := Runs.run System.step .initial events

open Supervisor

variable {p : Phase} {purpose : Purpose} {k : Purpose × String × ℕ}

namespace Phase

/-- The tree a caller took out of the shared record and has not yet stopped. -/
def held : Phase → Option ℕ
  | .stoppingTree _ _ pid _ => some pid
  | .restarting _ pid _ => pid
  | .cleaning _ _ pid _ => some pid
  | _ => none

def attempt : Phase → Option (Purpose × String × ℕ)
  | .awaiting purpose id generation _ => some (purpose, id, generation)
  | .awaitingMarker purpose id generation _ => some (purpose, id, generation)
  | .awaitingGrace purpose id generation _ => some (purpose, id, generation)
  | .confirming purpose id generation _ => some (purpose, id, generation)
  | .publishing purpose id generation _ => some (purpose, id, generation)
  | .failing purpose id generation _ _ => some (purpose, id, generation)
  | _ => none

def candidate : Phase → Option ParsedCandidate
  | .confirming _ _ _ candidate => some candidate
  | .publishing _ _ _ candidate => some candidate
  | _ => none

def resting : Phase → Bool
  | .idle => true
  | .returned (.ok (.binding _)) => false
  | .returned _ => true
  | .reportingStatus _ => true
  | .readingBinding _ _ => true
  | _ => false

def recordsStop : Phase → Bool
  | .stoppingTree _ _ _ _ => true
  | .recordingStopFailure _ _ => true
  | .recordingStop _ _ _ _ => true
  | _ => false

def checks : Phase → Bool
  | .checkingStatus _ => true
  | .checkingBinding _ _ => true
  | _ => false

def restartsItself : Phase → Bool
  | .spawning .status _ _ => true
  | .spawning (.binding _) _ _ => true
  | _ => false

def failedStop : Phase → Option ℕ
  | .recordingStopFailure _ expected => some expected
  | _ => none

end Phase

inductive Calm : Phase → Phase → Prop
  | rest {p p' : Phase} (held : p.held = none) (stop : p.recordsStop = false)
      (rests : p'.resting = true) : Calm p p'
  | wait {p p' : Phase} {k : Purpose × String × ℕ} (before : p.attempt = some k)
      (after : p'.attempt = some k)
      (candidate : ∀ c, p'.candidate = some c → p.candidate = some c ∨ c.Loopback) : Calm p p'

def Purpose.automatic : Purpose → Bool
  | .status | .binding _ => true
  | .start | .restart => false

structure Accepted (w : ManagedRuntimeState) (id : String) (expected : ℕ) : Prop where
  own : w.supervisor.foreign id = false
  positive : expected ≠ 0
  current : expected = w.supervisor.generation

inductive Acted (r : Readings) (w : ManagedRuntimeState) :
    Phase → ManagedRuntimeState → Phase → Prop
  | kept {p p'} (calm : Calm p p') : Acted r w p w p'
  | looked {p p'} (calm : Calm p p') : Acted r w p (w.refreshed r) p'
  | bound {id expected b}
      (verified : (w.refreshed r).supervisor.verifiedBinding id expected = .ok b) :
      Acted r w (.readingBinding id expected) (w.refreshed r) (.returned (.ok (.binding b)))
  | restartsItself {p purpose id spec} (checks : p.checks = true)
      (automatic : purpose.automatic = true)
      (own : (w.refreshed r).supervisor.foreign id = false)
      (eligible : (w.refreshed r).supervisor.autoRestartEligible = true)
      (retained : (w.refreshed r).supervisor.retainedSpec = some spec) :
      Acted r w p (w.refreshed r) (.spawning purpose id spec)
  | configured {id auto spec} (free : (w.refreshed r).supervisor.process = none) :
      Acted r w (.starting id auto spec) ((w.refreshed r).update (·.configured auto spec))
        (.spawning .start id spec)
  | spawned {purpose id spec generation launchedAt}
      (free : (w.refreshed r).supervisor.process = none)
      (next : (w.refreshed r).supervisor.nextGeneration = some generation) :
      Acted r w (.spawning purpose id spec)
        ((w.refreshed r).spawn id spec generation launchedAt)
        (.awaiting purpose id generation spec.expectedPort)
  | published {purpose id generation candidate p'}
      (alive : (w.refreshed r).supervisor.generationIsAlive id generation = true)
      (rests : p'.resting = true) :
      Acted r w (.publishing purpose id generation candidate)
        ((w.refreshed r).update (·.published candidate)) p'
  | startFailed {purpose id generation error stale p'}
      (own : w.supervisor.owns id generation = true)
      (taken : w.supervisor.process = none ∧ p'.resting = true ∨
        ∃ pid, w.supervisor.process = some pid ∧ p' = .cleaning purpose id pid error) :
      Acted r w (.failing purpose id generation error stale) (w.failStart r.crashClock) p'
  | cleaned {purpose id pid error p'} (rests : p'.resting = true) :
      Acted r w (.cleaning purpose id pid error) (w.changed (r.stopped pid)) p'
  | stoppedIdle {id expected outcome} (accepted : Accepted (w.refreshed r) id expected)
      (free : (w.refreshed r).supervisor.process = none)
      (rests : (Phase.returned outcome).resting = true) :
      Acted r w (.stopRequested id expected)
        ((w.refreshed r).update alreadyStopped) (.returned outcome)
  | takenForStop {id expected pid} (accepted : Accepted (w.refreshed r) id expected)
      (owned : (w.refreshed r).supervisor.process = some pid) :
      Acted r w (.stopRequested id expected) ((w.refreshed r).update stopping)
        (.stoppingTree id expected pid (w.refreshed r).supervisor.endpoint)
  | treeStopFailed {id expected pid endpoint} (fails : r.stop = none) :
      Acted r w (.stoppingTree id expected pid endpoint) (w.changed (r.stopped pid))
        (.recordingStopFailure id expected)
  | treeStopped {id expected pid endpoint disposition released}
      (stops : r.stop = some disposition) :
      Acted r w (.stoppingTree id expected pid endpoint) (w.changed (r.stopped pid))
        (.recordingStop id expected disposition released)
  | stopFailureRecorded {id expected} (own : w.supervisor.owns id expected = true) :
      Acted r w (.recordingStopFailure id expected) (w.update stopFailed)
        (.returned (.error .stopFailed))
  | stopFailureStale {id expected} (other : w.supervisor.owns id expected = false) :
      Acted r w (.recordingStopFailure id expected) w (.returned (.error .stopFailed))
  | stopRecorded {id expected disposition released outcome}
      (own : w.supervisor.owns id expected = true)
      (rests : (Phase.returned outcome).resting = true) :
      Acted r w (.recordingStop id expected disposition released)
        (w.update (·.treeStopped disposition)) (.returned outcome)
  | stopStale {id expected disposition released}
      (other : w.supervisor.owns id expected = false) :
      Acted r w (.recordingStop id expected disposition released) w
        (.returned (.error .staleGeneration))
  | takenForRestart {e expected} (accepted : Accepted (w.refreshed r) e.id expected) :
      Acted r w (.restartRequested e expected) ((w.refreshed r).update restarting)
        (.restarting e (w.refreshed r).supervisor.process (w.refreshed r).supervisor.retainedSpec)
  | treeReleased {e pid retained p'}
      (next : (∃ spec, p' = .spawning .restart e.id spec ∧
          (retained = some spec ∨ retained = none ∧ buildLaunchSpec r.machine e = .ok spec)) ∨
        p'.resting = true) :
      Acted r w (.restarting e (some pid) retained) (w.changed (r.stopped pid)) p'
  | nothingReleased {e retained p'}
      (next : (∃ spec, p' = .spawning .restart e.id spec ∧
          (retained = some spec ∨ retained = none ∧ buildLaunchSpec r.machine e = .ok spec)) ∨
        p'.resting = true) :
      Acted r w (.restarting e none retained) w p'

inductive Entered (m : Machine) : Call → Phase → Prop
  | refused {c error} : Entered m c (.returned (.error error))
  | start {e spec} (built : buildLaunchSpec m e = .ok spec) :
      Entered m (.start e) (.starting e.id e.autoRestartOnCrash spec)
  | status {e} : Entered m (.status e) (.checkingStatus e.id)
  | binding {e expected} : Entered m (.binding e expected) (.checkingBinding e.id expected)
  | stop {e expected} : Entered m (.stop e expected) (.stopRequested e.id expected)
  | restart {e expected} : Entered m (.restart e expected) (.restartRequested e expected)

inductive Moved (w : ManagedRuntimeState) (p : Phase) :
    Input → ManagedRuntimeState → Phase → Prop
  | same {i} : Moved w p i w p
  | begun {m c p'} (ready : p.ready = true) (entered : Entered m c p') : Moved w p (.call m c) w p'
  | acted {r w' p'} (acted : Acted r w p w' p') : Moved w p (.step r) w' p'

section
variable {r : Readings} {w : ManagedRuntimeState}

theorem Phase.held_of_checks (h : p.checks) : p.held = none := by
  cases p <;> first | rfl | cases h

theorem Phase.recordsStop_of_checks (h : p.checks) : p.recordsStop = false := by
  cases p <;> first | rfl | cases h

theorem answer_rests (s : Supervisor) (id : String) (clock : Option ℕ) :
    (Phase.returned (s.answer id clock)).resting := by
  unfold answer
  cases s.report id clock with
  | error e | ok report => rfl

theorem retainedAnswer_rests (s : Supervisor) (id : String) (clock : Option ℕ) :
    (Phase.returned (s.retainedAnswer id clock)).resting := by
  unfold retainedAnswer
  split
  · exact answer_rests s id clock
  · rfl

abbrev Does (r : Readings) (w : ManagedRuntimeState) (p : Phase)
    (out : ManagedRuntimeState × Phase) : Prop :=
  Acted r w p out.1 out.2

theorem finish_rests {id : String} {res : Except ManagedRuntimeError Answer}
    (h : (Phase.returned res).resting) : (purpose.finish id res).resting := by
  cases purpose with
  | start | status | restart => exact h
  | binding expected => rfl

variable {id : String} {want gen : ℕ} {spec : LaunchSpec} {e : ManagedEnvironment}
  {ret : Option LaunchSpec} {c : ParsedCandidate}

theorem startManaged_acted {auto : Bool} : Does r w (.starting id auto spec)
    (startManaged r w id auto spec) := by
  unfold startManaged
  dsimp only
  split
  · exact .looked (.rest rfl rfl (retainedAnswer_rests _ _ _))
  · next h => exact .configured (Option.not_isSome_iff_eq_none.mp h)

theorem restartSpec_some {s : Supervisor} {spec : LaunchSpec} (h : s.restartSpec = some spec) :
    s.autoRestartEligible ∧ s.retainedSpec = some spec := by
  unfold restartSpec at h
  split at h
  · next he => exact ⟨he, h⟩
  · cases h

theorem checkRestart_acted (checks : p.checks) (automatic : purpose.automatic)
    {otherwise : Phase} (rests : otherwise.resting) :
    Does r w p (checkRestart r w purpose id otherwise) := by
  have held := Phase.held_of_checks checks
  have stop := Phase.recordsStop_of_checks checks
  unfold checkRestart
  dsimp only
  split
  · exact .looked (.rest held stop rfl)
  next hown =>
  cases hs : (w.refreshed r).supervisor.restartSpec with
  | none => exact .looked (.rest held stop rests)
  | some spec =>
    obtain ⟨hel, hkp⟩ := restartSpec_some hs
    exact .restartsItself checks automatic (Bool.eq_false_iff.mpr hown) hel hkp

theorem readBinding_acted : Does r w (.readingBinding id want) (readBinding r w id want) := by
  unfold readBinding
  dsimp only
  cases hv : (w.refreshed r).supervisor.verifiedBinding id want with
  | error e => exact .looked (.rest rfl rfl rfl)
  | ok b => exact .bound hv

theorem acceptStop_acted : Does r w (.stopRequested id want) (acceptStop r w id want) := by
  unfold acceptStop
  dsimp only
  split
  · exact .looked (.rest rfl rfl rfl)
  next hown =>
  split
  · exact .looked (.rest rfl rfl rfl)
  next hcr =>
  obtain ⟨hpos, hgen⟩ := not_or.mp hcr
  have hacc : Accepted (w.refreshed r) id want :=
    ⟨Bool.eq_false_iff.mpr hown, hpos, not_not.mp hgen⟩
  split
  · next hfr => exact .stoppedIdle hacc hfr (answer_rests _ _ _)
  · next pid how => exact .takenForStop hacc how

theorem stopTree_acted {pid : ℕ} {endp : Option ManagedEndpoint} :
    Does r w (.stoppingTree id want pid endp) (stopTree r w id want pid endp) := by
  unfold stopTree
  split
  · next h => exact .treeStopFailed h
  · next h => exact .treeStopped h

theorem recordStopFailure_acted :
    Does r w (.recordingStopFailure id want) (recordStopFailure w id want) := by
  unfold recordStopFailure
  split
  · next h => exact .stopFailureRecorded h
  · next h => exact .stopFailureStale (Bool.eq_false_iff.mpr h)

theorem recordStop_acted {disp : StopDisposition} {rel' : Bool} :
    Does r w (.recordingStop id want disp rel') (recordStop r w id want disp rel') := by
  unfold recordStop
  split
  · next h => exact .stopStale (by simpa using h)
  next h =>
  refine .stopRecorded (by simpa using h) ?_
  have hrs := answer_rests (w.update (·.treeStopped disp)).supervisor id r.reportClock
  revert hrs
  cases (w.update (·.treeStopped disp)).supervisor.answer id r.reportClock with
  | error e => exact fun h => h
  | ok report =>
    intro hrs
    cases rel' with
    | true => exact hrs
    | false => rfl

theorem acceptRestart_acted :
    Does r w (.restartRequested e want) (acceptRestart r w e want) := by
  unfold acceptRestart
  dsimp only
  split
  · exact .looked (.rest rfl rfl rfl)
  next hown =>
  split
  · exact .looked (.rest rfl rfl rfl)
  · next hcr =>
    obtain ⟨hpos, hgen⟩ := not_or.mp hcr
    exact .takenForRestart ⟨Bool.eq_false_iff.mpr hown, hpos, not_not.mp hgen⟩

theorem stopForRestart_next {pid : Option ℕ} :
    (∃ spec, (stopForRestart r w e pid ret).2 = .spawning .restart e.id spec ∧
        (ret = some spec ∨ ret = none ∧ buildLaunchSpec r.machine e = .ok spec)) ∨
      (stopForRestart r w e pid ret).2.resting := by
  unfold stopForRestart
  cases ret with
  | some spec => exact .inl ⟨spec, rfl, .inl rfl⟩
  | none =>
    cases hb : buildLaunchSpec r.machine e with
    | ok spec => exact .inl ⟨spec, rfl, .inr ⟨rfl, rfl⟩⟩
    | error error => exact .inr rfl

theorem stopForRestart_acted {pid : Option ℕ} :
    Does r w (.restarting e pid ret) (stopForRestart r w e pid ret) := by
  cases pid with
  | none => exact .nothingReleased stopForRestart_next
  | some pid => exact .treeReleased stopForRestart_next

theorem spawnGeneration_acted :
    Does r w (.spawning purpose id spec) (spawnGeneration r w purpose id spec) := by
  unfold spawnGeneration
  dsimp only
  split
  · exact .looked (.rest rfl rfl (finish_rests (retainedAnswer_rests _ _ _)))
  next hfr =>
  split
  · exact .looked (.rest rfl rfl (finish_rests rfl))
  · exact .looked (.rest rfl rfl (finish_rests rfl))
  · exact .looked (.rest rfl rfl (finish_rests rfl))
  · next hnx _ _ => exact .spawned (Option.not_isSome_iff_eq_none.mp hfr) hnx

theorem whileAlive_acted {next : Phase}
    (bef : p.attempt = some (purpose, id, gen)) (after : next.attempt = some (purpose, id, gen))
    (cand : ∀ c, next.candidate = some c → p.candidate = some c ∨ c.Loopback) :
    Does r w p (whileAlive r w purpose id gen next) := by
  unfold whileAlive
  dsimp only
  split
  · exact .looked (.wait bef after cand)
  · exact .looked (.wait bef rfl (fun c hc => by cases hc))

theorem awaitCandidate_acted {port : Option ℕ} :
    Does r w (.awaiting purpose id gen port) (awaitCandidate r w purpose id gen port) := by
  refine whileAlive_acted rfl ?_ ?_
  · split
    · rfl
    · split
      · split <;> rfl
      · split <;> rfl
  · intro c hc
    split at hc
    · cases hc
    split at hc
    · split at hc
      · next hparse =>
        cases hc
        exact .inr (parseCandidate_loopback hparse)
      · cases hc
    · split at hc <;> cases hc

theorem awaitMarker_acted {port : ℕ} :
    Does r w (.awaitingMarker purpose id gen port) (awaitMarker r w purpose id gen port) := by
  unfold awaitMarker
  split
  · split
    · next hparse =>
      refine .kept (.wait rfl rfl ?_)
      intro c hc
      cases hc
      exact .inr (parseCandidate_loopback hparse)
    · exact .kept (.wait rfl rfl (fun c hc => by cases hc))
  refine whileAlive_acted rfl ?_ ?_
  · split
    · rfl
    · split <;> rfl
  · intro c hc
    split at hc
    · cases hc
    · split at hc <;> cases hc

theorem awaitGrace_acted {port : ℕ} :
    Does r w (.awaitingGrace purpose id gen port) (awaitGrace r w purpose id gen port) := by
  unfold awaitGrace
  split
  · refine .kept (.wait rfl rfl ?_)
    intro c hc
    cases hc
    exact .inr (fixedPortCandidate_loopback port)
  split
  · next hparse =>
    refine .kept (.wait rfl rfl ?_)
    intro c hc
    cases hc
    obtain ⟨line, -, hline⟩ := Option.map_eq_some_iff.mp hparse
    exact .inr (parseCandidate_loopback hline)
  · exact whileAlive_acted rfl rfl (fun c hc => by cases hc)

theorem confirm_acted : Does r w (.confirming purpose id gen c)
    (confirm r w purpose id gen c) := by
  refine whileAlive_acted rfl ?_ ?_
  · split
    · rfl
    · split <;> rfl
  · intro c' hc
    split at hc
    · exact .inl hc
    · split at hc
      · cases hc
      · exact .inl hc

theorem publish_acted : Does r w (.publishing purpose id gen c)
    (publish r w purpose id gen c) := by
  unfold publish
  dsimp only
  split
  · exact .looked (.rest rfl rfl (finish_rests rfl))
  · next h => exact .published (by simpa using h) (finish_rests (answer_rests _ _ _))

theorem failStart_acted {error stale : ManagedRuntimeError} :
    Does r w (.failing purpose id gen error stale) (failStart r w purpose id gen error stale) := by
  unfold failStart
  split
  · exact .kept (.rest rfl rfl (finish_rests rfl))
  next h =>
  refine .startFailed (by simpa using h) ?_
  cases hp : w.supervisor.process with
  | none => exact .inl ⟨rfl, finish_rests rfl⟩
  | some pid => exact .inr ⟨pid, rfl, rfl⟩

theorem stepPhase_acted (p : Phase) :
    stepPhase r w p = (w, p) ∨ Does r w p (stepPhase r w p) := by
  cases p with
  | idle | returned out => exact .inl rfl
  | starting id auto spec => exact .inr startManaged_acted
  | checkingStatus id | checkingBinding id expected =>
    exact .inr (checkRestart_acted rfl rfl rfl)
  | reportingStatus id => exact .inr (.kept (.rest rfl rfl (answer_rests _ _ _)))
  | readingBinding id expected => exact .inr readBinding_acted
  | stopRequested id expected => exact .inr acceptStop_acted
  | stoppingTree id expected pid endp => exact .inr stopTree_acted
  | recordingStopFailure id expected => exact .inr recordStopFailure_acted
  | recordingStop id expected disp rel' => exact .inr recordStop_acted
  | restartRequested e expected => exact .inr acceptRestart_acted
  | restarting e pid ret => exact .inr stopForRestart_acted
  | spawning purpose id spec => exact .inr spawnGeneration_acted
  | awaiting purpose id gen port => exact .inr awaitCandidate_acted
  | awaitingMarker purpose id gen port => exact .inr awaitMarker_acted
  | awaitingGrace purpose id gen port => exact .inr awaitGrace_acted
  | confirming purpose id gen c => exact .inr confirm_acted
  | publishing purpose id gen c => exact .inr publish_acted
  | failing purpose id gen error stale => exact .inr failStart_acted
  | cleaning purpose id pid error => exact .inr (.cleaned (finish_rests rfl))

theorem begin_entered (m : Machine) (c : Call) : Entered m c (begin m c) := by
  cases c with
  | start e =>
    simp only [begin]
    split
    · exact .refused
    · next built => exact .start built
  | status e =>
    simp only [begin]
    split
    · exact .refused
    · exact .status
  | binding e expected =>
    simp only [begin]
    split
    · exact .refused
    · split
      · exact .refused
      · exact .binding
  | stop e expected =>
    simp only [begin]
    split
    · exact .refused
    · exact .stop
  | restart e expected =>
    simp only [begin]
    split
    · exact .refused
    · exact .restart

theorem act_moved (w : ManagedRuntimeState) (p : Phase) (i : Input) :
    Moved w p i (act w p i).1 (act w p i).2 := by
  cases i with
  | call m c =>
    simp only [act]
    split
    · next ready => exact .begun ready (begin_entered m c)
    · exact .same
  | step r =>
    simp only [act]
    rcases stepPhase_acted (r := r) (w := w) p with hkp | hac
    · rw [hkp]
      exact .same
    · exact .acted hac

end

section
variable (h : p.resting = true)
include h

theorem Phase.held_of_resting : p.held = none := by
  cases p <;> first | rfl | cases h

theorem Phase.candidate_of_resting : p.candidate = none := by
  cases p <;> first | rfl | cases h

theorem Phase.attempt_of_resting : p.attempt = none := by
  cases p <;> first | rfl | cases h

theorem Phase.restartsItself_of_resting : p.restartsItself = false := by
  cases p <;> first | rfl | cases h

theorem Phase.failedStop_of_resting : p.failedStop = none := by
  cases p <;> first | rfl | cases h

end

theorem Phase.restartsItself_of_attempt (h : p.attempt = some k) : p.restartsItself = false := by
  cases p <;> first | rfl | cases h

theorem Phase.failedStop_of_attempt (h : p.attempt = some k) : p.failedStop = none := by
  cases p <;> first | rfl | cases h

theorem Phase.held_of_attempt (h : p.attempt = some k) : p.held = none := by
  cases p <;> first | rfl | cases h

theorem Phase.held_of_ready (h : p.ready) : p.held = none := by
  cases p <;> first | rfl | cases h

theorem Calm.held {p' : Phase} (h : Calm p p') : p.held = none ∧ p'.held = none := by
  cases h with
  | rest held stop rests => exact ⟨held, Phase.held_of_resting rests⟩
  | wait bef after cand =>
    exact ⟨Phase.held_of_attempt bef, Phase.held_of_attempt after⟩

end DshDesktop.Runtime
