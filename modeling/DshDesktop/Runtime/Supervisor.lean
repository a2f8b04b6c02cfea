import Mathlib.Algebra.Order.Group.Nat
import DshDesktop.Runtime.Environment

/-!
# The state of the managed runtime supervisor

The record behind the supervisor's mutex, what each critical section writes to it, and the
host's side of it: the process trees that were spawned. A tree is named by its place in the
list of spawned trees.
-/

namespace DshDesktop.Runtime

def recoveryBudget : ℕ := 3

def recoveryWindowMs : ℕ := 60000

def maxOutputLineBytes : ℕ := 2048

inductive ManagedState
  | stopped
  | starting
  | healthy
  | stopping
  | crashed
  | safeStop
  deriving DecidableEq

inductive ProcessOwnership
  | none
  | owned

inductive Readiness
  | notStarted
  | waiting
  | verified
  | failed

inductive StopDisposition
  | notRequested
  | graceful
  | forced
  deriving DecidableEq

structure RecoveryState where
  crashCount : ℕ
  windowStartUnixMs : ℕ
  lastCrashAtUnixMs : Option ℕ
  safeStop : Bool

structure RecoveryReport where
  crashCount : ℕ
  windowStartUnixMs : ℕ
  budget : ℕ
  safeStop : Bool
  lastCrashAtUnixMs : Option ℕ

structure ManagedEndpoint where
  scheme : String
  host : String
  port : ℕ
  source : String
  verification : String

structure RuntimeEvidence where
  code : String
  severity : String
  message : String

structure ParsedCandidate where
  endpoint : ManagedEndpoint
  bootstrapUrl : Option Url

structure ManagedRuntimeReport where
  environmentId : String
  state : ManagedState
  generation : ℕ
  instanceId : Option String
  processOwnership : ProcessOwnership
  readiness : Readiness
  endpoint : Option ManagedEndpoint
  stopDisposition : StopDisposition
  recovery : Option RecoveryReport
  observedAtUnixMs : ℕ
  evidence : List RuntimeEvidence

structure VerifiedSurfaceBinding where
  generation : ℕ
  port : ℕ
  bootstrapUrl : Url

structure Supervisor where
  environmentId : Option String
  state : Option ManagedState
  generation : ℕ
  instanceId : Option String
  endpoint : Option ManagedEndpoint
  bootstrapUrl : Option Url
  stopDisposition : Option StopDisposition
  evidence : List RuntimeEvidence
  process : Option ℕ
  retainedSpec : Option LaunchSpec
  autoRestartOnCrash : Bool
  recovery : Option RecoveryState

def fixedPortCandidate (port : ℕ) : ParsedCandidate :=
  ⟨⟨"http", "127.0.0.1", port, "managed_config", "owned_generation_tcp"⟩, none⟩

def afterScheme : List Char → Option (List Char)
  | ':' :: '/' :: '/' :: rest => some rest
  | _ :: rest => afterScheme rest
  | [] => none

def rawAuthority (candidate : String) : Option String :=
  (afterScheme candidate.toList).map fun rest =>
    String.ofList (rest.takeWhile fun c => !(c == '/' || c == '?' || c == '#'))

def isToken (query : String) : Bool :=
  "token=".toList.isPrefixOf query.toList &&
    let token := query.toList.drop 6
    token.length == 43 && token.all fun c => c.isAlphanum || c == '_' || c == '-'

def parseCandidate (m : Machine) (candidate : String) (expectedPort : Option ℕ) :
    Except ManagedRuntimeError ParsedCandidate :=
  if candidate.isEmpty || candidate.utf8ByteSize > maxOutputLineBytes then
    .error .candidateInvalid
  else
    match m.parseUrl candidate with
    | none => .error .candidateInvalid
    | some url =>
      if url.scheme != "http" || url.host != some "127.0.0.1" || !url.username.isEmpty ||
          url.password.isSome || url.path != "/" || url.fragment.isSome then
        .error .candidateInvalid
      else if url.query.any fun query => !isToken query then .error .candidateInvalid
      else
        match url.port with
        | none => .error .candidateInvalid
        | some port =>
          if port < 1024 || rawAuthority candidate != some ("127.0.0.1:" ++ toString port) then
            .error .candidateInvalid
          else if expectedPort.any fun expected => expected != port then
            .error .candidatePortMismatch
          else
            .ok ⟨⟨"http", "127.0.0.1", port, "managed_process_output",
              "owned_generation_output_and_tcp"⟩, some url⟩

def ParsedCandidate.Loopback (c : ParsedCandidate) : Prop :=
  ∀ url, c.bootstrapUrl = some url → url.host = some "127.0.0.1" ∧ url.port = some c.endpoint.port

theorem fixedPortCandidate_loopback (port : ℕ) : (fixedPortCandidate port).Loopback := by
  intro url h
  simp [fixedPortCandidate] at h

theorem parseCandidate_loopback {m : Machine} {text : String} {want : Option ℕ}
    {c : ParsedCandidate} (h : parseCandidate m text want = .ok c) : c.Loopback := by
  unfold parseCandidate at h
  split at h
  · simp at h
  cases hurl : m.parseUrl text with
  | none => simp [hurl] at h
  | some url =>
    simp only [hurl] at h
    split at h
    · simp at h
    next hpa =>
    split at h
    · simp at h
    cases hport : url.port with
    | none => simp [hport] at h
    | some port =>
      simp only [hport] at h
      split at h
      · simp at h
      split at h
      · simp at h
      have hc := Except.ok.inj h
      subst hc
      intro u hu
      have hu := Option.some.inj hu
      subst hu
      simp only [Bool.or_eq_true, not_or, bne_iff_ne, ne_eq, not_not] at hpa
      exact ⟨hpa.1.1.1.1.2, hport⟩

def recordCrash (now : ℕ) (recovery : Option RecoveryState) : RecoveryState :=
  let r := recovery.getD ⟨0, now, none, false⟩
  let r := if now - r.windowStartUnixMs > recoveryWindowMs then
    { r with crashCount := 0, windowStartUnixMs := now, safeStop := false } else r
  let r := { r with crashCount := r.crashCount + 1, lastCrashAtUnixMs := some now }
  if r.crashCount ≥ recoveryBudget then { r with safeStop := true } else r

namespace Supervisor

def initial : Supervisor :=
  ⟨none, none, 0, none, none, none, none, [], none, none, false, none⟩

variable (s : Supervisor)

def safeStop : Bool := s.recovery.any RecoveryState.safeStop

def failureState : ManagedState := if s.safeStop then .safeStop else .crashed

def autoRestartEligible : Bool :=
  s.state == some .crashed && s.autoRestartOnCrash &&
    (s.recovery.any fun recovery => !recovery.safeStop) && s.retainedSpec.isSome

variable (clock : Option ℕ)

def crashRecorded (s : Supervisor) : Supervisor :=
  { s with recovery := some (recordCrash (clock.getD 0) s.recovery) }

def safeStopEvidence : RuntimeEvidence :=
  ⟨"MANAGED_SAFE_STOP", "error",
    "Recovery budget exhausted; the Managed generation entered Safe Stop without auto-restart."⟩

def failed (failure : RuntimeEvidence) (s : Supervisor) : Supervisor :=
  { s with
    process := none
    state := some s.failureState
    endpoint := none
    bootstrapUrl := none
    stopDisposition := some .notRequested
    evidence := if s.safeStop then [safeStopEvidence] else [failure] }

def exitObserved (s : Supervisor) : Supervisor :=
  (s.crashRecorded clock).failed
    ⟨"MANAGED_PROCESS_EXITED", "error",
      "The retained Managed process exited before an explicit stop completed."⟩

def failStart (s : Supervisor) : Supervisor :=
  (if s.process.isSome then s.crashRecorded clock else s).failed
    ⟨"MANAGED_READINESS_FAILED", "error",
      "The Managed generation failed before endpoint publication and was cleaned up."⟩

def readiness : ManagedState → Readiness
  | .stopped => .notStarted
  | .starting | .stopping => .waiting
  | .healthy => .verified
  | .crashed | .safeStop => .failed

def defaultEvidence : ManagedState → RuntimeEvidence
  | .stopped => ⟨"MANAGED_STOPPED", "info", "No Managed process tree is currently retained."⟩
  | .starting => ⟨"MANAGED_STARTING", "info",
    "The current Managed generation is waiting for verified readiness."⟩
  | .healthy =>
    ⟨"MANAGED_ENDPOINT_VERIFIED", "info", "The current Managed endpoint passed publication gates."⟩
  | .stopping => ⟨"MANAGED_STOPPING", "info", "The retained Managed process tree is stopping."⟩
  | .crashed =>
    ⟨"MANAGED_PROCESS_EXITED", "error", "The current Managed generation is not running."⟩
  | .safeStop => ⟨"MANAGED_SAFE_STOP", "error",
    "Recovery budget exhausted; the Managed generation entered Safe Stop."⟩

def report (environmentId : String) (clock : Option ℕ) :
    Except ManagedRuntimeError ManagedRuntimeReport :=
  let state := s.state.getD .stopped
  match clock with
  | none => .error .clockUnavailable
  | some now => .ok {
      environmentId := environmentId
      state := state
      generation := s.generation
      instanceId := s.instanceId.filter fun _ => !(state == .stopped || state == .safeStop)
      processOwnership := if s.process.isSome then .owned else .none
      readiness := readiness state
      endpoint := s.endpoint
      stopDisposition := s.stopDisposition.getD .notRequested
      recovery := s.recovery.map fun r =>
        ⟨r.crashCount, r.windowStartUnixMs, recoveryBudget, r.safeStop, r.lastCrashAtUnixMs⟩
      observedAtUnixMs := now
      evidence := if s.evidence.isEmpty then [defaultEvidence state] else s.evidence }

def configured (autoRestart : Bool) (spec : LaunchSpec) (s : Supervisor) : Supervisor :=
  { s with autoRestartOnCrash := autoRestart, retainedSpec := some spec, recovery := none }

def spawned (environmentId : String) (generation launchedAt pid : ℕ) (s : Supervisor) :
    Supervisor :=
  { s with
    environmentId := some environmentId
    state := some .starting
    generation := generation
    instanceId := some ("managed-" ++ toString generation ++ "-" ++ toString launchedAt)
    endpoint := none
    bootstrapUrl := none
    stopDisposition := some .notRequested
    evidence := [⟨"MANAGED_PROCESS_SPAWNED", "info",
      "A new Managed generation was created with a retained process-tree handle."⟩]
    process := some pid }

def published (c : ParsedCandidate) (s : Supervisor) : Supervisor :=
  { s with
    state := some .healthy
    endpoint := some c.endpoint
    bootstrapUrl := c.bootstrapUrl
    evidence := [if c.bootstrapUrl.isSome then
        ⟨"MANAGED_ENDPOINT_VERIFIED", "info",
          "The owned generation emitted an exact loopback endpoint and accepted a bounded TCP " ++
            "connection."⟩
      else
        ⟨"MANAGED_ENDPOINT_TCP_VERIFIED", "info",
          "The owned generation answered the bounded HTTP probe on the configured loopback " ++
            "endpoint (no token-bearing marker)."⟩] }

def stopped (disposition : StopDisposition) (outcome : RuntimeEvidence) (s : Supervisor) :
    Supervisor :=
  { s with
    state := some .stopped
    instanceId := none
    endpoint := none
    bootstrapUrl := none
    stopDisposition := some disposition
    recovery := none
    evidence := [outcome] }

def alreadyStopped : Supervisor :=
  s.stopped .notRequested
    ⟨"MANAGED_ALREADY_STOPPED", "info",
      "The requested Managed generation has no retained process tree."⟩

def treeStopped (disposition : StopDisposition) (s : Supervisor) : Supervisor :=
  s.stopped disposition
    ⟨"MANAGED_PROCESS_TREE_STOPPED", "info",
      "The retained Managed process tree stopped and its endpoint was checked."⟩

def stopping (s : Supervisor) : Supervisor :=
  { s with
    state := some .stopping
    bootstrapUrl := none
    evidence := [⟨"MANAGED_STOPPING", "info", "The retained Managed process tree is stopping."⟩]
    process := none
    endpoint := none }

def restarting : Supervisor :=
  { s with
    process := none
    endpoint := none
    state := some .stopping
    bootstrapUrl := none
    recovery := none
    evidence := [⟨"MANAGED_RESTARTING", "info",
      "The exact current generation is stopping before a new generation starts."⟩] }

def stopFailed : Supervisor :=
  { s with
    state := some .crashed
    endpoint := none
    bootstrapUrl := none
    stopDisposition := some .notRequested
    evidence := [⟨"MANAGED_STOP_FAILED", "error",
      "The retained process-tree stop did not complete cleanly."⟩] }

def nextGeneration : Option ℕ :=
  if s.generation + 1 < 2 ^ 64 then some (s.generation + 1) else none

theorem nextGeneration_some {s : Supervisor} {gen : ℕ}
    (h : s.nextGeneration = some gen) : gen = s.generation + 1 := by
  unfold nextGeneration at h
  split at h
  · exact (Option.some.inj h).symm
  · cases h

end Supervisor

/-- The child that is waited for, and whether other processes of its group run. -/
structure Tree where
  spec : LaunchSpec
  environmentId : String
  generation : ℕ
  alive : Bool
  members : Bool

structure Change where
  pid : ℕ
  child : Bool
  members : Bool

structure ManagedRuntimeState where
  supervisor : Supervisor
  trees : List Tree
  crashLog : List ℕ

namespace ManagedRuntimeState

def initial : ManagedRuntimeState := ⟨.initial, [], []⟩

variable (w : ManagedRuntimeState)

def alive (pid : ℕ) : Bool := w.trees[pid]?.any Tree.alive

/-- A process of the tree is running whose child is not. -/
def outlived (pid : ℕ) : Bool := w.trees[pid]?.any fun tree => tree.members && !tree.alive

def running (pid : ℕ) : Bool := w.alive pid || w.outlived pid

/-- Only a tree that runs can have other members. -/
def changed (c : Change) : ManagedRuntimeState :=
  { w with trees := w.trees.modify c.pid fun tree =>
    { tree with
      alive := tree.alive && c.child
      members := (tree.alive || tree.members) && c.members } }

/-- `refresh_exit`, where the host's answer is that the wait failed or the truth about the
child. Dropping the handle kills a tree that could not be waited for; of one whose child has
exited, members may be left. -/
def refreshExit (waitFails outlives : Bool) (clock : Option ℕ) (w : ManagedRuntimeState) :
    ManagedRuntimeState :=
  match w.supervisor.process with
  | none => w
  | some pid =>
    if w.alive pid && !waitFails then w
    else
      { w.changed ⟨pid, false, outlives && !waitFails⟩ with
        supervisor := w.supervisor.exitObserved clock
        crashLog := w.supervisor.generation :: w.crashLog }

def failStart (clock : Option ℕ) (w : ManagedRuntimeState) : ManagedRuntimeState :=
  { w with
    supervisor := w.supervisor.failStart clock
    crashLog := if w.supervisor.process.isSome then w.supervisor.generation :: w.crashLog
      else w.crashLog }

def spawn (environmentId : String) (spec : LaunchSpec) (generation launchedAt : ℕ)
    (w : ManagedRuntimeState) : ManagedRuntimeState :=
  { w with
    supervisor := w.supervisor.spawned environmentId generation launchedAt w.trees.length
    trees := w.trees ++ [⟨spec, environmentId, generation, true, false⟩] }

def update (f : Supervisor → Supervisor) : ManagedRuntimeState :=
  { w with supervisor := f w.supervisor }

end ManagedRuntimeState

end DshDesktop.Runtime
