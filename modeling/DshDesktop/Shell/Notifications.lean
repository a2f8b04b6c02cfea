import DshDesktop.Library.Runs
import DshDesktop.Library.Windows

/-!
# The notification service

`notification.rs`: policy checks, folding by dedupe key, the audit trail and the watcher of
runtime states. Both entry points work under the service lock, so a run is a list of calls.
An append may fail also after its line is in the file.
-/

namespace DshDesktop.Shell.Notifications

def schemaVersion : ℕ := 1
def dedupeTtlMs : ℕ := 60000
def dedupeMapLimit : ℕ := 1024
def maxTitleChars : ℕ := 128
def maxBodyChars : ℕ := 512
def maxDedupeKeyChars : ℕ := 128
def u64Max : ℕ := 2 ^ 64 - 1
def sourceRuntime : String := "managed_runtime"
def runtimeChangeStates : List String := ["healthy", "crashed", "safe_stop", "stopped"]

inductive NotificationEvent
  | turnCompleted
  | approvalRequired
  | questionRequired
  | runtimeChanged
  | scheduleResult

inductive ContentPolicy
  | titleOnly
  | redactedSummary
  | explicitBody

def ContentPolicy.deliversBody : ContentPolicy → Bool
  | .explicitBody => true
  | _ => false

structure NotificationRequest where
  schemaVersion : ℕ
  event : NotificationEvent
  title : String
  body : Option String
  contentPolicy : ContentPolicy
  dedupeKey : Option String

structure NotificationReport where
  schemaVersion : ℕ
  id : String
  event : NotificationEvent
  title : String
  contentPolicy : ContentPolicy
  deliveredBody : Option String
  createdAtUnixMs : ℕ
  dedupeKey : Option String
  deduplicated : Bool

structure NotificationRecord where
  schemaVersion : ℕ
  id : String
  event : NotificationEvent
  title : String
  contentPolicy : ContentPolicy
  body : Option String
  createdAtUnixMs : ℕ
  dedupeKey : Option String
  source : String

inductive NotificationError
  | malformedRequest
  | auditUnavailable
  | clockUnavailable

inductive Append
  | done
  | refused
  | late
  deriving DecidableEq

def Append.writes : Append → Bool
  | .done => true
  | .refused => false
  | .late => true

structure Attempt where
  record : NotificationRecord
  outcome : Append

structure Service where
  sequence : ℕ
  dedupeUntil : Table String ℕ
  lastRuntimeState : Table String String
  attempts : List Attempt

def Service.default : Service := ⟨0, ∅, ∅, []⟩

def Service.trail (s : Service) : List NotificationRecord :=
  (s.attempts.filter fun a => a.outcome.writes).map Attempt.record

def validateRequest (request : NotificationRequest) : Bool :=
  if request.schemaVersion ≠ schemaVersion then false
  else if request.title.length = 0 ∨ maxTitleChars < request.title.length then false
  else if request.dedupeKey.any (fun key => key.length = 0 ∨ maxDedupeKeyChars < key.length) then
    false
  else
    match request.contentPolicy with
    | .titleOnly | .redactedSummary => request.body.isNone
    | .explicitBody => request.body.all fun body => body.length ≤ maxBodyChars

def unixMs : Option ℕ → Except NotificationError ℕ
  | none => .error .clockUnavailable
  | some ms => if ms ≤ u64Max then .ok ms else .error .clockUnavailable

namespace Service
variable (s : Service)

def nextId (now : ℕ) : String × Service :=
  let sequence := (s.sequence + 1) % 2 ^ 64
  (s!"notif-{now}-{sequence}", { s with sequence := sequence })

def dedupeCheck (key : String) (now : ℕ) : Bool × Service :=
  let (folded, windows) := Windows.check dedupeMapLimit dedupeTtlMs u64Max s.dedupeUntil key now
  (folded, { s with dedupeUntil := windows })

def appendRecord (record : NotificationRecord) (outcome : Append) :
    Except NotificationError Unit × Service :=
  let s' := { s with attempts := s.attempts ++ [⟨record, outcome⟩] }
  match outcome with
  | .done => (.ok (), s')
  | .refused | .late => (.error .auditUnavailable, s')

def foldCheck (key : Option String) (now : ℕ) : Bool × Service :=
  match key with
  | none => (false, s)
  | some key => s.dedupeCheck key now

def notify (request : NotificationRequest) (source : String) (clock : Option ℕ)
    (outcome : Append) : Except NotificationError NotificationReport × Service :=
  if validateRequest request = false then (.error .malformedRequest, s)
  else
    match unixMs clock with
    | .error e => (.error e, s)
    | .ok now =>
      match s.foldCheck request.dedupeKey now with
      | (true, s) =>
        let (id, s) := s.nextId now
        (.ok
          { schemaVersion := schemaVersion
            id := id
            event := request.event
            title := request.title
            contentPolicy := request.contentPolicy
            deliveredBody := none
            createdAtUnixMs := now
            dedupeKey := request.dedupeKey
            deduplicated := true }, s)
      | (false, s) =>
        let (id, s) := s.nextId now
        let record : NotificationRecord :=
          { schemaVersion := schemaVersion
            id := id
            event := request.event
            title := request.title
            contentPolicy := request.contentPolicy
            body :=
              if request.contentPolicy.deliversBody then some (request.body.getD "") else none
            createdAtUnixMs := now
            dedupeKey := request.dedupeKey
            source := source }
        match s.appendRecord record outcome with
        | (.error e, s) => (.error e, s)
        | (.ok _, s) =>
          (.ok
            { schemaVersion := schemaVersion
              id := record.id
              event := record.event
              title := record.title
              contentPolicy := record.contentPolicy
              deliveredBody := record.body
              createdAtUnixMs := record.createdAtUnixMs
              dedupeKey := record.dedupeKey
              deduplicated := false }, s)

def runtimeChangeReport (environmentId runtimeState : String) (clock : Option ℕ)
    (outcome : Append) : Except NotificationError (Option NotificationReport) × Service :=
  if runtimeState ∉ runtimeChangeStates then (.ok none, s)
  else
    let previous := s.lastRuntimeState.lookup environmentId
    -- the state is remembered before anything below can fail
    let s := { s with lastRuntimeState := s.lastRuntimeState.insert environmentId runtimeState }
    if previous = some runtimeState then (.ok none, s)
    else
      match unixMs clock with
      | .error e => (.error e, s)
      | .ok now =>
        let (id, s) := s.nextId now
        let record : NotificationRecord :=
          { schemaVersion := schemaVersion
            id := id
            event := .runtimeChanged
            title := s!"Managed runtime {runtimeState}"
            contentPolicy := .titleOnly
            body := none
            createdAtUnixMs := now
            dedupeKey := none
            source := sourceRuntime }
        match s.appendRecord record outcome with
        | (.error e, s) => (.error e, s)
        | (.ok _, s) =>
          (.ok (some
            { schemaVersion := schemaVersion
              id := record.id
              event := record.event
              title := record.title
              contentPolicy := record.contentPolicy
              deliveredBody := none
              createdAtUnixMs := record.createdAtUnixMs
              dedupeKey := none
              deduplicated := false }), s)

end Service

inductive Call
  | notify (request : NotificationRequest) (source : String) (clock : Option ℕ) (outcome : Append)
  | reading (environmentId runtimeState : String) (clock : Option ℕ) (outcome : Append)

def Call.clock : Call → Option ℕ
  | .notify _ _ clock _ => clock
  | .reading _ _ clock _ => clock

def reply (s : Service) : Call → Except NotificationError (Option NotificationReport)
  | .notify request source clock outcome => (s.notify request source clock outcome).1.map some
  | .reading environmentId runtimeState clock outcome =>
    (s.runtimeChangeReport environmentId runtimeState clock outcome).1

def step (s : Service) : Call → Service
  | .notify request source clock outcome => (s.notify request source clock outcome).2
  | .reading environmentId runtimeState clock outcome =>
    (s.runtimeChangeReport environmentId runtimeState clock outcome).2

def run (calls : List Call) : Service := Runs.run step Service.default calls

end DshDesktop.Shell.Notifications
