import DshDesktop.Library.Binary64
import DshDesktop.Library.Runs
import DshDesktop.Shell.SurfacePolicy

/-!
# The DSH surface

`dsh_surface.rs`: the record of the surface and the child webview that it tells about. A
call is a sequence of steps, each at most one operation on the webview and one on the
record; callbacks of webviews, also of closed ones, arrive between any two of them. Two
things make the record promise a webview that is not there: a page load that arrives after
its webview is closed, and a forced unmount that names another surface than the mounted one.
-/

namespace DshDesktop.Shell.Surface
open DshDesktop.Runtime

def schemaVersion : ℕ := 1

structure DshSurfaceBounds where
  x : Binary64
  y : Binary64
  width : Binary64
  height : Binary64
  deriving DecidableEq

def within (low high : ℕ) : Binary64 → Bool
  | .finite negative units =>
    low * 2 ^ Binary64.unitBits ≤ units && units ≤ high * 2 ^ Binary64.unitBits &&
      (!negative || units = 0)
  | _ => false

def DshSurfaceBounds.isValid (b : DshSurfaceBounds) : Bool :=
  within 0 32768 b.x && within 0 32768 b.y && within 320 16384 b.width && within 240 16384 b.height

inductive SurfaceLifecycleState
  | unmounted
  | mounting
  | loading
  | ready
  | hidden
  | error
  | stale
  | unsupportedPlatform
  deriving DecidableEq

structure SurfaceErrorReport where
  code : String
  reason : String
  message : String

structure SurfaceRecord where
  environmentId : String
  generation : ℕ
  port : ℕ
  state : SurfaceLifecycleState
  bounds : Option DshSurfaceBounds
  visible : Bool
  error : Option SurfaceErrorReport

structure Webview where
  environmentId : String
  generation : ℕ
  port : ℕ

abbrev Identity := String × ℕ

def SurfaceRecord.identity (r : SurfaceRecord) : Identity := (r.environmentId, r.generation)

def Webview.identity (w : Webview) : Identity := (w.environmentId, w.generation)

def SurfaceLifecycleState.isLive : SurfaceLifecycleState → Bool
  | .loading | .ready | .hidden => true
  | _ => false

structure SurfaceRequest where
  schemaVersion : ℕ
  environmentId : String
  expectedGeneration : ℕ

structure PlacedRequest extends SurfaceRequest where
  bounds : DshSurfaceBounds
  visible : Bool

def SurfaceRequest.isValid (r : SurfaceRequest) : Bool :=
  r.schemaVersion = Surface.schemaVersion && isValidId r.environmentId && 0 < r.expectedGeneration

def PlacedRequest.isValid (r : PlacedRequest) : Bool :=
  r.toSurfaceRequest.isValid && r.bounds.isValid

structure VerifiedSurfaceBinding where
  generation : ℕ
  port : ℕ

inductive DshSurfaceError
  | malformedRequest
  | staleGeneration
  | surfaceUnavailable

def isExactSurfaceOrigin (url : Url) (port : ℕ) : Bool :=
  url.scheme = "http" && url.username = "" && url.password.isNone &&
    url.hostStr = some "127.0.0.1".toList && url.portOrKnownDefault = some port

def transition (record : Option SurfaceRecord) (identity : Identity)
    (state : SurfaceLifecycleState) (error : Option SurfaceErrorReport) : Option SurfaceRecord :=
  record.map fun r =>
    if r.identity = identity then
      { r with
        state := if state = .ready ∧ r.visible = false then .hidden else state
        error := error }
    else r

def operationFailed (record : Option SurfaceRecord) (identity : Identity) (reason : String) :
    Option SurfaceRecord :=
  transition record identity .error
    (some ⟨"UNAVAILABLE", reason, "Native DSH Surface operation failed."⟩)

def placed (bounds : DshSurfaceBounds) (visible : Bool) (r : SurfaceRecord) : SurfaceRecord :=
  { r with
    bounds := some bounds
    visible := visible
    state :=
      match visible, r.state with
      | false, .ready | false, .hidden => .hidden
      | true, .hidden => .ready
      | _, other => other }

def forgotten (record : Option SurfaceRecord) (identity : Identity) : Option SurfaceRecord :=
  record.map fun r =>
    if r.identity = identity then
      { r with state := .unmounted, bounds := none, visible := false, error := none }
    else r

inductive Callback
  | pageLoad (sender : Webview) (url : Url) (finished : Bool)
  | navigationCompleted (sender : Webview) (succeeded policyDenied : Bool)

def Callback.apply (record : Option SurfaceRecord) : Callback → Option SurfaceRecord
  | .pageLoad w url finished =>
    if isExactSurfaceOrigin url w.port then
      transition record w.identity (if finished then .ready else .loading) none
    else record
  | .navigationCompleted w succeeded policyDenied =>
    if !succeeded && !policyDenied then
      transition record w.identity .error
        (some ⟨"UNAVAILABLE", "surface_operation_failed", "Native DSH Surface navigation failed."⟩)
    else record

structure Mount where
  environmentId : String
  generation : ℕ
  port : ℕ
  bounds : DshSurfaceBounds
  visible : Bool
  deriving DecidableEq

namespace Mount
variable (m : Mount)

def identity : Identity := (m.environmentId, m.generation)

def webview : Webview := ⟨m.environmentId, m.generation, m.port⟩

def initial : SurfaceRecord :=
  ⟨m.environmentId, m.generation, m.port, .mounting, some m.bounds, m.visible, none⟩

def unsupported : SurfaceRecord :=
  ⟨m.environmentId, m.generation, m.port, .unsupportedPlatform, none, false,
    some ⟨"UNAVAILABLE", "unsupported_platform",
      "Native DSH Surface is not enabled on this platform."⟩⟩

end Mount

inductive Stage
  | hide
  | hook
  | load
  | navigate
  deriving DecidableEq

inductive Phase
  | idle
  | closing (m : Mount)
  | replacing (m : Mount)
  | opening (m : Mount)
  | arranging (m : Mount) (stage : Stage)
  | abandoning (m : Mount) (reason : String)
  | failing (m : Mount) (reason : String)
  | placing (bounds : DshSurfaceBounds) (visible : Bool)
  | reloading (identity : Identity)
  | reloadSent (identity : Identity)
  | unmounting (identity : Identity)
  | forgetting (identity : Identity)
  deriving DecidableEq

structure State where
  record : Option SurfaceRecord
  webview : Option Webview
  phase : Phase
  answer : Except DshSurfaceError Unit

def State.initial : State := ⟨none, none, .idle, .ok ()⟩

inductive Call
  | mount (binding : VerifiedSurfaceBinding) (request : PlacedRequest)
  | layout (binding : VerifiedSurfaceBinding) (request : PlacedRequest)
  | reload (binding : VerifiedSurfaceBinding) (request : SurfaceRequest)
  | unmount (request : SurfaceRequest)
  | forceUnmount (identity : Identity)

/-- How the webview operation of a step ends; `noWindow` is a missing shell window. -/
inductive Outcome
  | done
  | failed
  | noWindow
  deriving DecidableEq

namespace State
variable (s : State)

def finish (answer : Except DshSurfaceError Unit) : State :=
  { s with phase := .idle, answer := answer }

def matchingRecord (environmentId : String) (generation port : ℕ) :
    Except DshSurfaceError SurfaceRecord :=
  match s.record with
  | none => .error .surfaceUnavailable
  | some r =>
    if r.environmentId = environmentId ∧ r.generation = generation ∧ r.port = port then .ok r
    else .error .staleGeneration

def startMount (binding : VerifiedSurfaceBinding) (request : PlacedRequest) : State :=
  if !request.isValid || request.expectedGeneration ≠ binding.generation then
    s.finish (.error .malformedRequest)
  else if (s.record.any fun r => r.environmentId = request.environmentId ∧
      r.generation = request.expectedGeneration ∧ r.port = binding.port) ∧ s.webview.isSome then
    { s with phase := .placing request.bounds request.visible }
  else
    { s with phase := .closing ⟨request.environmentId, request.expectedGeneration, binding.port,
        request.bounds, request.visible⟩ }

def startLayout (binding : VerifiedSurfaceBinding) (request : PlacedRequest) : State :=
  if !request.isValid || request.expectedGeneration ≠ binding.generation then
    s.finish (.error .malformedRequest)
  else
    match s.matchingRecord request.environmentId request.expectedGeneration binding.port with
    | .error e => s.finish (.error e)
    | .ok current =>
      if current.state = .unsupportedPlatform then s.finish (.ok ())
      else if s.webview.isNone then s.finish (.error .surfaceUnavailable)
      else { s with phase := .placing request.bounds request.visible }

def startReload (binding : VerifiedSurfaceBinding) (request : SurfaceRequest) : State :=
  if !request.isValid || request.expectedGeneration ≠ binding.generation then
    s.finish (.error .malformedRequest)
  else
    match s.matchingRecord request.environmentId request.expectedGeneration binding.port with
    | .error e => s.finish (.error e)
    | .ok _ =>
      if s.webview.isNone then s.finish (.error .surfaceUnavailable)
      else { s with phase := .reloading (request.environmentId, request.expectedGeneration) }

def startUnmount (request : SurfaceRequest) : State :=
  if !request.isValid then s.finish (.error .malformedRequest)
  else
    match s.record with
    | none => s.finish (.error .surfaceUnavailable)
    | some r =>
      if r.identity ≠ (request.environmentId, request.expectedGeneration) then
        s.finish (.error .staleGeneration)
      else { s with phase := .unmounting (request.environmentId, request.expectedGeneration) }

def start : Call → State
  | .mount binding request => s.startMount binding request
  | .layout binding request => s.startLayout binding request
  | .reload binding request => s.startReload binding request
  | .unmount request => s.startUnmount request
  | .forceUnmount identity => { s with phase := .unmounting identity }

def close (outcome : Outcome) (after : Phase) : State :=
  if s.webview.isNone ∨ outcome = .done then { s with webview := none, phase := after }
  else s.finish (.error .surfaceUnavailable)

/-- Other platforms than Windows have no surface. -/
def create (windows : Bool) (m : Mount) (outcome : Outcome) : State :=
  if windows = false then { s with record := some m.unsupported }.finish (.ok ())
  else
    match outcome with
    | .done => { s with webview := some m.webview, phase := .arranging m .hide }
    | .failed => { s with phase := .failing m "surface_create_failed" }
    | .noWindow => s.finish (.error .surfaceUnavailable)

def proceed (m : Mount) (outcome : Outcome) (reason : String) (after : State) : State :=
  if outcome = .done then after else { s with phase := .abandoning m reason }

def arrange (m : Mount) (outcome : Outcome) : Stage → State
  | .hide =>
    if m.visible then { s with phase := .arranging m .hook }
    else s.proceed m outcome "surface_operation_failed" { s with phase := .arranging m .hook }
  | .hook =>
    s.proceed m outcome "surface_create_failed" { s with phase := .arranging m .load }
  | .load =>
    { s with
      record := transition s.record m.identity .loading none
      phase := .arranging m .navigate }
  | .navigate => s.proceed m outcome "surface_operation_failed" (s.finish (.ok ()))

def next (windows : Bool) (outcome : Outcome) : State :=
  match s.phase with
  | .idle => s
  | .closing m => s.close outcome (.replacing m)
  | .replacing m => { s with record := some m.initial, phase := .opening m }
  | .opening m => s.create windows m outcome
  | .arranging m stage => s.arrange m outcome stage
  | .abandoning m reason =>
    { s with
      webview := if outcome = .done then none else s.webview
      phase := .failing m reason }
  | .failing m reason =>
    { s with record := operationFailed s.record m.identity reason }.finish
      (.error .surfaceUnavailable)
  | .placing bounds visible =>
    if outcome = .done ∧ s.record.isSome then
      { s with record := s.record.map (placed bounds visible) }.finish (.ok ())
    else s.finish (.error .surfaceUnavailable)
  | .reloading identity =>
    { s with record := transition s.record identity .loading none, phase := .reloadSent identity }
  | .reloadSent identity =>
    if outcome = .done then s.finish (.ok ())
    else
      { s with record := operationFailed s.record identity "surface_operation_failed" }.finish
        (.error .surfaceUnavailable)
  | .unmounting identity => s.close outcome (.forgetting identity)
  | .forgetting identity => { s with record := forgotten s.record identity }.finish (.ok ())

end State

inductive Event
  | start (call : Call)
  | next (outcome : Outcome)
  | arrive (callback : Callback)

def step (windows : Bool) (s : State) : Event → State
  | .start call => if s.phase = .idle then s.start call else s
  | .next outcome => s.next windows outcome
  | .arrive callback => { s with record := callback.apply s.record }

def run (windows : Bool) (events : List Event) : State :=
  Runs.run (step windows) .initial events

open State Option

variable {r : SurfaceRecord} {t s : State} {windows : Bool} {m : Mount} {c : Callback}

def State.identity (s : State) : Option Identity := s.record.map SurfaceRecord.identity

def Truthful (s : State) : Prop :=
  ∀ r, s.record = some r → r.state.isLive = true → s.webview.map Webview.identity = some r.identity

def Owned (s : State) : Prop :=
  ∀ w, s.webview = some w → s.identity = some w.identity

def Ready (s : State) : Phase → Prop
  | .idle | .closing _ => Truthful s
  | .replacing _ => s.webview = none
  | .opening m => Truthful s ∧ s.webview = none ∧ s.identity = some m.identity
  | .arranging m _ =>
    Truthful s ∧ s.webview.map Webview.identity = some m.identity
  | .abandoning m _ | .failing m _ => s.identity = some m.identity
  | .placing _ _ | .reloading _ | .reloadSent _ => Truthful s ∧ s.webview.isSome = true
  | .unmounting identity => Truthful s ∧ ∀ w, s.webview = some w → w.identity = identity
  | .forgetting identity =>
    s.webview = none ∧ ∀ r, s.record = some r → r.state.isLive = true → r.identity = identity

structure Sound (s : State) : Prop where
  owned : Owned s
  ready : Ready s s.phase

/-- A page load of the surface arrives while its webview is there, and a forced unmount
names the mounted surface. -/
def Orderly (s : State) : Event → Prop
  | .arrive (.pageLoad w url _) =>
    isExactSurfaceOrigin url w.port = true → s.identity = some w.identity → s.webview.isSome = true
  | .start (.forceUnmount identity) => ∀ w ∈ s.webview, w.identity = identity
  | _ => True

instance decidableOrderly (s : State) : ∀ e, Decidable (Orderly s e)
  | .arrive (.pageLoad w url _) =>
    inferInstanceAs (Decidable (isExactSurfaceOrigin url w.port = true →
      s.identity = some w.identity → s.webview.isSome = true))
  | .arrive (.navigationCompleted _ _ _) => isTrue trivial
  | .start (.forceUnmount identity) =>
    inferInstanceAs (Decidable (∀ w ∈ s.webview, w.identity = identity))
  | .start (.mount _ _) => isTrue trivial
  | .start (.layout _ _) => isTrue trivial
  | .start (.reload _ _) => isTrue trivial
  | .start (.unmount _) => isTrue trivial
  | .next _ => isTrue trivial

section
variable {rcd : Option SurfaceRecord} {idn : Identity} {state : SurfaceLifecycleState}
  {error : Option SurfaceErrorReport}

theorem transition_identity : (transition rcd idn state error).map SurfaceRecord.identity =
      rcd.map SurfaceRecord.identity := by
  cases rcd with
  | none => rfl
  | some r =>
    simp only [transition, map_some]
    split_ifs <;> rfl

theorem transition_live (h : transition rcd idn state error = some r) (hlv : r.state.isLive) :
    rcd = some r ∧ r.identity ≠ idn ∨ rcd.map SurfaceRecord.identity = some idn ∧ state.isLive := by
  cases rcd with
  | none => cases h
  | some old =>
    rw [transition, map_some, Option.some.injEq] at h
    by_cases heq : old.identity = idn
    · right
      rw [if_pos heq] at h
      refine ⟨congrArg some heq, ?_⟩
      subst h
      by_cases hrd : state = .ready ∧ old.visible = false
      · rw [hrd.1]
        rfl
      · dsimp only at hlv
        rw [if_neg hrd] at hlv
        exact hlv
    · rw [if_neg heq] at h
      subst h
      exact .inl ⟨rfl, heq⟩

theorem forgotten_identity : (forgotten rcd idn).map SurfaceRecord.identity =
      rcd.map SurfaceRecord.identity := by
  cases rcd with
  | none => rfl
  | some r =>
    simp only [forgotten, map_some]
    split_ifs <;> rfl

theorem forgotten_live (h : forgotten rcd idn = some r) (hlv : r.state.isLive) :
    rcd = some r ∧ r.identity ≠ idn := by
  cases rcd with
  | none => cases h
  | some old =>
    simp only [forgotten, map_some, Option.some.injEq] at h
    split_ifs at h with heq
    · subst h
      cases hlv
    · subst h
      exact ⟨rfl, heq⟩

theorem forgotten_other (h : rcd.map SurfaceRecord.identity ≠ some idn) :
    forgotten rcd idn = rcd := by
  cases rcd with
  | none => rfl
  | some r =>
    have hot : r.identity ≠ idn := fun heq => h (congrArg some heq)
    rw [forgotten, map_some, if_neg hot]

end

theorem apply_identity {c : Callback} {record : Option SurfaceRecord} :
    (c.apply record).map SurfaceRecord.identity = record.map SurfaceRecord.identity := by
  cases c with
  | pageLoad w url finished =>
    by_cases hea : isExactSurfaceOrigin url w.port
    · rw [Callback.apply, if_pos hea]
      exact transition_identity
    · rw [Callback.apply, if_neg hea]
  | navigationCompleted w succeeded policyDenied =>
    rw [Callback.apply]
    split_ifs
    · exact transition_identity
    · rfl

theorem apply_live (hord : Orderly s (.arrive c)) (h : c.apply s.record = some r)
    (hlv : r.state.isLive) : s.record = some r ∨ s.webview.isSome := by
  cases c with
  | pageLoad w url finished =>
    by_cases hea : isExactSurfaceOrigin url w.port
    · rw [Callback.apply, if_pos hea] at h
      rcases transition_live h hlv with hold | ⟨heq, -⟩
      · exact .inl hold.1
      · exact .inr (hord hea heq)
    · rw [Callback.apply, if_neg hea] at h
      exact .inl h
  | navigationCompleted w succeeded policyDenied =>
    rw [Callback.apply] at h
    split_ifs at h
    · rcases transition_live h hlv with hold | ⟨-, heo⟩
      · exact .inl hold.1
      · cases heo
    · exact .inl h

theorem truthful_of_owned (howned : Owned t) (hview : t.webview = s.webview)
    (hlv : ∀ r, t.record = some r → r.state.isLive → s.record = some r ∨
      t.webview.isSome) (h : Truthful s) : Truthful t := by
  intro r hr hrlive
  rcases hlv r hr hrlive with hold | hso
  · rw [hview]
    exact h r hold hrlive
  obtain ⟨w, hw⟩ := isSome_iff_exists.mp hso
  have heq := howned w hw
  rw [identity, hr] at heq
  rw [hw]
  exact heq.symm

theorem owned_of_identity (hie : t.identity = s.identity) (hview : t.webview = s.webview)
    (h : Owned s) : Owned t := by
  intro w hw
  rw [hie]
  exact h w (hview ▸ hw)

theorem owned_record (h : Owned s) {record : Option SurfaceRecord}
    (hie : record.map SurfaceRecord.identity = s.record.map SurfaceRecord.identity) :
    Owned { s with record := record } :=
  owned_of_identity hie rfl h

section
variable (hrec : t.record = s.record) (hview : t.webview = s.webview)
include hrec hview

theorem truthful_congr (h : Truthful s) : Truthful t := by
  intro r hr
  rw [hview]
  exact h r (hrec ▸ hr)

theorem owned_congr (h : Owned s) : Owned t :=
  owned_of_identity (by rw [identity, identity, hrec]) hview h

theorem ready_congr {p : Phase} (h : Ready s p) : Ready t p := by
  obtain ⟨record, webview, phase, answer⟩ := s
  obtain ⟨record', webview', phase', answer'⟩ := t
  cases hrec
  cases hview
  cases p with
  | _ => exact h

end

theorem sound_phase (howned : Owned s) (p : Phase) (h : Ready s p) : Sound { s with phase := p } :=
  ⟨owned_congr rfl rfl howned, ready_congr rfl rfl h⟩

theorem sound_finish (howned : Owned s) (h : Truthful s) (answer : Except DshSurfaceError Unit) :
    Sound (s.finish answer) :=
  ⟨owned_congr rfl rfl howned, truthful_congr rfl rfl h⟩

theorem sound_arrive (h : Sound s) (hord : Orderly s (.arrive c)) :
    Sound (step windows s (.arrive c)) := by
  have hie : (step windows s (.arrive c)).identity = s.identity := apply_identity
  have howned : Owned (step windows s (.arrive c)) := owned_of_identity hie rfl h.owned
  have htruthful : Truthful s → Truthful (step windows s (.arrive c)) :=
    truthful_of_owned howned rfl fun r hr hlv => apply_live hord hr hlv
  refine ⟨howned, ?_⟩
  have hrd := h.ready
  change Ready (step windows s (.arrive c)) s.phase
  cases hph : s.phase with rw [hph] at hrd
  | idle | closing m => exact htruthful hrd
  | replacing m => exact hrd
  | opening m => exact ⟨htruthful hrd.1, hrd.2.1, hie.trans hrd.2.2⟩
  | abandoning m rsn | failing m rsn => exact hie.trans hrd
  | arranging m stage | placing bounds visible | reloading identity | reloadSent identity
  | unmounting identity => exact ⟨htruthful hrd.1, hrd.2⟩
  | forgetting identity =>
    refine ⟨hrd.1, ?_⟩
    intro r hr hlv
    rcases apply_live hord hr hlv with hold | hsome
    · exact hrd.2 r hold hlv
    · rw [hrd.1] at hsome
      cases hsome

section
variable (hown : Owned s) (htruthful : Truthful s)
include hown htruthful

variable (binding : VerifiedSurfaceBinding)

theorem sound_startMount (req : PlacedRequest) : Sound (s.startMount binding req) := by
  rw [startMount]
  split_ifs with hbad hmounted
  · exact sound_finish hown htruthful _
  · exact sound_phase hown (.placing _ _) ⟨htruthful, hmounted.2⟩
  · exact sound_phase hown (.closing _) htruthful

theorem sound_startLayout (req : PlacedRequest) : Sound (s.startLayout binding req) := by
  rw [startLayout]
  by_cases hbad : (!req.isValid || req.expectedGeneration ≠ binding.generation)
  · rw [if_pos hbad]
    exact sound_finish hown htruthful _
  rw [if_neg hbad]
  cases s.matchingRecord req.environmentId req.expectedGeneration binding.port with
  | error e => exact sound_finish hown htruthful _
  | ok current =>
    dsimp only
    split_ifs with hpl hnn
    · exact sound_finish hown htruthful _
    · exact sound_finish hown htruthful _
    · exact sound_phase hown (.placing _ _)
        ⟨htruthful, isSome_iff_ne_none.mpr (by simpa using hnn)⟩

theorem sound_startReload (req : SurfaceRequest) : Sound (s.startReload binding req) := by
  rw [startReload]
  by_cases hbad : (!req.isValid || req.expectedGeneration ≠ binding.generation)
  · rw [if_pos hbad]
    exact sound_finish hown htruthful _
  rw [if_neg hbad]
  cases s.matchingRecord req.environmentId req.expectedGeneration binding.port with
  | error e => exact sound_finish hown htruthful _
  | ok current =>
    split_ifs with hnn
    · exact sound_finish hown htruthful _
    · exact sound_phase hown (.reloading _)
        ⟨htruthful, isSome_iff_ne_none.mpr (by simpa using hnn)⟩

theorem sound_startUnmount (req : SurfaceRequest) : Sound (s.startUnmount req) := by
  rw [startUnmount]
  split_ifs
  · exact sound_finish hown htruthful _
  cases hrec : s.record with
  | none => exact sound_finish hown htruthful _
  | some r =>
    dsimp only
    split_ifs with hot
    · exact sound_finish hown htruthful _
    have hnm : ∀ w, s.webview = some w →
        w.identity = (req.environmentId, req.expectedGeneration) := by
      intro w hw
      have heq := hown w hw
      rw [identity, hrec, map_some, Option.some.injEq] at heq
      rw [← heq]
      exact not_not.mp hot
    have hsn := sound_phase hown (.unmounting _) ⟨htruthful, hnm⟩
    rw [hrec] at hsn
    exact hsn

theorem sound_start {call : Call} (hord : Orderly s (.start call)) : Sound (s.start call) := by
  cases call with
  | mount binding req => exact sound_startMount hown htruthful binding req
  | layout binding req => exact sound_startLayout hown htruthful binding req
  | reload binding req => exact sound_startReload hown htruthful binding req
  | unmount req => exact sound_startUnmount hown htruthful req
  | forceUnmount identity => exact sound_phase hown (.unmounting identity) ⟨htruthful, hord⟩

end

theorem owned_of_none (h : s.webview = none) : Owned s := by
  intro w hw
  rw [h] at hw
  cases hw

theorem truthful_of_not_live (h : ∀ r, s.record = some r → r.state.isLive = false) :
    Truthful s := by
  intro r hr hlv
  rw [h r hr] at hlv
  cases hlv

theorem truthful_of_webview (howned : Owned s) (hso : s.webview.isSome) : Truthful s := by
  intro r hr _
  obtain ⟨w, hw⟩ := isSome_iff_exists.mp hso
  have heq := howned w hw
  rw [identity, hr] at heq
  rw [hw]
  exact heq.symm

section
variable (hown : Owned s)
include hown

theorem sound_close (p : Phase) (htruthful : Truthful s)
    (haf : Ready { s with webview := none } p) (out : Outcome) :
    Sound (s.close out p) := by
  rw [close]
  split_ifs
  · exact ⟨owned_of_none rfl, ready_congr rfl rfl haf⟩
  · exact sound_finish hown htruthful _

theorem sound_create (windows : Bool) (htruthful : Truthful s) (hnn : s.webview = none)
    (hie : s.identity = some m.identity) (out : Outcome) : Sound (s.create windows m out) := by
  rw [create.eq_def]
  split_ifs
  · have hpl : Truthful { s with record := some m.unsupported } := by
      refine truthful_of_not_live ?_
      intro r hr
      cases hr
      rfl
    have hkp : Owned { s with record := some m.unsupported } := owned_of_none hnn
    exact sound_finish hkp hpl _
  cases out with
  | done =>
    have hnew : Owned { s with webview := some m.webview, phase := .arranging m .hide } := by
      intro w hw
      cases hw
      exact hie
    exact ⟨hnew, truthful_of_webview hnew rfl, rfl⟩
  | failed => exact sound_phase hown (.failing m _) hie
  | noWindow => exact sound_finish hown htruthful _

theorem identity_of_webview (h : s.webview.map Webview.identity = some m.identity) :
    s.identity = some m.identity := by
  obtain ⟨w, hw, heq⟩ := map_eq_some_iff.mp h
  rw [hown w hw, heq]

theorem sound_proceed (hview : s.webview.map Webview.identity = some m.identity) {after : State}
    (haf : Sound after) (out : Outcome) (rsn : String) : Sound (s.proceed m out rsn after) := by
  rw [proceed]
  split_ifs
  · exact haf
  · exact sound_phase hown (.abandoning m rsn) (identity_of_webview hown hview)

theorem sound_arrange (htruthful : Truthful s)
    (hview : s.webview.map Webview.identity = some m.identity) (out : Outcome)
    (stage : Stage) : Sound (s.arrange m out stage) := by
  cases stage with
  | hide =>
    have haf : Sound { s with phase := .arranging m .hook } :=
      sound_phase hown (.arranging m .hook) ⟨htruthful, hview⟩
    rw [arrange]
    split_ifs
    · exact haf
    · exact sound_proceed hown hview haf _ _
  | hook =>
    have haf : Sound { s with phase := .arranging m .load } :=
      sound_phase hown (.arranging m .load) ⟨htruthful, hview⟩
    exact sound_proceed hown hview haf _ _
  | load =>
    have hkp : Owned (s.arrange m out .load) := owned_of_identity transition_identity rfl hown
    refine ⟨hkp, truthful_of_webview hkp ?_, hview⟩
    obtain ⟨w, hw, -⟩ := map_eq_some_iff.mp hview
    exact isSome_iff_exists.mpr ⟨w, hw⟩
  | navigate => exact sound_proceed hown hview (sound_finish hown htruthful _) _ _

theorem sound_next (windows : Bool) (hrd : Ready s s.phase) (out : Outcome) :
    Sound (s.next windows out) := by
  rw [next]
  cases hph : s.phase with rw [hph] at hrd
  | idle =>
    refine ⟨hown, ?_⟩
    rw [hph]
    exact hrd
  | closing m => exact sound_close hown (.replacing m) hrd rfl out
  | replacing m =>
    refine ⟨owned_of_none hrd, truthful_of_not_live ?_, hrd, rfl⟩
    intro r hr
    cases hr
    rfl
  | opening m => exact sound_create hown windows hrd.1 hrd.2.1 hrd.2.2 out
  | arranging m stage => exact sound_arrange hown hrd.1 hrd.2 out stage
  | abandoning m rsn =>
    refine ⟨?_, hrd⟩
    intro w hw
    dsimp only at hw
    split_ifs at hw
    exact hown w hw
  | failing m rsn =>
    have hfail : Truthful { s with record := operationFailed s.record m.identity rsn } := by
      intro r hr hlv
      rcases transition_live hr hlv with ⟨hold, hot⟩ | ⟨-, heo⟩
      · rw [Ready, identity, hold] at hrd
        exact absurd (Option.some.inj hrd) hot
      · cases heo
    exact sound_finish (owned_record hown transition_identity) hfail _
  | placing bounds visible =>
    dsimp only
    split_ifs
    · have hkp : Owned { s with record := s.record.map (placed bounds visible) } := by
        refine owned_record hown ?_
        rw [map_map]
        rfl
      exact sound_finish hkp (truthful_of_webview hkp hrd.2) _
    · exact sound_finish hown hrd.1 _
  | reloading identity =>
    have hkp : Owned { s with
        record := transition s.record identity .loading none
        phase := .reloadSent identity } :=
      owned_congr rfl rfl (owned_record hown transition_identity)
    exact ⟨hkp, truthful_of_webview hkp hrd.2, hrd.2⟩
  | reloadSent identity =>
    dsimp only
    split_ifs
    · exact sound_finish hown hrd.1 _
    · have hkp : Owned { s with
          record := operationFailed s.record identity "surface_operation_failed" } :=
        owned_record hown transition_identity
      exact sound_finish hkp (truthful_of_webview hkp hrd.2) _
  | unmounting identity =>
    refine sound_close hown (.forgetting identity) hrd.1 ⟨rfl, ?_⟩ out
    intro r hr hlv
    obtain ⟨w, hw, heq⟩ := map_eq_some_iff.mp (hrd.1 r hr hlv)
    rw [← heq]
    exact hrd.2 w hw
  | forgetting identity =>
    have hfr : Truthful { s with record := forgotten s.record identity } := by
      intro r hr hlv
      obtain ⟨hold, hot⟩ := forgotten_live hr hlv
      exact absurd (hrd.2 r hold hlv) hot
    exact sound_finish (owned_record hown forgotten_identity) hfr _

end

theorem sound_step {e : Event} (hord : Orderly s e) (h : Sound s) : Sound (step windows s e) := by
  cases e with
  | start call =>
    rw [step]
    split_ifs with hil
    · have hrd := h.ready
      rw [hil] at hrd
      exact sound_start h.owned hrd hord
    · exact h
  | next out => exact sound_next h.owned windows h.ready out
  | arrive callback => exact sound_arrive h hord

theorem sound_initial : Sound .initial :=
  ⟨owned_of_none rfl, fun _ hr => by cases hr⟩

/-- An unmount, forced or not, of another surface than the recorded one touches neither the
record nor the webview. -/
structure Respects (windows : Bool) (s : State) : Prop where
  unmount : ∀ request : SurfaceRequest, s.phase = .idle →
    s.identity ≠ some (request.environmentId, request.expectedGeneration) →
    ∃ answer, step windows s (.start (.unmount request)) = s.finish answer
  forced : ∀ identity outcome, s.phase = .unmounting identity ∨ s.phase = .forgetting identity →
    s.identity ≠ some identity →
    (step windows s (.next outcome)).record = s.record ∧
      (step windows s (.next outcome)).webview = s.webview

theorem startUnmount_other {req : SurfaceRequest}
    (h : s.identity ≠ some (req.environmentId, req.expectedGeneration)) :
    ∃ answer, s.startUnmount req = s.finish answer := by
  rw [startUnmount]
  split_ifs
  · exact ⟨_, rfl⟩
  cases hrec : s.record with
  | none => exact ⟨_, rfl⟩
  | some r =>
    rw [identity, hrec, map_some] at h
    refine ⟨_, if_pos ?_⟩
    intro heq
    exact h (congrArg some heq)

theorem Sound.respects (h : Sound s) : Respects windows s where
  unmount := by
    intro req hil hot
    rw [step, if_pos hil]
    exact startUnmount_other hot
  forced := by
    intro identity out hph hot
    have hrd := h.ready
    rcases hph with hph | hph
    · rw [hph] at hrd
      have hnn : s.webview = none := by
        cases hview : s.webview with
        | none => rfl
        | some w =>
          rw [h.owned w hview, hrd.2 w hview] at hot
          exact absurd rfl hot
      rw [step, next, hph]
      dsimp only
      rw [close, if_pos (.inl (by rw [hnn]; rfl))]
      exact ⟨rfl, hnn.symm⟩
    · rw [step, next, hph]
      exact ⟨forgotten_other hot, rfl⟩

def windowBounds : DshSurfaceBounds where
  x := .finite false 0
  y := .finite false 0
  width := .finite false (800 * 2 ^ Binary64.unitBits)
  height := .finite false (600 * 2 ^ Binary64.unitBits)

def alphaRequest : PlacedRequest where
  schemaVersion := 1
  environmentId := "alpha"
  expectedGeneration := 1
  bounds := windowBounds
  visible := true

def alphaWebview : Webview := ⟨"alpha", 1, 8899⟩

def alphaUrl : Url := ⟨"http", "", none, some (.ipv4 .localhost), some 8899⟩

def alphaMounted : List Event :=
  .start (.mount ⟨1, 8899⟩ alphaRequest) ::
    (List.replicate 7 (.next .done) ++ [.arrive (.pageLoad alphaWebview alphaUrl true)])

/-- In every orderly run the record of a surface without a call under way is true, and an
unmount of another surface changes nothing. -/
theorem surface_record_truthful (windows : Bool) {events : List Event}
    (h : Runs.Along (step windows) Orderly .initial events) :
    ((run windows events).phase = .idle → Truthful (run windows events)) ∧
      Respects windows (run windows events) := by
  have hsn : Sound (run windows events) :=
    Runs.run_invariant_along Orderly Sound (fun s e hor => sound_step hor) h sound_initial
  refine ⟨?_, hsn.respects⟩
  intro hil
  have hrd := hsn.ready
  rw [hil] at hrd
  exact hrd

theorem alphaMounted_truthful :
    (run true alphaMounted).record.map SurfaceRecord.state = some .ready ∧
      Truthful (run true alphaMounted) := by
  have hor : Runs.Along (step true) Orderly .initial alphaMounted := by decide +kernel
  exact ⟨by decide +kernel, (surface_record_truthful true hor).1 (by decide +kernel)⟩

theorem not_truthful (hview : s.webview = none)
    (hlv : s.record.map (fun r => r.state.isLive) = some true) : ¬ Truthful s := by
  intro h
  obtain ⟨r, hr, hrlive⟩ := map_eq_some_iff.mp hlv
  have hpromised := h r hr hrlive
  rw [hview] at hpromised
  cases hpromised

def betaStopped : List Event :=
  alphaMounted ++ [.start (.forceUnmount ("beta", 1)), .next .done, .next .done]

def alphaLoadsLate : List Event :=
  alphaMounted ++ [.start (.unmount alphaRequest.toSurfaceRequest), .next .done, .next .done,
    .arrive (.pageLoad alphaWebview alphaUrl false)]

theorem surface_record_untrue :
    ((run true betaStopped).phase = .idle ∧ ¬ Truthful (run true betaStopped)) ∧
      (run true alphaLoadsLate).phase = .idle ∧ ¬ Truthful (run true alphaLoadsLate) := by
  have hfr : (run true betaStopped).webview = none := by decide +kernel
  have hlt : (run true alphaLoadsLate).webview = none := by decide +kernel
  refine ⟨⟨by decide +kernel, not_truthful hfr ?_⟩, by decide +kernel, not_truthful hlt ?_⟩
  · decide +kernel
  · decide +kernel

end DshDesktop.Shell.Surface
