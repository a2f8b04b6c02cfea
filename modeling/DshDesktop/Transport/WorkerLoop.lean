import DshDesktop.Transport.Admission
import DshDesktop.Transport.Framing

/-!
# The message loop of a connection worker

One pass of `worker_loop` sets a short read timeout, tries to read a frame, and drains the
write queue. Times are nanoseconds of a monotonic clock, of which a pass gives the readings
at its head and after its read.
-/

namespace DshDesktop.Transport
open List Nat Runs

structure Limits where
  maxFrameBytes : ℕ
  readDeadline : ℕ

def workerPollInterval : ℕ := 20 * 10 ^ 6

inductive WriteResult
  | written
  | timedOut
  | failed
  deriving DecidableEq

structure Pass where
  head : ℕ
  event : ℕ
  queueFull : Bool
  writes : List WriteResult

/-- The state of the loop. `delivered` is what went into the receive queue,
`checked` the last reading of the clock. -/
structure Worker where
  incoming : List Delivery
  delivered : List Bytes
  lastActivity : ℕ
  checked : ℕ
  ended : Option EndReason

def drainWrites : List WriteResult → Option EndReason
  | [] => none
  | .written :: rest => drainWrites rest
  | .timedOut :: _ => some .timeout
  | .failed :: _ => some .io

def pollTick (limits : Limits) (w : Worker) (p : Pass) : ℕ :=
  min (limits.readDeadline - (p.head - w.lastActivity)) workerPollInterval

def Worker.start (now : ℕ) (incoming : List Delivery) : Worker := ⟨incoming, [], now, now, none⟩

def Worker.handle (limits : Limits) (p : Pass) (w : Worker) :
    Except FrameReadError (Option Bytes) → Worker
  | .ok (some frame) =>
    if p.queueFull then { w with lastActivity := p.event, ended := some .timeout }
    else { w with
      lastActivity := p.event
      delivered := w.delivered ++ [frame]
      ended := drainWrites p.writes }
  | .ok none => { w with ended := some .peerClosed }
  | .error (.io .timedOut) =>
    if p.event - w.lastActivity ≥ limits.readDeadline then { w with ended := some .timeout }
    else { w with ended := drainWrites p.writes }
  | .error (.io .failed) => { w with ended := some .io }
  | .error (.frame _) => { w with ended := some .protocol }

/-- One pass of the loop. `accepts` tells which timeouts the stream
accepts: a socket refuses zero, a named pipe nothing. -/
def workerPass (limits : Limits) (accepts : ℕ → Bool) (w : Worker) (p : Pass) : Worker :=
  if w.ended ≠ none then w
  else if accepts (pollTick limits w p) = false then
    { w with checked := p.head, ended := some .io }
  else
    let (result, rest) := readFrame limits.maxFrameBytes w.incoming
    Worker.handle limits p { w with incoming := rest, checked := p.event } result

def workerLoop (limits : Limits) (accepts : ℕ → Bool) (w : Worker) (passes : List Pass) :
    Worker :=
  run (workerPass limits accepts) w passes

structure Pass.Carried (p : Pass) : Prop where
  drained : p.queueFull = false
  written : ∀ r ∈ p.writes, r = .written

def Worker.EndedByDeadline (limits : Limits) (w : Worker) : Prop :=
  (w.ended = some .timeout ∨ w.ended = some .io) ∧ limits.readDeadline ≤ w.checked - w.lastActivity

/-- What the property asks of a run: the sent frames, or those before the deadline. -/
def Worker.Faithful (limits : Limits) (sent : List Bytes) (w : Worker) : Prop :=
  w.delivered <+: sent ∧ (w.delivered = sent ∨ w.EndedByDeadline limits)

def Unbroken (limits : Limits) (sent : List Bytes) (w : Worker) (p : Pass) : Prop :=
  w.ended = none → ∀ n ∈ beforeTimeout w.incoming, ∀ frame ∈ sent[w.delivered.length]?,
    0 < n → n < 4 + frame.length → limits.readDeadline ≤ p.event - w.lastActivity

instance (limits : Limits) (sent : List Bytes) (w : Worker) (p : Pass) :
    Decidable (Unbroken limits sent w p) :=
  inferInstanceAs (Decidable (w.ended = none → ∀ n ∈ _, ∀ frame ∈ _, _))

theorem drainWrites_written {writes : List WriteResult} (h : ∀ r ∈ writes, r = .written) :
    drainWrites writes = none := by
  induction writes with
  | nil => rfl
  | cons r writes ih =>
    rw [h r mem_cons_self, drainWrites]
    exact ih (forall_mem_cons.mp h).2

inductive Passed (limits : Limits) (w : Worker) (p : Pass) : Worker → Prop
  | refused (late : limits.readDeadline ≤ p.head - w.lastActivity) :
      Passed limits w p { w with checked := p.head, ended := some .io }
  | delivered {payload : Bytes} {rest : List Delivery}
      (read : readFrame limits.maxFrameBytes w.incoming = (.ok (some payload), rest)) :
      Passed limits w p ⟨rest, w.delivered ++ [payload], p.event, p.event, none⟩
  | closed {rest : List Delivery}
      (read : readFrame limits.maxFrameBytes w.incoming = (.ok none, rest)) :
      Passed limits w p ⟨rest, w.delivered, w.lastActivity, p.event, some .peerClosed⟩
  | violated {e : FrameError} {rest : List Delivery}
      (read : readFrame limits.maxFrameBytes w.incoming = (.error (.frame e), rest)) :
      Passed limits w p ⟨rest, w.delivered, w.lastActivity, p.event, some .protocol⟩
  | late {rest : List Delivery}
      (read : readFrame limits.maxFrameBytes w.incoming = (.error (.io .timedOut), rest))
      (late : limits.readDeadline ≤ p.event - w.lastActivity) :
      Passed limits w p ⟨rest, w.delivered, w.lastActivity, p.event, some .timeout⟩
  | waiting {rest : List Delivery}
      (read : readFrame limits.maxFrameBytes w.incoming = (.error (.io .timedOut), rest))
      (early : ¬ limits.readDeadline ≤ p.event - w.lastActivity) :
      Passed limits w p ⟨rest, w.delivered, w.lastActivity, p.event, none⟩

variable {passes : List Pass}

section
variable {limits : Limits} {accepts : ℕ → Bool} {sent : List Bytes} {w w' : Worker}
  {p : Pass}

theorem pollTick_pos (h : ¬ limits.readDeadline ≤ p.head - w.lastActivity) :
    0 < pollTick limits w p := by
  unfold pollTick workerPollInterval
  omega

theorem workerPass_ended (h : w.ended ≠ none) : workerPass limits accepts w p = w := if_pos h

theorem workerPass_passed (hset : ∀ t, 0 < t → accepts t)
    (hsn : .failed ∉ w.incoming) (hoe : w.ended = none) (hcr : p.Carried) :
    Passed limits w p (workerPass limits accepts w p) := by
  have hdr := drainWrites_written hcr.written
  unfold workerPass
  rw [if_neg (not_not.mpr hoe)]
  split
  · next href =>
    refine .refused ?_
    by_contra hea
    rw [hset _ (pollTick_pos hea)] at href
    cases href
  have hrd := readFrame_frameRead hsn limits.maxFrameBytes
  generalize hres : readFrame limits.maxFrameBytes w.incoming = result at hrd
  cases hrd with
  | frame =>
    simp only [Worker.handle, hcr.drained, hdr]
    exact .delivered hres
  | closed => exact .closed hres
  | violated e => exact .violated hres
  | timedOut =>
    simp only [Worker.handle, hdr]
    split
    · next hlt => exact .late hres hlt
    · next hea => exact .waiting hres hea

variable (frames : List Bytes)

def wireSize : ℕ := (frames.map fun f => 4 + f.length).sum

def Worker.spared (w : Worker) : ℕ := wireSize w.delivered + (contents w.incoming).length

def Worker.weight (w : Worker) : ℕ := (contents w.incoming).length + timeouts w.incoming

theorem wireSize_append_singleton {f : Bytes} :
    wireSize (frames ++ [f]) = wireSize frames + (4 + f.length) := by
  simp [wireSize]

theorem length_flatMap_encodeFrame : (frames.flatMap encodeFrame).length = wireSize frames := by
  rw [length_flatMap]
  simp [wireSize]

structure Worker.Sound (w : Worker) : Prop where
  sound : .failed ∉ w.incoming
  short : ∀ frame ∈ w.delivered, frame.length < 2 ^ 32

theorem Passed.kept (h : Passed limits w p w') (hw : w.Sound) :
    w'.Sound ∧ w'.spared ≤ w.spared := by
  have hrd := readFrame_frameRead hw.sound limits.maxFrameBytes
  have hqt : ∀ {v : Worker}, v.delivered = w.delivered → .failed ∉ v.incoming →
      (contents v.incoming).length ≤ (contents w.incoming).length →
      v.Sound ∧ v.spared ≤ w.spared := by
    intro v hdl hsn hlen
    refine ⟨⟨hsn, hdl ▸ hw.short⟩, ?_⟩
    unfold Worker.spared
    rw [hdl]
    exact Nat.add_le_add_left hlen _
  cases h with
  | refused late => exact hqt rfl hw.sound (Nat.le_refl _)
  | delivered read =>
    rw [read] at hrd
    cases hrd with
    | frame short within adv =>
      refine ⟨⟨adv.sound hw.sound, ?_⟩, ?_⟩
      · intro frame hfr
        rcases mem_append.mp hfr with hold | hnew
        · exact hw.short frame hold
        · rw [mem_singleton.mp hnew]
          exact short
      · unfold Worker.spared
        rw [wireSize_append_singleton, adv.left, length_drop]
        omega
  | closed read | violated read | late read | waiting read =>
    rw [read] at hrd
    exact hqt rfl (hrd.sound hw.sound) hrd.length_le

theorem Passed.weight_lt (h : Passed limits w p w') (hw : w.Sound) (hoe : w'.ended = none) :
    w'.weight < w.weight := by
  have hrd := readFrame_frameRead hw.sound limits.maxFrameBytes
  cases h with
  | delivered read =>
    rw [read] at hrd
    cases hrd with
    | frame short within adv =>
      unfold Worker.weight
      rw [adv.left, adv.waits, length_drop]
      omega
  | waiting read =>
    rw [read] at hrd
    cases hrd with
    | timedOut lost =>
      have hlt := lost.length_le
      have htm := lost.waits
      unfold Worker.weight
      dsimp only
      omega
  | _ => cases hoe

theorem workerPass_kept (hset : ∀ t, 0 < t → accepts t) (hcr : p.Carried) (hw : w.Sound) :
    (workerPass limits accepts w p).Sound ∧ (workerPass limits accepts w p).spared ≤ w.spared := by
  by_cases hoe : w.ended = none
  · exact (workerPass_passed hset hw.sound hoe hcr).kept hw
  · rw [workerPass_ended hoe]
    exact ⟨hw, le_refl _⟩

theorem workerLoop_kept (hset : ∀ t, 0 < t → accepts t) (hcr : ∀ p ∈ passes, p.Carried)
    (hw : w.Sound) :
    (workerLoop limits accepts w passes).Sound ∧
      (workerLoop limits accepts w passes).spared ≤ w.spared := by
  refine run_invariant_on Pass.Carried
    (fun v : Worker => v.Sound ∧ v.spared ≤ w.spared) ?_ hcr
    ⟨hw, le_refl _⟩
  intro v p hp hv
  have hkp : _ ∧ (workerPass limits accepts v p).spared ≤ _ := workerPass_kept hset hp hv.1
  exact ⟨hkp.1, hkp.2.trans hv.2⟩

theorem workerLoop_cons :
    workerLoop limits accepts w (p :: passes) =
      workerLoop limits accepts (workerPass limits accepts w p) passes :=
  rfl

theorem workerLoop_ended (h : w.ended ≠ none) : workerLoop limits accepts w passes = w := by
  induction passes with
  | nil => rfl
  | cons p passes ih =>
    rw [workerLoop_cons, workerPass_ended h]
    exact ih

theorem workerLoop_returns (hset : ∀ t, 0 < t → accepts t)
    (hcr : ∀ p ∈ passes, p.Carried) (hw : w.Sound) (hlong : w.weight < passes.length) :
    (workerLoop limits accepts w passes).ended ≠ none := by
  induction passes generalizing w with
  | nil => exact absurd hlong (not_lt_zero _)
  | cons p passes ih =>
    by_cases hoe : w.ended = none
    · have hca := hcr p mem_cons_self
      have hps : Passed limits w p (workerPass limits accepts w p) :=
        workerPass_passed hset hw.sound hoe hca
      by_cases hnx : (workerPass limits accepts w p).ended = none
      · have hlt := hps.weight_lt hw hnx
        refine ih (forall_mem_cons.mp hcr).2 (hps.kept hw).1 ?_
        rw [length_cons] at hlong
        omega
      · rw [workerLoop_cons, workerLoop_ended hnx]
        exact hnx
    · rw [workerLoop_ended hoe]
      exact hoe

def Worker.InStep (sent : List Bytes) (w : Worker) : Prop :=
  ∃ rest, sent = w.delivered ++ rest ∧ contents w.incoming = rest.flatMap encodeFrame

def Carriable (limits : Limits) (sent : List Bytes) : Prop :=
  ∀ frame ∈ sent, frame.length ≤ limits.maxFrameBytes ∧ frame.length < 2 ^ 32

theorem Worker.InStep.spared (h : w.InStep sent) : w.spared = wireSize sent := by
  obtain ⟨rest, hsn, hcont⟩ := h
  unfold Worker.spared
  rw [hcont, length_flatMap_encodeFrame, hsn]
  simp [wireSize]

theorem endedByDeadline_refused (late : limits.readDeadline ≤ p.head - w.lastActivity) :
    Worker.EndedByDeadline limits { w with checked := p.head, ended := some .io } :=
  ⟨.inr rfl, late⟩

theorem endedByDeadline_late {rest : List Delivery}
    (late : limits.readDeadline ≤ p.event - w.lastActivity) :
    Worker.EndedByDeadline limits
      ⟨rest, w.delivered, w.lastActivity, p.event, some .timeout⟩ :=
  ⟨.inl rfl, late⟩

section
variable (h : Passed limits w p w') (hw : w.Sound)
include h hw

theorem Passed.inStep_done (hsn : sent = w.delivered) (hcont : contents w.incoming = []) :
    if w'.ended = none then w'.InStep sent else w'.Faithful limits sent := by
  subst hsn
  have hrd := readFrame_empty limits.maxFrameBytes hw.sound hcont
  cases h with
  | refused late | closed read | late read late => exact ⟨prefix_rfl, .inl rfl⟩
  | violated read | delivered read =>
    rw [read] at hrd
    rcases hrd with ⟨rest, heq⟩ | ⟨rest, heq, _⟩ <;> cases heq
  | waiting read early =>
    rw [read] at hrd
    rcases hrd with ⟨rest, heq⟩ | ⟨rest, heq, hem, _⟩
    · cases heq
    · cases heq
      exact ⟨[], (append_nil _).symm, hem⟩

theorem Passed.inStep (hoe : w.ended = none) (hsn : Carriable limits sent)
    (hst : w.InStep sent) (hwh : Unbroken limits sent w p) :
    if w'.ended = none then w'.InStep sent else w'.Faithful limits sent := by
  obtain ⟨rest, hsp, hcont⟩ := hst
  cases rest with
  | nil => exact h.inStep_done hw (hsp.trans (append_nil _)) hcont
  | cons frame rest =>
    have hah : w.delivered <+: sent := hsp ▸ prefix_append _ _
    have hnx : sent[w.delivered.length]? = some frame := by
      rw [hsp, List.getElem?_append_right (Nat.le_refl _), Nat.sub_self]
      rfl
    have hfr := hsn frame (mem_of_getElem? hnx)
    have hrd := readFrame_encoded hw.sound hcont hfr.1 hfr.2
    cases h with
    | refused late => exact ⟨hah, .inr (endedByDeadline_refused late)⟩
    | late read late => exact ⟨hah, .inr (endedByDeadline_late late)⟩
    | closed read | violated read =>
      rw [read] at hrd
      rcases hrd with ⟨left, heq, _⟩ | ⟨n, left, _, heq, _⟩ <;> cases heq
    | delivered read =>
      rw [read] at hrd
      rcases hrd with ⟨left, heq, htl, _⟩ | ⟨n, left, _, heq, _⟩
      · cases heq
        exact ⟨rest, by rw [hsp, append_assoc]; rfl, htl⟩
      · cases heq
    | waiting read early =>
      rw [read] at hrd
      rcases hrd with ⟨left, heq, _⟩ | ⟨n, left, hn, heq, hlost⟩
      · cases heq
      cases heq
      -- nothing of the frame had been read, or the pass would have met its deadline
      have hzr : n = 0 := by
        by_contra hpos
        exact early (hwh hoe n hlost.before frame hnx (pos_of_ne_zero hpos) hn)
      refine ⟨frame :: rest, hsp, hlost.left.trans ?_⟩
      rw [hzr, drop_zero, hcont]

theorem Passed.spared_lt (hsn : Carriable limits sent) (hst : w.InStep sent)
    (hbr : ¬ Unbroken limits sent w p) :
    w'.ended ≠ none ∧ w'.EndedByDeadline limits ∨ w'.spared < w.spared := by
  obtain ⟨rest, hsp, hcont⟩ := hst
  simp only [Unbroken, not_forall] at hbr
  obtain ⟨_, n, hpre, frame, hnx, hpos, hn, hea⟩ := hbr
  obtain ⟨rest, rfl⟩ : ∃ fs, rest = frame :: fs := by
    rw [hsp, List.getElem?_append_right (Nat.le_refl _), Nat.sub_self] at hnx
    cases rest with
    | nil => cases hnx
    | cons f fs =>
      cases hnx
      exact ⟨fs, rfl⟩
  have hfr := hsn frame (mem_of_getElem? hnx)
  rcases readFrame_encoded hw.sound hcont hfr.1 hfr.2 with
    ⟨left, _, _, hadv⟩ | ⟨m, left, _, hrd, hlost⟩
  · exact absurd (hadv.reached n hpre) (not_le.mpr hn)
  have hm : m = n := Option.some.inj (hlost.before.symm.trans hpre)
  cases h with
  | refused late => exact .inl ⟨nofun, endedByDeadline_refused late⟩
  | late read late => exact absurd late hea
  | closed read | violated read | delivered read =>
    rw [hrd] at read
    cases read
  | waiting read early =>
    rw [hrd] at read
    cases read
    right
    have hlen : n < (contents w.incoming).length := by
      rw [hcont, flatMap_cons, length_append, length_encodeFrame]
      omega
    unfold Worker.spared
    dsimp only
    rw [hlost.left, length_drop, hm]
    omega

end

theorem along_unbroken_ended (h : w.ended ≠ none) :
    Runs.Along (workerPass limits accepts) (Unbroken limits sent) w passes := by
  induction passes with
  | nil => trivial
  | cons p passes ih =>
    refine ⟨fun hoe => absurd hoe h, ?_⟩
    rw [workerPass_ended h]
    exact ih

theorem workerLoop_faithful (hset : ∀ t, 0 < t → accepts t)
    (hsn : Carriable limits sent) (hcr : ∀ p ∈ passes, p.Carried) (hw : w.Sound)
    (hoe : w.ended = none) (hst : w.InStep sent)
    (hwh : Runs.Along (workerPass limits accepts) (Unbroken limits sent) w passes)
    (hen : (workerLoop limits accepts w passes).ended ≠ none) :
    (workerLoop limits accepts w passes).Faithful limits sent := by
  have hpa := along_and (along_of_forall hcr) hwh
  have hrun : (workerLoop limits accepts w passes).Sound ∧
      if (workerLoop limits accepts w passes).ended = none then
        (workerLoop limits accepts w passes).InStep sent
      else (workerLoop limits accepts w passes).Faithful limits sent := by
    refine run_invariant_along
      (fun w p => p.Carried ∧ Unbroken limits sent w p)
      (fun v : Worker => v.Sound ∧
        if v.ended = none then v.InStep sent else v.Faithful limits sent)
      ?_ hpa ⟨hw, ?_⟩
    · intro v p hp hv
      by_cases hgs : v.ended = none
      · have hps : Passed limits v p (workerPass limits accepts v p) :=
          workerPass_passed hset hv.1.sound hgs hp.1
        rw [if_pos hgs] at hv
        exact ⟨(hps.kept hv.1).1, hps.inStep hv.1 hgs hsn hv.2 hp.2⟩
      · rw [workerPass_ended hgs]
        exact hv
    · rw [if_pos hoe]
      exact hst
  rw [if_neg hen] at hrun
  exact hrun.2

theorem along_unbroken_of_delivered (hset : ∀ t, 0 < t → accepts t)
    (hsn : Carriable limits sent) (hcr : ∀ p ∈ passes, p.Carried) (hw : w.Sound)
    (hoe : w.ended = none) (hst : w.InStep sent)
    (hdue : ¬ (workerLoop limits accepts w passes).EndedByDeadline limits)
    (hall : (workerLoop limits accepts w passes).delivered = sent) :
    Runs.Along (workerPass limits accepts) (Unbroken limits sent) w passes := by
  induction passes generalizing w with
  | nil => trivial
  | cons p passes ih =>
    have hrs := fun q hq => hcr q (mem_cons_of_mem p hq)
    have hps : Passed limits w p (workerPass limits accepts w p) :=
      workerPass_passed hset hw.sound hoe (hcr p mem_cons_self)
    rw [workerLoop_cons] at hdue hall
    by_cases hwh : Unbroken limits sent w p
    · refine ⟨hwh, ?_⟩
      have hnx := hps.inStep hw hoe hsn hst hwh
      by_cases hgs : (workerPass limits accepts w p).ended = none
      · rw [if_pos hgs] at hnx
        exact ih hrs (hps.kept hw).1 hgs hnx hdue hall
      · exact along_unbroken_ended hgs
    exfalso
    rcases hps.spared_lt hw hsn hst hwh with ⟨hen, hlt⟩ | hless
    · rw [workerLoop_ended hen] at hdue
      exact hdue hlt
    have hkp : (workerLoop limits accepts _ passes).spared ≤ _ :=
      (workerLoop_kept hset hrs (hps.kept hw).1).2
    have hsp := hst.spared
    rw [Worker.spared, hall] at hkp
    omega

/-- However the stream is cut and delayed, the loop returns. The application gets the sent
frames, or those before the deadline, where no timeout falls inside a frame and every length fits
its prefix; a run that the deadline does not end needs that. -/
theorem frames_delivered_iff (limits : Limits) (accepts : ℕ → Bool)
    (hset : ∀ t, 0 < t → accepts t = true) (sent : List Bytes)
    (hsent : ∀ frame ∈ sent, frame.length ≤ limits.maxFrameBytes) (incoming : List Delivery)
    (hincoming : contents incoming = sent.flatMap encodeFrame) (hsound : .failed ∉ incoming)
    (now : ℕ) (passes : List Pass) (hcarried : ∀ p ∈ passes, p.Carried)
    (hlong : (Worker.start now incoming).weight < passes.length) :
    let w := workerLoop limits accepts (.start now incoming) passes
    let unbroken := (∀ frame ∈ sent, frame.length < 2 ^ 32) ∧
      Runs.Along (workerPass limits accepts) (Unbroken limits sent)
        (.start now incoming) passes
    w.ended ≠ none ∧ (unbroken → w.Faithful limits sent) ∧
      (¬ w.EndedByDeadline limits → (w.Faithful limits sent ↔ unbroken)) := by
  intro w unbroken
  have hst : (Worker.start now incoming).Sound := ⟨hsound, nofun⟩
  have hse : (Worker.start now incoming).InStep sent := ⟨sent, rfl, hincoming⟩
  have hen : w.ended ≠ none := workerLoop_returns hset hcarried hst hlong
  have hft : unbroken → w.Faithful limits sent := by
    intro h
    have hcr : Carriable limits sent := fun frame hfr => ⟨hsent frame hfr, h.1 frame hfr⟩
    exact workerLoop_faithful hset hcr hcarried hst rfl hse h.2 hen
  refine ⟨hen, hft, fun hdd => ⟨?_, hft⟩⟩
  intro h
  have hall : w.delivered = sent := h.2.resolve_right hdd
  have hsh : ∀ frame ∈ sent, frame.length < 2 ^ 32 := by
    intro frame hfr
    have hkp : w.Sound := (workerLoop_kept hset hcarried hst).1
    exact hkp.short frame (hall ▸ hfr)
  have hcr : Carriable limits sent := fun frame hfr => ⟨hsent frame hfr, hsh frame hfr⟩
  exact ⟨hsh, along_unbroken_of_delivered hset hcr hcarried hst rfl hse hdd hall⟩

end

def defaultLimits : Limits := ⟨64 * 1024, 30 * 10 ^ 9⟩

def quietPass (head event : ℕ) : Pass := ⟨head, event, false, []⟩

theorem quietPass_carried (head ev : ℕ) : (quietPass head ev).Carried := ⟨rfl, nofun⟩

theorem frames_delivered_iff_between :
    let incoming : List Delivery :=
      [.data [2, 0, 0], .interrupted, .data [0, 8, 9], .timedOut, .data [1, 0, 0, 0, 7]]
    let passes := (List.range 13).map fun i => quietPass (i * 10 ^ 6) ((i + 1) * 10 ^ 6)
    Worker.Faithful defaultLimits [[8, 9], [7]]
      (workerLoop defaultLimits (· ≠ 0) (.start 0 incoming) passes) := by
  intro incoming passes
  have hcr : ∀ p ∈ passes, p.Carried := by
    intro p hp
    obtain ⟨i, _, rfl⟩ := List.mem_map.mp hp
    exact quietPass_carried _ _
  have h := frames_delivered_iff defaultLimits (· ≠ 0) (fun t ht => decide_eq_true (by omega))
    [[8, 9], [7]] (by decide) incoming rfl (by decide) 0 passes hcr (by decide)
  exact h.2.1 ⟨by decide, by decide +kernel⟩

/-- A frame whose payload looks like a frame, with a timeout after its prefix: the
application gets bytes that were never sent to it as a frame. -/
theorem timeout_inside_frame_delivers_other :
    let sent : List Bytes := [[1, 0, 0, 0, 9]]
    let incoming : List Delivery := [.data [5, 0, 0, 0], .timedOut, .data [1, 0, 0, 0, 9]]
    let passes := [quietPass 0 (20 * 10 ^ 6), quietPass (20 * 10 ^ 6) (21 * 10 ^ 6),
      quietPass (21 * 10 ^ 6) (22 * 10 ^ 6)]
    let w := workerLoop defaultLimits (· ≠ 0) (.start 0 incoming) passes
    contents incoming = sent.flatMap encodeFrame ∧ w.delivered = [[9]] ∧
      w.ended = some .peerClosed ∧ ¬ w.Faithful defaultLimits sent := by
  intro sent incoming passes w
  have hdl : w.delivered = [[9]] := rfl
  refine ⟨rfl, hdl, rfl, ?_⟩
  intro h
  have hah := h.1
  exact absurd hah (by decide)

section
variable {limits : Limits} {accepts : ℕ → Bool} {incoming ds : List Delivery}
  {w : Worker}
  {p : Pass}

def Silent (incoming : List Delivery) : Prop := ∀ d ∈ incoming, d = .timedOut ∨ d = .interrupted

/-- What the property asks of a run that read nothing: it has ended if a pass met
the deadline, and then for that reason. -/
def Worker.TimedOut (limits : Limits) (now : ℕ) (passes : List Pass) (w : Worker) : Prop :=
  ((∃ p ∈ passes, limits.readDeadline ≤ p.event - now) → w.ended ≠ none) ∧
    ∀ r, w.ended = some r → r = .timeout ∧ r.ending = .closedTimeout ∧
      limits.readDeadline ≤ w.checked - now

def HeadsInTime (limits : Limits) (now : ℕ) : List Pass → Prop
  | [] => True
  | p :: passes => p.head - now < limits.readDeadline ∧
      (p.event - now < limits.readDeadline → HeadsInTime limits now passes)

theorem readFrame_silent {max : ℕ} (hsilent : Silent incoming) (hwt : 0 < timeouts incoming) :
    ∃ rest, readFrame max incoming = (.error (.io .timedOut), rest) ∧ Silent rest ∧
      timeouts rest + 1 = timeouts incoming := by
  induction incoming with
  | nil => exact absurd hwt (lt_irrefl 0)
  | cons d incoming ih =>
    have hrs : Silent incoming := (forall_mem_cons.mp hsilent).2
    rcases hsilent d mem_cons_self with rfl | rfl
    · exact ⟨incoming, rfl, hrs, count_cons_self.symm⟩
    · rw [timeouts_cons (d := .interrupted) nofun] at hwt ⊢
      exact ih hrs hwt

theorem workerPass_silent (limits : Limits) (hset : ∀ t, accepts t ↔ 0 < t)
    (hoe : w.ended = none) (hwr : ∀ r ∈ p.writes, r = .written)
    (hsilent : Silent w.incoming) (hwt : 0 < timeouts w.incoming) :
    if p.head - w.lastActivity < limits.readDeadline then
      ∃ rest, Silent rest ∧ timeouts rest + 1 = timeouts w.incoming ∧
        workerPass limits accepts w p = ⟨rest, w.delivered, w.lastActivity, p.event,
          if limits.readDeadline ≤ p.event - w.lastActivity then some .timeout else none⟩
    else workerPass limits accepts w p = { w with checked := p.head, ended := some .io } := by
  unfold workerPass
  rw [if_neg (not_not.mpr hoe)]
  split
  · next hhd =>
    obtain ⟨rest, hrd, hrs, hlt⟩ := readFrame_silent hsilent hwt
    refine ⟨rest, hrs, hlt, ?_⟩
    rw [(hset _).mpr (pollTick_pos (not_le.mpr hhd)), hrd]
    simp only [Worker.handle, drainWrites_written hwr, Bool.true_eq_false, if_false]
    split <;> rfl
  next hhd =>
  have htc : pollTick limits w p = 0 := by
    unfold pollTick
    omega
  rw [htc, if_pos (eq_false_of_ne_true (mt (hset 0).mp (lt_irrefl 0)))]

theorem workerLoop_silent (hset : ∀ t, accepts t ↔ 0 < t)
    (hwr : ∀ p ∈ passes, ∀ r ∈ p.writes, r = .written) (hoe : w.ended = none)
    (hsilent : Silent w.incoming) (hlong : passes.length ≤ timeouts w.incoming) :
    (workerLoop limits accepts w passes).TimedOut limits w.lastActivity passes ↔
      HeadsInTime limits w.lastActivity passes := by
  induction passes generalizing w with
  | nil =>
    refine iff_of_true ⟨nofun, fun r hr => ?_⟩ trivial
    exact absurd (hoe.symm.trans hr) nofun
  | cons p passes ih =>
    have hps := workerPass_silent limits hset hoe (hwr p mem_cons_self) hsilent
      (lt_of_lt_of_le (succ_pos _) hlong)
    rw [workerLoop_cons, HeadsInTime]
    split at hps
    · next hhd =>
      obtain ⟨rest, hrs, hlt, hps⟩ := hps
      rw [hps, and_iff_right hhd]
      by_cases hdue : limits.readDeadline ≤ p.event - w.lastActivity
      · rw [if_pos hdue, workerLoop_ended (Option.some_ne_none _)]
        refine iff_of_true ⟨fun _ => nofun, ?_⟩ fun h => absurd hdue (not_le.mpr h)
        rintro r ⟨⟩
        exact ⟨rfl, rfl, hdue⟩
      rw [if_neg hdue, forall_prop_of_true (not_le.mp hdue)]
      rw [length_cons, ← hlt] at hlong
      refine Iff.trans ?_ (ih (w := ⟨rest, w.delivered, w.lastActivity, p.event, none⟩)
        (forall_mem_cons.mp hwr).2 rfl hrs
        (le_of_succ_le_succ hlong))
      unfold Worker.TimedOut
      simp [hdue]
    next hhd =>
    rw [hps, workerLoop_ended (Option.some_ne_none _)]
    refine iff_of_false ?_ fun h => hhd h.1
    intro h
    exact absurd (h.2 .io rfl).1 nofun

/-- For every clock and timing: a silent connection ends at its deadline with a timeout exactly
when no pass begins after the deadline with the timeout of its read already used up. -/
theorem silent_peer_timed_out_iff (limits : Limits) (accepts : ℕ → Bool)
    (hset : ∀ t, accepts t = true ↔ 0 < t) (incoming : List Delivery)
    (hsilent : Silent incoming) (now : ℕ) (passes : List Pass)
    (hwritten : ∀ p ∈ passes, ∀ r ∈ p.writes, r = .written)
    (hlong : passes.length ≤ timeouts incoming) :
    (workerLoop limits accepts (.start now incoming) passes).TimedOut limits now passes ↔
      HeadsInTime limits now passes :=
  workerLoop_silent (w := .start now incoming) hset hwritten rfl hsilent hlong

end

theorem silent_peer_timed_out_iff_twice :
    Worker.TimedOut ⟨64, 30⟩ 0 [quietPass 0 20, quietPass 20 30]
      (workerLoop ⟨64, 30⟩ (0 < ·) (.start 0 [.timedOut, .timedOut])
        [quietPass 0 20, quietPass 20 30]) := by
  have hsilent : Silent [.timedOut, .timedOut] := by
    unfold Silent
    decide
  refine (silent_peer_timed_out_iff ⟨64, 30⟩ (0 < ·) (fun t => decide_eq_true_iff) _ hsilent 0 _
    ?_ (by decide)).mpr ⟨by decide, fun _ => ⟨by decide, fun _ => trivial⟩⟩
  decide

/-- The deadline passes while a queued frame is written: the next pass asks for a
timeout of zero. -/
theorem silent_peer_ended_by_io :
    let passes := [⟨0, 29999999999, false, [.written]⟩, quietPass 30000000001 30000000002]
    let w := workerLoop defaultLimits (0 < ·) (.start 0 [.timedOut, .timedOut]) passes
    w.ended = some .io ∧ ¬ w.TimedOut defaultLimits 0 passes := by
  intro passes w
  have hio : w.ended = some .io := by decide
  exact ⟨hio, fun h => absurd (h.2 .io hio).1 nofun⟩

end DshDesktop.Transport
