import Mathlib.Data.List.Basic

/-!
# Programs and loops whose steps can fail

A step completes or fails, and a step that fails may leave something behind. The run of a
program keeps every state in which the process can stop: the one after each step it took,
completed or not. The body of a loop takes the state reached so far and goes on or stops the
loop with an error; the writes made before the error are kept.
-/

namespace FaultySteps
open List
variable {κ σ φ : Type*} {ks : List κ} {k : κ}

inductive Outcome (φ : Type*)
  | done
  | failed (left : φ)

structure Stop (κ σ : Type*) where
  step : κ
  done : Bool
  state : σ
  deriving DecidableEq

structure Run (κ σ : Type*) where
  state : σ
  stops : List (Stop κ σ)

structure Effects (κ σ φ : Type*) where
  complete : κ → σ → σ
  spoil : κ → φ → σ → σ

namespace Effects
variable (effects : Effects κ σ φ) (out : κ → Outcome φ)

def stopAfter (k : κ) (s : σ) : Stop κ σ :=
  match out k with
  | .done => ⟨k, true, effects.complete k s⟩
  | .failed left => ⟨k, false, effects.spoil k left s⟩

def attempt (k : κ) (r : Run κ σ) : Bool × Run κ σ :=
  let stop := effects.stopAfter out k r.state
  (stop.done, ⟨stop.state, r.stops ++ [stop]⟩)

def attemptAll : List κ → Run κ σ → Bool × Run κ σ
  | [], r => (true, r)
  | k :: ks, r =>
    match effects.attempt out k r with
    | (false, r') => (false, r')
    | (true, r') => attemptAll ks r'

variable {effects out} {r : Run κ σ}

@[simp] theorem stopAfter_done (h : out k = .done) (s : σ) :
    effects.stopAfter out k s = ⟨k, true, effects.complete k s⟩ := by
  rw [stopAfter, h]

@[simp] theorem stopAfter_failed {left : φ} (h : out k = .failed left) (s : σ) :
    effects.stopAfter out k s = ⟨k, false, effects.spoil k left s⟩ := by
  rw [stopAfter, h]

theorem stopAfter_step (k : κ) (s : σ) : (effects.stopAfter out k s).step = k := by
  rw [stopAfter]
  cases out k <;> rfl

theorem stopAfter_still {s : σ} (hcm : effects.complete k s = s)
    (hsp : ∀ left, effects.spoil k left s = s) : (effects.stopAfter out k s).state = s := by
  rw [stopAfter]
  cases out k with
  | done => exact hcm
  | failed left => exact hsp left

theorem mem_attempt {stop : Stop κ σ} : stop ∈ (effects.attempt out k r).2.stops ↔
      stop ∈ r.stops ∨ stop = effects.stopAfter out k r.state := by
  simp [attempt]

theorem attemptAll_append (xs ys : List κ) (r : Run κ σ) : effects.attemptAll out (xs ++ ys) r =
      match effects.attemptAll out xs r with
      | (false, r') => (false, r')
      | (true, r') => effects.attemptAll out ys r' := by
  induction xs generalizing r with
  | nil => rfl
  | cons k xs ih =>
    cases hk : out k with
    | done =>
      simp only [cons_append, attemptAll, attempt, stopAfter_done hk]
      exact ih _
    | failed left => simp [attemptAll, attempt, stopAfter_failed hk]

theorem attemptAll_done (effects : Effects κ σ φ) (h : ∀ k ∈ ks, out k = .done) (r : Run κ σ) :
    (effects.attemptAll out ks r).1 ∧ (effects.attemptAll out ks r).2.state =
        ks.foldl (fun s k => effects.complete k s) r.state := by
  induction ks generalizing r with
  | nil => exact ⟨rfl, rfl⟩
  | cons k ks ih =>
    have hk := h k mem_cons_self
    simp only [attemptAll, attempt, stopAfter_done hk, foldl_cons]
    exact ih (fun j hj => h j (mem_cons_of_mem k hj)) _

theorem attemptAll_fst (h : (effects.attemptAll out ks r).1) : ∀ k ∈ ks, out k = .done := by
  induction ks generalizing r with
  | nil => exact fun k hk => absurd hk not_mem_nil
  | cons k ks ih =>
    cases hk : out k with
    | done =>
      simp only [attemptAll, attempt, stopAfter_done hk] at h
      intro j hj
      rcases mem_cons.mp hj with rfl | hj
      · exact hk
      · exact ih h j hj
    | failed left => simp [attemptAll, attempt, stopAfter_failed hk] at h

theorem attemptAll_state (h : (effects.attemptAll out ks r).1) :
    (effects.attemptAll out ks r).2.state =
      ks.foldl (fun s k => effects.complete k s) r.state :=
  (attemptAll_done effects (attemptAll_fst h) r).2

theorem attemptAll_keeps (I : σ → Prop) (hkp : ∀ k ∈ ks, ∀ s, I s → I (effects.complete k s))
    (hst : I r.state) (h : (effects.attemptAll out ks r).1) :
    I (effects.attemptAll out ks r).2.state := by
  rw [attemptAll_state h]
  generalize r.state = s at hst
  clear h
  induction ks generalizing s with
  | nil => exact hst
  | cons k ks ih =>
    exact ih (fun j hj => hkp j (mem_cons_of_mem k hj)) _
      (hkp k mem_cons_self s hst)

theorem attemptAll_forall (I : σ → Prop) (P : Stop κ σ → Prop)
    (hkp : ∀ k ∈ ks, ∀ s, I s → I (effects.complete k s))
    (hst : ∀ k ∈ ks, ∀ s, I s → P (effects.stopAfter out k s)) (hsa : I r.state)
    (hso : ∀ stop ∈ r.stops, P stop) : ∀ stop ∈ (effects.attemptAll out ks r).2.stops, P stop := by
  induction ks generalizing r with
  | nil => exact hso
  | cons k ks ih =>
    have hnow := hst k mem_cons_self r.state hsa
    have hst' : ∀ stop ∈ (effects.attempt out k r).2.stops, P stop := by
      intro stop hmem
      rcases mem_attempt.mp hmem with hold | rfl
      · exact hso stop hold
      · exact hnow
    cases hk : out k with
    | done =>
      have hsa' := hkp k mem_cons_self r.state hsa
      rw [attempt, stopAfter_done hk] at hst'
      simp only [attemptAll, attempt, stopAfter_done hk]
      exact ih (fun j hj => hkp j (mem_cons_of_mem k hj))
        (fun j hj => hst j (mem_cons_of_mem k hj)) hsa' hst'
    | failed left =>
      rw [attempt, stopAfter_failed hk] at hst'
      simp only [attemptAll, attempt, stopAfter_failed hk]
      exact hst'

end Effects
end FaultySteps

namespace FallibleLoop
open List
variable {α σ ε : Type*}

def tryEach (body : α → σ → Except ε Unit × σ) : List α → σ → Except ε Unit × σ
  | [], s => (.ok (), s)
  | a :: as, s =>
    match body a s with
    | (.error e, s') => (.error e, s')
    | (.ok (), s') => tryEach body as s'

variable {body : α → σ → Except ε Unit × σ} {s s' : σ} {a : α} {as bs : List α} {e : ε}
  (P : σ → Prop)

theorem tryEach_cons_ok (h : body a s = (.ok (), s')) :
    tryEach body (a :: as) s = tryEach body as s' := by
  simp [tryEach, h]

theorem tryEach_cons_error (h : body a s = (.error e, s')) :
    tryEach body (a :: as) s = (.error e, s') := by
  simp [tryEach, h]

theorem tryEach_cons_inv (h : tryEach body (a :: as) s = (.ok (), s')) :
    ∃ t, body a s = (.ok (), t) ∧ tryEach body as t = (.ok (), s') := by
  rcases hb : body a s with ⟨r, t⟩
  cases r with
  | error e =>
    rw [tryEach_cons_error hb] at h
    simp at h
  | ok u =>
    rw [tryEach_cons_ok hb] at h
    exact ⟨t, rfl, h⟩

theorem tryEach_append_ok (h : tryEach body as s = (.ok (), s')) :
    tryEach body (as ++ bs) s = tryEach body bs s' := by
  induction as generalizing s with
  | nil =>
    obtain rfl : s = s' := congrArg Prod.snd h
    rfl
  | cons a as ih =>
    obtain ⟨t, hb, hrs⟩ := tryEach_cons_inv h
    rw [cons_append, tryEach_cons_ok hb]
    exact ih hrs

theorem tryEach_append_inv (h : tryEach body (as ++ bs) s = (.ok (), s')) :
    ∃ t, tryEach body as s = (.ok (), t) ∧ tryEach body bs t = (.ok (), s') := by
  induction as generalizing s with
  | nil => exact ⟨s, rfl, h⟩
  | cons a as ih =>
    obtain ⟨t, hb, hrs⟩ := tryEach_cons_inv h
    rw [tryEach_cons_ok hb]
    exact ih hrs

theorem tryEach_map {β : Type*} (f : β → α) (bs : List β) (s : σ) :
    tryEach body (bs.map f) s = tryEach (fun b => body (f b)) bs s := by
  induction bs generalizing s with
  | nil => rfl
  | cons b bs ih =>
    simp only [map_cons, tryEach]
    rcases body (f b) s with ⟨r, t⟩
    cases r with
    | error e => rfl
    | ok u => exact ih t

theorem tryEach_invariant (step : ∀ a ∈ as, ∀ s, P s → P (body a s).2) (hs : P s) :
    P (tryEach body as s).2 := by
  induction as generalizing s with
  | nil => exact hs
  | cons a as ih =>
    have hP := step a mem_cons_self s hs
    rcases hb : body a s with ⟨r, t⟩
    rw [hb] at hP
    cases r with
    | error e => rwa [tryEach_cons_error hb]
    | ok u =>
      rw [tryEach_cons_ok hb]
      exact ih (forall_mem_cons.mp step).2 hP

/-- Two loops over the same elements whose bodies answer alike and keep their states related
end with the same answer. -/
theorem tryEach_related {τ : Type*} {body' : α → τ → Except ε Unit × τ} (R : σ → τ → Prop)
    (step : ∀ a ∈ as, ∀ s t, R s t →
      (body a s).1 = (body' a t).1 ∧ R (body a s).2 (body' a t).2) {t : τ} (h : R s t) :
    (tryEach body as s).1 = (tryEach body' as t).1 ∧
      R (tryEach body as s).2 (tryEach body' as t).2 := by
  induction as generalizing s t with
  | nil => exact ⟨rfl, h⟩
  | cons a as ih =>
    obtain ⟨han, hst⟩ := step a mem_cons_self s t h
    rcases hb : body a s with ⟨r, s'⟩
    rcases hb' : body' a t with ⟨r', t'⟩
    rw [hb, hb'] at han hst
    obtain rfl : r = r' := han
    cases r with
    | error e =>
      rw [tryEach_cons_error hb, tryEach_cons_error hb']
      exact ⟨rfl, hst⟩
    | ok u =>
      rw [tryEach_cons_ok hb, tryEach_cons_ok hb']
      exact ih (forall_mem_cons.mp step).2 hst

theorem tryEach_ok_keeps (keep : ∀ a ∈ as, ∀ s s', body a s = (.ok (), s') → P s → P s')
    (h : tryEach body as s = (.ok (), s')) (hs : P s) : P s' := by
  induction as generalizing s with
  | nil =>
    obtain rfl : s = s' := congrArg Prod.snd h
    exact hs
  | cons a as ih =>
    obtain ⟨t, hb, hrs⟩ := tryEach_cons_inv h
    exact ih (forall_mem_cons.mp keep).2 hrs
      (keep a mem_cons_self s t hb hs)

/-- A loop that completes has established for every element what its own
iteration establishes and no later iteration destroys. -/
theorem tryEach_ok_forall (Q : α → σ → Prop)
    (establish : ∀ a ∈ as, ∀ s s', body a s = (.ok (), s') → Q a s')
    (keep : ∀ a ∈ as, ∀ b ∈ as, ∀ s s', body a s = (.ok (), s') → Q b s → Q b s')
    (h : tryEach body as s = (.ok (), s')) : ∀ b ∈ as, Q b s' := by
  induction as generalizing s with
  | nil => simp
  | cons a as ih =>
    obtain ⟨t, hb, hrs⟩ := tryEach_cons_inv h
    have hself := mem_cons_self (a := a) (l := as)
    have hlt := fun x (hx : x ∈ as) => mem_cons_of_mem a hx
    refine forall_mem_cons.mpr ⟨?_, ?_⟩
    · exact tryEach_ok_keeps (Q a) (fun x hx => keep x (hlt x hx) a hself) hrs
        (establish a hself s t hb)
    · exact ih (fun x hx => establish x (hlt x hx))
        (fun x hx y hy => keep x (hlt x hx) y (hlt y hy)) hrs

theorem tryEach_completes (step : ∀ a ∈ as, ∀ s, P s → ∃ s', body a s = (.ok (), s') ∧ P s')
    (hs : P s) : ∃ s', tryEach body as s = (.ok (), s') ∧ P s' := by
  induction as generalizing s with
  | nil => exact ⟨s, rfl, hs⟩
  | cons a as ih =>
    obtain ⟨t, hb, ht⟩ := step a mem_cons_self s hs
    rw [tryEach_cons_ok hb]
    exact ih (forall_mem_cons.mp step).2 ht

theorem tryEach_error_inv (h : tryEach body as s = (.error e, s')) :
    ∃ done a rest t, as = done ++ a :: rest ∧ tryEach body done s = (.ok (), t) ∧
      body a t = (.error e, s') := by
  induction as generalizing s with
  | nil => cases h
  | cons a as ih =>
    rcases hb : body a s with ⟨r, t⟩
    cases r with
    | error e' =>
      rw [tryEach_cons_error hb] at h
      exact ⟨[], a, as, s, rfl, rfl, hb.trans h⟩
    | ok u =>
      rw [tryEach_cons_ok hb] at h
      obtain ⟨done, b, rest, t', rfl, hdn, hlast⟩ := ih h
      exact ⟨a :: done, b, rest, t', rfl, (tryEach_cons_ok hb).trans hdn, hlast⟩

theorem tryEach_append_error (h : tryEach body as s = (.error e, s')) :
    tryEach body (as ++ bs) s = (.error e, s') := by
  obtain ⟨done, a, rest, t, rfl, hdn, hlast⟩ := tryEach_error_inv h
  rw [append_assoc, tryEach_append_ok hdn, cons_append, tryEach_cons_error hlast]

theorem tryEach_idle (h : ∀ a ∈ as, body a s = (.ok (), s)) : tryEach body as s = (.ok (), s) := by
  induction as with
  | nil => rfl
  | cons a as ih =>
    rw [tryEach_cons_ok (h a mem_cons_self)]
    exact ih (forall_mem_cons.mp h).2

end FallibleLoop
