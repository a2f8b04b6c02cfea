import Mathlib.Data.List.Basic
import Mathlib.Algebra.Order.Group.Nat

/-!
# Runs of a transition function

An invariant may ask for a condition on the operations (`ok`), which is then a condition on
the run: every operation of the list meets it. In lockstep, two machines answer a sequence
alike exactly when each of its inputs meets the condition for that. A schedule gives the
operation of every moment of an endless run.
-/

namespace Runs
open List
variable {σ ο : Type*}

def run (step : σ → ο → σ) (s : σ) (ops : List ο) : σ := ops.foldl step s

variable {step : σ → ο → σ} {s : σ} {ops : List ο} {ok ok' guard : σ → ο → Prop} (P : σ → Prop)

@[simp] theorem run_nil : run step s [] = s := rfl

@[simp] theorem run_cons (op : ο) (ops : List ο) :
    run step s (op :: ops) = run step (step s op) ops := rfl

theorem run_append (xs ys : List ο) : run step s (xs ++ ys) = run step (run step s xs) ys :=
  foldl_append

theorem run_invariant_on (ok : ο → Prop) (P : σ → Prop)
    (hst : ∀ s op, ok op → P s → P (step s op)) (hops : ∀ op ∈ ops, ok op) (hs : P s) :
    P (run step s ops) := by
  induction ops generalizing s with
  | nil => exact hs
  | cons op ops ih =>
    have hop := hops op mem_cons_self
    exact ih (forall_mem_cons.mp hops).2 (hst s op hop hs)

theorem run_invariant (hst : ∀ s op, P s → P (step s op)) (ops : List ο) (hs : P s) :
    P (run step s ops) :=
  run_invariant_on (fun _ => True) P (fun s op _ => hst s op) (fun _ _ => trivial) hs

def Along (step : σ → ο → σ) (ok : σ → ο → Prop) : σ → List ο → Prop
  | _, [] => True
  | s, op :: ops => ok s op ∧ Along step ok (step s op) ops

instance decidableAlong {ok : σ → ο → Prop} [∀ s op, Decidable (ok s op)] :
    ∀ s ops, Decidable (Along step ok s ops)
  | _, [] => inferInstanceAs (Decidable True)
  | s, op :: ops =>
    have : Decidable (Along step ok (step s op) ops) := decidableAlong (step s op) ops
    inferInstanceAs (Decidable (ok s op ∧ Along step ok (step s op) ops))

theorem run_invariant_along (ok : σ → ο → Prop) (P : σ → Prop)
    (hst : ∀ s op, ok s op → P s → P (step s op)) (hops : Along step ok s ops) (hs : P s) :
    P (run step s ops) := by
  induction ops generalizing s with
  | nil => exact hs
  | cons op ops ih => exact ih hops.2 (hst s op hops.1 hs)

theorem along_append {xs ys : List ο} :
    Along step ok s (xs ++ ys) ↔ Along step ok s xs ∧ Along step ok (run step s xs) ys := by
  induction xs generalizing s with
  | nil => exact ⟨fun h => ⟨trivial, h⟩, fun h => h.2⟩
  | cons x xs ih =>
    rw [cons_append, Along, Along, run_cons, ih, and_assoc]

theorem along_iff_forall_split :
    Along step ok s ops ↔ ∀ xs op ys, ops = xs ++ op :: ys → ok (run step s xs) op := by
  constructor
  · intro h xs op ys hsp
    rw [hsp, along_append] at h
    exact h.2.1
  · intro h
    induction ops generalizing s with
    | nil => trivial
    | cons op ops ih =>
      refine ⟨h [] op ops rfl, ih ?_⟩
      intro xs op' ys hsp
      exact h (op :: xs) op' ys (by rw [hsp]; rfl)

theorem along_congr (h : ∀ xs op, ok (run step s xs) op ↔ ok' (run step s xs) op) (ops : List ο) :
    Along step ok s ops ↔ Along step ok' s ops := by
  induction ops generalizing s with
  | nil => exact Iff.rfl
  | cons op ops ih => exact and_congr (h [] op) (ih fun xs => h (op :: xs))

theorem along_and (h : Along step ok s ops) (h' : Along step ok' s ops) :
    Along step (fun s op => ok s op ∧ ok' s op) s ops := by
  induction ops generalizing s with
  | nil => trivial
  | cons op ops ih => exact ⟨⟨h.1, h'.1⟩, ih h.2 h'.2⟩

/-- Conditions may be exchanged along a run whose states satisfy an invariant. -/
theorem along_mono (hst : ∀ s op, guard s op → P s → P (step s op))
    (himp : ∀ s op, guard s op → P s → ok s op → ok' s op) (hgr : Along step guard s ops)
    (hs : P s) (h : Along step ok s ops) : Along step ok' s ops := by
  induction ops generalizing s with
  | nil => trivial
  | cons op ops ih =>
    have hok := himp s op hgr.1 hs h.1
    exact ⟨hok, ih hgr.2 (hst s op hgr.1 hs) h.2⟩

theorem along_of_forall {ok : ο → Prop} (h : ∀ op ∈ ops, ok op) :
    Along step (fun _ op => ok op) s ops := by
  induction ops generalizing s with
  | nil => trivial
  | cons op ops ih =>
    exact ⟨h op mem_cons_self, ih (forall_mem_cons.mp h).2⟩

/-- Where a state property is kept by every step but the leaving ones, it holds
at the end of the run or until some leaving step. -/
theorem run_until (ok leaves : σ → ο → Prop) (P : σ → Prop)
    (hst : ∀ s op, ok s op → P s → ¬ leaves s op → P (step s op)) (hops : Along step ok s ops)
    (hs : P s) :
    P (run step s ops) ∨
      ∃ xs op ys, ops = xs ++ op :: ys ∧ P (run step s xs) ∧ leaves (run step s xs) op := by
  induction ops generalizing s with
  | nil => exact .inl hs
  | cons op ops ih =>
    by_cases hlv : leaves s op
    · exact .inr ⟨[], op, ops, rfl, hs, hlv⟩
    · rcases ih hops.2 (hst s op hops.1 hs hlv) with hend | ⟨xs, o, ys, hsp, hP, ho⟩
      · exact .inl hend
      · exact .inr ⟨op :: xs, o, ys, by rw [hsp]; rfl, hP, ho⟩

/-- A reflexive and transitive relation that every step of a run respects holds
between the first and the last state. The states of the run may be assumed to
satisfy an invariant. -/
theorem run_related (R : σ → σ → Prop) (hrf : ∀ s, R s s)
    (htrans : ∀ {a b c}, R a b → R b c → R a c) (hst : ∀ s op, P s → P (step s op))
    (hrel : ∀ s op, P s → R s (step s op)) (ops : List ο) (hs : P s) : R s (run step s ops) := by
  induction ops generalizing s with
  | nil => exact hrf s
  | cons op ops ih => exact htrans (hrel s op hs) (ih (hst s op hs))

end Runs

namespace Lockstep
variable {σ τ ι ο : Type*}

def outputs (step : σ → ι → σ × ο) : σ → List ι → List ο
  | _, [] => []
  | s, i :: is => (step s i).2 :: outputs step (step s i).1 is

theorem outputs_eq_iff {step : σ → ι → σ × ο} {step' : τ → ι → τ × ο} (R : σ → τ → Prop)
    (ok : σ → ι → Prop) (hot : ∀ s t i, R s t → ((step s i).2 = (step' t i).2 ↔ ok s i))
    (hrel : ∀ s t i, R s t → ok s i → R (step s i).1 (step' t i).1)
    {s : σ} {t : τ} (h : R s t) (is : List ι) :
    outputs step s is = outputs step' t is ↔ Runs.Along (fun s i => (step s i).1) ok s is := by
  induction is generalizing s t with
  | nil => exact iff_of_true rfl trivial
  | cons i is ih =>
    rw [outputs, outputs, Runs.Along, List.cons_eq_cons, hot s t i h]
    exact and_congr_right fun hok => ih (hrel s t i h hok)

end Lockstep

namespace Schedules
variable {σ ο : Type*}

def after (step : σ → ο → σ) (s : σ) (ops : ℕ → ο) : ℕ → σ
  | 0 => s
  | t + 1 => step (after step s ops t) (ops t)

variable {step : σ → ο → σ} {s : σ} {ops : ℕ → ο}

theorem after_eq_run {t : ℕ} : after step s ops t = Runs.run step s ((List.range t).map ops) := by
  induction t with
  | zero => rfl
  | succ t ih =>
    rw [List.range_succ, List.map_append, Runs.run_append, ← ih]
    rfl

theorem after_invariant (P : σ → Prop) (hst : ∀ s op, P s → P (step s op)) (hs : P s) (t : ℕ) :
    P (after step s ops t) := by
  rw [after_eq_run]
  exact Runs.run_invariant P hst _ hs

theorem eventually_zero {m : ℕ → ℕ} {t : ℕ} (han : ∀ u v, t ≤ u → u ≤ v → m v ≤ m u)
    (hfalls : ∀ u, t ≤ u → m u ≠ 0 → ∃ v, u ≤ v ∧ m v < m u) :
    ∃ u, t ≤ u ∧ ∀ v, u ≤ v → m v = 0 := by
  generalize hk : m t = k
  induction k using Nat.strongRecOn generalizing t with
  | ind k ih =>
    by_cases hzr : m t = 0
    · refine ⟨t, le_rfl, ?_⟩
      intro v hv
      have hle := han t v le_rfl hv
      omega
    · obtain ⟨v, htv, hlt⟩ := hfalls t le_rfl hzr
      obtain ⟨u, hvu, hend⟩ := ih (m v) (hk ▸ hlt)
        (fun a b ha => han a b (htv.trans ha)) (fun a ha => hfalls a (htv.trans ha)) rfl
      exact ⟨u, htv.trans hvu, hend⟩

end Schedules
