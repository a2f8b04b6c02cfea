import Mathlib.Data.List.Basic

/-!
# Computations that record what they touch

A traced computation may fail, and keeps what it touched up to then. `Within P` says
that everything touched satisfies `P`; the rule for sequences gives the second part what
the first returned.
-/

structure Traced (ε τ α : Type) where
  touched : List τ
  result : Except ε α

namespace Traced
variable {ε τ α β : Type} {m : Traced ε τ α} {f : α → Traced ε τ β} (r : Except ε α)

def fail (e : ε) : Traced ε τ α := ⟨[], .error e⟩

def touch (x : τ) : Traced ε τ Unit := ⟨[x], .ok ()⟩

def ofExcept (result : Except ε α) : Traced ε τ α := ⟨[], result⟩

instance : Monad (Traced ε τ) where
  pure a := ⟨[], .ok a⟩
  bind m f :=
    match m.result with
    | .error e => ⟨m.touched, .error e⟩
    | .ok a => ⟨m.touched ++ (f a).touched, (f a).result⟩

theorem bind_error {e : ε} (h : m.result = .error e) (f : α → Traced ε τ β) :
    m >>= f = ⟨m.touched, .error e⟩ := by
  change (match m.result with | .error e => _ | .ok a => _ : Traced ε τ β) = _
  rw [h]

theorem bind_ok {a : α} (h : m.result = .ok a) (f : α → Traced ε τ β) :
    m >>= f = ⟨m.touched ++ (f a).touched, (f a).result⟩ := by
  change (match m.result with | .error e => _ | .ok a => _ : Traced ε τ β) = _
  rw [h]

@[simp] theorem pure_result (a : α) : (pure a : Traced ε τ α).result = .ok a := rfl

@[simp] theorem fail_result (e : ε) : (fail e : Traced ε τ α).result = .error e := rfl

@[simp] theorem touch_result (x : τ) : (touch x : Traced ε τ Unit).result = .ok () := rfl

@[simp] theorem ofExcept_result : (ofExcept r : Traced ε τ α).result = r := rfl

@[simp] theorem bind_result (m : Traced ε τ α) (f : α → Traced ε τ β) :
    (m >>= f).result = m.result.bind fun a => (f a).result := by
  cases h : m.result with
  | error e =>
    rw [bind_error h]
    rfl
  | ok a =>
    rw [bind_ok h]
    rfl

theorem bind_result_ok {b : β} (h : (m >>= f).result = .ok b) :
    ∃ a, m.result = .ok a ∧ (f a).result = .ok b := by
  cases hm : m.result with
  | error e =>
    rw [bind_error hm] at h
    cases h
  | ok a =>
    rw [bind_ok hm] at h
    exact ⟨a, rfl, h⟩

def Within (P : τ → Prop) (m : Traced ε τ α) : Prop := ∀ x ∈ m.touched, P x

variable {P : τ → Prop}

theorem within_pure (a : α) : Within P (pure a : Traced ε τ α) :=
  fun _ hx => absurd hx List.not_mem_nil

theorem within_fail (e : ε) : Within P (fail e : Traced ε τ α) :=
  fun _ hx => absurd hx List.not_mem_nil

theorem within_ofExcept : Within P (ofExcept r : Traced ε τ α) :=
  fun _ hx => absurd hx List.not_mem_nil

theorem within_touch {x : τ} (h : P x) : Within P (touch x : Traced ε τ Unit) := by
  intro y hy
  rw [List.mem_singleton.mp hy]
  exact h

theorem Within.bind (hm : m.Within P) (hf : ∀ a, m.result = .ok a → (f a).Within P) :
    (m >>= f).Within P := by
  cases h : m.result with
  | error e =>
    rw [bind_error h]
    exact hm
  | ok a =>
    rw [bind_ok h]
    intro x hx
    rcases List.mem_append.mp hx with hx | hx
    · exact hm x hx
    · exact hf a h x hx

end Traced
