import Mathlib.Algebra.Order.Group.Nat

/-!
# Exponential backoff

Every attempt moves that time by the current interval and doubles the interval up to a cap;
a success resets both. `Follows` ties the record to the times of the attempts since the last
reset, newest first.
-/

structure Backoff where
  cap : ℕ
  base : ℕ
  interval : ℕ
  allowedAfter : ℕ

namespace Backoff

def begin (b : Backoff) (now : ℕ) : Bool × Backoff :=
  if now < b.allowedAfter then (false, b)
  else (true, { b with allowedAfter := now + b.interval, interval := min (b.interval * 2) b.cap })

def reset (b : Backoff) (now : ℕ) : Backoff := { b with allowedAfter := now, interval := b.base }

theorem begin_limits (b : Backoff) (now : ℕ) :
    (b.begin now).2.base = b.base ∧ (b.begin now).2.cap = b.cap := by
  rw [begin]
  split_ifs
  · exact ⟨rfl, rfl⟩
  · exact ⟨rfl, rfl⟩

def gap (base cap n : ℕ) : ℕ := min (base * 2 ^ n) cap

theorem gap_succ {base cap n : ℕ} : gap base cap (n + 1) = min (gap base cap n * 2) cap := by
  rw [gap, gap, pow_succ, ← Nat.mul_assoc]
  omega

def Spaced (base cap : ℕ) : List ℕ → Prop
  | [] => True
  | [_] => True
  | t :: u :: earlier => u + gap base cap earlier.length ≤ t ∧ Spaced base cap (u :: earlier)

instance decidableSpaced (base cap : ℕ) : ∀ times, Decidable (Spaced base cap times)
  | [] => inferInstanceAs (Decidable True)
  | [_] => inferInstanceAs (Decidable True)
  | t :: u :: earlier =>
    have : Decidable (Spaced base cap (u :: earlier)) := decidableSpaced base cap (u :: earlier)
    inferInstanceAs (Decidable (u + gap base cap earlier.length ≤ t ∧ _))

structure Follows (b : Backoff) (attempts : List ℕ) : Prop where
  base_le : b.base ≤ b.cap
  interval : b.interval = gap b.base b.cap attempts.length
  allowed : ∀ t earlier, attempts = t :: earlier →
    b.allowedAfter = t + gap b.base b.cap earlier.length
  spaced : Spaced b.base b.cap attempts

variable {b : Backoff} {tries : List ℕ} (h : Follows b tries)
include h

theorem follows_reset (now : ℕ) : Follows (b.reset now) [] where
  base_le := h.base_le
  interval := by
    have hbs := h.base_le
    change b.base = min (b.base * 2 ^ 0) b.cap
    omega
  allowed := by
    intro t earl ht
    cases ht
  spaced := trivial

theorem follows_begin {now : ℕ} (hbg : (b.begin now).1) :
    Follows (b.begin now).2 (now :: tries) := by
  have hnow : ¬ now < b.allowedAfter := by
    intro hea
    rw [begin, if_pos hea] at hbg
    cases hbg
  rw [begin, if_neg hnow]
  refine ⟨h.base_le, ?_, ?_, ?_⟩
  · change min (b.interval * 2) b.cap = gap b.base b.cap (tries.length + 1)
    rw [gap_succ, ← h.interval]
  · intro t earl ht
    cases ht
    rw [h.interval]
  · cases hat : tries with
    | nil => trivial
    | cons t earl =>
      have hal := h.allowed t earl hat
      refine ⟨?_, hat ▸ h.spaced⟩
      change t + gap b.base b.cap earl.length ≤ now
      omega

end Backoff
