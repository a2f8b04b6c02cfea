import Mathlib.Algebra.Order.Group.Nat

/-!
# Double precision numbers

A finite double is a sign and a number of units, the unit being the smallest positive
double `2^-1074`; so every sum of finite doubles is exact in units, and adding is rounding
that sum to 53 significant bits, to even in the middle. What rounds to `2^1024` or more
is infinite.
-/

inductive Binary64
  | finite (negative : Bool) (units : ℕ)
  | infinite (negative : Bool)
  | nan
  deriving DecidableEq

namespace Binary64

def unitBits : ℕ := 1074
def precision : ℕ := 53
def overflowBits : ℕ := 1024 + unitBits

/-- The multiple of `2^q` nearest to `n`, the even one in the middle. -/
def nearest (n q : ℕ) : ℕ :=
  let m := n / 2 ^ q
  let rest := 2 * (n % 2 ^ q)
  let up := 2 ^ q < rest ∨ rest = 2 ^ q ∧ m % 2 = 1
  (if up then m + 1 else m) * 2 ^ q

def rounded (n : ℕ) : ℕ :=
  if n < 2 ^ precision then n else nearest n (Nat.log2 n + 1 - precision)

variable (negative : Bool)

def ofUnits (n : ℕ) : Binary64 :=
  if rounded n < 2 ^ overflowBits then .finite negative (rounded n) else .infinite negative

def ofNat (n : ℕ) : Binary64 := ofUnits negative (n * 2 ^ unitBits)

def add : Binary64 → Binary64 → Binary64
  | .nan, _ => .nan
  | _, .nan => .nan
  | .infinite s, .infinite t => if s = t then .infinite s else .nan
  | .infinite s, .finite _ _ => .infinite s
  | .finite _ _, .infinite t => .infinite t
  | .finite s m, .finite t n =>
    if s = t then ofUnits s (m + n)
    else if n < m then ofUnits s (m - n)
    else if m < n then ofUnits t (n - m)
    else .finite false 0

def isFinite : Binary64 → Bool
  | .finite _ _ => true
  | _ => false

def isBelowZero : Binary64 → Bool
  | .finite negative units => negative && decide (0 < units)
  | .infinite negative => negative
  | .nan => false

def NonNegative (x : Binary64) : Prop := x ≠ .nan ∧ x.isBelowZero = false

theorem ofUnits_zero : ofUnits negative 0 = .finite negative 0 := by
  have hzr : rounded 0 = 0 := if_pos (Nat.two_pow_pos precision)
  rw [ofUnits, hzr, if_pos (Nat.two_pow_pos overflowBits)]

theorem zero_nonNegative : (finite negative 0).NonNegative :=
  ⟨Binary64.noConfusion, Bool.and_false negative⟩

theorem finite_nonNegative {negative : Bool} {units : ℕ}
    (h : (finite negative units).NonNegative) : negative = false ∨ units = 0 := by
  have hsg : (negative && decide (0 < units)) = false := h.2
  cases negative with
  | false => exact .inl rfl
  | true =>
    right
    by_contra hun
    rw [decide_eq_true (Nat.pos_of_ne_zero hun)] at hsg
    cases hsg

theorem ofUnits_nonNegative {negative : Bool} {n : ℕ} (h : negative = false ∨ n = 0) :
    (ofUnits negative n).NonNegative := by
  rcases h with rfl | rfl
  · rw [ofUnits]
    split_ifs
    · exact ⟨Binary64.noConfusion, rfl⟩
    · exact ⟨Binary64.noConfusion, rfl⟩
  · rw [ofUnits_zero]
    exact zero_nonNegative negative

theorem add_nonNegative {x y : Binary64} (hx : x.NonNegative) (hy : y.NonNegative) :
    (x.add y).NonNegative := by
  cases x with
  | nan => exact absurd rfl hx.1
  | infinite s =>
    have hs : s = false := hx.2
    subst hs
    cases y with
    | nan => exact absurd rfl hy.1
    | infinite t =>
      have ht : t = false := hy.2
      subst ht
      exact hx
    | finite t n => exact hx
  | finite s m =>
    cases y with
    | nan => exact absurd rfl hy.1
    | infinite t => exact hy
    | finite t n =>
      -- the sign of the result is that of a summand other than zero
      have hm := finite_nonNegative hx
      have hn := finite_nonNegative hy
      rw [add]
      split_ifs with hsg hlt hgt
      · subst hsg
        refine ofUnits_nonNegative ?_
        rcases hm with hs | rfl
        · exact .inl hs
        · rw [Nat.zero_add]
          exact hn
      · exact ofUnits_nonNegative (.inl (hm.resolve_right (Nat.ne_zero_of_lt hlt)))
      · exact ofUnits_nonNegative (.inl (hn.resolve_right (Nat.ne_zero_of_lt hgt)))
      · exact zero_nonNegative false

end Binary64
