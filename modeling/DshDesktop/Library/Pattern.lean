import Mathlib.Computability.RegularExpressions

/-!
# Anchored text patterns

A pattern is a regular expression over characters with the text it is written as; it is
anchored at both ends.
-/

structure Pattern where
  source : String
  expr : RegularExpression Char

namespace Pattern
open RegularExpression List

def test (p : Pattern) (s : String) : Bool := p.expr.rmatch s.toList

def chars (first last : Char) : List Char :=
  (List.range' first.toNat (last.toNat + 1 - first.toNat)).map Char.ofNat

def charClass (cs : List Char) : RegularExpression Char := cs.foldr (fun c r => char c + r) 0

def literal (cs : List Char) : RegularExpression Char := cs.foldr (fun c r => char c * r) 1

def oneOrMore (r : RegularExpression Char) : RegularExpression Char := r * r.star

def optional (r : RegularExpression Char) : RegularExpression Char := r + 1

def exactly (r : RegularExpression Char) : ℕ → RegularExpression Char
  | 0 => 1
  | n + 1 => r * exactly r n

theorem toNat_ofNat {n : ℕ} (h : n < 0xd800) : (Char.ofNat n).toNat = n := by
  have hvl : n.isValidChar := .inl h
  rw [Char.ofNat, dif_pos hvl]
  rfl

theorem mem_chars {first last c : Char} (h : last.toNat < 0xd800) :
    c ∈ chars first last ↔ first ≤ c ∧ c ≤ last := by
  have hle : first ≤ c ∧ c ≤ last ↔ first.toNat ≤ c.toNat ∧ c.toNat ≤ last.toNat := Iff.rfl
  rw [hle, chars, mem_map]
  constructor
  · intro hc
    obtain ⟨n, hn, rfl⟩ := hc
    rw [mem_range'_1] at hn
    rw [toNat_ofNat (by omega)]
    omega
  · intro hc
    refine ⟨c.toNat, ?_, Char.ofNat_toNat c⟩
    rw [mem_range'_1]
    omega

variable {cs w : List Char}

theorem rmatch_charClass : (charClass cs).rmatch w ↔ ∃ c ∈ cs, w = [c] := by
  induction cs with
  | nil => simp [charClass]
  | cons c cs ih =>
    change (char c + charClass cs).rmatch w ↔ _
    rw [add_rmatch_iff, char_rmatch_iff, ih]
    simp

theorem rmatch_literal : (literal cs).rmatch w ↔ w = cs := by
  induction cs generalizing w with
  | nil => exact one_rmatch_iff w
  | cons c cs ih =>
    change (char c * literal cs).rmatch w ↔ _
    rw [mul_rmatch_iff]
    constructor
    · intro h
      obtain ⟨t, u, hw, ht, hu⟩ := h
      rw [hw, (char_rmatch_iff c t).mp ht, ih.mp hu]
      rfl
    · intro h
      exact ⟨[c], cs, h, (char_rmatch_iff c _).mpr rfl, ih.mpr rfl⟩

theorem rmatch_star_charClass : (charClass cs).star.rmatch w ↔ ∀ c ∈ w, c ∈ cs := by
  rw [star_rmatch_iff]
  constructor
  · intro h c hc
    obtain ⟨parts, hw, hpa⟩ := h
    rw [hw, mem_flatten] at hc
    obtain ⟨part, hpart, hcp⟩ := hc
    obtain ⟨d, hd, hone⟩ := rmatch_charClass.mp (hpa part hpart).2
    rw [hone, mem_singleton] at hcp
    rw [hcp]
    exact hd
  · intro h
    refine ⟨w.map fun c => [c], ?_, ?_⟩
    · induction w with
      | nil => rfl
      | cons c w ih =>
        rw [map_cons, flatten_cons, ← ih (forall_mem_cons.mp h).2]
        rfl
    · intro part hpart
      obtain ⟨c, hc, rfl⟩ := mem_map.mp hpart
      exact ⟨cons_ne_nil _ _, rmatch_charClass.mpr ⟨c, h c hc, rfl⟩⟩

theorem rmatch_charClass_mul {r : RegularExpression Char} :
    (charClass cs * r).rmatch w ↔ ∃ c u, w = c :: u ∧ c ∈ cs ∧ r.rmatch u := by
  rw [mul_rmatch_iff]
  constructor
  · intro h
    obtain ⟨t, u, rfl, ht, hu⟩ := h
    obtain ⟨c, hc, rfl⟩ := rmatch_charClass.mp ht
    exact ⟨c, u, rfl, hc, hu⟩
  · intro h
    obtain ⟨c, u, rfl, hc, hu⟩ := h
    exact ⟨[c], u, rfl, rmatch_charClass.mpr ⟨c, hc, rfl⟩, hu⟩

theorem rmatch_oneOrMore : (oneOrMore (charClass cs)).rmatch w ↔ w ≠ [] ∧ ∀ c ∈ w, c ∈ cs := by
  rw [oneOrMore, rmatch_charClass_mul]
  simp only [rmatch_star_charClass]
  cases w <;> simp

theorem rmatch_optional {r : RegularExpression Char} :
    (optional r).rmatch w ↔ r.rmatch w ∨ w = [] := by
  rw [optional, add_rmatch_iff, one_rmatch_iff]

theorem rmatch_exactly {n : ℕ} :
    (exactly (charClass cs) n).rmatch w ↔ w.length = n ∧ ∀ c ∈ w, c ∈ cs := by
  induction n generalizing w with
  | zero =>
    rw [exactly, one_rmatch_iff, length_eq_zero_iff]
    constructor
    · intro h
      subst h
      simp
    · exact fun h => h.1
  | succ n ih =>
    rw [exactly, rmatch_charClass_mul]
    simp only [ih]
    cases w with
    | nil => simp
    | cons c w => simp [and_left_comm]

end Pattern
