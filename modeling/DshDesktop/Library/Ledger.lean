import Mathlib.Algebra.Order.Group.Nat

/-!
# Ledgers of numbered, retirable entries

A ledger hands out numbers to names: issuing a name gives it the next number and makes
it current, retiring it marks it for good. `Extends` is the order in which a ledger can
only grow.
-/

structure LedgerEntry where
  generation : ℕ
  retired : Bool

@[ext] structure Ledger (ι : Type*) where
  entry : ι → Option LedgerEntry
  current : Option ι
  next : ℕ

namespace Ledger
open Option Function
variable {ι : Type*} {l m n : Ledger ι} {f : LedgerEntry} {x : ι}

structure Valid (l : Ledger ι) : Prop where
  bounded : ∀ x e, l.entry x = some e → e.generation ≤ l.next
  injective : ∀ x y e f, l.entry x = some e → l.entry y = some f →
    e.generation = f.generation → x = y
  current_live : ∀ x, l.current = some x → ∃ e, l.entry x = some e ∧ e.retired = false

structure Extends (l m : Ledger ι) : Prop where
  persists : ∀ x e, l.entry x = some e →
    ∃ f, m.entry x = some f ∧ f.generation = e.generation ∧ (e.retired = true → f.retired = true)
  fresh : ∀ x f, l.entry x = none → m.entry x = some f → l.next < f.generation
  current : ∀ x, m.current = some x → l.current = some x ∨ l.entry x = none
  next_le : l.next ≤ m.next

theorem Extends.refl (l : Ledger ι) : Extends l l where
  persists := fun x e h => ⟨e, h, rfl, id⟩
  fresh := fun x f h h' => by rw [h] at h'; cases h'
  current := fun x h => Or.inl h
  next_le := le_rfl

theorem Extends.trans (h : Extends l m) (h' : Extends m n) : Extends l n where
  persists := by
    intro x e he
    obtain ⟨f, hf, hg, hr⟩ := h.persists x e he
    obtain ⟨f', hf', hg', hr'⟩ := h'.persists x f hf
    exact ⟨f', hf', hg'.trans hg, fun hx => hr' (hr hx)⟩
  fresh := by
    intro x f hl hn
    cases hm : m.entry x with
    | none => exact lt_of_le_of_lt h.next_le (h'.fresh x f hm hn)
    | some e =>
      obtain ⟨f', hf', hg, -⟩ := h'.persists x e hm
      rw [hn] at hf'
      cases hf'
      rw [hg]
      exact h.fresh x e hl hm
  current := by
    intro x hx
    rcases h'.current x hx with hm | hm
    · exact h.current x hm
    cases hl : l.entry x with
    | none => exact Or.inr rfl
    | some e =>
      obtain ⟨f, hf, -, -⟩ := h.persists x e hl
      rw [hm] at hf
      cases hf
  next_le := h.next_le.trans h'.next_le

theorem Extends.current_above (h : Extends l m) (hx : m.current = some x) (hl : l.current ≠ some x)
    (hf : m.entry x = some f) : l.next < f.generation :=
  h.fresh x f ((h.current x hx).resolve_left hl) hf

variable [DecidableEq ι]

def issue (l : Ledger ι) (x : ι) : Ledger ι where
  entry := update l.entry x (some ⟨l.next + 1, false⟩)
  current := some x
  next := l.next + 1

def retire (l : Ledger ι) (x : ι) : Ledger ι where
  entry := update l.entry x ((l.entry x).map fun e => { e with retired := true })
  current := if l.current = some x then none else l.current
  next := l.next

theorem issue_entry {y : ι} (h : (l.issue x).entry y = some f) :
    y = x ∧ f = ⟨l.next + 1, false⟩ ∨ y ≠ x ∧ l.entry y = some f := by
  by_cases hy : y = x
  · subst hy
    simp only [issue, update_self, some.injEq] at h
    exact .inl ⟨rfl, h.symm⟩
  · simp only [issue, update_of_ne hy] at h
    exact .inr ⟨hy, h⟩

theorem issue_valid (h : l.Valid) : (l.issue x).Valid where
  bounded := by
    intro y e he
    rcases issue_entry he with ⟨-, rfl⟩ | ⟨-, he⟩
    · exact le_rfl
    · exact (h.bounded y e he).trans (Nat.le_succ _)
  injective := by
    intro y z e f he hf hef
    rcases issue_entry he with ⟨hy, rfl⟩ | ⟨-, he⟩ <;>
      rcases issue_entry hf with ⟨hz, rfl⟩ | ⟨-, hf⟩
    · rw [hy, hz]
    · have hle := h.bounded z f hf
      dsimp only at hef
      omega
    · have hle := h.bounded y e he
      dsimp only at hef
      omega
    · exact h.injective y z e f he hf hef
  current_live := by
    intro y hy
    simp only [issue, some.injEq] at hy
    subst hy
    exact ⟨⟨l.next + 1, false⟩, by simp [issue], rfl⟩

theorem issue_extends (l : Ledger ι) (hx : l.entry x = none) : Extends l (l.issue x) where
  persists := by
    intro y e he
    have hy : y ≠ x := by
      intro heq
      subst heq
      rw [hx] at he
      cases he
    exact ⟨e, by simpa only [issue, update_of_ne hy] using he, rfl, id⟩
  fresh := by
    intro y f hl hm
    rcases issue_entry hm with ⟨-, rfl⟩ | ⟨-, hm⟩
    · exact Nat.lt_succ_self _
    · rw [hl] at hm
      cases hm
  current := by
    intro y hy
    simp only [issue, some.injEq] at hy
    subst hy
    exact Or.inr hx
  next_le := Nat.le_succ _

theorem retire_entry {y : ι} (h : (l.retire x).entry y = some f) :
    ∃ e, l.entry y = some e ∧ f.generation = e.generation ∧ (y ≠ x → f = e) ∧
      (y = x → f.retired) := by
  by_cases hy : y = x
  · subst hy
    simp only [retire, update_self, map_eq_some_iff] at h
    obtain ⟨e, he, rfl⟩ := h
    exact ⟨e, he, rfl, fun hne => absurd rfl hne, fun _ => rfl⟩
  · simp only [retire, update_of_ne hy] at h
    exact ⟨f, h, rfl, fun _ => rfl, fun he => absurd he hy⟩

theorem retire_generation (l : Ledger ι) (x y : ι) :
    ((l.retire x).entry y).map LedgerEntry.generation = (l.entry y).map LedgerEntry.generation := by
  by_cases hy : y = x
  · subst hy
    simp [retire, map_map, comp_def]
  · simp [retire, hy]

theorem retire_current {y : ι} (h : (l.retire x).current = some y) :
    l.current = some y ∧ y ≠ x := by
  simp only [retire] at h
  split_ifs at h with hc
  refine ⟨h, ?_⟩
  intro heq
  subst heq
  exact hc h

theorem retire_retire (l : Ledger ι) (x : ι) : (l.retire x).retire x = l.retire x := by
  cases hx : l.entry x with
  | none | some e => simp [retire, hx]

theorem retire_valid (h : l.Valid) (x : ι) : (l.retire x).Valid where
  bounded := by
    intro y f hf
    obtain ⟨e, he, hg, -, -⟩ := retire_entry hf
    rw [hg]
    exact h.bounded y e he
  injective := by
    intro y z f g hf hg hfg
    obtain ⟨e, he, hge, -, -⟩ := retire_entry hf
    obtain ⟨e', he', hge', -, -⟩ := retire_entry hg
    exact h.injective y z e e' he he' (by rw [← hge, ← hge', hfg])
  current_live := by
    intro y hy
    obtain ⟨hc, hne⟩ := retire_current hy
    obtain ⟨e, he, hr⟩ := h.current_live y hc
    exact ⟨e, by simpa only [retire, update_of_ne hne] using he, hr⟩

theorem retire_extends (l : Ledger ι) (x : ι) : Extends l (l.retire x) where
  persists := by
    intro y e he
    by_cases hy : y = x
    · subst hy
      exact ⟨{ e with retired := true }, by simp [retire, he], rfl, fun _ => rfl⟩
    · exact ⟨e, by simpa only [retire, update_of_ne hy] using he, rfl, id⟩
  fresh := by
    intro y f hl hm
    obtain ⟨e, he, -, -, -⟩ := retire_entry hm
    rw [hl] at he
    cases he
  current := fun y hy => Or.inl (retire_current hy).1
  next_le := le_rfl

end Ledger
