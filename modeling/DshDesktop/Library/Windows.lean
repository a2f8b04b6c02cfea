import DshDesktop.Library.Table

/-!
# Keyed windows with an end

A table gives each key the end of its window. A key with an open window folds into it;
otherwise it gets a new window of a fixed length.
-/

namespace Windows
variable {κ : Type*} [DecidableEq κ] {m : Table κ ℕ} {key : κ} {now : ℕ}

def isOpen (m : Table κ ℕ) (key : κ) (now : ℕ) : Bool :=
  match m.lookup key with
  | none => false
  | some ends => decide (now < ends)

theorem isOpen_iff : isOpen m key now ↔ ∃ ends, m.lookup key = some ends ∧ now < ends := by
  unfold isOpen
  cases m.lookup key with
  | none | some ends => simp

variable (limit length top : ℕ)

def check (m : Table κ ℕ) (key : κ) (now : ℕ) : Bool × Table κ ℕ :=
  if isOpen m key now then (true, m)
  else
    let kept := if limit ≤ m.entries.length then m.retain fun _ ends => decide (now < ends) else m
    (false, kept.insert key (min (now + length) top))

theorem isOpen_retain {later : ℕ} (h : now ≤ later) :
    isOpen (m.retain fun _ ends => decide (now < ends)) key later = isOpen m key later := by
  rw [Bool.eq_iff_iff, isOpen_iff, isOpen_iff]
  constructor
  · intro hoe
    obtain ⟨ends, hget, hlt⟩ := hoe
    exact ⟨ends, (Table.lookup_retain_some.mp hget).1, hlt⟩
  · intro hoe
    obtain ⟨ends, hget, hlt⟩ := hoe
    have hkp : now < ends := lt_of_le_of_lt h hlt
    exact ⟨ends, Table.lookup_retain_some.mpr ⟨hget, decide_eq_true hkp⟩, hlt⟩

theorem check_fst (m : Table κ ℕ) (key : κ) (now : ℕ) :
    (check limit length top m key now).1 = isOpen m key now := by
  rw [check]
  by_cases h : isOpen m key now
  · rw [if_pos h, h]
  · rw [if_neg h, eq_false_of_ne_true h]

theorem check_open (h : isOpen m key now) : (check limit length top m key now).2 = m := by
  rw [check, if_pos h]

theorem isOpen_check {other : κ} {later : ℕ} (hsh : isOpen m key now = false) (h : now ≤ later) :
    isOpen (check limit length top m key now).2 other later =
      if other = key then decide (later < min (now + length) top) else isOpen m other later := by
  rw [check, if_neg (ne_true_of_eq_false hsh)]
  rw [isOpen, Table.lookup_insert_ite]
  by_cases hkey : other = key
  · rw [if_pos hkey, if_pos hkey]
  · rw [if_neg hkey, if_neg hkey]
    split_ifs with hlm
    · exact isOpen_retain h
    · rfl

/-- The windows stand for the times at which they were opened: from `floor` on, a key
is open exactly while one of its openings is less than a window's length ago. -/
structure Tracks (m : Table κ ℕ) (opened : List (κ × ℕ)) (floor : ℕ) : Prop where
  past : ∀ key since, (key, since) ∈ opened → since ≤ floor
  open_iff : ∀ key now, floor ≤ now → (isOpen m key now = true ↔
    now < top ∧ ∃ since, (key, since) ∈ opened ∧ now < since + length)

variable {limit length top} {opened : List (κ × ℕ)} {floor : ℕ}

theorem tracks_empty : Tracks length top (∅ : Table κ ℕ) [] 0 where
  past := by simp
  open_iff := by
    intro key now _
    simp [isOpen]

theorem Tracks.later (h : Tracks length top m opened floor) (hnow : floor ≤ now) :
    Tracks length top m opened now where
  past := fun key since hmem => le_trans (h.past key since hmem) hnow
  open_iff := fun key t ht => h.open_iff key t (le_trans hnow ht)

theorem Tracks.check_closed (h : Tracks length top m opened floor) (hnow : floor ≤ now)
    (hsh : isOpen m key now = false) :
    Tracks length top (check limit length top m key now).2 (opened ++ [(key, now)]) now where
  past := by
    intro other since hmem
    rcases List.mem_append.mp hmem with hold | hnew
    · exact le_trans (h.past other since hold) hnow
    · simp only [List.mem_singleton, Prod.mk.injEq] at hnew
      exact le_of_eq hnew.2
  open_iff := by
    intro other later hlt
    rw [isOpen_check limit length top hsh hlt]
    by_cases hkey : other = key
    · subst hkey
      rw [if_pos rfl, decide_eq_true_iff, Nat.lt_min]
      constructor
      · intro hen
        exact ⟨hen.2, now, by simp, hen.1⟩
      · intro hen
        obtain ⟨htop, since, hmem, hlen⟩ := hen
        -- an older opening of the key ends no later than the new one
        have hle : since ≤ now := by
          rcases List.mem_append.mp hmem with hold | hnew
          · exact le_trans (h.past other since hold) hnow
          · simp only [List.mem_singleton, Prod.mk.injEq] at hnew
            exact le_of_eq hnew.2
        exact ⟨by omega, htop⟩
    · rw [if_neg hkey, h.open_iff other later (le_trans hnow hlt)]
      simp [hkey]

end Windows
