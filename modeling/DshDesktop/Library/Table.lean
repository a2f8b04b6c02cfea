import Mathlib.Data.List.AList

/-!
# Finite tables with passes over their values

A table is an association list without repeated keys, with passes over all entries: reading
the values, rewriting them in place, and keeping those that pass a test.
-/

abbrev Table (κ ν : Type*) := AList (fun _ : κ => ν)

namespace Table
variable {κ ν : Type*}

def values (m : Table κ ν) : List ν := m.entries.map Sigma.snd

def mapVal (f : κ → ν → ν) (m : Table κ ν) : Table κ ν where
  entries := m.entries.map (Sigma.map id f)
  nodupKeys := List.NodupKeys.map₂ f m.entries m.nodupKeys

def retain (p : κ → ν → Bool) (m : Table κ ν) : Table κ ν where
  entries := m.entries.filter (fun e => p e.1 e.2)
  nodupKeys := List.NodupKeys.sublist List.filter_sublist m.nodupKeys

variable [DecidableEq κ] {m : Table κ ν} {v : ν} {k : κ}

theorem mem_entries_iff : (⟨k, v⟩ : Σ _ : κ, ν) ∈ m.entries ↔ m.lookup k = some v :=
  (List.mem_dlookup_iff m.nodupKeys).symm

theorem mem_values_iff : v ∈ m.values ↔ ∃ k, m.lookup k = some v := by
  simp only [values, List.mem_map]
  constructor
  · intro hmem
    obtain ⟨⟨k, v⟩, hm, rfl⟩ := hmem
    exact ⟨k, mem_entries_iff.mp hm⟩
  · intro hmem
    obtain ⟨k, hk⟩ := hmem
    exact ⟨⟨k, v⟩, mem_entries_iff.mpr hk, rfl⟩

theorem lookup_insert_ite (m : Table κ ν) (k k' : κ) (v : ν) :
    (m.insert k' v).lookup k = if k = k' then some v else m.lookup k := by
  split_ifs with h
  · subst h
    exact AList.lookup_insert m
  · exact AList.lookup_insert_ne h

theorem lookup_erase_ite (m : Table κ ν) (k k' : κ) :
    (m.erase k').lookup k = if k = k' then none else m.lookup k := by
  split_ifs with h
  · subst h
    exact AList.lookup_erase k m
  · exact AList.lookup_erase_ne h

@[simp] theorem lookup_mapVal (f : κ → ν → ν) (m : Table κ ν) (k : κ) :
    (m.mapVal f).lookup k = (m.lookup k).map (f k) :=
  List.dlookup_map₂ k

theorem lookup_mapVal_some {f : κ → ν → ν} :
    (m.mapVal f).lookup k = some v ↔ ∃ u, m.lookup k = some u ∧ f k u = v := by
  rw [lookup_mapVal, Option.map_eq_some_iff]

theorem lookup_retain_some {p : κ → ν → Bool} :
    (m.retain p).lookup k = some v ↔ m.lookup k = some v ∧ p k v := by
  rw [← mem_entries_iff, ← mem_entries_iff]
  simp [retain]

end Table
