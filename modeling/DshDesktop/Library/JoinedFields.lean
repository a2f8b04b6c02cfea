import Mathlib.Data.List.Basic

/-!
# Lines and joined fields

A reader of lines also yields what stands after the last terminator, if anything does.
Fields that may hold the delimiter are not told apart by their joined text. With as many
delimiters in each field the joined text determines the fields.
-/

namespace LineFile
open List
variable {α : Type*} [DecidableEq α] (terminator eol : α)

def split : List α → List (List α)
  | [] => [[]]
  | a :: rest =>
    if a = terminator then [] :: split rest
    else
      match split rest with
      | [] => [[a]]
      | first :: pieces => (a :: first) :: pieces

def lines (file : List α) : List (List α) :=
  if (split terminator file).getLast? = some [] then (split terminator file).dropLast
  else split terminator file

def render (ls : List (List α)) : List α := ls.flatMap fun l => l ++ [terminator]

theorem exists_split (file : List α) : ∃ first pieces, split eol file = first :: pieces := by
  cases file with
  | nil => exact ⟨[], [], rfl⟩
  | cons a rest =>
    rw [split]
    split_ifs
    · exact ⟨_, _, rfl⟩
    · split <;> exact ⟨_, _, rfl⟩

variable {eol} {ls : List (List α)}

theorem split_line {l : List α} (hl : eol ∉ l) (rest : List α) :
    split eol (l ++ eol :: rest) = l :: split eol rest := by
  induction l with
  | nil => rw [nil_append, split, if_pos rfl]
  | cons a l ih =>
    have ha : a ≠ eol := fun h => hl (h ▸ mem_cons_self)
    rw [cons_append, split, if_neg ha, ih fun h => hl (mem_cons_of_mem a h)]

variable (h : ∀ l ∈ ls, eol ∉ l)
include h

theorem split_render : split eol (render eol ls) = ls ++ [[]] := by
  induction ls with
  | nil => rfl
  | cons l ls ih =>
    have hrs := ih fun k hk => h k (mem_cons_of_mem l hk)
    rw [render, flatMap_cons, append_assoc, singleton_append,
      split_line (h l mem_cons_self), cons_append]
    exact congrArg _ hrs

theorem lines_render : lines eol (render eol ls) = ls := by
  rw [lines, split_render h, getLast?_concat, if_pos rfl, dropLast_concat]

theorem filter_split_render (hem : ∀ l ∈ ls, l ≠ []) :
    (split eol (render eol ls)).filter (fun l => l ≠ []) = ls := by
  rw [split_render h, filter_append, filter_eq_self.mpr]
  · simp
  · intro l hl
    exact decide_eq_true (hem l hl)

end LineFile

namespace JoinedFields
open List
variable {α : Type*} [DecidableEq α] (d : α)

def joined (fields : List (List α)) : List α := [d].intercalate fields

def pieces (field : List α) : List (List α) := field.splitOn d

variable {d} {fields others : List (List α)}

omit [DecidableEq α] in
theorem joined_cons_cons {f g : List α} :
    joined d (f :: g :: fields) = f ++ d :: joined d (g :: fields) := by
  simp [joined]

theorem pieces_joined (h : fields ≠ []) :
    pieces d (joined d fields) = fields.flatMap (pieces d) := by
  induction fields with
  | nil => exact absurd rfl h
  | cons f fields ih =>
    cases fields with
    | nil => simp [joined]
    | cons g fields =>
      rw [joined_cons_cons, pieces, splitOn_append_cons_self, flatMap_cons]
      exact congrArg _ (ih (cons_ne_nil g fields))

theorem pieces_injective : Function.Injective (pieces d) := by
  intro f g h
  have hjn := congrArg (fun ps => [d].intercalate ps) h
  simpa [pieces] using hjn

theorem length_pieces (field : List α) : (pieces d field).length = field.count d + 1 := by
  induction field with
  | nil => rfl
  | cons a field ih =>
    rw [pieces, splitOn_cons_eq_if_modifyHead, count_cons]
    by_cases ha : (a == d)
    · rw [if_pos ha, if_pos ha, length_cons]
      exact congrArg (· + 1) ih
    · rw [if_neg ha, if_neg ha, length_modifyHead]
      exact ih

theorem notMem_of_mem_pieces {field piece : List α} (h : piece ∈ pieces d field) : d ∉ piece := by
  induction field generalizing piece with
  | nil => simp [mem_singleton.mp h]
  | cons a field ih =>
    rw [pieces, splitOn_cons_eq_if_modifyHead] at h
    by_cases ha : (a == d)
    · rw [if_pos ha] at h
      rcases mem_cons.mp h with rfl | h
      · simp
      · exact ih h
    rw [if_neg ha] at h
    cases hparts : field.splitOn d with
    | nil => simp [hparts] at h
    | cons first rest =>
      rw [hparts, modifyHead_cons] at h
      have hfield : ∀ x ∈ first :: rest, d ∉ x := fun x hx => ih (by rwa [pieces, hparts])
      rcases mem_cons.mp h with rfl | h
      · have hne : d ≠ a := fun heq => ha (by simp [heq])
        simp [hne, hfield first mem_cons_self]
      · exact hfield piece (mem_cons_of_mem _ h)

omit [DecidableEq α] in
theorem mem_joined {a : α} (ha : a ≠ d) : a ∈ joined d fields ↔ ∃ f ∈ fields, a ∈ f := by
  induction fields with
  | nil => simp [joined]
  | cons f fields ih =>
    cases fields with
    | nil => simp [joined]
    | cons g fields => simp only [joined_cons_cons, mem_append, mem_cons, ha, ih]; simp

theorem joined_pieces (field : List α) : joined d (pieces d field) = field :=
  intercalate_splitOn d

theorem joined_eq_iff (h : fields ≠ []) (h' : others ≠ []) : joined d fields = joined d others ↔
      fields.flatMap (pieces d) = others.flatMap (pieces d) := by
  rw [← pieces_joined h, ← pieces_joined h']
  exact pieces_injective.eq_iff.symm

theorem eq_of_pieces (hcount : fields.map (List.count d) = others.map (List.count d))
    (hparts : fields.flatMap (pieces d) = others.flatMap (pieces d)) : fields = others := by
  induction fields generalizing others with
  | nil =>
    cases others with
    | nil => rfl
    | cons g others => cases hcount
  | cons f fields ih =>
    cases others with
    | nil => cases hcount
    | cons g others =>
      obtain ⟨hf, hrs⟩ := List.cons.inj hcount
      have hlen : (pieces d f).length = (pieces d g).length := by
        rw [length_pieces, length_pieces, hf]
      obtain ⟨hfr, hel⟩ := append_inj hparts hlen
      rw [pieces_injective hfr, ih hrs hel]

variable (d)

def splitOnce (text : List α) : List α × Option (List α) :=
  (text.takeWhile (· ≠ d), (text.dropWhile (· ≠ d)).tail?)

def followed (rest : Option (List α)) : List α := rest.elim [] (d :: ·)

variable {d}

theorem splitOnce_followed {front : List α} (h : d ∉ front) (rest : Option (List α)) :
    splitOnce d (front ++ followed d rest) = (front, rest) := by
  have hfr : ∀ a ∈ front, decide (a ≠ d) = true := by
    intro a ha
    exact decide_eq_true fun heq => h (heq ▸ ha)
  rw [splitOnce, takeWhile_append_of_pos hfr, dropWhile_append_of_pos hfr]
  cases rest <;> simp [followed]

theorem splitOnce_eq (text : List α) :
    (splitOnce d text).1 ++ followed d (splitOnce d text).2 = text := by
  induction text with
  | nil => rfl
  | cons a text ih =>
    by_cases ha : a = d
    · simp [splitOnce, followed, ha]
    · simpa [splitOnce, ha] using ih

end JoinedFields
