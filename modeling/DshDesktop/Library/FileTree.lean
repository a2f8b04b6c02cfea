import Mathlib.Data.List.Induction

/-!
# File trees with symbolic links

A tree says what stands at every location, a list of names from the root, and carries that
everything stands in a directory.
-/

namespace FileTree
open List Option Function

abbrev Location := List String

inductive Segment
  | here
  | up
  | name (text : String)
  deriving DecidableEq

structure Path where
  absolute : Bool
  segments : List Segment
  deriving DecidableEq

inductive Node (φ : Type*)
  | file (data : φ)
  | directory
  | link (target : Path)
  deriving DecidableEq

namespace Node
variable {φ : Type*}

def isDirectory : Node φ → Bool
  | directory => true
  | _ => false

def isLink : Node φ → Bool
  | link _ => true
  | _ => false

theorem isDirectory_iff {n : Node φ} : n.isDirectory ↔ n = .directory := by
  cases n <;> simp [isDirectory]

end Node

structure Tree (φ : Type*) where
  node : Location → Option (Node φ)
  root : node [] = some .directory
  parent : ∀ loc name n, node (loc ++ [name]) = some n → node loc = some .directory

open FileTree.Tree

def nodeIn {φ : Type*} (entries : List (Location × Node φ)) (loc : Location) : Option (Node φ) :=
  if loc = [] then some .directory else (entries.find? fun e => e.1 == loc).map Prod.snd

def Tree.ofList {φ : Type*} (entries : List (Location × Node φ))
    (h : (entries.all fun e => (nodeIn entries e.1.dropLast).any Node.isDirectory) = true) :
    Tree φ where
  node := nodeIn entries
  root := rfl
  parent := by
    intro loc name n hn
    rw [nodeIn, if_neg (by simp)] at hn
    obtain ⟨e, he, -⟩ := map_eq_some_iff.mp hn
    have hdir := all_eq_true.mp h e (mem_of_find?_eq_some he)
    have hloc : e.1 = loc ++ [name] := by simpa using find?_some he
    rw [hloc, dropLast_concat] at hdir
    cases hnode : nodeIn entries loc with
    | none => simp [hnode] at hdir
    | some m => rw [hnode] at hdir; rw [Node.isDirectory_iff.mp hdir]

def splitAt (separator : Char) : List Char → List (List Char)
  | [] => [[]]
  | c :: cs =>
    if c = separator then [] :: splitAt separator cs
    else
      match splitAt separator cs with
      | [] => [[c]]
      | part :: parts => (c :: part) :: parts

def Segment.ofText (text : List Char) : Segment :=
  if text = [] ∨ text = ['.'] then .here
  else if text = ['.', '.'] then .up
  else .name (String.ofList text)

/-- The empty text has no segment, and names nothing. -/
def Path.parse (text : String) : Path :=
  match text.toList with
  | [] => ⟨false, []⟩
  | '/' :: rest => ⟨true, (splitAt '/' rest).map Segment.ofText⟩
  | cs => ⟨false, (splitAt '/' cs).map Segment.ofText⟩

theorem mem_splitAt {sep : Char} {cs part : List Char} (h : part ∈ splitAt sep cs) :
    sep ∉ part ∧ ∀ c ∈ part, c ∈ cs := by
  induction cs generalizing part with
  | nil =>
    rw [splitAt, mem_singleton] at h
    subst h
    exact ⟨not_mem_nil, fun c hc => absurd hc not_mem_nil⟩
  | cons c cs ih =>
    rw [splitAt] at h
    split_ifs at h with hc
    · rcases mem_cons.mp h with rfl | h
      · exact ⟨not_mem_nil, fun c hc => absurd hc not_mem_nil⟩
      · exact ⟨(ih h).1, fun d hd => mem_cons_of_mem c ((ih h).2 d hd)⟩
    cases hsp : splitAt sep cs with
    | nil =>
      simp only [hsp, mem_singleton] at h
      subst h
      exact ⟨by simpa using Ne.symm hc, by simp⟩
    | cons first parts =>
      simp only [hsp] at h
      rcases mem_cons.mp h with rfl | h
      · obtain ⟨hfr, hmem⟩ := ih (hsp ▸ mem_cons_self)
        refine ⟨?_, ?_⟩
        · rw [mem_cons, not_or]
          exact ⟨Ne.symm hc, hfr⟩
        · intro d hd
          rcases mem_cons.mp hd with rfl | hd
          · exact mem_cons_self
          · exact mem_cons_of_mem c (hmem d hd)
      · obtain ⟨hpart, hmem⟩ := ih (hsp ▸ mem_cons_of_mem first h)
        exact ⟨hpart, fun d hd => mem_cons_of_mem c (hmem d hd)⟩

inductive ResolveError
  | missing
  | notDirectory
  | tooManyLinks
  deriving DecidableEq

section
variable {φ : Type*} (t : Tree φ) (create : Bool)

/-- The walk along the segments, up to the first link, which is left to `follow`. With
`create`, the last name may be missing from its directory. -/
def walkWith (follow : Location → List Segment → Except ResolveError Location) :
    Location → List Segment → Except ResolveError Location
  | loc, [] => .ok loc
  | loc, segment :: rest =>
    if (t.node loc).any Node.isDirectory then
      match segment with
      | .here => walkWith follow loc rest
      | .up => walkWith follow loc.dropLast rest
      | .name text =>
        match t.node (loc ++ [text]) with
        | none => if create && rest.isEmpty then .ok (loc ++ [text]) else .error .missing
        | some (.link target) =>
          follow (if target.absolute then [] else loc) (target.segments ++ rest)
        | some _ => walkWith follow (loc ++ [text]) rest
    else .error .notDirectory

def walk : ℕ → Location → List Segment → Except ResolveError Location
  | 0 => walkWith t create fun _ _ => .error .tooManyLinks
  | limit + 1 => walkWith t create (walk limit)

def resolve (limit : ℕ) (cwd : Location) (path : Path) : Except ResolveError Location :=
  if path.segments.isEmpty then .error .missing
  else walk t create limit (if path.absolute then [] else cwd) path.segments

end

variable {φ : Type*} {t : Tree φ} {create : Bool} {loc loc' above names : Location}
  {segments a b rest : List Segment} {text : String}
  {follow : Location → List Segment → Except ResolveError Location} {n : Node φ} {target : Path}

def Tree.Real (t : Tree φ) (loc : Location) : Prop := ∃ n, t.node loc = some n ∧ n.isLink = false

theorem Tree.node_cases (t : Tree φ) (loc : Location) :
    t.node loc = none ∨ t.Real loc ∨ ∃ target, t.node loc = some (.link target) := by
  cases hnode : t.node loc with
  | none => exact .inl rfl
  | some n =>
    cases n with
    | file data | directory => exact .inr (.inl ⟨_, hnode, rfl⟩)
    | link target => exact .inr (.inr ⟨target, rfl⟩)

theorem Tree.real_directory (h : t.node loc = some .directory) : t.Real loc :=
  ⟨.directory, h, rfl⟩

theorem Tree.node_append (hnm : names ≠ []) (h : t.node (loc ++ names) = some n) :
    t.node loc = some .directory := by
  induction names using reverseRecOn generalizing n with
  | nil => exact absurd rfl hnm
  | append_singleton names name ih =>
    rw [← append_assoc] at h
    have hpar := t.parent _ _ _ h
    cases names with
    | nil => simpa using hpar
    | cons first names => exact ih (cons_ne_nil _ _) hpar

theorem Tree.directory_dropLast (h : t.node loc = some .directory) :
    t.node loc.dropLast = some .directory := by
  rcases eq_nil_or_concat loc with rfl | ⟨above, name, rfl⟩
  · exact h
  · rw [concat_eq_append, dropLast_concat]
    rw [concat_eq_append] at h
    exact t.parent _ _ _ h

theorem any_isDirectory {n : Option (Node φ)} : n.any Node.isDirectory ↔ n = some .directory := by
  cases n with
  | none => simp
  | some n => simp [Node.isDirectory_iff]

theorem walkWith_not_directory {seg : Segment} (h : t.node loc ≠ some .directory) :
    walkWith t create follow loc (seg :: rest) = .error .notDirectory := by
  have hdir : ¬ (t.node loc).any Node.isDirectory := fun hany => h (any_isDirectory.mp hany)
  cases seg <;> rw [walkWith, if_neg hdir]

section
variable (h : t.node loc = some .directory)
include h

theorem walkWith_here :
    walkWith t create follow loc (.here :: rest) = walkWith t create follow loc rest := by
  rw [walkWith, if_pos (any_isDirectory.mpr h)]

theorem walkWith_up :
    walkWith t create follow loc (.up :: rest) = walkWith t create follow loc.dropLast rest := by
  rw [walkWith, if_pos (any_isDirectory.mpr h)]

theorem walkWith_missing (hnode : t.node (loc ++ [text]) = none) :
    walkWith t create follow loc (.name text :: rest) =
      if create && rest.isEmpty then .ok (loc ++ [text]) else .error .missing := by
  rw [walkWith, if_pos (any_isDirectory.mpr h)]
  simp [hnode]

theorem walkWith_link (hnode : t.node (loc ++ [text]) = some (.link target)) :
    walkWith t create follow loc (.name text :: rest) =
      follow (if target.absolute then [] else loc) (target.segments ++ rest) := by
  rw [walkWith, if_pos (any_isDirectory.mpr h)]
  simp [hnode]

theorem walkWith_name (hnode : t.Real (loc ++ [text])) :
    walkWith t create follow loc (.name text :: rest) =
      walkWith t create follow (loc ++ [text]) rest := by
  obtain ⟨n, hn, hlink⟩ := hnode
  rw [walkWith, if_pos (any_isDirectory.mpr h)]
  cases n with
  | file data | directory => simp [hn]
  | link target => cases hlink

end

def Reached (t : Tree φ) (create : Bool) (loc : Location) : Prop :=
  t.Real loc ∨ (create = true ∧ t.node loc = none ∧
    ∃ above name, loc = above ++ [name] ∧ t.node above = some .directory)

theorem walkWith_reached
    (hfol : ∀ loc segments loc', t.node loc = some .directory → follow loc segments = .ok loc' →
      Reached t create loc')
    (hloc : t.Real loc) (h : walkWith t create follow loc segments = .ok loc') :
      Reached t create loc' := by
  induction segments generalizing loc with
  | nil =>
    cases h
    exact .inl hloc
  | cons seg rest ih =>
    by_cases hdir : t.node loc = some .directory
    · cases seg with
      | here =>
        rw [walkWith_here hdir] at h
        exact ih hloc h
      | up =>
        rw [walkWith_up hdir] at h
        exact ih (real_directory (directory_dropLast hdir)) h
      | name text =>
        rcases t.node_cases (loc ++ [text]) with hnode | hreal | ⟨target, hnode⟩
        · rw [walkWith_missing hdir hnode] at h
          split_ifs at h with hnew
          cases h
          rw [Bool.and_eq_true] at hnew
          exact .inr ⟨hnew.1, hnode, loc, text, rfl, hdir⟩
        · rw [walkWith_name hdir hreal] at h
          exact ih hreal h
        rw [walkWith_link hdir hnode] at h
        refine hfol _ _ _ ?_ h
        split_ifs
        · exact t.root
        · exact hdir
    · rw [walkWith_not_directory hdir] at h
      cases h

variable (limit : ℕ) {cwd : Location} {name : String} {path : Path}

theorem walk_reached (hloc : t.Real loc)
    (h : walk t create limit loc segments = .ok loc') : Reached t create loc' := by
  induction limit generalizing loc segments loc' with
  | zero =>
    refine walkWith_reached ?_ hloc h
    intro _ _ _ _ hnn
    cases hnn
  | succ limit ih =>
    refine walkWith_reached ?_ hloc h
    intro above rest _ hdir hfol
    exact ih (real_directory hdir) hfol

theorem resolve_reached {limit : ℕ} (hcwd : t.node cwd = some .directory)
    (h : resolve t create limit cwd path = .ok loc) : Reached t create loc := by
  rw [resolve] at h
  split_ifs at h with hem habs
  · exact walk_reached limit (real_directory t.root) h
  · exact walk_reached limit (real_directory hcwd) h

theorem resolve_real {limit : ℕ} (hcwd : t.node cwd = some .directory)
    (h : resolve t false limit cwd path = .ok loc) : t.Real loc := by
  rcases resolve_reached hcwd h with hreal | ⟨hnew, -⟩
  · exact hreal
  · cases hnew

theorem walkWith_names (h : t.Real (loc ++ names)) :
    walkWith t create follow loc (names.map .name ++ rest) =
      walkWith t create follow (loc ++ names) rest := by
  induction names generalizing loc with
  | nil => simp
  | cons name names ih =>
    obtain ⟨n, hn, hlink⟩ := h
    have hdir : t.node loc = some .directory := node_append (cons_ne_nil _ _) hn
    have has : loc ++ name :: names = (loc ++ [name]) ++ names := by simp
    rw [has] at hn ⊢
    have hreal : t.Real (loc ++ [name]) := by
      cases names with
      | nil => exact ⟨n, by simpa using hn, hlink⟩
      | cons next names =>
        exact real_directory (node_append (cons_ne_nil _ _) hn)
    rw [map_cons, cons_append, walkWith_name hdir hreal]
    exact ih ⟨n, hn, hlink⟩

theorem walk_names_append (h : t.Real (loc ++ names)) (rest : List Segment) :
    walk t create limit loc (names.map .name ++ rest) =
      walk t create limit (loc ++ names) rest := by
  cases limit <;> exact walkWith_names h

theorem walk_nil : walk t create limit loc [] = .ok loc := by
  cases limit <;> rw [walk, walkWith]

theorem walk_names (h : t.Real (loc ++ names)) :
    walk t create limit loc (names.map .name) = .ok (loc ++ names) := by
  rw [← append_nil (names.map _), walk_names_append limit h, walk_nil]

theorem walk_free (hdir : t.node above = some .directory) (hfr : t.node (above ++ [name]) = none) :
    walk t true limit [] ((above ++ [name]).map .name) = .ok (above ++ [name]) := by
  rw [map_append, walk_names_append limit (real_directory hdir)]
  cases limit <;> exact walkWith_missing hdir hfr

theorem walk_directory (hsg : segments ≠ [])
    (h : walk t create limit loc segments = .ok loc') : t.node loc = some .directory := by
  by_contra hnot
  obtain ⟨seg, rest, rfl⟩ := exists_cons_of_ne_nil hsg
  have heo : walk t create limit loc (seg :: rest) = .error .notDirectory := by
    cases limit <;> exact walkWith_not_directory hnot
  rw [heo] at h
  cases h

inductive Thinned : List Segment → List Segment → Prop
  | nil : Thinned [] []
  | keep (segment : Segment) {a b : List Segment} (rest : Thinned a b) :
      Thinned (segment :: a) (segment :: b)
  | drop {a b : List Segment} (rest : Thinned a b) (hb : b ≠ []) : Thinned (.here :: a) b

theorem Thinned.append_left {xs : List Segment} (h : Thinned a b) :
    Thinned (xs ++ a) (xs ++ b) := by
  induction xs with
  | nil => exact h
  | cons x xs ih => exact .keep x ih

theorem Thinned.isEmpty_eq (h : Thinned a b) : a.isEmpty = b.isEmpty := by
  cases h with
  | nil | keep seg rest => rfl
  | drop rest hb =>
    cases b with
    | nil => exact absurd rfl hb
    | cons x xs => rfl

theorem walkWith_thinned
    (hfol : ∀ loc a b, Thinned a b → follow loc a = follow loc b) (h : Thinned a b) :
    walkWith t create follow loc a = walkWith t create follow loc b := by
  induction h generalizing loc with
  | nil => rfl
  | @keep seg a b rest ih =>
    by_cases hdir : t.node loc = some .directory
    · cases seg with
      | here => rw [walkWith_here hdir, walkWith_here hdir, ih]
      | up => rw [walkWith_up hdir, walkWith_up hdir, ih]
      | name text =>
        rcases t.node_cases (loc ++ [text]) with hnode | hreal | ⟨target, hnode⟩
        · rw [walkWith_missing hdir hnode, walkWith_missing hdir hnode, rest.isEmpty_eq]
        · rw [walkWith_name hdir hreal, walkWith_name hdir hreal, ih]
        · rw [walkWith_link hdir hnode, walkWith_link hdir hnode]
          exact hfol _ _ _ rest.append_left
    · rw [walkWith_not_directory hdir, walkWith_not_directory hdir]
  | @drop a b rest hb ih =>
    by_cases hdir : t.node loc = some .directory
    · rw [walkWith_here hdir, ih]
    · obtain ⟨seg, tail, rfl⟩ := exists_cons_of_ne_nil hb
      rw [walkWith_not_directory hdir, walkWith_not_directory hdir]

theorem walk_thinned (h : Thinned a b) (loc : Location) :
    walk t create limit loc a = walk t create limit loc b := by
  induction limit generalizing a b loc with
  | zero => exact walkWith_thinned (fun _ _ _ _ => rfl) h
  | succ limit ih => exact walkWith_thinned (fun loc a b h => ih h loc) h

theorem thinned_here (xs : List Segment) (hrest : rest ≠ []) :
    Thinned (xs ++ .here :: rest) (xs ++ rest) := by
  have hself : Thinned rest rest := by
    clear hrest
    induction rest with
    | nil => exact .nil
    | cons seg rest ih => exact .keep seg ih
  exact (Thinned.drop hself hrest).append_left

section
variable (hgo : ∀ follow, walkWith t false follow loc' a = walkWith t false follow loc' b)
include hgo

theorem walkWith_append_congr
    (hfol : ∀ loc segments, follow loc segments = .ok loc' →
      follow loc (segments ++ a) = follow loc (segments ++ b))
    (h : walkWith t false follow loc segments = .ok loc') :
    walkWith t false follow loc (segments ++ a) = walkWith t false follow loc (segments ++ b) := by
  induction segments generalizing loc with
  | nil =>
    cases h
    exact hgo follow
  | cons seg segments ih =>
    by_cases hdir : t.node loc = some .directory
    · cases seg with
      | here =>
        rw [walkWith_here hdir] at h
        rw [cons_append, cons_append, walkWith_here hdir, walkWith_here hdir, ih h]
      | up =>
        rw [walkWith_up hdir] at h
        rw [cons_append, cons_append, walkWith_up hdir, walkWith_up hdir, ih h]
      | name text =>
        rw [cons_append, cons_append]
        rcases t.node_cases (loc ++ [text]) with hnode | hrl | ⟨target, hnode⟩
        · rw [walkWith_missing hdir hnode] at h
          cases h
        · rw [walkWith_name hdir hrl] at h
          rw [walkWith_name hdir hrl, walkWith_name hdir hrl, ih h]
        · rw [walkWith_link hdir hnode] at h
          rw [walkWith_link hdir hnode, walkWith_link hdir hnode, ← append_assoc, ← append_assoc,
            hfol _ _ h]
    · rw [walkWith_not_directory hdir] at h
      cases h

/-- What follows a prefix may be exchanged for what goes the same way from its end. -/
theorem walk_append_congr (h : walk t false limit loc segments = .ok loc') :
    walk t false limit loc (segments ++ a) = walk t false limit loc (segments ++ b) := by
  induction limit generalizing loc segments with
  | zero => exact walkWith_append_congr hgo (fun _ _ hok => by cases hok) h
  | succ limit ih => exact walkWith_append_congr hgo (fun _ _ hok => ih hok) h

end

/-- A parent segment undoes the step into a directory that is no link. -/
theorem walk_back (h : walk t false limit loc segments = .ok loc')
    (hdir : t.node (loc' ++ [name]) = some .directory) :
    walk t false limit loc (segments ++ .name name :: .up :: rest) =
      walk t false limit loc (segments ++ rest) := by
  have hloc : t.node loc' = some .directory := t.parent _ _ _ hdir
  refine walk_append_congr limit (fun follow => ?_) h
  rw [walkWith_name hloc (real_directory hdir), walkWith_up hdir, dropLast_concat]

def Node.shape : Node φ → Node Unit
  | .file _ => .file ()
  | .directory => .directory
  | .link target => .link target

def Alike (t t' : Tree φ) : Prop :=
  ∀ loc, (t.node loc).map Node.shape = (t'.node loc).map Node.shape

section
variable {t' : Tree φ} (h : Alike t t')
include h

theorem Alike.symm : Alike t' t := fun loc => (h loc).symm

theorem Alike.none_iff (loc : Location) : t.node loc = none ↔ t'.node loc = none := by
  rw [← map_eq_none_iff, h loc, map_eq_none_iff]

theorem Alike.node (hn : t.node loc = some n) :
    ∃ n', t'.node loc = some n' ∧ n'.shape = n.shape := by
  have hloc := h loc
  rw [hn, map_some] at hloc
  exact map_eq_some_iff.mp hloc.symm

theorem Alike.directory (hn : t.node loc = some .directory) : t'.node loc = some .directory := by
  obtain ⟨n', hn', hsh⟩ := h.node hn
  cases n' with
  | file data | link target => cases hsh
  | directory => exact hn'

theorem Alike.directory_iff (loc : Location) :
    t.node loc = some .directory ↔ t'.node loc = some .directory :=
  ⟨h.directory, h.symm.directory⟩

theorem Alike.link (hn : t.node loc = some (.link target)) : t'.node loc = some (.link target) := by
  obtain ⟨n', hn', hsh⟩ := h.node hn
  cases n' with
  | file data | directory => cases hsh
  | link target' =>
    cases hsh
    exact hn'

theorem Alike.real (hreal : t.Real loc) : t'.Real loc := by
  rcases t'.node_cases loc with hnn | hrl' | ⟨target, hlink⟩
  · obtain ⟨n, hn, -⟩ := hreal
    rw [(h.none_iff loc).mpr hnn] at hn
    cases hn
  · exact hrl'
  · obtain ⟨n, hn, hfalse⟩ := hreal
    rw [h.symm.link hlink] at hn
    cases hn
    cases hfalse

theorem walkWith_alike {follow follow' : Location → List Segment → Except ResolveError Location}
    (hfol : ∀ loc segments, follow loc segments = follow' loc segments) (loc : Location)
    (segments : List Segment) :
    walkWith t create follow loc segments = walkWith t' create follow' loc segments := by
  induction segments generalizing loc with
  | nil => simp [walkWith]
  | cons seg rest ih =>
    by_cases hdir : t.node loc = some .directory
    · have hdr' := (h.directory_iff loc).mp hdir
      cases seg with
      | here => rw [walkWith_here hdir, walkWith_here hdr', ih]
      | up => rw [walkWith_up hdir, walkWith_up hdr', ih]
      | name text =>
        rcases t.node_cases (loc ++ [text]) with hnode | hreal | ⟨target, hnode⟩
        · rw [walkWith_missing hdir hnode, walkWith_missing hdr' ((h.none_iff _).mp hnode)]
        · rw [walkWith_name hdir hreal, walkWith_name hdr' (h.real hreal), ih]
        · rw [walkWith_link hdir hnode, walkWith_link hdr' (h.link hnode), hfol]
    · rw [walkWith_not_directory hdir,
        walkWith_not_directory fun hdr' => hdir ((h.directory_iff loc).mpr hdr')]

theorem walk_alike (limit : ℕ) (loc : Location) (segments : List Segment) :
    walk t create limit loc segments = walk t' create limit loc segments := by
  induction limit generalizing loc segments with
  | zero => exact walkWith_alike h (fun _ _ => rfl) loc segments
  | succ limit ih => exact walkWith_alike h ih loc segments

theorem resolve_alike (limit : ℕ) (cwd : Location) (path : Path) :
    resolve t create limit cwd path = resolve t' create limit cwd path := by
  rw [resolve, resolve, walk_alike h]

end

def Tree.mayHold (t : Tree φ) (loc : Location) : Bool :=
  !loc.isEmpty && (t.node loc.dropLast).any Node.isDirectory && !(t.node loc).any Node.isDirectory

theorem Tree.mayHold_iff : t.mayHold loc ↔ loc ≠ [] ∧ t.node loc.dropLast = some .directory ∧
      t.node loc ≠ some .directory := by
  rw [mayHold, Bool.and_eq_true, Bool.and_eq_true, any_isDirectory, Bool.not_eq_true',
    Bool.not_eq_true', and_assoc, ← Bool.not_eq_true, ← Bool.not_eq_true, any_isDirectory,
    List.isEmpty_iff]

/-- What stands at the location is replaced, or with `none` removed. -/
def Tree.put (t : Tree φ) (loc : Location) (n : Option (Node φ)) (h : t.mayHold loc = true) :
    Tree φ where
  node := update t.node loc n
  root := by
    obtain ⟨hne, -, -⟩ := mayHold_iff.mp h
    rw [update_of_ne (Ne.symm hne)]
    exact t.root
  parent := by
    intro above name m hm
    obtain ⟨-, hparent, hnotdir⟩ := mayHold_iff.mp h
    by_cases hloc : above ++ [name] = loc
    · rw [← hloc, dropLast_concat] at hparent
      rw [update_of_ne]
      · exact hparent
      · intro heq
        rw [heq] at hparent
        exact hnotdir hparent
    rw [update_of_ne hloc] at hm
    have hdir := t.parent above name m hm
    rw [update_of_ne]
    · exact hdir
    · intro heq
      rw [heq] at hdir
      exact hnotdir hdir

def Tree.set (t : Tree φ) (loc : Location) (n : Option (Node φ)) : Tree φ :=
  if h : t.mayHold loc = true then t.put loc n h else t

theorem Tree.node_set (h : t.mayHold loc) (n : Option (Node φ)) :
    (t.set loc n).node = update t.node loc n := by
  rw [set, dif_pos h, put]

theorem Tree.mayHold_of_node (h : t.node loc = some n) (hn : n ≠ .directory) : t.mayHold loc := by
  rw [mayHold_iff]
  rcases eq_nil_or_concat loc with rfl | ⟨above, name, rfl⟩
  · rw [t.root] at h
    exact absurd (some.inj h).symm hn
  rw [concat_eq_append] at h ⊢
  refine ⟨by simp, ?_, ?_⟩
  · rw [dropLast_concat]
    exact t.parent above name n h
  · rw [h]
    exact fun heq => hn (some.inj heq)

theorem Tree.mayHold_of_free (hdir : t.node above = some .directory)
    (h : t.node (above ++ [name]) = none) : t.mayHold (above ++ [name]) := by
  rw [mayHold_iff]
  refine ⟨by simp, ?_, ?_⟩
  · rw [dropLast_concat]
    exact hdir
  · rw [h]
    simp

theorem Reached.mayHold (h : Reached t create loc)
    (hdir : t.node loc ≠ some .directory) : t.mayHold loc := by
  rcases h with ⟨n, hn, -⟩ | ⟨-, hfr, above, name, rfl, hab⟩
  · refine mayHold_of_node hn ?_
    intro heq
    rw [heq] at hn
    exact hdir hn
  · exact mayHold_of_free hab hfr

theorem Reached.not_link (h : Reached t create loc) (target : Path) :
    t.node loc ≠ some (.link target) := by
  intro hlink
  rcases h with ⟨n, hn, hreal⟩ | ⟨-, hfr, -⟩
  · rw [hlink] at hn
    cases hn
    cases hreal
  · rw [hlink] at hfr
    cases hfr

theorem Tree.node_set_of_ne {loc other : Location} (hne : other ≠ loc) (n : Option (Node φ)) :
    (t.set loc n).node other = t.node other := by
  by_cases hold : t.mayHold loc
  · rw [node_set hold, update_of_ne hne]
  · rw [set, dif_neg hold]

theorem Tree.set_directory (n : Option (Node φ))
    (h : t.node above = some .directory) : (t.set loc n).node above = some .directory := by
  by_cases hloc : above = loc
  · subst hloc
    have hold : ¬ t.mayHold above := fun hold => (mayHold_iff.mp hold).2.2 h
    rw [set, dif_neg hold]
    exact h
  · rw [node_set_of_ne hloc]
    exact h

end FileTree
