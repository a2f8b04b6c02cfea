import DshDesktop.Runtime.OutputReader
import Mathlib.Data.String.Basic
import DshDesktop.Library.Text
import DshDesktop.Shell.FileReports

/-!
# The git panel

`git_panel.rs`: what `status_in` makes of the output of git, what the command that
`discard_in` runs does to the worktree, the path check beside that of the file manager, what
`commit_in` makes of the capped status report, and the log. Texts are lists of characters; a
panic is `none`.
-/

namespace DshDesktop.Shell.GitPanel
open List Nat
open DshDesktop.Runtime (isWhiteSpace)

def gitSchemaVersion : ℕ := 1
def maxStatusEntries : ℕ := 2000

inductive GitError
  | malformed (reason : String)
  | unavailable (reason : String)

structure GitEntry where
  path : List Char
  indexStatus : Char
  worktreeStatus : Char
  staged : Bool
  unstaged : Bool
  untracked : Bool
  deriving DecidableEq

structure GitStatusReport where
  schemaVersion : ℕ
  root : String
  branch : Option (List Char)
  detached : Bool
  clean : Bool
  entries : List GitEntry
  truncated : Bool
  deriving DecidableEq

def nul : Char := Char.ofNat 0

def noCommits : List Char := "No commits yet on ".toList

def beforeDots : List Char → List Char
  | [] => []
  | c :: cs => if ['.', '.', '.'] <+: c :: cs then [] else c :: beforeDots cs

def gitEntry (index worktree : Char) (path : List Char) : GitEntry :=
  ⟨path, index, worktree, index ≠ '?' && index ≠ ' ', index ≠ '?' && worktree ≠ ' ', index == '?'⟩

def readHeader (branch : Option (List Char)) (detached : Bool) (header : List Char) :
    Option (List Char) × Bool :=
  let head := Runtime.trim (beforeDots header)
  if ['H', 'E', 'A', 'D'] <+: head then (branch, true)
  else if noCommits <+: head then (some (Runtime.trim (head.drop noCommits.length)), detached)
  else (some head, detached)

/-- The loop of `status_in`. The slices of a record end between characters only if its first
three are single bytes. -/
def readRecords : List (List Char) → GitStatusReport → Option GitStatusReport
  | [], r => some r
  | record :: rest, r =>
    if ['#', '#', ' '] <+: record then
      let (branch, detached) := readHeader r.branch r.detached (record.drop 3)
      readRecords rest { r with branch := branch, detached := detached }
    else if maxStatusEntries ≤ r.entries.length then some { r with truncated := true }
    else if String.utf8Len record < 4 then readRecords rest r
    else
      match record with
      | index :: worktree :: blank :: path =>
        if [index, worktree, blank].all (·.utf8Size == 1) then
          readRecords rest { r with entries := r.entries ++ [gitEntry index worktree path] }
        else none
      | _ => none

def statusIn (root : String) (raw : List Char) : Option GitStatusReport :=
  (readRecords ((LineFile.split nul raw).filter (· ≠ []))
    ⟨gitSchemaVersion, root, none, false, true, [], false⟩).map
    fun r => { r with clean := r.entries.isEmpty }

structure BranchName where
  chars : List Char
  nonempty : chars ≠ []
  space : ' ' ∉ chars
  dots : ¬ ['.', '.'] <:+: chars
  last : chars.getLast? ≠ some '.'

inductive GitHead
  | detached
  | branch (name : BranchName) (upstream : Option (List Char))
  | unborn (name : BranchName) (upstream : Option (List Char))

def tracking (upstream : Option (List Char)) : List Char :=
  (upstream.map (['.', '.', '.'] ++ ·)).getD []

def GitHead.text : GitHead → List Char
  | detached => "HEAD (no branch)".toList
  | branch name upstream => name.chars ++ tracking upstream
  | unborn name upstream => noCommits ++ (name.chars ++ tracking upstream)

def GitHead.name : GitHead → Option BranchName
  | detached => none
  | branch name _ | unborn name _ => some name

def statusLetters : List Char := " MTADRCU?!".toList

structure GitChange where
  index : Char
  worktree : Char
  path : List Char
  letters : index ∈ statusLetters ∧ worktree ∈ statusLetters
  named : path ≠ []
  whole : nul ∉ path

def GitChange.record (c : GitChange) : List Char := c.index :: c.worktree :: ' ' :: c.path

structure GitListing where
  head : GitHead
  whole : nul ∉ head.text
  changes : List GitChange

def GitListing.text (l : GitListing) : List Char :=
  LineFile.render nul ((['#', '#', ' '] ++ l.head.text) :: l.changes.map GitChange.record)

def GitChange.entry (c : GitChange) : GitEntry := gitEntry c.index c.worktree c.path

def GitListing.report (root : String) (l : GitListing) : GitStatusReport where
  schemaVersion := gitSchemaVersion
  root := root
  branch := l.head.name.map BranchName.chars
  detached := l.head.name.isNone
  clean := l.changes.isEmpty
  entries := (l.changes.take maxStatusEntries).map GitChange.entry
  truncated := maxStatusEntries < l.changes.length

def GitHead.Plain : GitHead → Prop
  | detached => True
  | branch name _ => ¬ ['H', 'E', 'A', 'D'] <+: name.chars ∧ Runtime.trim name.chars = name.chars
  | unborn name _ => Runtime.trim name.chars = name.chars

section
variable {c : Char} {cs front : List Char} (name : BranchName) (ups : Option (List Char))

theorem beforeDots_tracking (hdd : ¬ ['.', '.'] <:+: cs) (hlast : cs.getLast? ≠ some '.') :
    beforeDots (cs ++ tracking ups) = cs := by
  induction cs with
  | nil =>
    cases ups <;> rfl
  | cons c cs ih =>
    have hpf : ¬ ['.', '.', '.'] <+: c :: (cs ++ tracking ups) := by
      intro hpf
      obtain ⟨rfl, htl⟩ := cons_prefix_cons.mp hpf
      cases cs with
      | nil => exact hlast rfl
      | cons d cs =>
        obtain ⟨rfl, -⟩ := cons_prefix_cons.mp htl
        exact hdd ⟨[], cs, rfl⟩
    have hlast' : cs.getLast? ≠ some '.' := by
      cases cs with
      | nil => exact nofun
      | cons d cs => rwa [getLast?_cons_cons] at hlast
    rw [cons_append, beforeDots, if_neg hpf]
    exact congrArg _ (ih (fun hin => hdd (infix_cons hin)) hlast')

theorem beforeDots_append (hdt : '.' ∉ front) :
    beforeDots (front ++ cs) = front ++ beforeDots cs := by
  induction front with
  | nil => rfl
  | cons c front ih =>
    rw [mem_cons, not_or] at hdt
    rw [cons_append, beforeDots, if_neg, ih hdt.2, cons_append]
    exact fun hpf => hdt.1 (cons_prefix_cons.mp hpf).1

theorem trim_trim : Runtime.trim (Runtime.trim cs) = Runtime.trim cs := by
  have hhd : (Runtime.trim cs).dropWhile isWhiteSpace = Runtime.trim cs := by
    rw [dropWhile_eq_self_iff]
    intro hlt
    have hpr : Runtime.trim cs <+: cs.dropWhile isWhiteSpace := rdropWhile_prefix _ _
    rw [hpr.getElem hlt]
    exact dropWhile_get_zero_not _ _ (hlt.trans_le hpr.length_le)
  rw [Runtime.trim, hhd]
  exact rdropWhile_idempotent _ _

theorem readHeader_trimmed (header : List Char) : (readHeader none false header).1 = none ∨
      ∃ cs, (readHeader none false header).1 = some (Runtime.trim cs) := by
  unfold readHeader
  dsimp only
  split_ifs
  · exact .inl rfl
  · exact .inr ⟨_, rfl⟩
  · exact .inr ⟨_, rfl⟩

theorem noCommits_eq : noCommits = 'N' :: "o commits yet on ".toList := by decide +kernel

theorem not_noCommits : ¬ noCommits <+: name.chars := by
  rintro ⟨rest, hrs⟩
  have hsp : ' ' ∈ noCommits := by decide +kernel
  exact name.space (hrs ▸ mem_append_left _ hsp)

variable {name} (htrim : Runtime.trim name.chars = name.chars)
include htrim

theorem trim_noCommits : Runtime.trim (noCommits ++ name.chars) = noCommits ++ name.chars := by
  have hdw : (noCommits ++ name.chars).dropWhile isWhiteSpace = noCommits ++ name.chars := by
    rw [noCommits_eq, cons_append, dropWhile_cons_of_neg (by decide)]
  have hrd : name.chars.rdropWhile isWhiteSpace = name.chars := by
    rw [← htrim]
    exact rdropWhile_idempotent _ _
  rw [Runtime.trim, hdw, rdropWhile_eq_self_iff]
  intro hne
  rw [getLast_append_of_ne_nil _ name.nonempty]
  exact rdropWhile_eq_self_iff.mp hrd name.nonempty

theorem readHeader_unborn : readHeader none false (noCommits ++ (name.chars ++ tracking ups)) =
      (some name.chars, false) := by
  have hdt : '.' ∉ noCommits := by decide +kernel
  have hhd : ¬ ['H', 'E', 'A', 'D'] <+: noCommits ++ name.chars := by
    rw [noCommits_eq]
    exact fun hpf => absurd (cons_prefix_cons.mp hpf).1 (by decide)
  simp [readHeader, beforeDots_append hdt, beforeDots_tracking ups name.dots name.last,
    trim_noCommits htrim, if_neg hhd, htrim]

theorem readHeader_branch : readHeader none false (GitHead.branch name ups).text =
      if ['H', 'E', 'A', 'D'] <+: name.chars then (none, true) else (some name.chars, false) := by
  change readHeader none false (name.chars ++ tracking ups) = _
  simp [readHeader, beforeDots_tracking ups name.dots name.last, htrim, if_neg (not_noCommits name)]

omit htrim in
theorem readHeader_detached : readHeader none false GitHead.detached.text = (none, true) := by
  decide +kernel

omit htrim in
theorem readHeader_iff (head : GitHead) :
    readHeader none false head.text = (head.name.map BranchName.chars, head.name.isNone) ↔
      head.Plain := by
  have htm : ∀ name, head.name = some name →
      readHeader none false head.text = (some name.chars, false) →
      Runtime.trim name.chars = name.chars := by
    intro name hnm hrd
    rcases readHeader_trimmed head.text with hnn | ⟨cs, hcs⟩
    · rw [hrd] at hnn
      cases hnn
    · rw [hrd] at hcs
      rw [Option.some.inj hcs, trim_trim]
  cases head with
  | detached => exact iff_of_true readHeader_detached trivial
  | branch name upstream =>
    constructor
    · intro hrd
      have htr := htm name rfl hrd
      refine ⟨fun hhd => ?_, htr⟩
      rw [readHeader_branch upstream htr, if_pos hhd] at hrd
      cases hrd
    · rintro ⟨hhd, htr⟩
      rw [readHeader_branch upstream htr, if_neg hhd]
      rfl
  | unborn name upstream =>
    exact ⟨htm name rfl, readHeader_unborn upstream⟩

end

section
variable (rest : List (List Char)) (r : GitStatusReport)

theorem readRecords_header (header : List Char) :
    readRecords ((['#', '#', ' '] ++ header) :: rest) r = readRecords rest { r with
      branch := (readHeader r.branch r.detached header).1
      detached := (readHeader r.branch r.detached header).2 } :=
  if_pos (prefix_append _ _)

theorem statusLetters_spec {c : Char} (hc : c ∈ statusLetters) :
    c.utf8Size = 1 ∧ c ≠ '#' ∧ nul ≠ c := by
  have hall : statusLetters.all (fun c => c.utf8Size = 1 ∧ c ≠ '#' ∧ nul ≠ c) := by
    decide +kernel
  exact of_decide_eq_true (all_eq_true.mp hall c hc)

theorem GitChange.readRecords_cons (c : GitChange) : readRecords (c.record :: rest) r =
      if maxStatusEntries ≤ r.entries.length then some { r with truncated := true }
      else readRecords rest { r with entries := r.entries ++ [c.entry] } := by
  obtain ⟨index, worktree, path, ⟨hix, hwt⟩, hnm, -⟩ := c
  obtain ⟨hxs, hxn, -⟩ := statusLetters_spec hix
  obtain ⟨hys, -⟩ := statusLetters_spec hwt
  have hpf : ¬ ['#', '#', ' '] <+: index :: worktree :: ' ' :: path := by
    intro hpf
    exact hxn (cons_prefix_cons.mp hpf).1.symm
  have hbl : ' '.utf8Size = 1 := rfl
  have hln : ¬ String.utf8Len (index :: worktree :: ' ' :: path) < 4 := by
    obtain ⟨c, cs, rfl⟩ := exists_cons_of_ne_nil hnm
    have hpos := c.utf8Size_pos
    simp only [String.utf8Len_cons, hxs, hys, hbl]
    omega
  rw [GitChange.record, readRecords, if_neg hpf, if_neg hln]
  simp [hxs, hys, hbl, GitChange.entry]

theorem readRecords_changes (changes : List GitChange) (hle : r.entries.length ≤ maxStatusEntries) :
    readRecords (changes.map GitChange.record) r = some { r with
      entries := r.entries ++
        (changes.take (maxStatusEntries - r.entries.length)).map GitChange.entry
      truncated := r.truncated || maxStatusEntries < r.entries.length + changes.length } := by
  induction changes generalizing r with
  | nil => simp [readRecords, not_lt.mpr hle]
  | cons c changes ih =>
    rw [map_cons, c.readRecords_cons]
    split_ifs with hfl
    · have heq : maxStatusEntries - r.entries.length = 0 := by omega
      have hlt : maxStatusEntries < r.entries.length + (changes.length + 1) := by omega
      simp [heq, hlt]
    obtain ⟨n, hn⟩ := exists_eq_succ_of_ne_zero (sub_ne_zero_of_lt (not_le.mp hfl))
    have hn' : maxStatusEntries - (r.entries.length + 1) = n := by omega
    rw [ih]
    · simp [hn, hn', add_assoc, add_comm 1]
    · simpa using by omega

end

theorem records_text (l : GitListing) : (LineFile.split nul l.text).filter (· ≠ []) =
      (['#', '#', ' '] ++ l.head.text) :: l.changes.map GitChange.record := by
  refine LineFile.filter_split_render ?_ ?_
  · rw [forall_mem_cons, forall_mem_map]
    refine ⟨?_, fun c _ => ?_⟩
    · rw [mem_append, not_or]
      exact ⟨by decide, l.whole⟩
    · simp only [GitChange.record, mem_cons, not_or]
      exact ⟨(statusLetters_spec c.letters.1).2.2, (statusLetters_spec c.letters.2).2.2,
        by decide, c.whole⟩
  · rw [forall_mem_cons, forall_mem_map]
    exact ⟨cons_ne_nil _ _, fun c _ => cons_ne_nil _ _⟩

def headerListing : GitListing where
  head := .branch ⟨"HEADER".toList, by decide, by decide, by decide, by decide⟩ none
  whole := by decide
  changes := []

def validateRelative (relative : List Char) : Except GitError (List Char) :=
  let normalized := relative.map fun c => if c = '\\' then '/' else c
  if normalized = [] ∨ 4096 < String.utf8Len normalized then
    .error (.malformed "the path is not usable")
  else if normalized.head? = some '-' then .error (.malformed "the path is not usable")
  else if normalized.head? = some '/' ∨ ':' ∈ normalized ∨ ['/', '/'] <+: normalized then
    .error (.malformed "absolute, UNC and device paths are not accepted")
  else if ['.', '.'] ∈ LineFile.split '/' normalized then
    .error (.malformed "parent segments are not accepted")
  else .ok normalized

abbrev FilePath := List (List Char)

/-- The content that git checks out for each merged entry of the index, and the files there
are. -/
structure Repository where
  index : List (FilePath × List UInt8)
  worktree : FilePath → Option (List UInt8)

/-- The first line of what a command reports when it failed, and the repository it leaves. -/
abbrev Git := List (List Char) → Repository → Option (List Char) × Repository

def outputOrReason : Option (List Char) → Except GitError Unit
  | none => .ok ()
  | some first => .error (.unavailable
      (if first.isEmpty then "git refused the command" else String.ofList first))

def runGitWrite (git : Git) (repo : Repository) (args : List (List Char)) :
    Except GitError Unit × Repository :=
  (outputOrReason (git args repo).1, (git args repo).2)

def restoreArgs (target : List Char) : List (List Char) :=
  ["restore".toList, "--worktree".toList, "--".toList, target]

def discardIn (git : Git) (repo : Repository) (path : List Char) :
    Except GitError Unit × Repository :=
  match validateRelative path with
  | .error e => (.error e, repo)
  | .ok target => runGitWrite git repo (restoreArgs target)

def fileOf (target : List Char) : FilePath :=
  (LineFile.split '/' target).filter fun segment => segment ≠ [] ∧ segment ≠ ['.']

/-- The path itself, unless it ends with a slash, and everything below it. -/
def Covers (target : List Char) (file : FilePath) : Prop :=
  fileOf target <+: file ∧ (target.getLast? = some '/' → file ≠ fileOf target)

instance (target : List Char) (file : FilePath) : Decidable (Covers target file) :=
  inferInstanceAs (Decidable (_ ∧ _))

/-- A pathspec without a magic word; what wildcards match is left open. -/
def Matches (wild : List Char → FilePath → Prop) (target : List Char) (file : FilePath) : Prop :=
  Covers target file ∨ (∃ c ∈ target, c ∈ ['*', '?', '[']) ∧ wild target file

/-- What git documents of `git restore --worktree`. It may refuse, for instance where an
unmerged entry is matched. -/
structure PathspecRules (git : Git) (wild : List Char → FilePath → Prop) : Prop where
  onlyMatched : ∀ target repo file, target.head? ≠ some ':' →
    (git (restoreArgs target) repo).2.worktree file ≠ repo.worktree file →
      (∃ bytes, repo.index.lookup file = some bytes ∧ repo.worktree file ≠ some bytes) ∧
        Matches wild target file
  allMatched : ∀ target repo file bytes, target.head? ≠ some ':' →
    (git (restoreArgs target) repo).1 = none → Matches wild target file →
      repo.index.lookup file = some bytes →
        (git (restoreArgs target) repo).2.worktree file = some bytes

theorem validateRelative_ok {path target : List Char} (hok : validateRelative path = .ok target) :
    target.head? ≠ some ':' := by
  unfold validateRelative at hok
  dsimp only at hok
  split_ifs at hok with _ _ hab
  cases hok
  exact fun hhead => hab (.inr (.inl (mem_of_head? hhead)))

/-- A git that takes no wildcards, and refuses where an entry of `unmerged` is covered. -/
def plainGit (unmerged : List FilePath) : Git := fun args repo =>
  let target := args.getLast?.getD []
  if unmerged.any fun file => Covers target file then
    (some "error: path is unmerged".toList, repo)
  else (none, { repo with worktree := fun file =>
    match repo.index.lookup file with
    | some bytes => if Covers target file then some bytes else repo.worktree file
    | none => repo.worktree file })

theorem plainGit_rules (unmerged : List FilePath) :
    PathspecRules (plainGit unmerged) fun _ _ => False := by
  constructor
  · intro target repo file _ hchanged
    change (plainGit unmerged [_, _, _, target] repo).2.worktree file ≠ _ at hchanged
    rw [plainGit] at hchanged
    split_ifs at hchanged
    · exact absurd rfl hchanged
    cases hindex : repo.index.lookup file with
    | none => simp [hindex] at hchanged
    | some bytes =>
      by_cases hcov : Covers target file
      · simp only [hindex, getLast?_cons_cons, getLast?_singleton, Option.getD_some, if_pos hcov]
          at hchanged
        exact ⟨⟨bytes, rfl, hchanged.symm⟩, .inl hcov⟩
      · simp [hindex, hcov] at hchanged
  · intro target repo file bytes _ hran hmatch hindex
    have hcov : Covers target file := hmatch.resolve_right fun hw => hw.2
    change (plainGit unmerged [_, _, _, target] repo).1 = none at hran
    change (plainGit unmerged [_, _, _, target] repo).2.worktree file = some bytes
    rw [plainGit] at hran ⊢
    split_ifs at hran ⊢
    simp [hindex, hcov]

def editedRepository : Repository where
  index := [([['d'], ['a']], [0x61]), ([['d'], ['b']], [0x62])]
  worktree := fun _ => some []

theorem split_eq_splitAt {sep : Char} {cs : List Char} :
    LineFile.split sep cs = FileTree.splitAt sep cs := by
  induction cs with
  | nil => rfl
  | cons c cs ih =>
    rw [LineFile.split, FileTree.splitAt, ih]
    cases FileTree.splitAt sep cs <;> rfl

theorem acceptSegments_ok_iff {segs : List (List Char)} {names path : List String}
    (h : ∀ seg ∈ segs, '/' ∉ seg ∧ '\\' ∉ seg ∧ ':' ∉ seg) :
    acceptSegments segs path = .ok names ↔ ['.', '.'] ∉ segs ∧
      names = path ++ (segs.filter fun seg => seg ≠ [] ∧ seg ≠ ['.']).map String.ofList := by
  induction segs generalizing path with
  | nil => simp [acceptSegments, eq_comm]
  | cons seg segs ih =>
    obtain ⟨⟨hsl, hbs, hcl⟩, hrs⟩ := forall_mem_cons.mp h
    rw [acceptSegments]
    by_cases hem : seg = [] ∨ seg = ['.']
    · rw [if_pos hem, ih hrs, filter_cons_of_neg (by simpa [or_iff_not_imp_left] using hem)]
      rcases hem with rfl | rfl <;> simp
    rw [if_neg hem]
    by_cases hup : seg = ['.', '.']
    · simp [hup]
    rw [if_neg hup, if_neg (by simp [hbs, hcl]), if_neg, ih hrs]
    · rw [filter_cons_of_pos (by simpa using hem)]
      simp [Ne.symm hup]
    · exact fun hhd => hsl (mem_of_head? hhd)

variable {s : String} {names : List String} {target : List Char}

theorem fileManager_ok_iff (hne : s ≠ "") :
    Shell.validateRelative s = .ok names ↔ s.utf8ByteSize ≤ 4096 ∧
      (normalizeSeparators s).head? ≠ some '/' ∧ ':' ∉ normalizeSeparators s ∧
      ['.', '.'] ∉ LineFile.split '/' (normalizeSeparators s) ∧
      names = (fileOf (normalizeSeparators s)).map String.ofList := by
  by_cases hdt : s = "."
  · subst hdt
    have hfl : fileOf (normalizeSeparators ".") = [] := by decide
    rw [Shell.validateRelative, if_pos (.inr rfl), hfl, Except.ok.injEq, eq_comm]
    exact ⟨fun hnl => ⟨by decide, by decide, by decide, by decide, hnl⟩, fun h => h.2.2.2.2⟩
  rw [Shell.validateRelative, if_neg (not_or.mpr ⟨hne, hdt⟩)]
  split_ifs with hsz hhd hcl
  · simp [hsz]
  · simp [hhd]
  · refine iff_of_false (by simp) fun h => ?_
    rcases hcl with hcl | ⟨rest, hrs⟩
    · exact h.2.2.1 hcl
    · exact hhd (by rw [← hrs]; rfl)
  · rw [acceptSegments_ok_iff, fileOf, split_eq_splitAt]
    · have hcn := (not_or.mp hcl).1
      simp [Nat.not_lt.mp hsz, hhd, hcn]
    · intro seg hsg
      obtain ⟨hsl, hin⟩ := FileTree.mem_splitAt hsg
      exact ⟨hsl, fun hmem => mem_normalizeSeparators (hin _ hmem) rfl,
        fun hmem => hcl (.inl (hin _ hmem))⟩

theorem gitPanel_ok_iff :
    validateRelative s.toList = .ok target ↔ normalizeSeparators s ≠ [] ∧
      String.utf8Len (normalizeSeparators s) ≤ 4096 ∧
      (normalizeSeparators s).head? ≠ some '-' ∧ (normalizeSeparators s).head? ≠ some '/' ∧
      ':' ∉ normalizeSeparators s ∧ ['.', '.'] ∉ LineFile.split '/' (normalizeSeparators s) ∧
      target = normalizeSeparators s := by
  unfold validateRelative
  dsimp only
  rw [← normalizeSeparators]
  generalize normalizeSeparators s = cs
  split_ifs with hem hds hab hup
  · rcases hem with hem | hem <;> simp [hem]
  · simp [hds]
  · refine iff_of_false (by simp) fun h => ?_
    rcases hab with hsl | hcl | ⟨rest, hrs⟩
    · exact h.2.2.2.1 hsl
    · exact h.2.2.2.2.1 hcl
    · exact h.2.2.2.1 (by rw [← hrs]; rfl)
  · simp [hup]
  · simp only [not_or, Nat.not_lt] at hem hab
    simp [hem, hds, hab, hup, eq_comm]

/-- The git panel accepts what the file manager accepts, except the empty path and what
begins with a dash, and both read the same segments. -/
theorem validators_agree (s : String) :
    ((∃ target, validateRelative s.toList = .ok target) ↔
      (∃ names, Shell.validateRelative s = .ok names) ∧ s ≠ "" ∧ s.toList.head? ≠ some '-') ∧
    ∀ target names, validateRelative s.toList = .ok target →
      Shell.validateRelative s = .ok names → names.map String.toList = fileOf target := by
  have hnl : normalizeSeparators s = [] ↔ s = "" := by
    refine ⟨normalizeSeparators_eq_nil, ?_⟩
    rintro rfl
    rfl
  have hsz : String.utf8Len (normalizeSeparators s) = s.utf8ByteSize := by
    rw [← utf8ByteSize_normalized, String.utf8ByteSize_ofList]
  have hds : (normalizeSeparators s).head? = some '-' ↔ s.toList.head? = some '-' := by
    rw [normalizeSeparators, head?_map]
    cases s.toList.head? with
    | none => simp
    | some c =>
      by_cases hc : c = '\\'
      · subst hc
        decide
      · simp [hc]
  simp only [gitPanel_ok_iff, hsz, Ne, hnl, hds]
  by_cases hne : s = ""
  · simp [hne]
  simp only [fileManager_ok_iff hne]
  constructor
  · simp only [exists_and_left, exists_eq, and_true]
    tauto
  · rintro target names ⟨-, -, -, -, -, -, rfl⟩ ⟨-, -, -, -, rfl⟩
    simp [Function.comp_def]

def maxCommitMessageBytes : ℕ := 8000

def nothingStaged : GitError := .unavailable "there is nothing staged to commit"

def commitIn (root : String) (raw message : List Char) : Option (Except GitError (List Char)) :=
  let message := Runtime.trim message
  if message = [] then some (.error (.malformed "a commit needs a message"))
  else if maxCommitMessageBytes < String.utf8Len message then
    some (.error (.malformed "the commit message is longer than 8000 bytes"))
  else
    (statusIn root raw).map fun report =>
      if report.entries.any GitEntry.staged then .ok message else .error nothingStaged

def GitChange.Staged (c : GitChange) : Prop := c.index ≠ '?' ∧ c.index ≠ ' '

section
variable {message : List Char} (hblank : Runtime.trim message ≠ [])
  (hlong : String.utf8Len (Runtime.trim message) ≤ maxCommitMessageBytes)
include hblank hlong

theorem commitIn_refuses (root : String) (l : GitListing) :
    commitIn root l.text message = some (.error nothingStaged) ↔
      ¬ ∃ c ∈ l.changes.take maxStatusEntries, c.Staged := by
  have hany : ((l.changes.take maxStatusEntries).map GitChange.entry).any GitEntry.staged ↔
      ∃ c ∈ l.changes.take maxStatusEntries, c.Staged := by
    rw [any_map, any_eq_true]
    simp [GitChange.entry, gitEntry, GitChange.Staged]
  rw [commitIn, if_neg hblank, if_neg (Nat.not_lt.mpr hlong), statusIn, records_text,
    readRecords_header, readRecords_changes _ _ (Nat.zero_le _), ← hany]
  simp

end

/-- The commit is refused for an empty index exactly when the index is that of the last
commit, unless every staged path is behind the entries that the report has. -/
theorem commit_refused_iff (root : String) (l : GitListing) (message : List Char)
    (hblank : Runtime.trim message ≠ [])
    (hlong : String.utf8Len (Runtime.trim message) ≤ maxCommitMessageBytes) :
    (commitIn root l.text message = some (.error nothingStaged) ↔ ¬ ∃ c ∈ l.changes, c.Staged) ↔
      ((∃ c ∈ l.changes, c.Staged) → ∃ c ∈ l.changes.take maxStatusEntries, c.Staged) := by
  have hsub : (∃ c ∈ l.changes.take maxStatusEntries, c.Staged) → ∃ c ∈ l.changes, c.Staged :=
    fun ⟨c, hc, hst⟩ => ⟨c, mem_of_mem_take hc, hst⟩
  rw [commitIn_refuses hblank hlong, not_iff_not]
  exact ⟨fun h => h.mpr, fun h => ⟨hsub, h⟩⟩

def mainHead : GitHead := .branch ⟨['m'], by decide, by decide, by decide, by decide⟩ none

def stagedChange : GitChange := ⟨'M', ' ', ['z'], by decide, by decide, by decide⟩

theorem commit_one_staged :
    commitIn "/srv/repo" (GitListing.text ⟨mainHead, by decide, [stagedChange]⟩) ['x'] =
        some (.error nothingStaged) ↔ ¬ ∃ c ∈ [stagedChange], c.Staged :=
  (commit_refused_iff "/srv/repo" ⟨mainHead, by decide, [stagedChange]⟩ ['x'] (by decide)
    (by decide)).mpr id

def editedChange (n : ℕ) : GitChange :=
  ⟨' ', 'M', replicate (n + 1) 'a', by decide, by simp, by simp [nul]⟩

/-- Two thousand files with unstaged edits, and behind them a staged one. -/
def crowdedListing : GitListing where
  head := mainHead
  whole := by decide
  changes := (range maxStatusEntries).map editedChange ++ [stagedChange]

theorem staged_behind_cap_refused :
    commitIn "/srv/repo" crowdedListing.text ['x'] = some (.error nothingStaged) ∧
      ∃ c ∈ crowdedListing.changes, c.Staged := by
  refine ⟨(commitIn_refuses (by decide) (by decide) _ _).mpr ?_, stagedChange,
    by simp [crowdedListing], by decide, by decide⟩
  rw [crowdedListing, take_left' (by simp)]
  simp [GitChange.Staged, editedChange]

open JoinedFields (pieces)

def lines (text : List Char) : List (List Char) :=
  let pieces := LineFile.split '\n' text
  pieces.dropLast.map (fun l => if l.getLast? = some '\r' then l.dropLast else l) ++
    pieces.getLast?.toList.filter (· ≠ [])

theorem lines_render {ls : List (List Char)}
    (h : ∀ l ∈ ls, '\n' ∉ l ∧ l.getLast? ≠ some '\r') : lines (LineFile.render '\n' ls) = ls := by
  rw [lines, LineFile.split_render fun l hl => (h l hl).1, dropLast_concat, getLast?_concat]
  exact (append_nil _).trans
    ((map_congr_left (g := id) fun l hl => if_neg (h l hl).2).trans (map_id ls))

def maxLogEntries : ℕ := 200

structure GitLogEntry where
  hash : List Char
  author : List Char
  authoredAtUnixMs : ℕ
  subject : List Char

structure GitLogReport where
  schemaVersion : ℕ
  root : String
  entries : List GitLogEntry
  truncated : Bool

def parseU64 (text : List Char) : Option ℕ :=
  let digits := if text.head? = some '+' then text.tail else text
  let n := ofDigitChars 10 digits 0
  if digits ≠ [] ∧ digits.all Char.isDigit ∧ n < 2 ^ 64 then some n else none

def readEntry (fields : List (List Char)) : Option GitLogEntry :=
  let millis := (parseU64 (fields.getD 2 [])).getD 0 * 1000
  if millis < 2 ^ 64 then
    some ⟨fields.getD 0 [], fields.getD 1 [], millis, fields.getD 3 []⟩
  else none

def readLog : ℕ → List (List Char) → Option (List GitLogEntry × Bool)
  | _, [] => some ([], false)
  | 0, _ :: _ => some ([], true)
  | room + 1, line :: rest =>
    let fields := pieces '\x1f' line
    if fields.getD 0 [] = [] then readLog (room + 1) rest
    else (readEntry fields).bind fun e => (readLog room rest).map (Prod.map (e :: ·) id)

def capped (limit : ℕ) : ℕ := max 1 (min limit maxLogEntries)

def logIn (root : String) (limit : ℕ) (git : ℕ → Except GitError (List Char)) :
    Option (Except GitError GitLogReport) :=
  match git (capped limit) with
  | .error e => some (.error e)
  | .ok raw => (readLog (capped limit) (lines raw)).map fun (entries, truncated) =>
      .ok ⟨gitSchemaVersion, root, entries, truncated⟩

/-- Git cuts the white space off the end of a subject. -/
structure Commit where
  hash : List Char
  author : List Char
  time : ℕ
  subject : List Char
  hashed : hash ≠ [] ∧ '\x1f' ∉ hash
  whole : '\n' ∉ hash ∧ '\n' ∉ author ∧ '\n' ∉ subject
  trimmed : subject.getLast? ≠ some '\r'

def Commit.fields (c : Commit) : List (List Char) :=
  [c.hash, c.author, toDigits 10 c.time, c.subject]

def Commit.line (c : Commit) : List Char := JoinedFields.joined '\x1f' c.fields

def Commit.entry (c : Commit) : GitLogEntry := ⟨c.hash, c.author, c.time * 1000, c.subject⟩

/-- Git prints the latest commits first, and refuses to log a branch that has none. -/
def gitLog (refusal : GitError) (history : List Commit) (count : ℕ) :
    Except GitError (List Char) :=
  if history = [] then .error refusal
  else .ok (LineFile.render '\n' ((history.take count).map Commit.line))

def Commit.Legible (c : Commit) : Prop :=
  '\x1f' ∉ c.author ∧ '\x1f' ∉ c.subject ∧ c.time * 1000 < 2 ^ 64

def logReport (root : String) (limit : ℕ) (history : List Commit) : GitLogReport where
  schemaVersion := gitSchemaVersion
  root := root
  entries := (history.take (capped limit)).map Commit.entry
  truncated := capped limit < history.length

variable {c : Commit} {cs history : List Commit} {d : Char}

theorem notMem_digits (h : d.isDigit = false) (n : ℕ) : d ∉ toDigits 10 n := by
  simpa using Text.notMem_toString h n

theorem parseU64_digits {n : ℕ} (h : n < 2 ^ 64) : parseU64 (toDigits 10 n) = some n := by
  have hhd : (toDigits 10 n).head? ≠ some '+' := fun hp => notMem_digits rfl n (mem_of_head? hp)
  have hall : (toDigits 10 n).all Char.isDigit :=
    all_eq_true.mpr fun c hc => isDigit_of_mem_toDigits (by omega) (by omega) hc
  simp only [parseU64, if_neg hhd, ofDigitChars_ten_toDigits]
  exact if_pos ⟨toDigits_ne_nil, hall, h⟩

theorem line_plain (c : Commit) : '\n' ∉ c.line ∧ c.line.getLast? ≠ some '\r' := by
  constructor
  · rw [Commit.line, JoinedFields.mem_joined (by decide)]
    simp [Commit.fields, c.whole, notMem_digits]
  · have hln : c.line.getLast? = c.subject.getLast?.or (some '\x1f') := by
      simp [Commit.line, Commit.fields, JoinedFields.joined, getLast?_cons]
    rw [hln]
    cases hlast : c.subject.getLast? with
    | none => decide
    | some d => simpa [hlast] using c.trimmed

theorem readEntry_line : readEntry (pieces '\x1f' c.line) = some c.entry ↔ c.Legible := by
  constructor
  · intro h
    have hsep : ∀ k, '\x1f' ∉ (pieces '\x1f' c.line).getD k [] := by
      intro k
      rw [getD_eq_getElem?_getD]
      cases hk : (pieces '\x1f' c.line)[k]? with
      | none => simp
      | some piece => exact JoinedFields.notMem_of_mem_pieces (mem_of_getElem? hk)
    rw [readEntry] at h
    split_ifs at h with hms
    rw [Option.some.injEq, Commit.entry, GitLogEntry.mk.injEq] at h
    obtain ⟨-, hau, htm, hsb⟩ := h
    exact ⟨hau ▸ hsep 1, hsb ▸ hsep 3, htm ▸ hms⟩
  · rintro ⟨hau, hsb, hms⟩
    have hpr : pieces '\x1f' c.line = c.fields :=
      splitOn_intercalate _ (by simp [Commit.fields, c.hashed, hau, hsb, notMem_digits])
        (cons_ne_nil _ _)
    have hms' : (parseU64 (toDigits 10 c.time)).getD 0 = c.time := by
      rw [parseU64_digits (by omega), Option.getD_some]
    rw [readEntry, hpr]
    simp only [Commit.fields, getD_cons_zero, getD_cons_succ, hms', if_pos hms, Commit.entry]

theorem readLog_lines {room : ℕ} {cut : Bool} (h : cs.length ≤ room) :
    readLog room (cs.map Commit.line) = some (cs.map Commit.entry, cut) ↔
      cut = false ∧ ∀ c ∈ cs, c.Legible := by
  induction cs generalizing room with
  | nil => cases room <;> simp [readLog, eq_comm]
  | cons c cs ih =>
    obtain _ | room := room
    · cases h
    have hhs : (pieces '\x1f' c.line).getD 0 [] = c.hash := by
      rw [Commit.line, Commit.fields, JoinedFields.joined_cons_cons, pieces,
        splitOn_append_cons_self_of_not_mem c.hashed.2, getD_cons_zero]
    have hrs := ih (le_of_succ_le_succ h)
    rw [map_cons, readLog, forall_mem_cons, ← readEntry_line]
    simp only [hhs, if_neg c.hashed.1, Option.bind_eq_some_iff, Option.map_eq_some_iff]
    constructor
    · rintro ⟨e, he, ⟨es, t⟩, hes, hpr⟩
      cases hpr
      exact ⟨(hrs.mp hes).1, he, (hrs.mp hes).2⟩
    · rintro ⟨hct, he, hle⟩
      exact ⟨_, he, _, hrs.mpr ⟨hct, hle⟩, rfl⟩

theorem logIn_reports {root : String} {limit : ℕ} {refusal : GitError} (hne : history ≠ []) :
    logIn root limit (gitLog refusal history) = some (.ok (logReport root limit history)) ↔
      decide (capped limit < history.length) = false ∧
      ∀ c ∈ history.take (capped limit), c.Legible := by
  rw [logIn, gitLog, if_neg hne, ← readLog_lines (length_take_le _ history)]
  simp only [lines_render (forall_mem_map.mpr fun c _ => line_plain c), Option.map_eq_some_iff]
  constructor
  · rintro ⟨⟨es, t⟩, hrd, heq⟩
    cases heq
    exact hrd
  · exact fun hrd => ⟨_, hrd, rfl⟩

/-- The latest commits are reported as they are exactly when there is one, all of them are
asked for, no name or subject has a unit separator and no time overflows in milliseconds. -/
theorem log_reported_iff (root : String) (limit : ℕ) (refusal : GitError)
    (history : List Commit) :
    logIn root limit (gitLog refusal history) = some (.ok (logReport root limit history)) ↔
      history ≠ [] ∧ history.length ≤ capped limit ∧ ∀ c ∈ history, c.Legible := by
  by_cases hne : history = []
  · simp [logIn, gitLog, hne]
  rw [logIn_reports hne, decide_eq_false_iff_not, Nat.not_lt, and_iff_right hne]
  exact and_congr_right fun hle => by rw [take_of_length_le hle]

def firstCommit : Commit := ⟨['a'], ['m'], 0, [], by decide, by decide, by decide⟩

def secondCommit : Commit :=
  { firstCommit with hash := ['b'], hashed := by decide, whole := by decide }

/-- Asked for one commit of two, the log does not say that there is another. -/
theorem earlier_commit_unmarked :
    logIn "/srv/repo" 1 (gitLog nothingStaged [secondCommit, firstCommit]) ≠
      some (.ok (logReport "/srv/repo" 1 [secondCommit, firstCommit])) :=
  fun h => absurd ((logIn_reports (cons_ne_nil _ _)).mp h).1 (by decide)

end DshDesktop.Shell.GitPanel
