import DshDesktop.Library.JoinedFields
import Mathlib.Data.List.DropRight

/-!
# Base URLs and versions

The two readers of a base URL in `adapter-dsh`, and the check of an exact version in
`adapter-dsh-std`.
-/

namespace DshDesktop.Adapter
open JoinedFields List Option

inductive AdapterError
  | http (status : ℕ) (detail : String)
  | rpc (message : String)
  | protocol (message : String)
  | auth (message : String)
  | transport (message : String)
  deriving DecidableEq

structure BaseUrl where
  hostPort : List Char
  pathPrefix : List Char
  deriving DecidableEq

def scheme : List Char := ['h', 't', 't', 'p', ':', '/', '/']

def stripScheme (url : List Char) : Except AdapterError (List Char) :=
  if scheme <+: url then .ok (url.drop scheme.length)
  else .error (.auth "base_url must use http:// (loopback)")

def trimSlashes (path : List Char) : List Char := path.rdropWhile (· == '/')

def pathOf : Option (List Char) → List Char
  | none | some [] => []
  | some path => '/' :: trimSlashes path

def basePath (url : List Char) : Except AdapterError (List Char) :=
  (stripScheme url).map fun rest => pathOf (splitOnce '/' rest).2

def parseBaseUrl (url : List Char) : Except AdapterError BaseUrl :=
  (stripScheme url).bind fun rest =>
    let (authority, path) := splitOnce '/' rest
    if authority = [] then .error (.auth "base_url without host")
    else .ok ⟨authority, trimSlashes (followed '/' path)⟩

theorem trimSlashes_cons {path : List Char} :
    trimSlashes ('/' :: path) = if trimSlashes path = [] then [] else '/' :: trimSlashes path := by
  rw [trimSlashes, List.rdropWhile, List.reverse_cons, List.dropWhile_append]
  simp only [trimSlashes, List.rdropWhile, List.isEmpty_iff, List.reverse_eq_nil_iff]
  split_ifs <;> simp

theorem pathOf_eq_iff {tail : Option (List Char)} : pathOf tail = trimSlashes (followed '/' tail) ↔
      ∀ path ∈ tail, path ≠ [] → ∃ c ∈ path, c ≠ '/' := by
  rcases tail with _ | _ | ⟨c, path⟩
  · exact iff_of_true rfl nofun
  · exact iff_of_true rfl fun _ hp hne => absurd (mem_some.mp hp).symm hne
  have hnl : trimSlashes (c :: path) = [] ↔ ¬ ∃ d ∈ c :: path, d ≠ '/' := by
    simp [trimSlashes]
  change '/' :: trimSlashes (c :: path) = trimSlashes ('/' :: c :: path) ↔ _
  rw [trimSlashes_cons]
  split_ifs with hem
  · simpa using hnl.mp hem
  · simpa using not_not.mp (mt hnl.mpr hem)

/-- The readers agree unless the first slash is followed by slashes only. -/
theorem base_paths_agree_iff (url path : List Char) (base : BaseUrl)
    (hpath : basePath url = .ok path) (hbase : parseBaseUrl url = .ok base) :
    path = base.pathPrefix ↔
      ∀ tail ∈ (splitOnce '/' (url.drop scheme.length)).2, tail ≠ [] → ∃ c ∈ tail, c ≠ '/' := by
  rw [basePath, stripScheme] at hpath
  rw [parseBaseUrl, stripScheme] at hbase
  split_ifs at hpath hbase
  · cases hpath
    simp only [Except.bind] at hbase
    split_ifs at hbase
    cases hbase
    exact pathOf_eq_iff
  · cases hpath

theorem base_paths_agree_named :
    basePath (scheme ++ ['h', '/', 'p', '/']) = .ok ['/', 'p'] ∧ ['/', 'p'] =
      (⟨['h'], ['/', 'p']⟩ : BaseUrl).pathPrefix :=
  ⟨by decide, (base_paths_agree_iff (scheme ++ ['h', '/', 'p', '/']) ['/', 'p'] ⟨['h'], ['/', 'p']⟩
    (by decide) (by decide)).mpr (by simp [splitOnce])⟩

/-- The base URL is `http://h//`. -/
theorem base_paths_differ : basePath (scheme ++ ['h', '/', '/']) = .ok ['/'] ∧
      parseBaseUrl (scheme ++ ['h', '/', '/']) = .ok ⟨['h'], []⟩ := by
  decide

def isIdentifierChar (c : Char) : Bool := c.isAlphanum || c == '-'

def isDottedChar (c : Char) : Bool := isIdentifierChar c || c == '.'

def isValidPrerelease (p : List Char) : Bool :=
  !(p.isEmpty || (pieces '.' p).any isEmpty) && p.all isDottedChar

/-- What stands in front of the first dash of what stands in front of the first plus. -/
def versionNumbers (v : List Char) : List (List Char) :=
  pieces '.' (splitOnce '-' (splitOnce '+' v).1).1

def isValidVersion (v : List Char) : Bool :=
  match versionNumbers v with
  | [major, minor, patch] =>
    major.all Char.isDigit && minor.all Char.isDigit && patch.all Char.isDigit &&
      (splitOnce '-' (splitOnce '+' v).1).2.all isValidPrerelease
  | _ => false

/-- The grammar `major.minor.patch[-prerelease][+build]`. -/
structure ExactVersion (v : List Char) where
  numbers : List (List Char)
  prerelease : Option (List (List Char))
  build : Option (List Char)
  text : v = joined '.' numbers ++ followed '-' (prerelease.map (joined '.')) ++ followed '+' build
  three : numbers.length = 3
  decimal : ∀ n ∈ numbers, n ≠ [] ∧ n.all Char.isDigit
  identifiers : ∀ ids ∈ prerelease, ids ≠ [] ∧ ∀ i ∈ ids, i ≠ [] ∧ i.all isIdentifierChar
  dotted : ∀ b ∈ build, b ≠ [] ∧ b.all isDottedChar

section
variable {v : List Char} (e : ExactVersion v)

theorem notMem_of_all {c : Char} {p : Char → Bool} {cs : List Char} (h : cs.all p)
    (hc : p c = false) : c ∉ cs := by
  intro hmem
  rw [all_eq_true.mp h c hmem] at hc
  cases hc

theorem ExactVersion.numbers_free {c : Char} (hdt : c ≠ '.') (hc : c.isDigit = false) :
    c ∉ joined '.' e.numbers := by
  rw [mem_joined hdt]
  rintro ⟨n, hn, hmem⟩
  exact notMem_of_all (e.decimal n hn).2 hc hmem

theorem ExactVersion.split_plus : splitOnce '+' v =
    (joined '.' e.numbers ++ followed '-' (e.prerelease.map (joined '.')), e.build) := by
  conv_lhs => rw [e.text]
  refine splitOnce_followed ?_ _
  rw [mem_append, not_or]
  refine ⟨e.numbers_free (by decide) (by decide), ?_⟩
  cases hpr : e.prerelease with
  | none => exact not_mem_nil
  | some ids =>
    rw [map_some, followed, elim_some, mem_cons, mem_joined (by decide), not_or]
    refine ⟨by decide, ?_⟩
    rintro ⟨i, hi, hmem⟩
    exact notMem_of_all ((e.identifiers ids hpr).2 i hi).2 (by decide) hmem

theorem ExactVersion.versionNumbers_eq : versionNumbers v = e.numbers := by
  have hne : e.numbers ≠ [] := by
    intro hnl
    simpa [hnl] using e.three
  have hdt : ∀ n ∈ e.numbers, '.' ∉ n := fun n hn => notMem_of_all (e.decimal n hn).2 (by decide)
  rw [versionNumbers, e.split_plus, splitOnce_followed (e.numbers_free (by decide) (by decide))]
  exact splitOn_intercalate '.' hdt hne

end

theorem prerelease_identifiers {p : List Char} (hp : isValidPrerelease p) :
    pieces '.' p ≠ [] ∧ ∀ i ∈ pieces '.' p, i ≠ [] ∧ i.all isIdentifierChar := by
  simp only [isValidPrerelease, Bool.and_eq_true, Bool.not_eq_true', Bool.or_eq_false_iff,
    List.any_eq_false, List.isEmpty_iff, List.all_eq_true] at hp
  obtain ⟨⟨-, hem⟩, hall⟩ := hp
  refine ⟨List.ne_nil_of_length_pos (by rw [length_pieces]; omega), ?_⟩
  intro i hi
  refine ⟨hem i hi, List.all_eq_true.mpr ?_⟩
  intro c hc
  have hdt : c ≠ '.' := fun heq => notMem_of_mem_pieces hi (heq ▸ hc)
  have hmem : c ∈ p := by
    rw [← joined_pieces (d := '.') p]
    exact (mem_joined hdt).mpr ⟨i, hi, hc⟩
  simpa [isDottedChar, hdt] using hall c hmem

/-- An accepted text is an exact version exactly when none of its numbers is empty and what
follows a plus is a build. -/
theorem exact_version_iff (v : List Char) (hok : isValidVersion v = true) :
    Nonempty (ExactVersion v) ↔ (∀ n ∈ versionNumbers v, n ≠ []) ∧
      ∀ b ∈ (splitOnce '+' v).2, b ≠ [] ∧ b.all isDottedChar = true := by
  constructor
  · rintro ⟨e⟩
    rw [e.versionNumbers_eq, e.split_plus]
    exact ⟨fun n hn => (e.decimal n hn).1, e.dotted⟩
  · rintro ⟨hnm, hbd⟩
    rw [isValidVersion] at hok
    split at hok
    · next major minor patch hvn =>
      rw [hvn] at hnm
      simp only [Bool.and_eq_true] at hok
      refine ⟨⟨[major, minor, patch], (splitOnce '-' (splitOnce '+' v).1).2.map (pieces '.'),
        (splitOnce '+' v).2, ?_, rfl, ?_, ?_, hbd⟩⟩
      · rw [← hvn, versionNumbers, joined_pieces, Option.map_map]
        have hid : joined '.' ∘ pieces '.' = id := funext joined_pieces
        rw [hid, Option.map_id_apply, splitOnce_eq, splitOnce_eq]
      · intro n hn
        refine ⟨hnm n hn, ?_⟩
        simp only [mem_cons, not_mem_nil, or_false] at hn
        rcases hn with rfl | rfl | rfl
        · exact hok.1.1.1
        · exact hok.1.1.2
        · exact hok.1.2
      · intro ids hids
        obtain ⟨p, hp, rfl⟩ := map_eq_some_iff.mp hids
        rw [hp] at hok
        exact prerelease_identifiers hok.2
    · cases hok

theorem exact_version_plain : isValidVersion ['1', '.', '2', '.', '3'] = true ∧
      Nonempty (ExactVersion ['1', '.', '2', '.', '3']) :=
  ⟨by decide, (exact_version_iff ['1', '.', '2', '.', '3'] (by decide)).mpr (by decide)⟩

theorem two_dots_accepted :
    isValidVersion ['.', '.'] = true ∧ IsEmpty (ExactVersion ['.', '.']) := by
  refine ⟨by decide, ⟨fun e => ?_⟩⟩
  have hvn : [] ∈ versionNumbers ['.', '.'] := by decide
  rw [e.versionNumbers_eq] at hvn
  exact (e.decimal [] hvn).1 rfl

end DshDesktop.Adapter
