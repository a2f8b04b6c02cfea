import DshDesktop.Browser.Sessions
import Mathlib.Data.List.DropRight

/-!
# Credentials in navigable URLs

What the URL standard makes of a text with an http scheme: tabs and newlines are removed,
a backslash is a slash, and any number of slashes may stand before the authority. Controls
and spaces at the ends, which it strips, cannot reach the credentials.
-/

namespace DshDesktop.Browser
open List

structure WebUrl where
  scheme : List Char
  username : List Char
  password : List Char
  deriving DecidableEq

def isTabOrNewline (c : Char) : Bool := ['\t', '\n', '\r'].contains c

def isSlash (c : Char) : Bool := ['/', '\\'].contains c

def isAuthorityEnd (c : Char) : Bool := ['/', '\\', '?', '#'].contains c

def webviewText (url : String) : List Char := url.toList.filter (!isTabOrNewline ·)

def webviewScheme (text : List Char) : List Char := (text.takeWhile (· ≠ ':')).map Char.toLower

def webviewAuthority (text : List Char) : List Char :=
  (((text.dropWhile (· ≠ ':')).drop 1).dropWhile isSlash).takeWhile (!isAuthorityEnd ·)

/-- What stands before the last `@` of the authority. -/
def credentials (text : List Char) : List Char :=
  ((webviewAuthority text).rdropWhile (· ≠ '@')).dropLast

/-- `accepts` decides on host, port and path, and `other` on other schemes. Of the
credentials the texts before percent-encoding are kept. -/
def webviewParse (accepts : List Char → Bool) (other : List Char → Option WebUrl) (url : String) :
    Option WebUrl :=
  let text := webviewText url
  let scheme := webviewScheme text
  if scheme = "http".toList ∨ scheme = "https".toList then
    if accepts text then
      some ⟨scheme, (credentials text).takeWhile (· ≠ ':'),
        ((credentials text).dropWhile (· ≠ ':')).drop 1⟩
    else none
  else other text

def policyAuthority (rest : List Char) : List Char :=
  rest.takeWhile fun c => c ≠ '/' ∧ c ≠ '?' ∧ c ≠ '#'

/-- The authority as the policy sees it has a character that the webview does not skip. -/
def PlainAuthority (url : String) : Prop :=
  ∃ rest ∈ stripHttpScheme url, ∃ c ∈ policyAuthority rest, isTabOrNewline c = false ∧ c ≠ '\\'

variable {rest sch : List Char} {url : String}

theorem splitScheme_eq {cs : List Char} (h : splitScheme cs = some (sch, rest)) :
    cs = sch ++ ':' :: '/' :: '/' :: rest := by
  induction cs generalizing sch with
  | nil => cases h
  | cons c cs ih =>
    rw [splitScheme] at h
    split_ifs at h with hsep
    · obtain ⟨rfl, tail, rfl⟩ := hsep
      cases h
      rfl
    · obtain ⟨parts, hparts, heq⟩ := Option.map_eq_some_iff.mp h
      cases heq
      rw [ih hparts]
      rfl

theorem stripHttpScheme_eq (h : stripHttpScheme url = some rest) :
    ∃ sch, url.toList = sch ++ ':' :: '/' :: '/' :: rest ∧
      (sch.map Char.toLower = "http".toList ∨ sch.map Char.toLower = "https".toList) := by
  unfold stripHttpScheme at h
  cases hsp : splitScheme url.toList with
  | none => simp [hsp] at h
  | some parts =>
    simp only [hsp] at h
    split_ifs at h with hscheme
    cases h
    rw [Bool.or_eq_true] at hscheme
    exact ⟨parts.1, splitScheme_eq hsp, hscheme.imp beq_iff_eq.mp beq_iff_eq.mp⟩

theorem notMem_scheme
    (h : sch.map Char.toLower = "http".toList ∨ sch.map Char.toLower = "https".toList) :
    ∀ d ∈ ['\t', '\n', '\r', ':'], d ∉ sch := by
  intro d hd hin
  have hmem := mem_map_of_mem (f := Char.toLower) hin
  simp only [mem_cons, not_mem_nil, or_false] at hd
  rcases h with h | h <;> rw [h] at hmem <;> rcases hd with rfl | rfl | rfl | rfl <;>
    exact absurd hmem (by decide)

theorem webview_rest (h : stripHttpScheme url = some rest) :
    (webviewScheme (webviewText url) = "http".toList ∨
      webviewScheme (webviewText url) = "https".toList) ∧
    webviewAuthority (webviewText url) =
      ((rest.filter (!isTabOrNewline ·)).dropWhile isSlash).takeWhile (!isAuthorityEnd ·) := by
  obtain ⟨sch, heq, hlw⟩ := stripHttpScheme_eq h
  have hnot := notMem_scheme hlw
  have hcolon : ∀ c ∈ sch, decide (c ≠ ':') := fun c hc =>
    decide_eq_true fun hd => hnot ':' (by decide) (hd ▸ hc)
  have hself : sch.filter (!isTabOrNewline ·) = sch := by
    refine filter_eq_self.mpr fun c hc => ?_
    rw [Bool.not_eq_true', isTabOrNewline, ← Bool.not_eq_true, contains_iff_mem]
    intro hd
    exact hnot c (mem_append_left [':'] hd) hc
  have htx : webviewText url = sch ++ ':' :: '/' :: '/' :: rest.filter (!isTabOrNewline ·) := by
    rw [webviewText, heq, filter_append, hself]
    rfl
  rw [htx, webviewScheme, webviewAuthority, takeWhile_append_of_pos hcolon,
    dropWhile_append_of_pos hcolon]
  refine ⟨?_, rfl⟩
  rw [takeWhile_cons_of_neg (by decide), append_nil]
  exact hlw

theorem policyAuthority_split (rest : List Char) : ∃ tail, rest = policyAuthority rest ++ tail ∧
      (tail.filter (!isTabOrNewline ·)).takeWhile (!isAuthorityEnd ·) = [] := by
  refine ⟨_, takeWhile_append_dropWhile.symm, ?_⟩
  have hhd := List.head?_dropWhile_not (fun c => c ≠ '/' ∧ c ≠ '?' ∧ c ≠ '#') rest
  cases hdr : rest.dropWhile fun c => c ≠ '/' ∧ c ≠ '?' ∧ c ≠ '#' with
  | nil => rfl
  | cons d tail =>
    simp only [hdr, List.head?_cons, decide_eq_false_iff_not, not_and_or, not_not] at hhd
    rcases hhd with rfl | rfl | rfl <;> rfl

/-- If the webview does not skip all of the policy's authority, its own lies within it. -/
theorem at_notMem (hat : '@' ∉ policyAuthority rest)
    (hpl : ∃ c ∈ policyAuthority rest, isTabOrNewline c = false ∧ c ≠ '\\') :
    '@' ∉ ((rest.filter (!isTabOrNewline ·)).dropWhile isSlash).takeWhile (!isAuthorityEnd ·) := by
  obtain ⟨c, hc, htab, hbc⟩ := hpl
  obtain ⟨tail, hsp, hend⟩ := policyAuthority_split rest
  have hne : c ≠ '/' := fun heq => by
    have hkp := mem_takeWhile_imp (p := fun c => c ≠ '/' ∧ c ≠ '?' ∧ c ≠ '#') hc
    simp [heq] at hkp
  have hmr : (((policyAuthority rest).filter (!isTabOrNewline ·)).dropWhile isSlash).isEmpty ≠
      true := by
    intro hnil
    have hslash := dropWhile_eq_nil_iff.mp (isEmpty_iff.mp hnil) c
      (mem_filter.mpr ⟨hc, by simp [htab]⟩)
    simp [isSlash, hne, hbc] at hslash
  intro hin
  rw [hsp, filter_append, dropWhile_append, if_neg hmr, takeWhile_append, hend, append_nil] at hin
  have hkp : '@' ∈ ((policyAuthority rest).filter (!isTabOrNewline ·)).dropWhile isSlash := by
    split_ifs at hin
    · exact hin
    · exact takeWhile_subset _ hin
  exact hat (mem_of_mem_filter (dropWhile_subset _ hkp))

theorem credentials_eq_nil (hrest : stripHttpScheme url = some rest)
    (hat : '@' ∉ policyAuthority rest) (hplain : PlainAuthority url) :
    credentials (webviewText url) = [] := by
  obtain ⟨rest', heq, hpa⟩ := hplain
  cases hrest.symm.trans heq
  rw [credentials, (webview_rest hrest).2, List.rdropWhile_eq_nil_iff.mpr, List.dropLast_nil]
  intro d hd
  exact decide_eq_true fun hd' => at_notMem hat hpa (hd' ▸ hd)

/-- An accepted text whose authority, as the policy cuts it, has a character that the webview
does not skip reaches the webview without credentials. -/
theorem accepted_without_credentials (accepts : List Char → Bool)
    (other : List Char → Option WebUrl) (url accepted : String)
    (h : UrlPolicy.validate url = .ok accepted) (hplain : PlainAuthority url) (u : WebUrl)
    (hu : webviewParse accepts other accepted = some u) :
    (u.scheme = "http".toList ∨ u.scheme = "https".toList) ∧ u.username = [] ∧ u.password = [] := by
  obtain ⟨rfl, -, rest, hrest, hpl⟩ := UrlPolicy.validate_ok h
  obtain ⟨hscheme, -⟩ := webview_rest hrest
  have hat : '@' ∉ policyAuthority rest := fun hin =>
    absurd (hpl.symm.trans (List.contains_iff_mem.mpr hin)) nofun
  simp only [webviewParse, if_pos hscheme, credentials_eq_nil hrest hat hplain] at hu
  split_ifs at hu
  cases hu
  exact ⟨hscheme, rfl, rfl⟩

theorem accepted_without_credentials_page :
    let url := "https://example.org/a:b@c"
    let u : WebUrl := ⟨"https".toList, [], []⟩
    webviewParse (fun _ => true) (fun _ => none) url = some u ∧ u.username = [] ∧
      u.password = [] := by
  intro url u
  have hu : webviewParse (fun _ => true) (fun _ => none) url = some u := by decide
  have hplain : PlainAuthority url := ⟨"example.org/a:b@c".toList, by decide, 'e', by decide⟩
  exact ⟨hu, (accepted_without_credentials _ _ url url (by decide) hplain u hu).2⟩

/-- With three slashes the policy sees an empty authority. -/
theorem credentials_behind_slashes :
    UrlPolicy.validate "https:///user:pass@host" = .ok "https:///user:pass@host" ∧
      webviewParse (fun _ => true) (fun _ => none) "https:///user:pass@host" =
        some ⟨"https".toList, "user".toList, "pass".toList⟩ := by
  decide

end DshDesktop.Browser
