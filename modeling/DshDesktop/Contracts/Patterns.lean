import Mathlib.Data.List.TakeWhile
import DshDesktop.Library.Pattern
import DshDesktop.Daemon.Envelope

/-!
# The patterns of the schemas

The three patterns of the embedded schemas, and that the hand-written matchers
of the daemon accept the same texts.
-/

namespace DshDesktop.Contracts
open Daemon Pattern RegularExpression Text List Bool
variable {c : Char} {w suffix version space cs ds rest stage front : List Char}
  {value : String}
  (s : String)

def lower : List Char := chars 'a' 'z'
def upper : List Char := chars 'A' 'Z'
def decimal : List Char := chars '0' '9'

def methodPattern : Pattern where
  source := "^[a-z][a-z0-9._-]+$"
  expr := charClass lower * oneOrMore (charClass (lower ++ decimal ++ ['.', '_', '-']))

def kindPattern : Pattern where
  source := "^[A-Z][A-Za-z0-9]+$"
  expr := charClass upper * oneOrMore (charClass (upper ++ lower ++ decimal))

def digits : RegularExpression Char := oneOrMore (charClass decimal)

def apiVersionPattern : Pattern where
  source := "^[a-z0-9.-]+/v[0-9]+(alpha[0-9]+|beta[0-9]+)?$"
  expr := oneOrMore (charClass (lower ++ decimal ++ ['.', '-'])) * (literal "/v".toList *
    (digits * optional (literal "alpha".toList * digits + literal "beta".toList * digits)))

theorem mem_lower : c ∈ lower ↔ isLower c := by
  simp [lower, mem_chars (show 'z'.toNat < 0xd800 by decide), isLower]

theorem mem_upper : c ∈ upper ↔ isUpper c := by
  simp [upper, mem_chars (show 'Z'.toNat < 0xd800 by decide), isUpper]

theorem mem_decimal : c ∈ decimal ↔ isDecimal c := by
  simp [decimal, mem_chars (show '9'.toNat < 0xd800 by decide), isDecimal]

theorem ascii_of_le {last : Char} (h : c ≤ last) (hlast : last.val ≤ 127) : c.val ≤ 127 :=
  UInt32.le_trans h hlast

theorem ascii_of_isLower (h : isLower c) : c.val ≤ 127 := by
  simp only [isLower, and_eq_true, decide_eq_true_eq] at h
  exact ascii_of_le h.2 (by decide)

theorem ascii_of_isUpper (h : isUpper c) : c.val ≤ 127 := by
  simp only [isUpper, and_eq_true, decide_eq_true_eq] at h
  exact ascii_of_le h.2 (by decide)

theorem two_le_utf8ByteSize {s : String} {first : Char} (hs : s.toList = first :: rest)
    (hfr : first.val ≤ 127) : 2 ≤ s.utf8ByteSize ↔ rest ≠ [] := by
  have heq : s = String.ofList (first :: rest) := by rw [← hs, String.ofList_toList]
  rw [heq, String.ofList_cons, String.utf8ByteSize_append, String.utf8ByteSize_singleton,
    Char.utf8Size_eq_one_iff.mpr hfr]
  cases rest with
  | nil => simp
  | cons c rest =>
    have hpos := c.utf8Size_pos
    rw [String.ofList_cons, String.utf8ByteSize_append, String.utf8ByteSize_singleton]
    constructor
    · exact fun _ => cons_ne_nil _ _
    · omega

theorem rmatch_class_then_more : (charClass cs * oneOrMore (charClass ds)).rmatch w ↔
      ∃ first rest, w = first :: rest ∧ first ∈ cs ∧ rest ≠ [] ∧ ∀ c ∈ rest, c ∈ ds := by
  rw [mul_rmatch_iff]
  constructor
  · intro h
    obtain ⟨t, u, hw, ht, hu⟩ := h
    obtain ⟨first, hfr, rfl⟩ := rmatch_charClass.mp ht
    obtain ⟨hne, hall⟩ := rmatch_oneOrMore.mp hu
    exact ⟨first, u, hw, hfr, hne, hall⟩
  · intro h
    obtain ⟨first, rest, hw, hfr, hne, hall⟩ := h
    exact ⟨[first], rest, hw, rmatch_charClass.mpr ⟨first, hfr, rfl⟩,
      rmatch_oneOrMore.mpr ⟨hne, hall⟩⟩

theorem class_then_more_test {p q : Char → Bool} (hcs : ∀ c, c ∈ cs ↔ p c)
    (hds : ∀ c, c ∈ ds ↔ q c) (has : ∀ c, p c → c.val ≤ 127) (s : String) :
    (charClass cs * oneOrMore (charClass ds)).rmatch s.toList =
      match s.toList with
      | [] => false
      | first :: rest => p first && decide (2 ≤ s.utf8ByteSize) && rest.all q := by
  rw [Bool.eq_iff_iff, rmatch_class_then_more]
  split
  · next hs => simp [hs]
  next first rest hs =>
  simp only [hs, List.cons.injEq, and_eq_true, decide_eq_true_eq, all_eq_true]
  constructor
  · intro h
    obtain ⟨_, _, ⟨rfl, rfl⟩, hfr, hne, hall⟩ := h
    have hp := (hcs _).mp hfr
    exact ⟨⟨hp, (two_le_utf8ByteSize hs (has _ hp)).mpr hne⟩, fun c hc => (hds c).mp (hall c hc)⟩
  · intro h
    obtain ⟨⟨hp, hsz⟩, hall⟩ := h
    exact ⟨first, rest, ⟨rfl, rfl⟩, (hcs _).mpr hp,
      (two_le_utf8ByteSize hs (has _ hp)).mp hsz, fun c hc => (hds c).mpr (hall c hc)⟩

theorem methodPattern_test : methodPattern.test s = validMethod s := by
  refine class_then_more_test (fun c => mem_lower) ?_ (fun c => ascii_of_isLower) s
  intro c
  simp [mem_lower, mem_decimal]
  tauto

theorem kindPattern_test : kindPattern.test s = validCoordinateKind s := by
  refine class_then_more_test (fun c => mem_upper) ?_ (fun c => ascii_of_isUpper) s
  intro c
  simp [mem_lower, mem_upper, mem_decimal]
  tauto

def AllDecimal (w : List Char) : Prop := w ≠ [] ∧ ∀ c ∈ w, isDecimal c = true

def StageOk (suffix : List Char) : Prop :=
  suffix = [] ∨ ∃ e, (suffix = "alpha".toList ++ e ∨ suffix = "beta".toList ++ e) ∧ AllDecimal e

def NamespaceOk (space : List Char) : Prop :=
  space ≠ [] ∧ ∀ c ∈ space, (isLower c || isDecimal c || c == '.' || c == '-') = true

def VersionOk (version : List Char) : Prop :=
  ∃ ds suffix, version = 'v' :: (ds ++ suffix) ∧ AllDecimal ds ∧ StageOk suffix

theorem rmatch_digits : digits.rmatch w ↔ AllDecimal w := by
  rw [digits, rmatch_oneOrMore]
  simp [mem_decimal, AllDecimal]

theorem rmatch_literal_mul {r : RegularExpression Char} :
    (literal cs * r).rmatch w ↔ ∃ u, w = cs ++ u ∧ r.rmatch u := by
  rw [mul_rmatch_iff]
  constructor
  · intro h
    obtain ⟨t, u, hw, ht, hu⟩ := h
    rw [rmatch_literal] at ht
    exact ⟨u, ht ▸ hw, hu⟩
  · intro h
    obtain ⟨u, hw, hu⟩ := h
    exact ⟨cs, u, hw, rmatch_literal.mpr rfl, hu⟩

theorem rmatch_stage :
    (optional (literal "alpha".toList * digits + literal "beta".toList * digits)).rmatch w ↔
      StageOk w := by
  rw [rmatch_optional, add_rmatch_iff, rmatch_literal_mul, rmatch_literal_mul]
  simp only [rmatch_digits]
  constructor
  · intro h
    rcases h with (⟨e, hw, he⟩ | ⟨e, hw, he⟩) | hnil
    · exact .inr ⟨e, .inl hw, he⟩
    · exact .inr ⟨e, .inr hw, he⟩
    · exact .inl hnil
  · intro h
    rcases h with hnil | ⟨e, hw | hw, he⟩
    · exact .inr hnil
    · exact .inl (.inl ⟨e, hw, he⟩)
    · exact .inl (.inr ⟨e, hw, he⟩)

theorem rmatch_apiVersion : apiVersionPattern.expr.rmatch w ↔
      ∃ space version, w = space ++ '/' :: version ∧ NamespaceOk space ∧ VersionOk version := by
  have hclass : ∀ c, c ∈ lower ++ decimal ++ ['.', '-'] ↔
      (isLower c || isDecimal c || c == '.' || c == '-') := by
    intro c
    simp [mem_lower, mem_decimal]
    tauto
  rw [apiVersionPattern, mul_rmatch_iff]
  simp only [rmatch_oneOrMore, rmatch_literal_mul, hclass]
  constructor
  · intro h
    obtain ⟨space, u, hw, hsp, v, rfl, hv⟩ := h
    obtain ⟨ds, suffix, rfl, hds, hsf⟩ := (mul_rmatch_iff _ _ _).mp hv
    exact ⟨space, 'v' :: (ds ++ suffix), hw, hsp, ds, suffix, rfl, rmatch_digits.mp hds,
      rmatch_stage.mp hsf⟩
  · intro h
    obtain ⟨space, _, hw, hsp, ds, suffix, rfl, hds, hsf⟩ := h
    exact ⟨space, _, hw, hsp, ds ++ suffix, rfl,
      (mul_rmatch_iff _ _ _).mpr ⟨ds, suffix, rfl, rmatch_digits.mpr hds, rmatch_stage.mpr hsf⟩⟩

theorem stageRest_eq_some : stageRest suffix = some stage ↔
      suffix = "alpha".toList ++ stage ∨ suffix = "beta".toList ++ stage := by
  unfold stageRest
  constructor
  · intro h
    split at h
    · next hal =>
      obtain ⟨rest, rfl⟩ := isPrefixOf_iff_prefix.mp hal
      cases h
      exact .inl rfl
    split at h
    · next hbt =>
      obtain ⟨rest, rfl⟩ := isPrefixOf_iff_prefix.mp hbt
      cases h
      exact .inr rfl
    · cases h
  · intro h
    rcases h with rfl | rfl <;> rfl

theorem stageOk_iff :
    StageOk suffix ↔ suffix = [] ∨ ∃ stage, stageRest suffix = some stage ∧ AllDecimal stage := by
  simp only [stageRest_eq_some]
  rfl

theorem head_of_stageOk (h : StageOk suffix) : ∀ c ∈ suffix.head?, isDecimal c = false := by
  rcases h with rfl | ⟨e, rfl | rfl, _⟩
  · exact nofun
  · intro c hc
    cases hc
    rfl
  · intro c hc
    cases hc
    rfl

theorem takeWhile_isDecimal (hds : ∀ c ∈ ds, isDecimal c)
    (hsf : ∀ c ∈ suffix.head?, isDecimal c = false) :
    (ds ++ suffix).takeWhile isDecimal = ds ∧ (ds ++ suffix).dropWhile isDecimal = suffix := by
  rw [takeWhile_append_of_pos hds, dropWhile_append_of_pos hds]
  cases suffix with
  | nil => exact ⟨append_nil _, rfl⟩
  | cons c suffix =>
    have hc := hsf c rfl
    rw [takeWhile_cons_of_neg (by simp [hc]), dropWhile_cons_of_neg (by simp [hc])]
    exact ⟨append_nil _, rfl⟩

theorem validVersion_iff : validVersion version ↔ VersionOk version := by
  have htl : ∀ rest, validVersion ('v' :: rest) ↔
      rest.takeWhile isDecimal ≠ [] ∧ StageOk (rest.dropWhile isDecimal) := by
    intro rest
    rw [validVersion, stageOk_iff]
    simp only [and_eq_true, or_eq_true, decide_eq_true_eq]
    refine and_congr_right fun _ => or_congr_right ?_
    cases hst : stageRest (rest.dropWhile isDecimal) with
    | none => simp
    | some stage => simp [AllDecimal]
  constructor
  · intro h
    unfold validVersion at h
    split at h
    · next rest =>
      obtain ⟨hne, hst⟩ := (htl rest).mp (by rw [validVersion]; exact h)
      refine ⟨rest.takeWhile isDecimal, rest.dropWhile isDecimal, ?_, ⟨hne, ?_⟩, hst⟩
      · rw [takeWhile_append_dropWhile]
      · exact all_eq_true.mp all_takeWhile
    · cases h
  · intro h
    obtain ⟨ds, suffix, rfl, hds, hsf⟩ := h
    obtain ⟨htk, hdr⟩ := takeWhile_isDecimal hds.2 (head_of_stageOk hsf)
    rw [htl, htk, hdr]
    exact ⟨hds.1, hsf⟩

theorem rsplitSlash_append (hvl : value.toList = space ++ '/' :: version)
    (hver : '/' ∉ version) : rsplitSlash value = some (space, version) := by
  have hrev : value.toList.reverse = version.reverse ++ '/' :: space.reverse := by
    rw [hvl, reverse_append, reverse_cons, append_assoc]
    rfl
  have hpos : ∀ c ∈ version.reverse, decide (c ≠ '/') := by
    intro c hc
    rw [decide_eq_true_eq]
    intro heq
    exact hver (heq ▸ mem_reverse.mp hc)
  unfold rsplitSlash
  simp only [hrev]
  rw [dropWhile_append_of_pos hpos, takeWhile_append_of_pos hpos,
    dropWhile_cons_of_neg (by simp), takeWhile_cons_of_neg (by simp)]
  simp

theorem append_of_rsplitSlash (h : rsplitSlash value = some (space, version)) :
    value.toList = space ++ '/' :: version := by
  have hsp := takeWhile_append_dropWhile (p := (· ≠ '/')) (l := value.toList.reverse)
  unfold rsplitSlash at h
  dsimp only at h
  split at h
  · cases h
  next c bef hdr =>
  obtain ⟨hsa, hver⟩ := Prod.mk.inj (Option.some.inj h)
  -- what stopped the scan from the right is a slash
  have hc : c = '/' := by
    have hhd := List.head?_dropWhile_not (· ≠ '/') value.toList.reverse
    rw [hdr] at hhd
    simpa using hhd
  rw [hdr, hc] at hsp
  have hrev := congrArg List.reverse hsp
  rw [reverse_reverse, reverse_append, reverse_cons, append_assoc] at hrev
  rw [← hrev, ← hsa, ← hver]
  rfl

theorem slash_not_mem_of_versionOk (h : VersionOk version) : '/' ∉ version := by
  have hdec : ∀ {w}, AllDecimal w → '/' ∉ w := fun hw hmem => absurd (hw.2 _ hmem) (by decide)
  obtain ⟨ds, suffix, rfl, hds, hsf⟩ := h
  rw [mem_cons, mem_append]
  intro hmem
  rcases hmem with heq | hmem | hmem
  · exact absurd heq (by decide)
  · exact hdec hds hmem
  rcases hsf with rfl | ⟨e, rfl | rfl, he⟩
  · cases hmem
  · rcases mem_append.mp hmem with hmem | hmem
    · exact absurd hmem (by decide)
    · exact hdec he hmem
  · rcases mem_append.mp hmem with hmem | hmem
    · exact absurd hmem (by decide)
    · exact hdec he hmem

theorem apiVersionPattern_test : apiVersionPattern.test s = validApiVersion s := by
  rw [Bool.eq_iff_iff]
  show apiVersionPattern.expr.rmatch s.toList ↔ _
  rw [rmatch_apiVersion]
  unfold validApiVersion
  constructor
  · intro h
    obtain ⟨space, version, hs, hsp, hver⟩ := h
    rw [rsplitSlash_append hs (slash_not_mem_of_versionOk hver)]
    simp only [and_eq_true, decide_eq_true_eq, all_eq_true, validVersion_iff]
    exact ⟨hsp, hver⟩
  · intro h
    split at h
    · cases h
    · next space version hsplit =>
      simp only [and_eq_true, decide_eq_true_eq, all_eq_true, validVersion_iff] at h
      exact ⟨space, version, append_of_rsplitSlash hsplit, h.1, h.2⟩

/-- A text from a byte offset on; slicing inside a character panics. -/
def sliceFrom : List Char → ℕ → Option (List Char)
  | cs, 0 => some cs
  | [], _ + 1 => none
  | c :: cs, n + 1 => if c.utf8Size ≤ n + 1 then sliceFrom cs (n + 1 - c.utf8Size) else none

/-- `valid_api_version` after its slash, over the bytes, with the slice that could panic. -/
def scanVersion (version : List Char) : Option Bool :=
  let bytes := version.flatMap String.utf8EncodeChar
  if bytes.head? ≠ some 118 then some false
  else
    let i := 1 + ((bytes.drop 1).takeWhile isAsciiDigit).length
    if i = 1 then some false
    else if i < bytes.length then
      (sliceFrom version i).map fun suffix =>
        match stageRest suffix with
        | some rest => rest ≠ [] && (rest.flatMap String.utf8EncodeChar).all isAsciiDigit
        | none => false
    else some true

def scanApiVersion (value : String) : Option Bool :=
  match rsplitSlash value with
  | none => some false
  | some (space, version) =>
    if space ≠ [] && space.all fun c => isLower c || isDecimal c || c == '.' || c == '-' then
      scanVersion version
    else some false

theorem ascii_of_isDecimal (h : isDecimal c) : c.val ≤ 127 := by
  simp only [isDecimal, and_eq_true, decide_eq_true_eq] at h
  exact ascii_of_le h.2 (by decide)

theorem toNat_toUInt8 (h : c.val ≤ 127) : c.val.toUInt8.toNat = c.val.toNat := by
  have hle := UInt32.le_iff_toNat_le.mp h
  exact Nat.mod_eq_of_lt (Nat.lt_of_le_of_lt hle (by decide))

theorem isAsciiDigit_toUInt8 (h : c.val ≤ 127) : isAsciiDigit c.val.toUInt8 = isDecimal c := by
  rw [isAsciiDigit, isDecimal, toNat_toUInt8 h]
  rfl

theorem not_isAsciiDigit {b : UInt8} (h : 128 ≤ b.toNat) : ¬ isAsciiDigit b := by
  simp only [isAsciiDigit, and_eq_true, decide_eq_true_eq]
  omega

theorem takeWhile_bytes : (cs.flatMap String.utf8EncodeChar).takeWhile isAsciiDigit =
      (cs.takeWhile isDecimal).map fun c => c.val.toUInt8 := by
  induction cs with
  | nil => rfl
  | cons c cs ih =>
    rw [flatMap_cons]
    rcases utf8EncodeChar_cases c with ⟨has, hby⟩ | ⟨has, b, rest, hby, hb⟩
    · rw [hby, singleton_append, takeWhile_cons, takeWhile_cons, isAsciiDigit_toUInt8 has, ih]
      split_ifs <;> rfl
    · rw [hby, cons_append, takeWhile_cons_of_neg (not_isAsciiDigit hb),
        takeWhile_cons_of_neg (mt ascii_of_isDecimal has)]
      rfl

theorem all_bytes : (cs.flatMap String.utf8EncodeChar).all isAsciiDigit = cs.all isDecimal := by
  rw [all_flatMap]
  congr 1
  funext c
  rcases utf8EncodeChar_cases c with ⟨has, hby⟩ | ⟨has, b, rest, hby, hb⟩
  · rw [hby, all_cons, isAsciiDigit_toUInt8 has, all_nil, Bool.and_true]
  · rw [hby, all_cons, eq_false_of_ne_true (not_isAsciiDigit hb), Bool.false_and,
      eq_false_of_ne_true (mt ascii_of_isDecimal has)]

theorem sliceFrom_append (h : ∀ c ∈ front, c.val ≤ 127) :
    sliceFrom (front ++ suffix) front.length = some suffix := by
  induction front with
  | nil => rw [nil_append, length_nil, sliceFrom]
  | cons c front ih =>
    have hsz := Char.utf8Size_eq_one_iff.mpr (h c mem_cons_self)
    rw [cons_append, length_cons, sliceFrom, hsz, if_pos (Nat.le_add_left 1 _), Nat.add_sub_cancel]
    exact ih (forall_mem_cons.mp h).2

theorem head_bytes (h : ((c :: w).flatMap String.utf8EncodeChar).head? = some 118) : c = 'v' := by
  rw [flatMap_cons] at h
  rcases utf8EncodeChar_cases c with ⟨has, hby⟩ | ⟨has, b, rest, hby, hb⟩
  · rw [hby, singleton_append, List.head?_cons, Option.some.injEq] at h
    have hv : c.val.toUInt8.toNat = 118 := congrArg UInt8.toNat h
    rw [toNat_toUInt8 has] at hv
    exact Char.ext (UInt32.toNat_inj.mp hv)
  · rw [hby] at h
    cases h
    exact absurd hb (by decide)

theorem dropWhile_bytes : (cs.flatMap String.utf8EncodeChar).dropWhile isAsciiDigit = [] ↔
      cs.dropWhile isDecimal = [] := by
  rw [dropWhile_eq_nil_iff, dropWhile_eq_nil_iff, ← all_eq_true, all_bytes, all_eq_true]

theorem scanVersion_v : scanVersion ('v' :: rest) = some (validVersion ('v' :: rest)) := by
  have hslice : sliceFrom ('v' :: rest) (1 + (rest.takeWhile isDecimal).length) =
      some (rest.dropWhile isDecimal) := by
    nth_rewrite 1 [← takeWhile_append_dropWhile (p := isDecimal) (l := rest)]
    rw [← cons_append, Nat.add_comm, ← length_cons]
    refine sliceFrom_append (fun c hc => ?_)
    rcases mem_cons.mp hc with rfl | hc
    · decide
    · exact ascii_of_isDecimal (all_eq_true.mp all_takeWhile c hc)
  have hmr : 1 + (rest.takeWhile isDecimal).length <
      (('v' :: rest).flatMap String.utf8EncodeChar).length ↔ ¬ rest.dropWhile isDecimal = [] := by
    have hlength := congrArg List.length (takeWhile_append_dropWhile (p := isAsciiDigit)
      (l := rest.flatMap String.utf8EncodeChar))
    rw [length_append, takeWhile_bytes, length_map] at hlength
    rw [← dropWhile_bytes, ← length_eq_zero_iff, flatMap_cons, length_append]
    change _ < 1 + _ ↔ _
    omega
  have htk : ((('v' :: rest).flatMap String.utf8EncodeChar).drop 1).takeWhile isAsciiDigit =
      (rest.takeWhile isDecimal).map fun c => c.val.toUInt8 := takeWhile_bytes
  simp only [scanVersion, validVersion, htk, length_map, hmr, hslice, all_bytes,
    Nat.add_eq_left, length_eq_zero_iff]
  have hfr : (('v' :: rest).flatMap String.utf8EncodeChar).head? = some 118 := rfl
  rw [if_neg (not_not.mpr hfr)]
  by_cases hdg : rest.takeWhile isDecimal = []
  · rw [if_pos hdg, decide_eq_false (not_not.mpr hdg), Bool.false_and]
  rw [if_neg hdg, decide_eq_true hdg, Bool.true_and]
  by_cases hsf : rest.dropWhile isDecimal = []
  · rw [if_neg (not_not.mpr hsf), decide_eq_true hsf, Bool.true_or]
  · rw [if_pos hsf, decide_eq_false hsf, Bool.false_or]
    rfl

theorem scanVersion_eq : scanVersion version = some (validVersion version) := by
  fun_cases validVersion version with
  | case1 rest => exact scanVersion_v
  | case2 _ hv =>
    refine if_pos ?_
    cases version with
    | nil => decide
    | cons c rest => exact mt head_bytes fun hc => hv rest (by rw [hc])

/-- Every text: the daemon's scanners neither panic nor differ from the documented patterns. -/
theorem scanners_match_patterns (value : String) :
    scanApiVersion value = some (apiVersionPattern.test value) ∧
      validMethod value = methodPattern.test value ∧
      validCoordinateKind value = kindPattern.test value := by
  refine ⟨?_, (methodPattern_test value).symm, (kindPattern_test value).symm⟩
  rw [apiVersionPattern_test, scanApiVersion, validApiVersion]
  cases rsplitSlash value with
  | none => rfl
  | some parts =>
    simp only [scanVersion_eq]
    split_ifs with hsp
    · rw [hsp, Bool.true_and]
    · rw [eq_false_of_ne_true hsp, Bool.false_and]

end DshDesktop.Contracts
