import DshDesktop.Library.Text
import Mathlib.Data.List.TakeWhile

/-!
# Texts of internet addresses

The readers follow the standard library of Rust: each takes characters from the front of the
input, or fails and takes none. The writers are those of the URL standard.
-/

namespace IpAddress
open List Option Nat

variable {radix : ℕ} {rest cs : List Char} {P : Char → Prop} {c : Char}

structure Ipv4 where
  a : Fin 256
  b : Fin 256
  c : Fin 256
  d : Fin 256
  deriving DecidableEq

abbrev Group := Fin 65536

structure Ipv6 where
  groups : List Group
  length : groups.length = 8
  deriving DecidableEq

namespace Ipv4

def isLoopback (address : Ipv4) : Bool := address.a == 127

def localhost : Ipv4 := ⟨127, 0, 0, 1⟩

def pair (address : Ipv4) : List Group :=
  [⟨address.a * 256 + address.b, by omega⟩, ⟨address.c * 256 + address.d, by omega⟩]

end Ipv4

def loopbackGroups : List Group := [0, 0, 0, 0, 0, 0, 0, 1]

variable (address : Ipv4)

def Ipv6.mapped : Ipv6 := ⟨[0, 0, 0, 0, 0, 65535] ++ address.pair, rfl⟩

def letterValue (c : Char) : Option ℕ :=
  if '0' ≤ c ∧ c ≤ '9' then some (c.toNat - '0'.toNat)
  else if 'a' ≤ c ∧ c ≤ 'z' then some (c.toNat - 'a'.toNat + 10)
  else if 'A' ≤ c ∧ c ≤ 'Z' then some (c.toNat - 'A'.toNat + 10)
  else none

def digitValue (radix : ℕ) (c : Char) : Option ℕ := (letterValue c).filter (· < radix)

def isDigit (radix : ℕ) (c : Char) : Bool := (digitValue radix c).isSome

def numberValue (radix : ℕ) (digits : List Char) : ℕ :=
  digits.foldl (fun value c => value * radix + (digitValue radix c).getD 0) 0

def readNumber (radix maxDigits bound : ℕ) (allowZero : Bool) (cs : List Char) :
    Option (Fin bound × List Char) :=
  let digits := cs.takeWhile (isDigit radix)
  if digits = [] ∨ maxDigits < digits.length then none
  else if h : numberValue radix digits < bound then
    if !allowZero && digits.head? == some '0' && 1 < digits.length then none
    else some (⟨numberValue radix digits, h⟩, cs.dropWhile (isDigit radix))
  else none

def readGivenChar (c : Char) : List Char → Option (List Char)
  | [] => none
  | d :: rest => if d = c then some rest else none

def readSeparator (separator : Char) (first : Bool) (cs : List Char) : Option (List Char) :=
  if first then some cs else readGivenChar separator cs

def readOctet (first : Bool) (cs : List Char) : Option (Fin 256 × List Char) :=
  (readSeparator '.' first cs).bind (readNumber 10 3 256 false)

def readIpv4 (cs : List Char) : Option (Ipv4 × List Char) := do
  let (a, cs) ← readOctet true cs
  let (b, cs) ← readOctet false cs
  let (c, cs) ← readOctet false cs
  let (d, cs) ← readOctet false cs
  return (⟨a, b, c, d⟩, cs)

/-- `read_groups`: the groups read, whether they end in an address of four bytes, and the
rest of the input. -/
def readGroups : ℕ → Bool → List Char → List Group × Bool × List Char
  | 0, _, cs => ([], false, cs)
  | limit + 1, first, cs =>
    match if 0 < limit then (readSeparator ':' first cs).bind readIpv4 else none with
    | some (address, rest) => (address.pair, true, rest)
    | none =>
      match (readSeparator ':' first cs).bind (readNumber 16 4 65536 true) with
      | none => ([], false, cs)
      | some (group, rest) =>
        let (groups, embedded, rest) := readGroups limit false rest
        (group :: groups, embedded, rest)

def readTail (head : List Group) (cs : List Char) : List Group × List Char :=
  let (tail, _, rest) := readGroups (7 - head.length) true cs
  (head ++ List.replicate (8 - head.length - tail.length) 0 ++ tail, rest)

def readIpv6 (cs : List Char) : Option (List Group × List Char) :=
  let (head, embedded, rest) := readGroups 8 true cs
  if head.length = 8 then some (head, rest)
  else if embedded then none
  else
    match (readGivenChar ':' rest).bind (readGivenChar ':') with
    | none => none
    | some rest => some (readTail head rest)

def parseIpv4 (text : List Char) : Option Ipv4 :=
  if 15 < (String.ofList text).utf8ByteSize then none
  else
    match readIpv4 text with
    | some (address, []) => some address
    | _ => none

def parseIpv6 (text : List Char) : Option (List Group) :=
  match readIpv6 text with
  | some (groups, []) => some groups
  | _ => none

variable (n : Fin 256) {groups : List Group} {text mid left : List Char} {first : Bool}

def decimal : List Char := toDigits 10 n

def ipv4Text : List Char :=
  decimal address.a ++ '.' :: decimal address.b ++ '.' :: decimal address.c ++
    '.' :: decimal address.d

def hexadecimal (g : Group) : List Char := toDigits 16 g

def joinGroups : List Group → List Char
  | [] => []
  | [g] => hexadecimal g
  | g :: groups => hexadecimal g ++ ':' :: joinGroups groups

def longestZeros : ℕ → List Group → ℕ × ℕ
  | i, [] => (i, 0)
  | i, g :: groups =>
    let here := ((g :: groups).takeWhile (· == 0)).length
    let later := longestZeros (i + 1) groups
    if later.2 ≤ here then (i, here) else later

def ipv6Text (address : Ipv6) : List Char :=
  let run := longestZeros 0 address.groups
  if run.2 < 2 then joinGroups address.groups
  else joinGroups (address.groups.take run.1) ++ ':' :: ':' ::
    joinGroups (address.groups.drop (run.1 + run.2))

theorem digitValue_digitChar {d : ℕ} (hrd : radix ≤ 16) (hd : d < radix) :
    digitValue radix (digitChar d) = some d := by
  have hvl : letterValue (digitChar d) = some d := by
    have hbn : d < 16 := by omega
    interval_cases d <;> decide
  rw [digitValue, hvl, filter_some]
  simp [hd]

theorem numberValue_toDigits (hrd : 1 < radix) (hrd' : radix ≤ 16) {n : ℕ} :
    numberValue radix (toDigits radix n) = n := by
  induction n using Nat.strong_induction_on with
  | _ n ih =>
    rw [Nat.toDigits_eq_if hrd]
    split_ifs with hn
    · simp [numberValue, digitValue_digitChar hrd' hn]
    have hmod := mod_lt n (by omega : 0 < radix)
    rw [numberValue, foldl_append]
    have hfr := ih (n / radix) (div_lt_self (by omega) hrd)
    rw [numberValue] at hfr
    rw [hfr, foldl_cons, foldl_nil, digitValue_digitChar hrd' hmod, getD_some]
    exact div_add_mod' n radix

theorem toDigits_head (hrd : 1 < radix) (hrd' : radix ≤ 16) {n : ℕ}
    (h : (toDigits radix n).head? = some '0') : n = 0 := by
  induction n using Nat.strong_induction_on with
  | _ n ih =>
    rw [Nat.toDigits_eq_if hrd] at h
    split_ifs at h with hn
    · have hzr : digitValue radix (digitChar n) = digitValue radix (digitChar 0) :=
        congrArg (digitValue radix) (Option.some.inj h)
      have hone : digitValue radix (digitChar 0) = some 0 :=
        digitValue_digitChar hrd' (by omega)
      rw [digitValue_digitChar hrd' hn, hone] at hzr
      exact Option.some.inj hzr
    · rw [List.head?_append_of_ne_nil _ toDigits_ne_nil] at h
      have hfr := ih (n / radix) (div_lt_self (by omega) hrd) h
      have hpos : 0 < n / radix := div_pos (by omega) (by omega)
      omega

theorem decimal_digits : ∀ c ∈ decimal n, isDigit 10 c ∧ c.val ≤ 127 := by
  intro c hc
  refine ⟨?_, Text.toDigits_ascii (by omega) (by omega) n c hc⟩
  obtain ⟨d, hd, rfl⟩ := Text.mem_toDigits (by omega) hc
  rw [isDigit, digitValue_digitChar (by omega) hd]
  rfl

theorem decimal_number : decimal n ≠ [] ∧ (decimal n).length ≤ 3 ∧ numberValue 10 (decimal n) = n ∧
      ((decimal n).head? == some '0' && decide (1 < (decimal n).length)) = false := by
  refine ⟨toDigits_ne_nil, ?_, numberValue_toDigits (by omega) (by omega), ?_⟩
  · exact (length_toDigits_le_iff (by omega) (by omega)).mpr (by omega)
  · by_cases hhd : (decimal n).head? = some '0'
    · have hzr : (n : ℕ) = 0 := toDigits_head (by omega) (by omega) hhd
      rw [decimal, hzr]
      decide
    · simp [hhd]

theorem readNumber_decimal (hrs : rest.takeWhile (isDigit 10) = []) :
    readNumber 10 3 256 false (decimal n ++ rest) = some (n, rest) := by
  have hdg : ∀ c ∈ decimal n, isDigit 10 c := fun c hc => (decimal_digits n c hc).1
  have htk : (decimal n ++ rest).takeWhile (isDigit 10) = decimal n := by
    rw [takeWhile_append_of_pos hdg, hrs, append_nil]
  have hdr : (decimal n ++ rest).dropWhile (isDigit 10) = rest := by
    rw [dropWhile_append_of_pos hdg]
    have hsp := takeWhile_append_dropWhile (p := isDigit 10) (l := rest)
    rw [hrs, nil_append] at hsp
    exact hsp
  obtain ⟨hne, hlen, hvl, hzr⟩ := decimal_number n
  have hbn : numberValue 10 (decimal n) < 256 := by omega
  rw [readNumber, htk, hdr]
  rw [if_neg (not_or.mpr ⟨hne, by omega⟩), dif_pos hbn, if_neg]
  · simp [hvl]
  · simpa using hzr

theorem takeWhile_dot : ('.' :: rest).takeWhile (isDigit 10) = [] := by
  rfl

theorem readOctet_next (hrs : rest.takeWhile (isDigit 10) = []) :
    readOctet false ('.' :: (decimal n ++ rest)) = some (n, rest) :=
  readNumber_decimal n hrs

theorem readIpv4_text : readIpv4 (ipv4Text address) = some (address, []) := by
  have htx : ipv4Text address = decimal address.a ++ '.' ::
      (decimal address.b ++ '.' :: (decimal address.c ++ '.' :: (decimal address.d ++ []))) := by
    simp [ipv4Text]
  have hfr : readOctet true (ipv4Text address) = some (address.a, '.' ::
      (decimal address.b ++ '.' :: (decimal address.c ++ '.' :: (decimal address.d ++ [])))) := by
    rw [htx]
    exact readNumber_decimal address.a takeWhile_dot
  rw [readIpv4, hfr]
  simp only [bind_eq_bind, bind_some, readOctet_next _ takeWhile_dot]
  rw [readOctet_next address.d takeWhile_nil]
  rfl

theorem parseIpv4_text : parseIpv4 (ipv4Text address) = some address := by
  have has : ∀ c ∈ ipv4Text address, c.val ≤ 127 := by
    intro c hc
    have hdot : ('.' : Char).val ≤ 127 := by decide
    have hdec : ∀ n : Fin 256, c ∈ decimal n → c.val ≤ 127 := fun n hn => (decimal_digits n c hn).2
    simp only [ipv4Text, mem_append, mem_cons] at hc
    rcases hc with ((hc | rfl | hc) | rfl | hc) | rfl | hc
    · exact hdec _ hc
    · exact hdot
    · exact hdec _ hc
    · exact hdot
    · exact hdec _ hc
    · exact hdot
    · exact hdec _ hc
  have hlen : (ipv4Text address).length ≤ 15 := by
    have ha := (decimal_number address.a).2.1
    have hb := (decimal_number address.b).2.1
    have hc := (decimal_number address.c).2.1
    have hd := (decimal_number address.d).2.1
    simp only [ipv4Text, length_append, length_cons]
    omega
  rw [parseIpv4, Text.utf8ByteSize_ascii has, if_neg (by omega), readIpv4_text]

/-- The rest is what remains behind characters that all satisfy `P`. -/
def Taken (P : Char → Prop) (cs rest : List Char) : Prop :=
  ∃ front, cs = front ++ rest ∧ ∀ c ∈ front, P c

theorem Taken.refl (cs : List Char) : Taken P cs cs :=
  ⟨[], rfl, fun _ hc => absurd hc not_mem_nil⟩

theorem Taken.trans (h : Taken P cs mid) (h' : Taken P mid rest) : Taken P cs rest := by
  obtain ⟨front, rfl, hfr⟩ := h
  obtain ⟨back, rfl, hbc⟩ := h'
  refine ⟨front ++ back, by simp, ?_⟩
  intro c hc
  rcases mem_append.mp hc with hc | hc
  · exact hfr c hc
  · exact hbc c hc

theorem Taken.whole (h : Taken P cs []) : ∀ c ∈ cs, P c := by
  obtain ⟨front, rfl, hfr⟩ := h
  rw [append_nil]
  exact hfr

def AddressChar (c : Char) : Prop := isDigit 16 c = true ∨ c = '.' ∨ c = ':'

instance (c : Char) : Decidable (AddressChar c) := inferInstanceAs (Decidable (_ ∨ _))

theorem AddressChar.toNat_lt (h : AddressChar c) : c.toNat < 128 := by
  rcases h with h | rfl | rfl
  · by_contra hlr
    have hbelow : ∀ d : Char, d.toNat < 128 → ¬ c ≤ d := by
      intro d hd hc
      exact hlr ((UInt32.le_iff_toNat_le.mp hc).trans_lt hd)
    have hdec := hbelow '9' (by decide)
    have hlw := hbelow 'z' (by decide)
    have hup := hbelow 'Z' (by decide)
    simp [isDigit, digitValue, letterValue, hdec, hlw, hup] at h
  · decide
  · decide

theorem isDigit_iff : isDigit radix c ↔ ∃ value, letterValue c = some value ∧ value < radix := by
  rw [isDigit, digitValue, isSome_iff_exists]
  simp

theorem isDigit_mono (h : isDigit 10 c) : isDigit 16 c := by
  obtain ⟨value, hvl, hten⟩ := isDigit_iff.mp h
  exact isDigit_iff.mpr ⟨value, hvl, by omega⟩

theorem readNumber_taken {maxDigits bound : ℕ} {allowZero : Bool} {n : Fin bound}
    (h : readNumber radix maxDigits bound allowZero cs = some (n, rest)) :
    Taken (fun c => isDigit radix c) cs rest := by
  rw [readNumber] at h
  split_ifs at h
  cases h
  refine ⟨cs.takeWhile (isDigit radix), (takeWhile_append_dropWhile).symm, ?_⟩
  intro c hc
  exact mem_takeWhile_imp hc

theorem Taken.mono {Q : Char → Prop} (hPQ : ∀ c, P c → Q c) (h : Taken P cs rest) :
    Taken Q cs rest := by
  obtain ⟨front, hfr, hall⟩ := h
  exact ⟨front, hfr, fun c hc => hPQ c (hall c hc)⟩

theorem readGivenChar_taken (hc : P c) (h : readGivenChar c cs = some rest) : Taken P cs rest := by
  cases cs with
  | nil => cases h
  | cons d cs =>
    rw [readGivenChar] at h
    split_ifs at h with hd
    cases h
    exact ⟨[d], rfl, fun e he => by rw [mem_singleton.mp he, hd]; exact hc⟩

theorem separated_taken {α : Type} {sep : Char} (hsp : P sep)
    {read : List Char → Option (α × List Char)}
    (hrd : ∀ cs a rest, read cs = some (a, rest) → Taken P cs rest) {a : α}
    (h : (readSeparator sep first cs).bind read = some (a, rest)) : Taken P cs rest := by
  obtain ⟨mid, hmid, hrs⟩ := bind_eq_some_iff.mp h
  refine Taken.trans ?_ (hrd mid a rest hrs)
  rw [readSeparator] at hmid
  split_ifs at hmid
  · cases hmid
    exact Taken.refl cs
  · exact readGivenChar_taken hsp hmid

theorem readOctet_taken {n : Fin 256} (h : readOctet first cs = some (n, rest)) :
    Taken AddressChar cs rest := by
  refine separated_taken (.inr (.inl rfl)) ?_ h
  intro cs a rest hnum
  exact (readNumber_taken hnum).mono fun c hc => .inl (isDigit_mono hc)

theorem readIpv4_taken {address : Ipv4} (h : readIpv4 cs = some (address, rest)) :
    Taken AddressChar cs rest := by
  rw [readIpv4] at h
  obtain ⟨⟨a, csa⟩, ha, h⟩ := bind_eq_some_iff.mp h
  obtain ⟨⟨b, csb⟩, hb, h⟩ := bind_eq_some_iff.mp h
  obtain ⟨⟨c, csc⟩, hc, h⟩ := bind_eq_some_iff.mp h
  obtain ⟨⟨d, csd⟩, hd, h⟩ := bind_eq_some_iff.mp h
  cases h
  exact (readOctet_taken ha).trans ((readOctet_taken hb).trans ((readOctet_taken hc).trans
    (readOctet_taken hd)))

theorem readGroups_taken (limit : ℕ) (first : Bool) (cs : List Char) :
    Taken AddressChar cs (readGroups limit first cs).2.2 := by
  induction limit generalizing first cs with
  | zero => exact Taken.refl cs
  | succ limit ih =>
    rw [readGroups]
    split
    · rename_i address rest hrd
      split_ifs at hrd
      exact separated_taken (.inr (.inr rfl)) (fun _ _ _ => readIpv4_taken) hrd
    split
    · exact Taken.refl cs
    rename_i group rest hrd
    refine Taken.trans ?_ (ih false rest)
    refine separated_taken (.inr (.inr rfl)) ?_ hrd
    intro cs a rest hnum
    exact (readNumber_taken hnum).mono fun c hc => .inl hc

theorem readIpv6_taken (h : readIpv6 cs = some (groups, rest)) : Taken AddressChar cs rest := by
  have hhd := readGroups_taken 8 true cs
  rw [readIpv6] at h
  generalize readGroups 8 true cs = head at h hhd
  dsimp only at h
  split_ifs at h with hlen hem
  · cases h
    exact hhd
  cases hcolons : (readGivenChar ':' head.2.2).bind (readGivenChar ':') with
  | none => simp [hcolons] at h
  | some mid =>
    simp only [hcolons] at h
    obtain ⟨colon, hfr, hsec⟩ := bind_eq_some_iff.mp hcolons
    have htl := readGroups_taken (7 - head.1.length) true mid
    cases h
    exact hhd.trans ((readGivenChar_taken (.inr (.inr rfl)) hfr).trans
      ((readGivenChar_taken (.inr (.inr rfl)) hsec).trans htl))

theorem parseIpv4_chars {address : Ipv4} (h : parseIpv4 text = some address) :
    ∀ c ∈ text, AddressChar c := by
  rw [parseIpv4] at h
  split_ifs at h
  cases hrd : readIpv4 text with
  | none => simp [hrd] at h
  | some read =>
    obtain ⟨address', rest⟩ := read
    cases rest with
    | cons c rest => simp [hrd] at h
    | nil => exact (readIpv4_taken hrd).whole

theorem parseIpv6_chars (h : parseIpv6 text = some groups) : ∀ c ∈ text, AddressChar c := by
  rw [parseIpv6] at h
  cases hrd : readIpv6 text with
  | none => simp [hrd] at h
  | some read =>
    obtain ⟨groups', rest⟩ := read
    cases rest with
    | cons c rest => simp [hrd] at h
    | nil => exact (readIpv6_taken hrd).whole

theorem hexadecimal_chars {g : Group} : ∀ c ∈ hexadecimal g, AddressChar c := by
  intro c hc
  obtain ⟨d, hd, rfl⟩ := Text.mem_toDigits (by omega) hc
  refine .inl ?_
  interval_cases d <;> decide

theorem joinGroups_chars : ∀ c ∈ joinGroups groups, AddressChar c := by
  induction groups with
  | nil => exact fun c hc => absurd hc not_mem_nil
  | cons g groups ih =>
    cases groups with
    | nil => exact hexadecimal_chars
    | cons next groups =>
      intro c hc
      rw [joinGroups, mem_append, mem_cons] at hc
      rcases hc with hc | rfl | hc
      · exact hexadecimal_chars c hc
      · exact .inr (.inr rfl)
      · exact ih c hc
      · exact cons_ne_nil next groups

theorem ipv6Text_chars (address : Ipv6) : ∀ c ∈ ipv6Text address, AddressChar c := by
  rw [ipv6Text]
  split_ifs
  · exact joinGroups_chars
  intro c hc
  rw [mem_append, mem_cons, mem_cons] at hc
  rcases hc with hc | rfl | rfl | hc
  · exact joinGroups_chars c hc
  · exact .inr (.inr rfl)
  · exact .inr (.inr rfl)
  · exact joinGroups_chars c hc

theorem longestZeros_mapped {x y : Group} :
    longestZeros 0 [0, 0, 0, 0, 0, 65535, x, y] = (0, 5) := by
  by_cases hx : x = 0
  · by_cases hy : y = 0
    · subst hx hy
      decide
    · simp [longestZeros, hx, hy]
  · by_cases hy : y = 0
    · simp [longestZeros, hx, hy]
    · simp [longestZeros, hx, hy]

theorem ipv6Text_mapped : ∃ rest, ipv6Text (.mapped address) =
      ':' :: ':' :: 'f' :: 'f' :: 'f' :: 'f' :: ':' :: rest := by
  have hrun : longestZeros 0 (Ipv6.mapped address).groups = (0, 5) := longestZeros_mapped
  refine ⟨joinGroups address.pair, ?_⟩
  rw [ipv6Text, hrun]
  rfl

theorem readNumber_not_digit {maxDigits bound : ℕ} {allowZero : Bool} (h : isDigit radix c = false)
    : readNumber radix maxDigits bound allowZero (c :: rest) = none := by
  have hdg : (c :: rest).takeWhile (isDigit radix) = [] := by
    rw [takeWhile_cons, h]
    rfl
  rw [readNumber, if_pos (.inl hdg)]

theorem readIpv4_not_digit (h : isDigit 10 c = false) : readIpv4 (c :: rest) = none := by
  have hfr : readOctet true (c :: rest) = none := readNumber_not_digit h
  rw [readIpv4, hfr]
  rfl

theorem readGroups_first {limit : ℕ} (h : isDigit 10 c = false) : readGroups (limit + 1)
    true (c :: cs) =
      match readNumber 16 4 65536 true (c :: cs) with
      | none => ([], false, c :: cs)
      | some (group, rest) =>
        (group :: (readGroups limit false rest).1, (readGroups limit false rest).2) := by
  have hem : (if 0 < limit then (readSeparator ':' true (c :: cs)).bind readIpv4 else none) =
      none := by
    split_ifs
    · exact readIpv4_not_digit h
    · rfl
  rw [readGroups, hem]
  rfl

theorem readIpv6_colons : readIpv6 (':' :: ':' :: rest) = some (readTail [] rest) := by
  have hhd : readGroups 8 true (':' :: ':' :: rest) = ([], false, ':' :: ':' :: rest) := by
    rw [readGroups_first (by decide), readNumber_not_digit (by decide)]
  rw [readIpv6, hhd]
  rfl

theorem readIpv6_marked
    (h : readIpv6 (':' :: ':' :: 'f' :: 'f' :: 'f' :: 'f' :: ':' :: rest) = some (groups, left)) :
    65535 ∈ groups := by
  have hnum : readNumber 16 4 65536 true ('f' :: 'f' :: 'f' :: 'f' :: ':' :: rest) =
      some (65535, ':' :: rest) := rfl
  have hgo : (readGroups 7 true ('f' :: 'f' :: 'f' :: 'f' :: ':' :: rest)).1 =
      65535 :: (readGroups 6 false (':' :: rest)).1 := by
    rw [readGroups_first (by decide), hnum]
  rw [readIpv6_colons, Option.some.injEq] at h
  have hgr := congrArg Prod.fst h
  rw [readTail] at hgr
  dsimp only [length_nil] at hgr
  rw [hgo] at hgr
  simp [← hgr]

theorem parseIpv6_loopback {address : Ipv6} (h : address.groups = loopbackGroups) :
    parseIpv6 (ipv6Text address) = some loopbackGroups := by
  have hrun : longestZeros 0 loopbackGroups = (0, 7) := by decide
  rw [ipv6Text, h, hrun]
  decide +kernel

theorem parseIpv4_colon (rest : List Char) : parseIpv4 (':' :: rest) = none := by
  rw [parseIpv4, readIpv4_not_digit (by decide)]
  split_ifs <;> rfl

theorem parseIpv6_mapped : parseIpv6 (ipv6Text (.mapped address)) ≠ some loopbackGroups := by
  obtain ⟨rest, htx⟩ := ipv6Text_mapped address
  intro h
  rw [htx, parseIpv6] at h
  generalize hrd : readIpv6 (':' :: ':' :: 'f' :: 'f' :: 'f' :: 'f' :: ':' :: rest) = read at h
  cases read with
  | none => cases h
  | some read =>
    obtain ⟨groups, left⟩ := read
    have hmr := readIpv6_marked hrd
    cases left with
    | cons c left => cases h
    | nil =>
      cases h
      exact absurd hmr (by decide)

end IpAddress
