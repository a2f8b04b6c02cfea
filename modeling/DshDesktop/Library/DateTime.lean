import DshDesktop.Library.Text

/-!
# Date-times

The `date-time` of RFC 3339, read from characters: four digits of the year, a day that the
month of that year has, the time of day, a fraction of a second if there is one and the
offset. Leap seconds are accepted without a look at the table.
-/

namespace DateTime
open Text List Option Nat

def isLeapYear (year : ℕ) : Bool := year % 4 = 0 && (year % 100 ≠ 0 || year % 400 = 0)

def daysInMonth (year month : ℕ) : ℕ :=
  if month = 2 then if isLeapYear year then 29 else 28
  else if month = 4 ∨ month = 6 ∨ month = 9 ∨ month = 11 then 30
  else 31

theorem daysInMonth_le (year month : ℕ) : daysInMonth year month ≤ 31 := by
  rw [daysInMonth]
  split_ifs <;> omega

def readDigits : ℕ → ℕ → List Char → Option (ℕ × List Char)
  | 0, value, cs => some (value, cs)
  | _ + 1, _, [] => none
  | k + 1, value, c :: cs =>
    if c.isDigit then readDigits k (10 * value + (c.toNat - 48)) cs else none

def readChar (accepted : List Char) : List Char → Option (List Char)
  | [] => none
  | c :: cs => if c ∈ accepted then some cs else none

variable (cs : List Char)

def readDate : Option (List Char) := do
  let (year, cs) ← readDigits 4 0 cs
  let cs ← readChar ['-'] cs
  let (month, cs) ← readDigits 2 0 cs
  let cs ← readChar ['-'] cs
  let (day, cs) ← readDigits 2 0 cs
  if 1 ≤ month ∧ month ≤ 12 ∧ 1 ≤ day ∧ day ≤ daysInMonth year month then some cs else none

def readFraction : List Char → Option (List Char)
  | [] => some []
  | c :: cs =>
    if c = '.' then
      if cs.takeWhile Char.isDigit = [] then none else some (cs.dropWhile Char.isDigit)
    else some (c :: cs)

def readTime : Option (List Char) := do
  let (hour, cs) ← readDigits 2 0 cs
  let cs ← readChar [':'] cs
  let (minute, cs) ← readDigits 2 0 cs
  let cs ← readChar [':'] cs
  let (second, cs) ← readDigits 2 0 cs
  if hour ≤ 23 ∧ minute ≤ 59 ∧ second ≤ 60 then readFraction cs else none

def isNumericOffset : Bool :=
  match (do
    let cs ← readChar ['+', '-'] cs
    let (hour, cs) ← readDigits 2 0 cs
    let cs ← readChar [':'] cs
    let (minute, cs) ← readDigits 2 0 cs
    some (hour, minute, cs)) with
  | some (hour, minute, rest) => hour ≤ 23 && minute ≤ 59 && rest = []
  | none => false

def isOffset : Bool := cs = ['Z'] || cs = ['z'] || isNumericOffset cs

def isDateTime (s : String) : Bool :=
  match (readDate s.toList).bind fun cs => (readChar ['T', 't'] cs).bind readTime with
  | some rest => isOffset rest
  | none => false

theorem readDigits_add (j k value : ℕ) (cs : List Char) : readDigits (j + k) value cs =
      (readDigits j value cs).bind fun read => readDigits k read.1 read.2 := by
  induction j generalizing value cs with
  | zero => rw [zero_add, readDigits, bind_some]
  | succ j ih =>
    rw [succ_add]
    cases cs with
    | nil => rfl
    | cons c cs =>
      rw [readDigits, readDigits]
      split_ifs
      · exact ih _ cs
      · rfl

theorem digitChar_value {d : ℕ} (h : d < 10) :
    (digitChar d).isDigit ∧ (digitChar d).toNat - 48 = d := by
  interval_cases d <;> decide

theorem readDigits_fixedWidth {w value n : ℕ} {rest : List Char} :
    readDigits w value (fixedWidth 10 w n ++ rest) = some (10 ^ w * value + n % 10 ^ w, rest) := by
  induction w generalizing n rest with
  | zero =>
    rw [readDigits, fixedWidth, nil_append, pow_zero, one_mul, mod_one,
      add_zero]
  | succ w ih =>
    obtain ⟨hdg, hvl⟩ := digitChar_value (mod_lt n (by decide : 10 > 0))
    rw [readDigits_add, fixedWidth, append_assoc, ih, bind_some]
    simp only [singleton_append, readDigits, hdg, hvl, if_true]
    have hpow : n % 10 ^ (w + 1) = 10 * (n / 10 % 10 ^ w) + n % 10 := by
      rw [pow_succ', mod_mul]
      omega
    rw [hpow, pow_succ']
    have hmul : 10 * 10 ^ w * value = 10 * (10 ^ w * value) := mul_assoc ..
    simp only [some.injEq, Prod.mk.injEq, and_true]
    omega

theorem readDigits_padded {rest : List Char} {w n : ℕ} (h : n < 10 ^ w) :
    readDigits w 0 ((padded 10 w n).toList ++ rest) = some (n, rest) := by
  rw [padded, String.toList_ofList, Text.digits, if_pos h, readDigits_fixedWidth, mul_zero,
    zero_add, mod_eq_of_lt h]

variable {y m d h n s f : ℕ}

theorem readDate_written {rest : List Char} (hy : y < 10000) (hm : 1 ≤ m) (hm' : m ≤ 12)
    (hd : 1 ≤ d)
    (hd' : d ≤ daysInMonth y m) :
    readDate ((padded 10 4 y).toList ++ '-' :: ((padded 10 2 m).toList ++ '-' ::
      ((padded 10 2 d).toList ++ rest))) = some rest := by
  have hyr : y < 10 ^ 4 := hy
  have hmonth : m < 10 ^ 2 := by omega
  have hday : d < 10 ^ 2 := by
    have := daysInMonth_le y m
    omega
  simp only [readDate, readDigits_padded hyr, readDigits_padded hmonth, readDigits_padded hday,
    readChar, mem_singleton, if_true, bind_eq_bind, bind_some]
  exact if_pos ⟨hm, hm', hd, hd'⟩

theorem readFraction_written (hf : f < 1000) :
    readFraction ('.' :: ((padded 10 3 f).toList ++ ['Z'])) = some ['Z'] := by
  have hth : digits 10 3 f =
      [Nat.digitChar (f / 100 % 10), Nat.digitChar (f / 10 % 10), Nat.digitChar (f % 10)] := by
    have hft : f < 10 ^ 3 := hf
    rw [Text.digits, if_pos hft]
    simp [fixedWidth, Nat.div_div_eq_div_mul]
  have hdg (k : ℕ) : (Nat.digitChar (k % 10)).isDigit :=
    (digitChar_value (Nat.mod_lt k (by decide))).1
  rw [padded, String.toList_ofList, hth]
  simp [readFraction, hdg]

theorem readTime_written (hh : h ≤ 23) (hn : n ≤ 59) (hs : s ≤ 59) (hf : f < 1000) :
    readTime ((padded 10 2 h).toList ++ ':' :: ((padded 10 2 n).toList ++ ':' ::
      ((padded 10 2 s).toList ++ '.' :: ((padded 10 3 f).toList ++ ['Z'])))) = some ['Z'] := by
  have hhr : h < 10 ^ 2 := by omega
  have hmin : n < 10 ^ 2 := by omega
  have hsec : s < 10 ^ 2 := by omega
  simp only [readTime, readDigits_padded hhr, readDigits_padded hmin,
    readDigits_padded hsec, readChar, mem_singleton, if_true, bind_eq_bind,
    bind_some]
  rw [if_pos ⟨hh, hn, by omega⟩]
  exact readFraction_written hf

theorem isDateTime_written (hy : y < 10000) (hm : 1 ≤ m) (hm' : m ≤ 12) (hd : 1 ≤ d)
    (hd' : d ≤ daysInMonth y m) (hh : h ≤ 23) (hn : n ≤ 59) (hs : s ≤ 59) (hf : f < 1000) :
    isDateTime (padded 10 4 y ++ "-" ++ padded 10 2 m ++ "-" ++ padded 10 2 d ++ "T" ++
      padded 10 2 h ++ ":" ++ padded 10 2 n ++ ":" ++ padded 10 2 s ++ "." ++ padded 10 3 f ++
        "Z") := by
  have hds : "-".toList = ['-'] := rfl
  have hT : "T".toList = ['T'] := rfl
  have hcolon : ":".toList = [':'] := rfl
  have hdot : ".".toList = ['.'] := rfl
  have hZ : "Z".toList = ['Z'] := rfl
  simp only [isDateTime, String.toList_append, hds, hT, hcolon, hdot, hZ, append_assoc,
    cons_append, nil_append]
  rw [readDate_written hy hm hm' hd hd', bind_some]
  simp only [readChar, mem_cons, true_or, if_true, bind_some]
  rw [readTime_written hh hn hs hf]
  rfl

theorem isDateTime_long (hy : 10000 ≤ y) (rest : String) :
    isDateTime (padded 10 4 y ++ rest) = false := by
  obtain ⟨c₁, c₂, c₃, c₄, c₅, cs, hdg, hdi⟩ := digits_four_long hy
  simp only [hdg, forall_mem_cons] at hdi
  obtain ⟨h₁, h₂, h₃, h₄, h₅, -⟩ := hdi
  have hds : c₅ ≠ '-' := by
    rintro rfl
    cases h₅
  simp [isDateTime, readDate, padded, hdg, readDigits, h₁, h₂, h₃, h₄, readChar, hds]

end DateTime
