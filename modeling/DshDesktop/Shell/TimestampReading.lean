import DshDesktop.Daemon.Scheduler
import DshDesktop.Shell.UsageSnapshot

/-!
# Timestamps and their readers

`days_from_civil` inverts `civil_from_days` on every day from the epoch on, and the parser
of the scheduler reads the fixed layout of `now_timestamp_like` back field by field. The
adapters write times with a copy of the conversion of day counts that floors by Euclidean
division. `parse_rfc3339_utc` of the daemon client checks fixed places of the text, reads
its fields by slicing and takes a fraction of any length. Slicing inside a character and
arithmetic that overflows end in a panic.
-/

namespace DshDesktop.Daemon
open Text Option

theorem UnixTime.subsecMillis_lt (t : UnixTime) : t.subsecMillis * 1000000 < 1000000000 := by
  have hnn := t.nanos_lt
  rw [UnixTime.subsecMillis]
  omega

def UnixTime.truncated (t : UnixTime) : UnixTime :=
  ⟨t.secs, t.subsecMillis * 1000000, t.secs_lt, t.subsecMillis_lt⟩

variable {t : UnixTime} {n : ℕ}

namespace Scheduler

theorem daysFromCivil_split {era b q r d : ℕ} (hb : b ≤ 3) (hq : q ≤ 24) (hr : r ≤ 3)
    (hd : d ≤ 365) :
    daysFromCivil ((100 * b + 4 * q + r + era * 400 + (if d < 306 then 0 else 1) : ℕ) : ℤ)
        ((if d < 306 then (5 * d + 2) / 153 + 3 else (5 * d + 2) / 153 - 9 : ℕ) : ℤ)
        ((d - (153 * ((5 * d + 2) / 153) + 2) / 5 + 1 : ℕ) : ℤ) =
      era * 146097 + (36524 * b + 1461 * q + 365 * r + d) - 719468 := by
  -- The year from March on, and the place of the month in it.
  have hyr : (if ((if d < 306 then (5 * d + 2) / 153 + 3 else (5 * d + 2) / 153 - 9 : ℕ) : ℤ) ≤ 2
      then ((100 * b + 4 * q + r + era * 400 + (if d < 306 then 0 else 1) : ℕ) : ℤ) - 1
      else ((100 * b + 4 * q + r + era * 400 + (if d < 306 then 0 else 1) : ℕ) : ℤ)) =
        ((100 * b + 4 * q + r + era * 400 : ℕ) : ℤ) := by
    by_cases h : d < 306
    · rw [if_pos h, if_pos h, if_neg (by omega), Nat.add_zero]
    · rw [if_neg h, if_neg h, if_pos (by omega)]
      omega
  have hmonth : ((if d < 306 then (5 * d + 2) / 153 + 3 else (5 * d + 2) / 153 - 9 : ℕ) : ℤ) + 9 =
      (((5 * d + 2) / 153 + (if d < 306 then 12 else 0) : ℕ) : ℤ) := by
    split_ifs <;> omega
  have hmp : (((5 * d + 2) / 153 + (if d < 306 then 12 else 0) : ℕ) : ℤ).tmod 12 =
      ((5 * d + 2) / 153 : ℕ) := by
    rw [Int.tmod_eq_emod_of_nonneg (by omega)]
    split_ifs <;> omega
  have hera : (((100 * b + 4 * q + r + era * 400 : ℕ) : ℤ)).tdiv 400 = era := by
    rw [Int.tdiv_eq_ediv_of_nonneg (by omega)]
    omega
  have hyoe : ((100 * b + 4 * q + r + era * 400 : ℕ) : ℤ) - (era : ℤ) * 400 =
      ((100 * b + 4 * q + r : ℕ) : ℤ) := by
    omega
  simp only [daysFromCivil, hyr, hmonth, hmp]
  rw [if_pos (by omega), hera, hyoe, Int.tdiv_eq_ediv_of_nonneg (by omega),
    Int.tdiv_eq_ediv_of_nonneg (by omega), Int.tdiv_eq_ediv_of_nonneg (by omega)]
  omega

theorem daysFromCivil_civilFromDays (days : ℕ) :
    daysFromCivil (civilFromDays days).1 (civilFromDays days).2.1 (civilFromDays days).2.2 =
      days := by
  obtain ⟨era, b, q, r, d, hb, hq, hr, hd, -, hz, hcv⟩ := civilFromDays_split days
  rw [hcv]
  refine (daysFromCivil_split hb hq hr hd).trans ?_
  omega

structure Stamp where
  year : ℕ
  month : ℕ
  day : ℕ
  hour : ℕ
  minute : ℕ
  second : ℕ
  millis : ℕ
  year_lt : year < 10000
  month_ok : 1 ≤ month ∧ month ≤ 12
  day_ok : 1 ≤ day ∧ day ≤ 31
  hour_le : hour ≤ 23
  minute_le : minute ≤ 59
  second_le : second ≤ 59
  millis_lt : millis < 1000

namespace Stamp

def text (z : Stamp) : String :=
  padded 10 4 z.year ++ "-" ++ padded 10 2 z.month ++ "-" ++ padded 10 2 z.day ++ "T" ++
    padded 10 2 z.hour ++ ":" ++ padded 10 2 z.minute ++ ":" ++ padded 10 2 z.second ++ "." ++
    padded 10 3 z.millis ++ "Z"

def seconds (z : Stamp) : ℤ :=
  daysFromCivil z.year z.month z.day * 86400 + z.hour * 3600 + z.minute * 60 + z.second

theorem utf8Bytes_text (z : Stamp) : utf8Bytes z.text =
      [(4, z.year, 45), (2, z.month, 45), (2, z.day, 84), (2, z.hour, 58), (2, z.minute, 58),
        (2, z.second, 46), (3, z.millis, 90)].flatMap fun (w, n, sep) =>
          (places w n).map digitByte ++ [sep] := by
  have hyr := z.year_lt
  have hmn := z.month_ok
  have hday := z.day_ok
  have hhr := z.hour_le
  have hmin := z.minute_le
  have hsec := z.second_le
  have hms := z.millis_lt
  simp [text, utf8Bytes_places 4 z.year (by omega), utf8Bytes_places 2 z.month (by omega),
    utf8Bytes_places 2 z.day (by omega), utf8Bytes_places 2 z.hour (by omega),
    utf8Bytes_places 2 z.minute (by omega), utf8Bytes_places 2 z.second (by omega),
    utf8Bytes_places 3 z.millis (by omega), utf8Bytes_separators]

end Stamp

theorem exists_stamp (ht : t.secs < 253402300800) :
    ∃ z : Stamp, nowTimestampLike t = z.text ∧ z.seconds = t.secs ∧ z.millis = t.subsecMillis := by
  obtain ⟨y, m, d, hcv, hm, hm', hd, hd', hy⟩ := civilFromDays_nat (t.secs / 86400)
  have hdy := daysFromCivil_civilFromDays (t.secs / 86400)
  rw [hcv] at hdy
  have hnn := t.nanos_lt
  have hms : t.subsecMillis < 1000 := by
    rw [UnixTime.subsecMillis]
    omega
  refine ⟨⟨y, m, d, t.secs % 86400 / 3600, t.secs % 86400 % 3600 / 60, t.secs % 86400 % 60,
    t.subsecMillis, hy.mpr (by omega), ⟨hm, hm'⟩, ⟨hd, hd'⟩, by omega, by omega, by omega,
    hms⟩, ?_, ?_, rfl⟩
  · simp only [nowTimestampLike, hcv, Int.toNat_natCast, Stamp.text]
  · simp only [Stamp.seconds, hdy]
    omega

theorem digits_digitByte {rest : List UInt8} {d value k : ℕ} (hd : d < 10)
    (hvl : value * 10 + d < 2 ^ 32) :
    Cursor.digits (k + 1) value (digitByte d :: rest) = Cursor.digits k (value * 10 + d) rest := by
  have hby : (digitByte d).toNat - 48 = d := by
    rw [toNat_digitByte hd]
    omega
  rw [Cursor.digits, hby, if_pos ⟨isAsciiDigit_digitByte hd, hvl⟩]

theorem digits_two (hn : n < 100) (rest : Cursor) :
    Cursor.digits 2 0 (digitByte (n / 10 % 10) :: digitByte (n % 10) :: rest) = some (n, rest) := by
  rw [digits_digitByte (by omega) (by omega), digits_digitByte (by omega) (by omega), Cursor.digits]
  congr 2
  omega

theorem digits_four {rest : List UInt8} (hn : n < 10000) :
    Cursor.digits 4 0 (digitByte (n / 10 / 10 / 10 % 10) :: digitByte (n / 10 / 10 % 10) ::
      digitByte (n / 10 % 10) :: digitByte (n % 10) :: rest) = some (n, rest) := by
  rw [digits_digitByte (by omega) (by omega), digits_digitByte (by omega) (by omega),
    digits_digitByte (by omega) (by omega), digits_digitByte (by omega) (by omega), Cursor.digits]
  congr 2
  omega

theorem fraction_digitByte {k scale : ℕ} {rest : List UInt8} {d : ℕ} (hd : d < 10) :
    Cursor.fraction (k + 1) scale (digitByte d :: rest) =
      (d * scale + (Cursor.fraction k (scale / 10) rest).1,
        (Cursor.fraction k (scale / 10) rest).2) := by
  have hby : (digitByte d).toNat - 48 = d := by
    rw [toNat_digitByte hd]
    omega
  rw [Cursor.fraction, if_pos (isAsciiDigit_digitByte hd), hby]

theorem millis_three (hn : n < 1000) :
    Cursor.millis [46, digitByte (n / 10 / 10 % 10), digitByte (n / 10 % 10), digitByte (n % 10),
      90] = (n, [90]) := by
  have hZ : isAsciiDigit 90 = false := rfl
  rw [Cursor.millis, if_pos rfl, fraction_digitByte (by omega), fraction_digitByte (by omega),
    fraction_digitByte (by omega)]
  simp only [Cursor.fraction, List.dropWhile_cons, hZ, Bool.false_eq_true, if_false]
  congr 1
  omega

theorem eat_self {b : UInt8} {rest : List UInt8} :
    Cursor.eat b (b :: rest) = some rest :=
  if_pos rfl

theorem checkedI64_eq {n : ℤ} (h : 0 ≤ n) (h' : n < 2 ^ 63) : checkedI64 n = some n := by
  rw [checkedI64, if_pos ⟨by omega, h'⟩]

theorem parseRfc3339_text (z : Stamp) (hz : 0 ≤ z.seconds) (hend : z.seconds < 253402300800) :
    parseRfc3339 z.text = ofMillis (z.seconds * 1000 + z.millis) := by
  have hmo := z.month_ok
  have hday := z.day_ok
  have hho := z.hour_le
  have hmin := z.minute_le
  have hsec := z.second_le
  have hms := z.millis_lt
  have hof : Cursor.offset [90] = some (0, []) := rfl
  have hmonthDigits := digits_two (n := z.month) (by omega)
  have hdy := digits_two (n := z.day) (by omega)
  have hhr := digits_two (n := z.hour) (by omega)
  have hmi := digits_two (n := z.minute) (by omega)
  have hsecondDigits := digits_two (n := z.second) (by omega)
  rw [parseRfc3339, Stamp.utf8Bytes_text]
  simp only [bind_eq_bind, List.flatMap_cons, List.flatMap_nil, places,
    List.map_cons, List.map_nil, List.cons_append, List.nil_append, List.append_nil]
  rw [digits_four z.year_lt, bind_some, eat_self, bind_some, hmonthDigits,
    bind_some, eat_self, bind_some, hdy, bind_some, eat_self,
    bind_some, hhr, bind_some, eat_self, bind_some, hmi,
    bind_some, eat_self, bind_some, hsecondDigits, bind_some]
  rw [millis_three hms, hof, bind_some]
  rw [if_neg (by simp), if_neg (by omega), Int.sub_zero]
  have hse : daysFromCivil z.year z.month z.day * 86400 + (z.hour : ℤ) * 3600 +
      (z.minute : ℤ) * 60 + (z.second : ℤ) = z.seconds := rfl
  rw [hse, checkedI64_eq (by omega) (by omega), bind_some,
    checkedI64_eq (by omega) (by omega), bind_some]

theorem ofMillis_truncated (ht : t.secs < 253402300800) :
    ofMillis ((t.secs : ℤ) * 1000 + t.subsecMillis) = some t.truncated := by
  have hnn := t.nanos_lt
  have hml : t.subsecMillis < 1000 := by
    rw [UnixTime.subsecMillis]
    omega
  have hms : ((t.secs : ℤ) * 1000 + t.subsecMillis).toNat = t.secs * 1000 + t.subsecMillis := by
    omega
  rw [ofMillis, dif_pos (by omega)]
  simp only [hms, UnixTime.truncated, Option.some.injEq, UnixTime.mk.injEq]
  omega

theorem parseRfc3339_now (ht : t.secs < 253402300800) :
    parseRfc3339 (nowTimestampLike t) = some t.truncated := by
  obtain ⟨z, htx, hsecs, hms⟩ := exists_stamp ht
  rw [htx, parseRfc3339_text z (by omega) (by omega), hsecs, hms, ofMillis_truncated ht]

end Scheduler
end DshDesktop.Daemon

namespace DshDesktop.Adapter
open Text Daemon

def civilFromDays (days : ℤ) : ℤ × ℕ × ℕ :=
  Shell.Usage.civilInEra ((days + 719468) / 146097) ((days + 719468) % 146097)

def stampOf (year : ℤ) (month day hour minute second millis : ℕ) : String :=
  padded 10 4 year.toNat ++ "-" ++ padded 10 2 month ++ "-" ++ padded 10 2 day ++ "T" ++
    padded 10 2 hour ++ ":" ++ padded 10 2 minute ++ ":" ++ padded 10 2 second ++ "." ++
    padded 10 3 millis ++ "Z"

/-- A day count that is no `i64` is taken as zero. -/
def unixMsToRfc3339 (unixMs : ℕ) : String :=
  let days := unixMs / 86400000
  let rem := unixMs % 86400000
  let (year, month, day) := civilFromDays (if days < 2 ^ 63 then days else 0 : ℕ)
  stampOf year month day (rem / 3600000) (rem / 60000 % 60) (rem / 1000 % 60) (rem % 1000)

def rfc3339At (secs millis : ℕ) : String :=
  let secsOfDay := secs % 86400
  let (year, month, day) := civilFromDays (secs / 86400 : ℕ)
  stampOf year month day (secsOfDay / 3600) (secsOfDay % 3600 / 60) (secsOfDay % 60) millis

theorem era_signed {days : ℕ} : ((days : ℤ) + 719468) / 146097 = ((days + 719468) / 146097 : ℕ) ∧
      ((days : ℤ) + 719468) % 146097 = ((days + 719468) % 146097 : ℕ) := by
  omega

theorem civilFromDays_eq {days : ℕ} : civilFromDays days = Daemon.civilFromDays days := by
  rw [civilFromDays, era_signed.1, era_signed.2, Shell.Usage.civilInEra_eq]

theorem formatters_agree (t : UnixTime) (h : t.secs * 1000 + t.subsecMillis < 2 ^ 64) :
    Shell.Usage.formatUtc (t.secs * 1000 + t.subsecMillis) = nowTimestampLike t ∧
      unixMsToRfc3339 (t.secs * 1000 + t.subsecMillis) = nowTimestampLike t ∧
      rfc3339At t.secs t.subsecMillis = nowTimestampLike t := by
  have hnn := t.nanos_lt
  have hml : t.subsecMillis < 1000 := by
    rw [UnixTime.subsecMillis]
    omega
  generalize hms : t.secs * 1000 + t.subsecMillis = ms at h
  have hdy : ms / 86400000 = t.secs / 86400 := by omega
  have hhr : ms % 86400000 / 3600000 = t.secs % 86400 / 3600 := by omega
  refine ⟨?_, ?_, ?_⟩
  · rw [Shell.Usage.formatUtc, Shell.Usage.civilFromDays_eq, nowTimestampLike, hdy, hhr]
    have hmin : ms % 86400000 % 3600000 / 60000 = t.secs % 86400 % 3600 / 60 := by omega
    have hsec : ms % 86400000 % 3600000 % 60000 / 1000 = t.secs % 86400 % 60 := by omega
    have hrs : ms % 86400000 % 3600000 % 60000 % 1000 = t.subsecMillis := by omega
    rw [hmin, hsec, hrs]
  · have hmin : ms % 86400000 / 60000 % 60 = t.secs % 86400 % 3600 / 60 := by omega
    have hsec : ms % 86400000 / 1000 % 60 = t.secs % 86400 % 60 := by omega
    have hrs : ms % 86400000 % 1000 = t.subsecMillis := by omega
    rw [unixMsToRfc3339, if_pos (by omega), civilFromDays_eq, nowTimestampLike, hdy, hhr,
      hmin, hsec, hrs]
    rfl
  · rw [rfc3339At, civilFromDays_eq, nowTimestampLike]
    rfl

end DshDesktop.Adapter

namespace DshDesktop.Shell.TimestampReading
open Text Daemon Daemon.Scheduler List

inductive ReadFailure
  | notUtcTimestamp (value : String)
  | panicked

def isCharBoundary (bytes : List UInt8) (i : ℕ) : Bool :=
  i == bytes.length || (bytes[i]?).any fun b => !(128 ≤ b.toNat && b.toNat < 192)

def digitsValue (bytes : List UInt8) : ℕ := bytes.foldl (fun n b => 10 * n + (b.toNat - 48)) 0

section
variable (value : String)

def digit (first last : ℕ) : Except ReadFailure ℕ :=
  let bytes := utf8Bytes value
  if !(isCharBoundary bytes first && isCharBoundary bytes last) then .error .panicked
  else
    let text := (bytes.drop first).take (last - first)
    if text.all isAsciiDigit && digitsValue text < 2 ^ 64 then .ok (digitsValue text)
    else .error (.notUtcTimestamp value)

def fraction : Except ReadFailure (ℕ × ℕ) :=
  let bytes := utf8Bytes value
  if bytes[19]? = some 46 then
    let text := (bytes.drop 20).takeWhile isAsciiDigit
    if text = [] then .error (.notUtcTimestamp value)
    else
      let parsed := digitsValue text
      if 2 ^ 64 ≤ parsed then .error (.notUtcTimestamp value)
      else if 2 ^ 64 ≤ parsed * 1000 ∨ 2 ^ 64 ≤ 10 ^ text.length then .error .panicked
      else .ok (parsed * 1000 / 10 ^ text.length % 2 ^ 32, 20 + text.length)
  else .ok (0, 19)

def daysFromCivil (year month day : ℕ) : ℤ := Scheduler.daysFromCivil year month day

def epochPlus (secs nanos : ℕ) : Except ReadFailure UnixTime :=
  if h : secs + nanos / 1000000000 < 2 ^ 64 then
    .ok ⟨secs + nanos / 1000000000, nanos % 1000000000, h, Nat.mod_lt nanos (by decide)⟩
  else .error .panicked

def parseRfc3339Utc : Except ReadFailure UnixTime :=
  let bytes := utf8Bytes value
  if bytes.length < 20 ∨ bytes[10]? ≠ some 84 ∨ bytes[13]? ≠ some 58 ∨ bytes[16]? ≠ some 58 then
    .error (.notUtcTimestamp value)
  else do
    let year ← digit value 0 4
    let month ← digit value 5 7
    let day ← digit value 8 10
    let hour ← digit value 11 13
    let minute ← digit value 14 16
    let second ← digit value 17 19
    let (millis, i) ← fraction value
    if bytes[i]? ≠ some 90 ∨ i + 1 ≠ bytes.length then .error (.notUtcTimestamp value)
    else if month = 0 ∨ 12 < month ∨ day = 0 ∨ 31 < day ∨ 23 < hour ∨ 59 < minute ∨ 59 < second
    then .error (.notUtcTimestamp value)
    else
      let seconds := daysFromCivil year month day * 86400 +
        ((hour * 3600 + minute * 60 + second : ℕ) : ℤ)
      epochPlus (max seconds 0).toNat (millis * 1000000)

end

section
variable {value : String} {bytes rest : List UInt8} {c : UInt8} {ds : List ℕ} {first n w : ℕ}

theorem isCharBoundary_of_drop (h : bytes.drop first = c :: rest) (hc : c.toNat < 128) :
    isCharBoundary bytes first := by
  have hby : bytes[first]? = some c := by
    rw [← List.head?_drop, h, List.head?_cons]
  simp only [isCharBoundary, hby, Option.any_some, Bool.or_eq_true]
  right
  rw [Bool.not_eq_true', Bool.and_eq_false_iff]
  left
  exact decide_eq_false (by omega)

def numeral (ds : List ℕ) : ℕ := ds.foldl (fun n d => 10 * n + d) 0

section
variable (hds : ∀ d ∈ ds, d < 10)
include hds

theorem digitsValue_map : digitsValue (ds.map digitByte) = numeral ds := by
  rw [digitsValue, numeral, foldl_map]
  apply foldl_ext
  intro n d hd
  rw [toNat_digitByte (hds d hd)]
  omega

theorem all_isAsciiDigit_map : (ds.map digitByte).all isAsciiDigit := by
  rw [all_map, all_eq_true]
  intro d hd
  exact isAsciiDigit_digitByte (hds d hd)

theorem digit_eq (hlast : c.toNat < 128) (hsz : numeral ds < 2 ^ 64)
    (h : (utf8Bytes value).drop first = ds.map digitByte ++ c :: rest) :
    digit value first (first + ds.length) = .ok (numeral ds) := by
  have haf : (utf8Bytes value).drop (first + ds.length) = c :: rest := by
    rw [← drop_drop, h, drop_left' (length_map _)]
  have hst : isCharBoundary (utf8Bytes value) first := by
    cases ds with
    | nil => exact isCharBoundary_of_drop h hlast
    | cons d ds =>
      refine isCharBoundary_of_drop h ?_
      have hd := hds d mem_cons_self
      rw [toNat_digitByte hd]
      omega
  have htx : ((utf8Bytes value).drop first).take (first + ds.length - first) =
      ds.map digitByte := by
    rw [h, Nat.add_sub_cancel_left, take_left' (length_map _)]
  simp only [digit, hst, isCharBoundary_of_drop haf hlast, htx, digitsValue_map hds,
    all_isAsciiDigit_map hds, hsz, Bool.and_self, Bool.not_true, Bool.false_eq_true, if_false,
    decide_true, if_true]

end

theorem numeral_places (hn : n < 10 ^ w) : numeral (places w n) = n := by
  induction w generalizing n with
  | zero =>
    rw [Nat.pow_zero] at hn
    exact (Nat.lt_one_iff.mp hn).symm
  | succ w ih =>
    have hdv : numeral (places w (n / 10)) = n / 10 := ih (by omega)
    rw [numeral] at hdv
    rw [numeral, places, foldl_append, hdv, foldl_cons, foldl_nil]
    omega

theorem places_lt (w n : ℕ) : ∀ d ∈ places w n, d < 10 := by
  induction w generalizing n with
  | zero => exact nofun
  | succ w ih =>
    refine forall_mem_append.mpr ⟨ih (n / 10), forall_mem_singleton.mpr ?_⟩
    omega

theorem length_places : (places w n).length = w := by
  induction w generalizing n with
  | zero => rfl
  | succ w ih => rw [places, length_append, ih, length_singleton]

theorem digit_places (w first : ℕ) (c : UInt8) (hn : n < 10 ^ w) (hascii : c.toNat < 128)
    (hsz : n < 2 ^ 64)
    (h : (utf8Bytes value).drop first = (places w n).map digitByte ++ c :: rest) :
    digit value first (first + w) = .ok n := by
  have hdg := digit_eq (places_lt w n) hascii (by rwa [numeral_places hn]) h
  rwa [length_places, numeral_places hn] at hdg

theorem fraction_three (hn : n < 1000)
    (h : (utf8Bytes value).drop 19 = 46 :: (places 3 n).map digitByte ++ [90]) :
    fraction value = .ok (n, 23) := by
  have hdot : (utf8Bytes value)[19]? = some 46 := by
    rw [← List.head?_drop, h]
    rfl
  have hvl : digitsValue ((places 3 n).map digitByte) = n := by
    rw [digitsValue_map (places_lt 3 n), numeral_places (by omega)]
  have htx : ((utf8Bytes value).drop 20).takeWhile isAsciiDigit = (places 3 n).map digitByte := by
    have hZ : isAsciiDigit 90 = false := rfl
    have hdr : (utf8Bytes value).drop 20 = (places 3 n).map digitByte ++ [90] := by
      rw [show 20 = 19 + 1 from rfl, ← drop_drop, h]
      rfl
    rw [hdr, takeWhile_append_of_pos
      (fun b hb => all_eq_true.mp (all_isAsciiDigit_map (places_lt 3 n)) b hb),
      takeWhile_cons_of_neg (by rw [hZ]; exact Bool.false_ne_true), append_nil]
  have hlen : ((places 3 n).map digitByte).length = 3 := rfl
  have hms : n * 1000 / 10 ^ 3 % 2 ^ 32 = n := by omega
  simp only [fraction, hdot, if_true, htx, hvl, hlen, hms]
  rw [if_neg (ne_nil_of_length_eq_add_one hlen), if_neg (by omega), if_neg (by omega)]

theorem parseRfc3339Utc_text (z : Stamp) (hz : 0 ≤ z.seconds) :
    parseRfc3339Utc z.text = epochPlus z.seconds.toNat (z.millis * 1000000) := by
  have hby := z.utf8Bytes_text
  simp only [flatMap_cons, flatMap_nil, places, map_cons, map_nil, cons_append, nil_append,
    append_nil] at hby
  have hyr' := z.year_lt
  have hmo := z.month_ok
  have hday := z.day_ok
  have hho := z.hour_le
  have hmin := z.minute_le
  have hsec := z.second_le
  have hyr : digit z.text 0 4 = .ok z.year :=
    digit_places 4 0 45 z.year_lt (by decide) (by omega) (by rw [hby]; rfl)
  have hmonthField : digit z.text 5 7 = .ok z.month :=
    digit_places 2 5 45 (by omega) (by decide) (by omega) (by rw [hby]; rfl)
  have hdy : digit z.text 8 10 = .ok z.day :=
    digit_places 2 8 84 (by omega) (by decide) (by omega) (by rw [hby]; rfl)
  have hhr : digit z.text 11 13 = .ok z.hour :=
    digit_places 2 11 58 (by omega) (by decide) (by omega) (by rw [hby]; rfl)
  have hmi : digit z.text 14 16 = .ok z.minute :=
    digit_places 2 14 58 (by omega) (by decide) (by omega) (by rw [hby]; rfl)
  have hsecondField : digit z.text 17 19 = .ok z.second :=
    digit_places 2 17 46 (by omega) (by decide) (by omega) (by rw [hby]; rfl)
  have hfr : fraction z.text = .ok (z.millis, 23) := fraction_three z.millis_lt (by rw [hby]; rfl)
  have hlen : (utf8Bytes z.text).length = 24 := by rw [hby]; rfl
  have hT : (utf8Bytes z.text)[10]? = some 84 := by rw [hby]; rfl
  have hcolon : (utf8Bytes z.text)[13]? = some 58 := by rw [hby]; rfl
  have hcl' : (utf8Bytes z.text)[16]? = some 58 := by rw [hby]; rfl
  have hZ : (utf8Bytes z.text)[23]? = some 90 := by rw [hby]; rfl
  have hse : daysFromCivil z.year z.month z.day * 86400 +
      ((z.hour * 3600 + z.minute * 60 + z.second : ℕ) : ℤ) = z.seconds := by
    rw [daysFromCivil, Stamp.seconds]
    omega
  rw [parseRfc3339Utc, hlen, hT, hcolon, hcl', if_neg (by decide)]
  simp only [hyr, hmonthField, hdy, hhr, hmi, hsecondField, hfr, bind, Except.bind, hZ]
  rw [if_neg (by decide), if_neg (by omega), hse, max_eq_left hz]

theorem parseRfc3339Utc_now {t : UnixTime} (ht : t.secs < 253402300800) :
    parseRfc3339Utc (nowTimestampLike t) = .ok t.truncated := by
  obtain ⟨z, htx, hsecs, hms⟩ := exists_stamp ht
  have hnn := t.truncated.nanos_lt
  have hwh : t.subsecMillis * 1000000 / 1000000000 = 0 := Nat.div_eq_of_lt hnn
  have hrs : t.subsecMillis * 1000000 % 1000000000 = t.subsecMillis * 1000000 :=
    Nat.mod_eq_of_lt hnn
  rw [htx, parseRfc3339Utc_text z (by omega), hsecs, hms, epochPlus]
  simp only [Int.toNat_natCast, hwh, hrs, Nat.add_zero]
  rw [dif_pos t.secs_lt, UnixTime.truncated]

end

/-- From the epoch to the end of the year 9999 both parsers read the text of the daemon back
to the millisecond, and the other three formatters write the same text. -/
theorem timestamps_agree (t : UnixTime)
    (ht : t.secs * 1000 + t.subsecMillis < Usage.yearTenThousand) :
    parseRfc3339 (nowTimestampLike t) = some t.truncated ∧
      parseRfc3339Utc (nowTimestampLike t) = .ok t.truncated ∧
      Usage.formatUtc (t.secs * 1000 + t.subsecMillis) = nowTimestampLike t ∧
      Adapter.unixMsToRfc3339 (t.secs * 1000 + t.subsecMillis) = nowTimestampLike t ∧
      Adapter.rfc3339At t.secs t.subsecMillis = nowTimestampLike t := by
  rw [Usage.yearTenThousand] at ht
  have hsecs : t.secs < 253402300800 := by omega
  exact ⟨parseRfc3339_now hsecs, parseRfc3339Utc_now hsecs, Adapter.formatters_agree t (by omega)⟩

def leapDayEnd : UnixTime := ⟨951868799, 999999999, by decide, by decide⟩

theorem leapDayEnd_agrees : nowTimestampLike leapDayEnd = "2000-02-29T23:59:59.999Z" ∧
      parseRfc3339Utc "2000-02-29T23:59:59.999Z" = .ok leapDayEnd.truncated := by
  have htx : nowTimestampLike leapDayEnd = "2000-02-29T23:59:59.999Z" := by decide +kernel
  have hrd := (timestamps_agree leapDayEnd (by decide)).2.1
  exact ⟨htx, hrd⟩

end DshDesktop.Shell.TimestampReading
