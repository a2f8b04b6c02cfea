import DshDesktop.Library.DateTime

/-!
# Clock readings, timestamps and message ids

The clock side of `crates/daemon/src/envelope.rs`. A clock reading is the duration since the
Unix epoch that the code computes first; a reading before the epoch is zero.
-/

namespace DshDesktop.Daemon
open Text List Nat

structure UnixTime where
  secs : ℕ
  nanos : ℕ
  secs_lt : secs < 2 ^ 64
  nanos_lt : nanos < 1000000000

namespace UnixTime

def epoch : UnixTime := ⟨0, 0, by decide, by decide⟩

variable (t : UnixTime)

def asNanos : ℕ := t.secs * 1000000000 + t.nanos

def subsecMillis : ℕ := t.nanos / 1000000

/-- `as_millis() as u64`, the reading of the broker's system clock. -/
def unixMs : ℕ := (t.secs * 1000 + t.subsecMillis) % 2 ^ 64

theorem asNanos_lt : t.asNanos < 16 ^ 24 := by
  have hs := t.secs_lt
  have hn := t.nanos_lt
  simp only [asNanos]
  omega

end UnixTime

def civilFromDays (days : ℤ) : ℤ × ℕ × ℕ :=
  let z := days + 719468
  let era := (if 0 ≤ z then z else z - 146096).tdiv 146097
  let doe := (z - era * 146097).toNat
  let yoe := (doe - doe / 1460 + doe / 36524 - doe / 146096) / 365
  let year := (yoe : ℤ) + era * 400
  let doy := doe - (365 * yoe + yoe / 4 - yoe / 100)
  let mp := (5 * doy + 2) / 153
  let day := doy - (153 * mp + 2) / 5 + 1
  let month := if mp < 10 then mp + 3 else mp - 9
  (if month ≤ 2 then year + 1 else year, month, day)

variable (t : UnixTime)

def nowTimestampLike : String :=
  let rem := t.secs % 86400
  let (year, month, day) := civilFromDays (t.secs / 86400 : ℕ)
  padded 10 4 year.toNat ++ "-" ++ padded 10 2 month ++ "-" ++ padded 10 2 day ++ "T" ++
    padded 10 2 (rem / 3600) ++ ":" ++ padded 10 2 (rem % 3600 / 60) ++ ":" ++
    padded 10 2 (rem % 60) ++ "." ++ padded 10 3 t.subsecMillis ++ "Z"

def isAsciiDigit (b : UInt8) : Bool := 48 ≤ b.toNat && b.toNat ≤ 57

def twoDigits (b c : UInt8) : ℕ := (b.toNat - 48) * 10 + (c.toNat - 48)

def isOffset : List UInt8 → Bool
  | [z] => z == 90 || z == 122
  | [sign, h₁, h₂, colon, m₁, m₂] =>
    (sign == 43 || sign == 45) && [h₁, h₂].all isAsciiDigit && colon == 58 &&
      [m₁, m₂].all isAsciiDigit && twoDigits h₁ h₂ ≤ 23 && twoDigits m₁ m₂ ≤ 59
  | _ => false

def isFractionAndOffset : List UInt8 → Bool
  | [] => false
  | b :: rest =>
    if b = 46 then
      (rest.takeWhile isAsciiDigit) ≠ [] && isOffset (rest.dropWhile isAsciiDigit)
    else isOffset (b :: rest)

def isRfc3339Timestamp (value : String) : Bool :=
  match utf8Bytes value with
  | y₁ :: y₂ :: y₃ :: y₄ :: dash₁ :: m₁ :: m₂ :: dash₂ :: d₁ :: d₂ :: t :: h₁ :: h₂ :: colon₁ ::
      n₁ :: n₂ :: colon₂ :: s₁ :: s₂ :: rest =>
    [y₁, y₂, y₃, y₄].all isAsciiDigit && dash₁ == 45 && [m₁, m₂].all isAsciiDigit &&
      dash₂ == 45 && [d₁, d₂].all isAsciiDigit &&
      (1 ≤ twoDigits m₁ m₂ && twoDigits m₁ m₂ ≤ 12) &&
      (1 ≤ twoDigits d₁ d₂ && twoDigits d₁ d₂ ≤ 31) &&
      (t == 84 || t == 116) && [h₁, h₂].all isAsciiDigit && colon₁ == 58 &&
      [n₁, n₂].all isAsciiDigit && colon₂ == 58 && [s₁, s₂].all isAsciiDigit &&
      (twoDigits h₁ h₂ ≤ 23 && twoDigits n₁ n₂ ≤ 59 && twoDigits s₁ s₂ ≤ 59) &&
      isFractionAndOffset rest
  | _ => false

/-- A day of a 400-year era as century, four-year cycle, year and day. Years are counted from
March, so that the last day of a long one is a 29 February. -/
theorem dayOfEra_split {doe : ℕ} (h : doe < 146097) :
    ∃ b q r d, b ≤ 3 ∧ q ≤ 24 ∧ r ≤ 3 ∧ d ≤ 365 ∧ doe = 36524 * b + 1461 * q + 365 * r + d ∧
      (doe - doe / 1460 + doe / 36524 - doe / 146096) / 365 = 100 * b + 4 * q + r ∧
      (d = 365 → r = 3 ∧ (q = 24 → b = 3)) := by
  obtain ⟨b, rest, hb, hrs, hdoe, hcent, hend⟩ : ∃ b rest, b ≤ 3 ∧ rest ≤ 36524 ∧
      doe = 36524 * b + rest ∧
      (doe / 36524 - doe / 146096 = b ∧ doe / 146096 ≤ doe / 36524) ∧ (rest = 36524 → b = 3) := by
    by_cases hlast : doe = 146096
    · exact ⟨3, 36524, by omega, by omega, by omega, by omega, by omega⟩
    · exact ⟨doe / 36524, doe % 36524, by omega, by omega, by omega, by omega, by omega⟩
  obtain ⟨q, s, hq, hs, hrs'⟩ : ∃ q s, q ≤ 24 ∧ s ≤ 1460 ∧ rest = 1461 * q + s :=
    ⟨rest / 1461, rest % 1461, by omega, by omega, by omega⟩
  -- The correction by `doe / 1460` counts the leap days passed, one too many near the cycle's end.
  obtain ⟨e, he, hlast, hlp⟩ : ∃ e, (e = 0 ∨ e = 1 ∧ 1364 ≤ s) ∧ (s = 1460 → e = 1) ∧
      doe / 1460 = 25 * b + q + e :=
    ⟨(24 * b + q + s) / 1460, by omega, by omega, by omega⟩
  have hyr : doe - doe / 1460 + doe / 36524 - doe / 146096 =
      36500 * b + 1460 * q + (s - e) := by omega
  exact ⟨b, q, (s - e) / 365, s - 365 * ((s - e) / 365), hb, hq, by omega, by omega, by omega,
    by omega, by omega⟩

theorem dayOfYear_eq {b q r d : ℕ} (hq : q ≤ 24) (hr : r ≤ 3) : 36524 * b + 1461 * q + 365 * r + d -
      (365 * (100 * b + 4 * q + r) + (100 * b + 4 * q + r) / 4 - (100 * b + 4 * q + r) / 100) =
        d := by
  omega

theorem year_lt_iff {z era b q r d : ℕ} (hb : b ≤ 3) (hq : q ≤ 24) (hr : r ≤ 3) (hd : d ≤ 365)
    (hz : z = era * 146097 + (36524 * b + 1461 * q + 365 * r + d)) :
    100 * b + 4 * q + r + era * 400 + (if d < 306 then 0 else 1) < 10000 ↔ z < 3652365 := by
  rcases lt_trichotomy era 24 with h | rfl | h
  · have hyr : 100 * b + 4 * q + r ≤ 399 := by omega
    split_ifs <;> omega
  · split_ifs <;> omega
  · split_ifs <;> omega

/-- March to January: months of 31, 30, 31, 30, 31 days, twice, and one of 31. -/
theorem day_le_daysInMonth {d y : ℕ} (hd : d < 337) : d - (153 * ((5 * d + 2) / 153) + 2) / 5 + 1 ≤
      DateTime.daysInMonth y (if (5 * d + 2) / 153 < 10 then (5 * d + 2) / 153 + 3
        else (5 * d + 2) / 153 - 9) := by
  rw [DateTime.daysInMonth]
  split_ifs <;> omega

theorem february_le_daysInMonth {era b q r d : ℕ} (hd : 337 ≤ d) (hd' : d ≤ 365)
    (hlp : d = 365 → r = 3 ∧ (q = 24 → b = 3)) (hq : q ≤ 24) :
    d - (153 * 11 + 2) / 5 + 1 ≤ DateTime.daysInMonth (100 * b + 4 * q + r + era * 400 + 1) 2 := by
  rw [DateTime.daysInMonth, if_pos rfl]
  by_cases hlast : d = 365
  · obtain ⟨hr, hcentury⟩ := hlp hlast
    have hyr : DateTime.isLeapYear (100 * b + 4 * q + r + era * 400 + 1) := by
      simp only [DateTime.isLeapYear, Bool.and_eq_true, Bool.or_eq_true, decide_eq_true_eq]
      omega
    rw [hyr, if_pos rfl]
    omega
  · split_ifs <;> omega

variable (days : ℕ)

theorem era_of_nat : (if (0 : ℤ) ≤ days + 719468 then (days : ℤ) + 719468
      else days + 719468 - 146096).tdiv 146097 = ((days + 719468) / 146097 : ℕ) := by
  rw [if_pos (by omega), Int.tdiv_eq_ediv_of_nonneg (by omega)]
  omega

theorem dayOfEra_of_nat : ((days : ℤ) + 719468 - ((days + 719468) / 146097 : ℕ) * 146097).toNat =
      (days + 719468) % 146097 := by
  omega

theorem civilFromDays_of_split {days era b q r d : ℕ}
    (he : (days + 719468) / 146097 = era) (hq : q ≤ 24) (hr : r ≤ 3) (hd : d ≤ 365)
    (hsp : (days + 719468) % 146097 = 36524 * b + 1461 * q + 365 * r + d)
    (hyoe : ((days + 719468) % 146097 - (days + 719468) % 146097 / 1460 +
      (days + 719468) % 146097 / 36524 - (days + 719468) % 146097 / 146096) / 365 =
        100 * b + 4 * q + r) :
    civilFromDays days = (((100 * b + 4 * q + r + era * 400 + (if d < 306 then 0 else 1) : ℕ) : ℤ),
        if d < 306 then (5 * d + 2) / 153 + 3 else (5 * d + 2) / 153 - 9,
        d - (153 * ((5 * d + 2) / 153) + 2) / 5 + 1) := by
  simp only [civilFromDays, era_of_nat, dayOfEra_of_nat, hyoe]
  simp only [hsp, dayOfYear_eq hq hr, he]
  have hmp : (5 * d + 2) / 153 < 10 ↔ d < 306 := by omega
  by_cases h : d < 306
  · rw [if_pos (hmp.mpr h), if_neg (by omega), if_pos h, if_pos h]
    push_cast
    rfl
  · rw [if_neg (mt hmp.mp h), if_pos (by omega), if_neg h, if_neg h]
    push_cast
    rfl

theorem civilFromDays_split :
    ∃ era b q r d, b ≤ 3 ∧ q ≤ 24 ∧ r ≤ 3 ∧ d ≤ 365 ∧ (d = 365 → r = 3 ∧ (q = 24 → b = 3)) ∧
      days + 719468 = era * 146097 + (36524 * b + 1461 * q + 365 * r + d) ∧
      civilFromDays days =
        (((100 * b + 4 * q + r + era * 400 + (if d < 306 then 0 else 1) : ℕ) : ℤ),
          if d < 306 then (5 * d + 2) / 153 + 3 else (5 * d + 2) / 153 - 9,
          d - (153 * ((5 * d + 2) / 153) + 2) / 5 + 1) := by
  obtain ⟨b, q, r, d, hb, hq, hr, hd, hsp, hyoe, hlp⟩ :=
    dayOfEra_split (mod_lt (days + 719468) (by decide : 146097 > 0))
  have hcv := civilFromDays_of_split rfl hq hr hd hsp hyoe
  have hz := (div_add_mod' (days + 719468) 146097).symm
  rw [hsp] at hz
  exact ⟨_, b, q, r, d, hb, hq, hr, hd, hlp, hz, hcv⟩

theorem civilFromDays_calendar :
    ∃ y m d : ℕ, civilFromDays days = ((y : ℤ), m, d) ∧ 1 ≤ m ∧ m ≤ 12 ∧ 1 ≤ d ∧
      d ≤ DateTime.daysInMonth y m ∧ (y < 10000 ↔ days < 2932897) := by
  obtain ⟨era, b, q, r, d, hb, hq, hr, hd, hlp, hz, hcv⟩ := civilFromDays_split days
  have hyr := year_lt_iff hb hq hr hd hz
  have hdy : days + 719468 < 3652365 ↔ days < 2932897 := by omega
  have hmp : (5 * d + 2) / 153 < 10 ↔ d < 306 := by omega
  rw [hdy] at hyr
  refine ⟨_, _, _, hcv, ?_, ?_, by omega, ?_, hyr⟩
  · split_ifs <;> omega
  · split_ifs <;> omega
  · by_cases hfb : d < 337
    · have hday := day_le_daysInMonth (d := d)
        (y := 100 * b + 4 * q + r + era * 400 + (if d < 306 then 0 else 1)) hfb
      simpa only [hmp] using hday
    · have hel : (5 * d + 2) / 153 = 11 := by omega
      rw [hel, if_neg (by omega), if_neg (by omega)]
      exact february_le_daysInMonth (by omega) hd hlp hq

theorem civilFromDays_nat :
    ∃ y m d : ℕ, civilFromDays days = ((y : ℤ), m, d) ∧ 1 ≤ m ∧ m ≤ 12 ∧ 1 ≤ d ∧ d ≤ 31 ∧
      (y < 10000 ↔ days < 2932897) := by
  obtain ⟨y, m, d, hcv, hm, hm', hd, hd', hy⟩ := civilFromDays_calendar days
  exact ⟨y, m, d, hcv, hm, hm', hd, le_trans hd' (DateTime.daysInMonth_le y m), hy⟩

theorem isAsciiDigit_digitByte {d : ℕ} (h : d < 10) : isAsciiDigit (digitByte d) := by
  simp only [isAsciiDigit, toNat_digitByte h, Bool.and_eq_true, decide_eq_true_eq]
  omega

theorem twoDigits_digitByte {n : ℕ} (h : n < 100) :
    twoDigits (digitByte (n / 10 % 10)) (digitByte (n % 10)) = n := by
  simp only [twoDigits, toNat_digitByte (mod_lt _ (by decide : 10 > 0))]
  omega

theorem isFractionAndOffset_millis {a b c : ℕ} (ha : a < 10) (hb : b < 10) (hc : c < 10) :
    isFractionAndOffset [46, digitByte a, digitByte b, digitByte c, 90] := by
  have hZ : isAsciiDigit 90 = false := rfl
  simp [isFractionAndOffset, isAsciiDigit_digitByte ha, isAsciiDigit_digitByte hb,
    isAsciiDigit_digitByte hc, hZ, isOffset]

theorem digit_ne_dash {c : Char} (h : c.isDigit) : (c.val.toUInt8 == 45) = false := by
  simp only [Char.isDigit, Bool.and_eq_true, decide_eq_true_eq, UInt32.le_iff_toNat_le] at h
  have h₁ : 48 ≤ c.val.toNat := h.1
  have h₂ : c.val.toNat ≤ 57 := h.2
  rw [beq_eq_false_iff_ne]
  intro h45
  have hby := congrArg UInt8.toNat h45
  have hmod : c.val.toNat % 256 = 45 := hby
  omega

theorem isRfc3339Timestamp_long {rest : String} {y : ℕ} (hy : 10000 ≤ y) :
    isRfc3339Timestamp (padded 10 4 y ++ rest) = false := by
  obtain ⟨c₁, c₂, c₃, c₄, c₅, cs, hdg, hdi⟩ := digits_four_long hy
  have hc₅ := digit_ne_dash (hdi c₅ (by simp [hdg]))
  have hby := utf8Bytes_padded 4 y
  rw [hdg] at hby
  simp only [isRfc3339Timestamp, utf8Bytes_append, hby, map_cons, cons_append]
  split
  · rename_i heq
    simp only [cons.injEq] at heq
    obtain ⟨-, -, -, -, h, -⟩ := heq
    simp only [← h, hc₅, Bool.and_false, Bool.false_and]
  · rfl

theorem utf8Bytes_separators : utf8Bytes "-" = [45] ∧ utf8Bytes "T" = [84] ∧
      utf8Bytes ":" = [58] ∧ utf8Bytes "." = [46] ∧ utf8Bytes "Z" = [90] :=
  ⟨rfl, rfl, rfl, rfl, rfl⟩

theorem isRfc3339Timestamp_fields {y m d h n s f : ℕ} (hy : y < 10000) (hm : 1 ≤ m ∧ m ≤ 12)
    (hd : 1 ≤ d ∧ d ≤ 31) (hh : h ≤ 23) (hn : n ≤ 59) (hs : s ≤ 59) (hf : f < 1000) :
    isRfc3339Timestamp (padded 10 4 y ++ "-" ++ padded 10 2 m ++ "-" ++ padded 10 2 d ++ "T" ++
      padded 10 2 h ++ ":" ++ padded 10 2 n ++ ":" ++ padded 10 2 s ++ "." ++
        padded 10 3 f ++ "Z") =
      true := by
  have hdg (k : ℕ) : isAsciiDigit (digitByte (k % 10)) :=
    isAsciiDigit_digitByte (mod_lt k (by decide))
  simp only [isRfc3339Timestamp, utf8Bytes_append, utf8Bytes_places 4 y (by omega),
    utf8Bytes_places 2 m (by omega), utf8Bytes_places 2 d (by omega),
    utf8Bytes_places 2 h (by omega), utf8Bytes_places 2 n (by omega),
    utf8Bytes_places 2 s (by omega), utf8Bytes_places 3 f (by omega), utf8Bytes_separators,
    places, map_cons, map_nil, cons_append, nil_append]
  simp only [all_cons, all_nil, hdg, twoDigits_digitByte (n := m) (by omega),
    twoDigits_digitByte (n := d) (by omega), twoDigits_digitByte (n := h) (by omega),
    twoDigits_digitByte (n := n) (by omega), twoDigits_digitByte (n := s) (by omega),
    isFractionAndOffset_millis (mod_lt _ (by decide : 10 > 0))
      (mod_lt _ (by decide : 10 > 0)) (mod_lt _ (by decide : 10 > 0))]
  simp [hm, hd, hh, hn, hs]

theorem isRfc3339Timestamp_now :
    isRfc3339Timestamp (nowTimestampLike t) ↔ t.secs < 253402300800 := by
  obtain ⟨y, m, d, hcv, hm, hm', hd, hd', hy⟩ := civilFromDays_nat (t.secs / 86400)
  have hsecs : t.secs / 86400 < 2932897 ↔ t.secs < 253402300800 := by omega
  have hnn := t.nanos_lt
  have hms : t.subsecMillis < 1000 := by simp only [UnixTime.subsecMillis]; omega
  rw [← hsecs, ← hy]
  simp only [nowTimestampLike, hcv, Int.toNat_natCast]
  constructor
  · intro h
    by_contra hlong
    simp only [String.append_assoc] at h
    rw [isRfc3339Timestamp_long (by omega)] at h
    exact absurd h (by decide)
  · intro hy'
    exact isRfc3339Timestamp_fields hy' ⟨hm, hm'⟩ ⟨hd, hd'⟩ (by omega) (by omega) (by omega) hms

def uniqueToken (label : String) (t : UnixTime) (counter : UInt64) : String :=
  label ++ "-" ++ padded 16 16 t.asNanos ++ "-" ++ padded 16 4 counter.toNat

def newMessageId (counter : UInt64) : String := uniqueToken "msg" t counter

def newActivationId (counter : UInt64) : String := uniqueToken "act" t counter

theorem uniqueToken_size {label : String} (h : label.utf8ByteSize = 3) (t : UnixTime)
    (ctr : UInt64) :
    25 ≤ (uniqueToken label t ctr).utf8ByteSize ∧ (uniqueToken label t ctr).utf8ByteSize ≤ 45 := by
  have hn := le_length_digits (b := 16) (by omega) 16 t.asNanos
  have hn' : (digits 16 16 t.asNanos).length ≤ 24 :=
    length_digits_le (by omega) (by omega) (by omega) t.asNanos_lt
  have hc := le_length_digits (b := 16) (by omega) 4 ctr.toNat
  have hc' : (digits 16 4 ctr.toNat).length ≤ 16 :=
    length_digits_le (by omega) (by omega) (by omega) ctr.toNat_lt
  have hds : "-".utf8ByteSize = 1 := rfl
  simp only [uniqueToken, String.utf8ByteSize_append, h, hds,
    utf8ByteSize_padded (b := 16) (by omega) (by omega)]
  omega

end DshDesktop.Daemon
