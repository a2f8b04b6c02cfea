import DshDesktop.Daemon.Timestamp
import DshDesktop.Library.Binary64

/-!
# Usage records

The record type of `usage.rs`, what `record_at` accepts and the text of its dates.
-/

namespace DshDesktop.Shell.Usage
open Text Daemon

def schemaVersion : ℕ := 1
def recordsCap : ℕ := 4096
def maxSourceChars : ℕ := 64
def sourceTerminal : String := "terminal"
def sourceRuntime : String := "runtime"
def sourceDsh : String := "dsh"
def runtimeEndStates : List String := ["stopped", "crashed", "safe_stop"]

structure UsagePeriod where
  start : String
  ends : String

structure UsageRecord where
  schemaVersion : ℕ
  source : String
  period : UsagePeriod
  inputTokens : ℕ
  outputTokens : ℕ
  cacheReadTokens : Option ℕ
  cost : Option Binary64
  currency : Option String
  isEstimate : Bool
  recordedAtUnixMs : ℕ

structure RecordRequest where
  source : String
  startUnixMs : ℕ
  endUnixMs : ℕ
  inputTokens : ℕ
  outputTokens : ℕ
  isEstimate : Bool
  cost : Option Binary64
  currency : Option String

inductive UsageError
  | malformedRequest
  | storeUnavailable
  | clockUnavailable

/-- The rest of `civil_from_days`, in signed arithmetic, as both adapters also have it. -/
def civilInEra (era doe : ℤ) : ℤ × ℕ × ℕ :=
  let yoe := (doe - doe.tdiv 1460 + doe.tdiv 36524 - doe.tdiv 146096).tdiv 365
  let year := yoe + era * 400
  let doy := doe - (365 * yoe + yoe.tdiv 4 - yoe.tdiv 100)
  let mp := (5 * doy + 2).tdiv 153
  let day := (doy - (153 * mp + 2).tdiv 5 + 1).toNat
  let month := (if mp < 10 then mp + 3 else mp - 9).toNat
  (if month ≤ 2 then year + 1 else year, month, day)

def civilFromDays (days : ℤ) : ℤ × ℕ × ℕ :=
  let z := days + 719468
  let era := (if 0 ≤ z then z else z - 146096).tdiv 146097
  civilInEra era (z - era * 146097)

theorem yearOfEra_signed {n y : ℕ} (h : (n - n / 1460 + n / 36524 - n / 146096) / 365 = y) :
    ((n : ℤ) - (n : ℤ).tdiv 1460 + (n : ℤ).tdiv 36524 - (n : ℤ).tdiv 146096).tdiv 365 = y := by
  rw [Int.tdiv_eq_ediv_of_nonneg (Int.natCast_nonneg n),
    Int.tdiv_eq_ediv_of_nonneg (Int.natCast_nonneg n),
    Int.tdiv_eq_ediv_of_nonneg (Int.natCast_nonneg n), Int.tdiv_eq_ediv_of_nonneg (by omega)]
  omega

theorem dayOfYear_signed {b q r d : ℕ} (hq : q ≤ 24) (hr : r ≤ 3) :
    ((36524 * b + 1461 * q + 365 * r + d : ℕ) : ℤ) - (365 * ((100 * b + 4 * q + r : ℕ) : ℤ) +
      ((100 * b + 4 * q + r : ℕ) : ℤ).tdiv 4 - ((100 * b + 4 * q + r : ℕ) : ℤ).tdiv 100) = d := by
  rw [Int.tdiv_eq_ediv_of_nonneg (Int.natCast_nonneg _),
    Int.tdiv_eq_ediv_of_nonneg (Int.natCast_nonneg _)]
  omega

theorem month_signed {d : ℕ} :
    (if (5 * (d : ℤ) + 2).tdiv 153 < 10 then (5 * (d : ℤ) + 2).tdiv 153 + 3
        else (5 * (d : ℤ) + 2).tdiv 153 - 9).toNat =
      if d < 306 then (5 * d + 2) / 153 + 3 else (5 * d + 2) / 153 - 9 := by
  rw [Int.tdiv_eq_ediv_of_nonneg (by omega)]
  split_ifs <;> omega

theorem day_signed {d : ℕ} : ((d : ℤ) - (153 * (5 * (d : ℤ) + 2).tdiv 153 + 2).tdiv 5 + 1).toNat =
      d - (153 * ((5 * d + 2) / 153) + 2) / 5 + 1 := by
  have hmp : (5 * (d : ℤ) + 2).tdiv 153 = ((5 * d + 2) / 153 : ℕ) := by
    rw [Int.tdiv_eq_ediv_of_nonneg (by omega)]
    omega
  have hle : (153 * ((5 * d + 2) / 153) + 2) / 5 ≤ d := by omega
  rw [hmp]
  generalize (5 * d + 2) / 153 = mp at hle ⊢
  rw [Int.tdiv_eq_ediv_of_nonneg (by omega)]
  omega

theorem year_signed {d : ℕ} (hd : d ≤ 365) {y era : ℕ} :
    (if (if d < 306 then (5 * d + 2) / 153 + 3 else (5 * d + 2) / 153 - 9) ≤ 2
        then (y : ℤ) + era * 400 + 1 else (y : ℤ) + era * 400) =
      (y + era * 400 + (if d < 306 then 0 else 1) : ℕ) := by
  by_cases h : d < 306
  · rw [if_pos h, if_pos h, if_neg (by omega)]
    omega
  · rw [if_neg h, if_neg h, if_pos (by omega)]
    omega

theorem civilInEra_eq {days : ℕ} :
    civilInEra ((days + 719468) / 146097 : ℕ) ((days + 719468) % 146097 : ℕ) =
      Daemon.civilFromDays days := by
  obtain ⟨b, q, r, d, -, hq, hr, hd, hsp, hyoe, -⟩ :=
    dayOfEra_split (Nat.mod_lt (days + 719468) (by decide : 146097 > 0))
  rw [civilFromDays_of_split rfl hq hr hd hsp hyoe]
  simp only [civilInEra, yearOfEra_signed hyoe]
  simp only [hsp, dayOfYear_signed hq hr, month_signed, day_signed, year_signed hd]

theorem civilFromDays_eq {days : ℕ} : civilFromDays days = Daemon.civilFromDays days := by
  have hdoe : (days : ℤ) + 719468 - ((days + 719468) / 146097 : ℕ) * 146097 =
      ((days + 719468) % 146097 : ℕ) := by omega
  simp only [civilFromDays, era_of_nat, hdoe, civilInEra_eq]

def formatUtc (unixMs : ℕ) : String :=
  let millis := unixMs % 86400000
  let (year, month, day) := civilFromDays (unixMs / 86400000 : ℕ)
  padded 10 4 year.toNat ++ "-" ++ padded 10 2 month ++ "-" ++ padded 10 2 day ++ "T" ++
    padded 10 2 (millis / 3600000) ++ ":" ++ padded 10 2 (millis % 3600000 / 60000) ++ ":" ++
    padded 10 2 (millis % 3600000 % 60000 / 1000) ++ "." ++
    padded 10 3 (millis % 3600000 % 60000 % 1000) ++ "Z"

def isUppercaseByte (b : UInt8) : Bool := 65 ≤ b.toNat && b.toNat ≤ 90

def isValidCurrency (currency : String) : Bool :=
  (utf8Bytes currency).length = 3 && (utf8Bytes currency).all isUppercaseByte

def validate (request : RecordRequest) (now : ℕ) : Except UsageError Unit :=
  if request.source.length = 0 ∨ maxSourceChars < request.source.length then
    .error .malformedRequest
  else if request.endUnixMs < request.startUnixMs then .error .malformedRequest
  else if now < request.endUnixMs then .error .malformedRequest
  else if request.cost.any fun cost => !cost.isFinite || cost.isBelowZero then
    .error .malformedRequest
  else if request.currency.any fun currency => !isValidCurrency currency then
    .error .malformedRequest
  else .ok ()

def recordOf (request : RecordRequest) (now : ℕ) : UsageRecord :=
  { schemaVersion := schemaVersion
    source := request.source
    period := ⟨formatUtc request.startUnixMs, formatUtc request.endUnixMs⟩
    inputTokens := request.inputTokens
    outputTokens := request.outputTokens
    cacheReadTokens := none
    cost := request.cost
    currency := request.currency
    isEstimate := request.isEstimate
    recordedAtUnixMs := now }

def sessionRequest (source : String) (start ends : ℕ) : RecordRequest :=
  { source := source
    startUnixMs := start
    endUnixMs := ends
    inputTokens := 0
    outputTokens := 0
    isEstimate := true
    cost := none
    currency := none }

theorem validate_ok {req : RecordRequest} {now : ℕ} : validate req now = .ok () ↔
      (0 < req.source.length ∧ req.source.length ≤ maxSourceChars) ∧
        req.startUnixMs ≤ req.endUnixMs ∧ req.endUnixMs ≤ now ∧
        (∀ cost, req.cost = some cost → cost.isFinite ∧ cost.isBelowZero = false) ∧
        ∀ curr, req.currency = some curr → isValidCurrency curr := by
  have hct : (req.cost.any fun cost => !cost.isFinite || cost.isBelowZero) = false ↔
      ∀ cost, req.cost = some cost → cost.isFinite ∧ cost.isBelowZero = false := by
    cases req.cost with
    | none | some cost => simp
  have hcr : (req.currency.any fun curr => !isValidCurrency curr) = false ↔
      ∀ curr, req.currency = some curr → isValidCurrency curr := by
    cases req.currency with
    | none | some curr => simp
  rw [← hct, ← hcr, validate]
  split_ifs with hsrc hperiod hft hco hcur
  · simp
    omega
  · simp
    omega
  · simp
    omega
  · simp [hco]
  · simp [hcur]
  · simp [hco, hcur]
    omega

theorem validate_sessionRequest {source : String} {start ends now : ℕ}
    (hsrc : source = sourceTerminal ∨ source = sourceRuntime) (hst : start ≤ ends)
    (hen : ends ≤ now) : validate (sessionRequest source start ends) now = .ok () := by
  have hlen : 0 < source.length ∧ source.length ≤ maxSourceChars := by
    rcases hsrc with rfl | rfl
    · decide
    · decide
  refine validate_ok.mpr ⟨hlen, hst, hen, ?_, ?_⟩
  · intro cost hco
    cases hco
  · intro curr hcur
    cases hcur

end DshDesktop.Shell.Usage
