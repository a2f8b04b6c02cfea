import DshDesktop.Library.Json
import DshDesktop.Library.JsonSchema
import DshDesktop.Shell.Usage

/-!
# Usage snapshots

`snapshot_with_dsh` of `usage.rs` over the Desktop ledger and the parsed cost-meter ledger
of dsh, its JSON, the two published schemas and when a snapshot obeys them.
-/

namespace DshDesktop.Shell.Usage
open Json JsonSchema

def mapValues (members : List (String × Json)) : List Json :=
  ((members.map Prod.fst).dedup.mergeSort fun a b => decide (a ≤ b)).filterMap fun key =>
    (object members).get key

def ledgerCurrency (root : Json) : String :=
  (((root.get "config").bind (Json.get "currency")).bind readString).getD "CNY"

def ledgerDays (root : Json) : List Json :=
  match root.get "days" with
  | some (.object members) => mapValues members
  | _ => []

def daySessions (day : Json) : List Json :=
  match day.get "sessions" with
  | some (.array items) => items
  | _ => []

def ledgerSessions (root : Json) : List Json := (ledgerDays root).flatMap daySessions

def sessionAt (session : Json) : Option ℕ := (session.get "at").bind readU64

section
variable (float : String → Binary64)

def asF64 : Json → Option Binary64
  | .number (.posInt n) => some (.ofNat false n)
  | .number (.negInt n) => some (.ofNat true (n + 1))
  | .number (.float text) => some (float text)
  | _ => none

def sessionCost (session : Json) : Option Binary64 := (session.get "cost").bind (asF64 float)

def dshRecord (currency : String) (session : Json) (recordedAt : ℕ) : UsageRecord :=
  { schemaVersion := schemaVersion
    source := sourceDsh
    period := ⟨formatUtc recordedAt, formatUtc recordedAt⟩
    inputTokens := ((session.get "input").bind readU64).getD 0
    outputTokens := ((session.get "output").bind readU64).getD 0
    cacheReadTokens := (session.get "cacheRead").bind readU64
    cost := sessionCost float session
    currency := some currency
    isEstimate := false
    recordedAtUnixMs := recordedAt }

variable (since : Option ℕ)

def survives (recordedAt : ℕ) : Bool := since.all fun s => s ≤ recordedAt

def sessionRecord (currency : String) (session : Json) : Option UsageRecord :=
  match sessionAt session with
  | none => none
  | some recordedAt =>
    if survives since recordedAt then some (dshRecord float currency session recordedAt) else none

/-- `none` stands for a ledger that is missing, unreadable or not JSON. -/
def dshRecordsFromLedger : Option Json → List UsageRecord
  | none => []
  | some root => (ledgerSessions root).filterMap (sessionRecord float since (ledgerCurrency root))

end

structure UsageTotals where
  inputTokens : ℕ
  outputTokens : ℕ
  cost : Option Binary64
  currency : Option String
  estimateCount : ℕ

structure UsageSnapshot where
  schemaVersion : ℕ
  generatedAtUnixMs : ℕ
  records : List UsageRecord
  totals : UsageTotals

def saturatingAdd (a b : ℕ) : ℕ := min (a + b) (2 ^ 64 - 1)

def addCost (totals : UsageTotals) (record : UsageRecord) : UsageTotals :=
  match record.cost, totals.cost with
  | none, _ => totals
  | some cost, none => { totals with cost := some cost, currency := record.currency }
  | some cost, some total =>
    if totals.currency = record.currency then { totals with cost := some (total.add cost) }
    else totals

def aggregateStep (totals : UsageTotals) (record : UsageRecord) : UsageTotals :=
  addCost
    { totals with
      inputTokens := saturatingAdd totals.inputTokens record.inputTokens
      outputTokens := saturatingAdd totals.outputTokens record.outputTokens
      estimateCount :=
        if record.isEstimate then saturatingAdd totals.estimateCount 1 else totals.estimateCount }
    record

def aggregate (records : List UsageRecord) : UsageTotals :=
  records.foldl aggregateStep ⟨0, 0, none, none, 0⟩

def comesFirst (left right : UsageRecord) : Bool :=
  ((compare right.recordedAtUnixMs left.recordedAtUnixMs).then
    ((compare right.period.start left.period.start).then
      (compare left.source right.source))).isLE

def newestFirst (records : List UsageRecord) : List UsageRecord := records.mergeSort comesFirst

def survivors (since : Option ℕ) (records : List UsageRecord) : List UsageRecord :=
  records.filter fun r => survives since r.recordedAtUnixMs

def snapshotAtWith (desktop : List UsageRecord) (since : Option ℕ) (now : ℕ)
    (extra : List UsageRecord) : UsageSnapshot :=
  let records := newestFirst (survivors since desktop ++ survivors since extra)
  { schemaVersion := schemaVersion
    generatedAtUnixMs := now
    records := records
    totals := aggregate records }

def snapshotWithDsh (float : String → Binary64) (desktop : List UsageRecord) (dsh : Option Json)
    (since : Option ℕ) (now : ℕ) : UsageSnapshot :=
  snapshotAtWith desktop since now (dshRecordsFromLedger float since dsh)

def optionalMember (key : String) (value : Option Instance) : List (String × Instance) :=
  match value with
  | none => []
  | some v => [(key, v)]

def costValue : Binary64 → Instance
  | .finite negative units => .double negative units
  | _ => .null

def UsageRecord.toInstance (r : UsageRecord) : Instance :=
  .object
    ([("schemaVersion", .integer r.schemaVersion), ("source", .string r.source),
      ("period", .object [("start", .string r.period.start), ("end", .string r.period.ends)]),
      ("inputTokens", .integer r.inputTokens), ("outputTokens", .integer r.outputTokens)] ++
    optionalMember "cacheReadTokens" (r.cacheReadTokens.map fun n => .integer n) ++
    optionalMember "cost" (r.cost.map costValue) ++
    optionalMember "currency" (r.currency.map .string) ++
    [("isEstimate", .boolean r.isEstimate), ("recordedAtUnixMs", .integer r.recordedAtUnixMs)])

def UsageTotals.toInstance (t : UsageTotals) : Instance :=
  .object
    ([("inputTokens", .integer t.inputTokens), ("outputTokens", .integer t.outputTokens)] ++
    optionalMember "cost" (t.cost.map costValue) ++
    optionalMember "currency" (t.currency.map .string) ++
    [("estimateCount", .integer t.estimateCount)])

def UsageSnapshot.toInstance (s : UsageSnapshot) : Instance :=
  .object
    [("schemaVersion", .integer s.schemaVersion),
      ("generatedAtUnixMs", .integer s.generatedAtUnixMs),
      ("records", .array (s.records.map UsageRecord.toInstance)),
      ("totals", s.totals.toInstance)]

def currencyPattern : Pattern where
  source := "^[A-Z]\x7b3\x7d$"
  expr := Pattern.exactly (Pattern.charClass (Pattern.chars 'A' 'Z')) 3

def countSchema : Schema := allOf [isInteger, notNegative]

def costSchema : Schema := allOf [isNumber, notNegative]

def timeSchema : Schema := allOf [isString, dateTime]

def periodSchema : Schema :=
  closedObject ["start", "end"] [("start", timeSchema), ("end", timeSchema)]

def usageRecordSchema : Schema :=
  closedObject
    ["schemaVersion", "source", "period", "inputTokens", "outputTokens", "isEstimate",
      "recordedAtUnixMs"]
    [("schemaVersion", constant 1), ("source", allOf [isString, lengthBetween 1 64]),
      ("period", periodSchema), ("inputTokens", countSchema), ("outputTokens", countSchema),
      ("cacheReadTokens", countSchema), ("cost", costSchema),
      ("currency", allOf [isString, matching currencyPattern]), ("isEstimate", isBoolean),
      ("recordedAtUnixMs", countSchema)]

def totalsSchema : Schema :=
  closedObject ["inputTokens", "outputTokens", "estimateCount"]
    [("inputTokens", countSchema), ("outputTokens", countSchema), ("cost", costSchema),
      ("currency", allOf [anyOf [isString, isNull], matching currencyPattern]),
      ("estimateCount", countSchema)]

def usageSnapshotSchema : Schema :=
  closedObject ["schemaVersion", "generatedAtUnixMs", "records", "totals"]
    [("schemaVersion", constant 1), ("generatedAtUnixMs", countSchema),
      ("records", arrayOf 4096 usageRecordSchema), ("totals", totalsSchema)]

open List
variable {x total : Binary64} {records : List UsageRecord} {c : Char}

theorem countSchema_nat {n : ℕ} : countSchema (.integer n) := by
  simp [countSchema, allOf, isInteger, notNegative]

theorem costSchema_costValue : costSchema (costValue x) ↔ x.isFinite ∧ x.isBelowZero = false := by
  cases x with
  | finite neg units =>
    cases neg with
    | _ =>
      simp [costSchema, allOf, costValue, isNumber, notNegative, Binary64.isFinite,
        Binary64.isBelowZero]
  | infinite neg | nan => simp [costSchema, allOf, costValue, isNumber, Binary64.isFinite]

theorem mem_capitals : c ∈ Pattern.chars 'A' 'Z' ↔ 65 ≤ c.toNat ∧ c.toNat ≤ 90 :=
  Pattern.mem_chars (by decide)

theorem isUppercaseByte_of_capital (h : 65 ≤ c.toNat ∧ c.toNat ≤ 90) :
    c.val ≤ 127 ∧ isUppercaseByte c.val.toUInt8 := by
  have hvl : c.val.toNat = c.toNat := rfl
  have hby : c.val.toUInt8.toNat = c.toNat := by
    rw [UInt32.toNat_toUInt8, hvl]
    omega
  refine ⟨UInt32.le_iff_toNat_le.mpr ?_, ?_⟩
  · change c.toNat ≤ 127
    omega
  · simp only [isUppercaseByte, hby, Bool.and_eq_true, decide_eq_true_eq]
    exact h

theorem capital_of_isUppercaseByte (has : c.val ≤ 127)
    (h : isUppercaseByte c.val.toUInt8) : 65 ≤ c.toNat ∧ c.toNat ≤ 90 := by
  have hlow : c.val.toNat ≤ 127 := UInt32.le_iff_toNat_le.mp has
  have hvl : c.val.toNat = c.toNat := rfl
  have hby : c.val.toUInt8.toNat = c.toNat := by
    rw [UInt32.toNat_toUInt8, hvl]
    omega
  simp only [isUppercaseByte, hby, Bool.and_eq_true, decide_eq_true_eq] at h
  exact h

theorem currencyPattern_test {s : String} : currencyPattern.test s = isValidCurrency s := by
  rw [Bool.eq_iff_iff, Pattern.test, currencyPattern, Pattern.rmatch_exactly, isValidCurrency,
    Bool.and_eq_true, decide_eq_true_eq, all_eq_true]
  have htx : s = String.ofList s.toList := String.ofList_toList.symm
  constructor
  · intro h
    obtain ⟨hlen, hall⟩ := h
    have has : ∀ c ∈ s.toList, c.val ≤ 127 := fun c hc =>
      (isUppercaseByte_of_capital (mem_capitals.mp (hall c hc))).1
    rw [htx, Text.utf8Bytes_ascii has, length_map]
    refine ⟨hlen, ?_⟩
    intro b hb
    obtain ⟨c, hc, rfl⟩ := mem_map.mp hb
    exact (isUppercaseByte_of_capital (mem_capitals.mp (hall c hc))).2
  · intro h
    obtain ⟨hlen, hall⟩ := h
    have has : ∀ c ∈ s.toList, c.val ≤ 127 := by
      intro c hc
      refine Text.ascii_of_utf8EncodeChar ?_
      intro b hb
      have hcp := hall b (mem_flatMap.mpr ⟨c, hc, hb⟩)
      simp only [isUppercaseByte, Bool.and_eq_true, decide_eq_true_eq] at hcp
      omega
    rw [htx, Text.utf8Bytes_ascii has] at hlen hall
    rw [length_map] at hlen
    refine ⟨hlen, ?_⟩
    intro c hc
    exact mem_capitals.mpr (capital_of_isUppercaseByte (has c hc)
      (hall _ (mem_map.mpr ⟨c, hc, rfl⟩)))

def yearTenThousand : ℕ := 253402300800000

theorem isDateTime_formatUtc {unixMs : ℕ} :
    DateTime.isDateTime (formatUtc unixMs) ↔ unixMs < yearTenThousand := by
  obtain ⟨y, m, d, hcv, hm, hm', hd, hd', hy⟩ := Daemon.civilFromDays_calendar (unixMs / 86400000)
  have hdy : unixMs / 86400000 < 2932897 ↔ unixMs < yearTenThousand := by
    rw [yearTenThousand]
    omega
  rw [← hdy, ← hy]
  simp only [formatUtc, civilFromDays_eq, hcv, Int.toNat_natCast]
  constructor
  · intro h
    by_contra hlong
    simp only [String.append_assoc] at h
    rw [DateTime.isDateTime_long (by omega)] at h
    cases h
  · intro hyr
    exact DateTime.isDateTime_written hyr hm hm' hd hd' (by omega) (by omega) (by omega)
      (by omega)

def CostFits (cost : Option Binary64) : Prop :=
  ∀ x, cost = some x → x.isFinite = true ∧ x.isBelowZero = false

def CurrencyFits (currency : Option String) : Prop :=
  ∀ s, currency = some s → isValidCurrency s = true

theorem costFits_none : CostFits none := fun _ h => by cases h

theorem costFits_some : CostFits (some x) ↔ x.isFinite ∧ x.isBelowZero = false :=
  ⟨fun h => h x rfl, fun h y hy => by cases hy; exact h⟩

theorem currencyFits_none : CurrencyFits none := fun _ h => by cases h

theorem currencyFits_some {s : String} : CurrencyFits (some s) ↔ isValidCurrency s :=
  ⟨fun h => h s rfl, fun h t ht => by cases ht; exact h⟩

theorem periodSchema_iff {p : UsagePeriod} :
    periodSchema (.object [("start", .string p.start), ("end", .string p.ends)]) ↔
      DateTime.isDateTime p.start ∧ DateTime.isDateTime p.ends := by
  simp [periodSchema, closedObject, lookup_cons, timeSchema, allOf, isString, dateTime]

theorem usageRecordSchema_iff (r : UsageRecord) : usageRecordSchema r.toInstance ↔
      r.schemaVersion = 1 ∧ (1 ≤ r.source.length ∧ r.source.length ≤ 64) ∧
        (DateTime.isDateTime r.period.start ∧ DateTime.isDateTime r.period.ends) ∧
        CostFits r.cost ∧ CurrencyFits r.currency := by
  rw [← periodSchema_iff]
  cases hcc : r.cacheReadTokens <;> cases hco : r.cost <;> cases hcur : r.currency <;>
    simp [usageRecordSchema, UsageRecord.toInstance, closedObject, optionalMember,
      lookup_cons, hcc, hco, hcur, countSchema_nat, costSchema_costValue,
      costFits_none, costFits_some, currencyFits_none, currencyFits_some, isBoolean, allOf,
      isString, matching, constant, lengthBetween, currencyPattern_test]

theorem totalsSchema_iff (t : UsageTotals) :
    totalsSchema t.toInstance ↔ CostFits t.cost ∧ CurrencyFits t.currency := by
  cases hco : t.cost <;> cases hcur : t.currency <;>
    simp [totalsSchema, UsageTotals.toInstance, closedObject, optionalMember,
      lookup_cons, hco, hcur, countSchema_nat, costSchema_costValue,
      costFits_none, costFits_some, currencyFits_none, currencyFits_some, allOf, anyOf,
      isString, matching, currencyPattern_test]

theorem usageSnapshotSchema_iff (s : UsageSnapshot) : usageSnapshotSchema s.toInstance ↔
      s.schemaVersion = 1 ∧ s.records.length ≤ 4096 ∧
        (∀ r ∈ s.records, usageRecordSchema r.toInstance) ∧
        totalsSchema s.totals.toInstance := by
  simp only [usageSnapshotSchema, UsageSnapshot.toInstance, closedObject]
  simp [lookup_cons, countSchema_nat, constant, arrayOf_array, and_assoc]

def costsIn (currency : Option String) (records : List UsageRecord) : List Binary64 :=
  records.filterMap fun r => if r.currency = currency then r.cost else none

def runningTotal : List UsageRecord → Option Binary64
  | [] => none
  | r :: rs =>
    match r.cost with
    | none => runningTotal rs
    | some cost => some ((costsIn r.currency rs).foldl Binary64.add cost)

theorem aggregate_from {totals : UsageTotals} (h : totals.cost = some total) :
    (records.foldl aggregateStep totals).cost =
        some ((costsIn totals.currency records).foldl Binary64.add total) ∧
      (records.foldl aggregateStep totals).currency = totals.currency := by
  induction records generalizing total totals with
  | nil => exact ⟨h, rfl⟩
  | cons r rs ih =>
    rw [foldl_cons, costsIn, filterMap_cons]
    cases hco : r.cost with
    | none =>
      have hst : (aggregateStep totals r).cost = some total ∧
          (aggregateStep totals r).currency = totals.currency := by
        simp [aggregateStep, addCost, hco, h]
      rw [← hst.2, ite_self]
      exact ih hst.1
    | some cost =>
      by_cases hcur : r.currency = totals.currency
      · have hst : (aggregateStep totals r).cost = some (total.add cost) ∧
            (aggregateStep totals r).currency = totals.currency := by
          simp [aggregateStep, addCost, hco, h, hcur]
        rw [if_pos hcur, ← hst.2]
        exact ih hst.1
      have hst : (aggregateStep totals r).cost = some total ∧
          (aggregateStep totals r).currency = totals.currency := by
        simp [aggregateStep, addCost, hco, h, Ne.symm hcur]
      rw [if_neg hcur, ← hst.2]
      exact ih hst.1

theorem aggregate_cost (totals : UsageTotals) (records : List UsageRecord)
    (hco : totals.cost = none) (hcur : totals.currency = none) :
    (records.foldl aggregateStep totals).cost = runningTotal records ∧
      ((records.foldl aggregateStep totals).currency = none ∨
        ∃ r ∈ records, (records.foldl aggregateStep totals).currency = r.currency) := by
  induction records generalizing totals with
  | nil => exact ⟨hco, .inl hcur⟩
  | cons r rs ih =>
    rw [foldl_cons, runningTotal]
    cases hr : r.cost with
    | none =>
      obtain ⟨htt, hfr⟩ := ih (aggregateStep totals r)
        (by simp [aggregateStep, addCost, hr, hco])
        (by simp [aggregateStep, addCost, hr, hcur])
      refine ⟨htt, ?_⟩
      rcases hfr with hnn | ⟨r', hr', heq⟩
      · exact .inl hnn
      · exact .inr ⟨r', mem_cons_of_mem r hr', heq⟩
    | some cost =>
      have hst : (aggregateStep totals r).cost = some cost ∧
          (aggregateStep totals r).currency = r.currency := by
        simp [aggregateStep, addCost, hr, hco]
      obtain ⟨htt, hcr'⟩ := aggregate_from hst.1
      rw [hst.2] at htt hcr'
      exact ⟨htt, .inr ⟨r, mem_cons_self, hcr'⟩⟩

theorem foldl_add_nonNegative {costs : List Binary64} (htt : total.NonNegative)
    (hco : ∀ x ∈ costs, x.NonNegative) : (costs.foldl Binary64.add total).NonNegative := by
  induction costs generalizing total with
  | nil => exact htt
  | cons x xs ih =>
    exact ih (Binary64.add_nonNegative htt (hco x mem_cons_self))
      fun y hy => hco y (mem_cons_of_mem x hy)

theorem nonNegative_of_fits (h : CostFits (some x)) : x.NonNegative := by
  obtain ⟨hfn, hsg⟩ := costFits_some.mp h
  refine ⟨?_, hsg⟩
  intro hnan
  rw [hnan] at hfn
  cases hfn

theorem runningTotal_nonNegative (h : ∀ r ∈ records, CostFits r.cost)
    (htt : runningTotal records = some total) : total.NonNegative := by
  induction records with
  | nil => cases htt
  | cons r rs ih =>
    have hrs : ∀ r' ∈ rs, CostFits r'.cost := fun r' hr' => h r' (mem_cons_of_mem r hr')
    rw [runningTotal] at htt
    cases hco : r.cost with
    | none =>
      rw [hco] at htt
      exact ih hrs htt
    | some cost =>
      rw [hco] at htt
      cases htt
      refine foldl_add_nonNegative (nonNegative_of_fits ?_) ?_
      · rw [← hco]
        exact h r mem_cons_self
      · intro x hx
        obtain ⟨r', hr', hx'⟩ := mem_filterMap.mp hx
        split_ifs at hx' with heq
        refine nonNegative_of_fits ?_
        rw [← hx']
        exact hrs r' hr'

theorem totalsSchema_aggregate (h : ∀ r ∈ records, CostFits r.cost ∧ CurrencyFits r.currency) :
    totalsSchema (aggregate records).toInstance ↔
      ∀ total, runningTotal records = some total → total.isFinite := by
  obtain ⟨hco, hcur⟩ := aggregate_cost ⟨0, 0, none, none, 0⟩ records rfl rfl
  have hft : CurrencyFits (aggregate records).currency := by
    rcases hcur with hnn | ⟨r, hr, heq⟩
    · rw [aggregate, hnn]
      exact currencyFits_none
    · rw [aggregate, heq]
      exact (h r hr).2
  rw [totalsSchema_iff, aggregate, hco]
  constructor
  · intro hbt total htt
    exact (hbt.1 total htt).1
  · intro hfn
    refine ⟨?_, hft⟩
    intro total htt
    exact ⟨hfn total htt, (runningTotal_nonNegative (fun r hr => (h r hr).1) htt).2⟩

structure Entry where
  request : RecordRequest
  now : ℕ
  valid : validate request now = .ok ()

def Entry.record (e : Entry) : UsageRecord := recordOf e.request e.now

theorem usageRecordSchema_entry {e : Entry} :
    usageRecordSchema e.record.toInstance ↔ e.request.endUnixMs < yearTenThousand := by
  obtain ⟨hsrc, hperiod, -, hco, hcur⟩ := validate_ok.mp e.valid
  rw [usageRecordSchema_iff]
  constructor
  · intro h
    exact isDateTime_formatUtc.mp h.2.2.1.2
  · intro hend
    refine ⟨rfl, hsrc, ⟨?_, isDateTime_formatUtc.mpr hend⟩, hco, hcur⟩
    exact isDateTime_formatUtc.mpr (Nat.lt_of_le_of_lt hperiod hend)

section
variable (float : String → Binary64)

theorem usageRecordSchema_dsh {curr : String} {ses : Json} {rat : ℕ} :
    usageRecordSchema (dshRecord float curr ses rat).toInstance ↔
      rat < yearTenThousand ∧ isValidCurrency curr ∧ CostFits (sessionCost float ses) := by
  rw [usageRecordSchema_iff]
  constructor
  · intro h
    obtain ⟨-, -, hda, hco, hcur⟩ := h
    exact ⟨isDateTime_formatUtc.mp hda.1, currencyFits_some.mp hcur, hco⟩
  · intro h
    obtain ⟨hyr, hcur, hco⟩ := h
    have hdt := isDateTime_formatUtc.mpr hyr
    have hsrc : 1 ≤ sourceDsh.length ∧ sourceDsh.length ≤ 64 := by decide
    exact ⟨rfl, hsrc, ⟨hdt, hdt⟩, hco, currencyFits_some.mpr hcur⟩

theorem mem_dshRecords {since : Option ℕ} {dsh : Option Json} {r : UsageRecord} :
    r ∈ dshRecordsFromLedger float since dsh ↔
      ∃ root, dsh = some root ∧ ∃ ses ∈ ledgerSessions root, ∃ rat,
        sessionAt ses = some rat ∧ survives since rat ∧
          r = dshRecord float (ledgerCurrency root) ses rat := by
  cases dsh with
  | none => simp [dshRecordsFromLedger]
  | some root =>
    simp only [dshRecordsFromLedger, mem_filterMap, Option.some.injEq, exists_eq_left']
    constructor
    · intro h
      obtain ⟨ses, hss, hrec⟩ := h
      rw [sessionRecord] at hrec
      cases hat : sessionAt ses with
      | none =>
        rw [hat] at hrec
        cases hrec
      | some rat =>
        rw [hat] at hrec
        dsimp only at hrec
        split_ifs at hrec with hsr
        cases hrec
        exact ⟨ses, hss, rat, hat, hsr, rfl⟩
    · intro h
      obtain ⟨ses, hss, rat, hat, hsr, rfl⟩ := h
      refine ⟨ses, hss, ?_⟩
      rw [sessionRecord, hat]
      exact if_pos hsr

def sessionCounts (since : Option ℕ) (session : Json) : Bool :=
  (sessionAt session).any fun recordedAt => survives since recordedAt

def sessionsOf (dsh : Option Json) : List Json := dsh.elim [] ledgerSessions

theorem length_dshRecords {since : Option ℕ} {dsh : Option Json} :
    (dshRecordsFromLedger float since dsh).length =
      (sessionsOf dsh).countP (sessionCounts since) := by
  cases dsh with
  | none => rfl
  | some root =>
    rw [dshRecordsFromLedger, length_filterMap_eq_countP]
    congr 1
    funext session
    rw [sessionRecord, sessionCounts]
    cases sessionAt session with
    | none => rfl
    | some rat =>
      dsimp only [Option.any]
      cases survives since rat with
      | false | true => rfl

theorem survivors_dshRecords {since : Option ℕ} {dsh : Option Json} :
    survivors since (dshRecordsFromLedger float since dsh) =
      dshRecordsFromLedger float since dsh := by
  rw [survivors, filter_eq_self]
  intro r hr
  obtain ⟨root, -, ses, -, rat, -, hsr, rfl⟩ := (mem_dshRecords float).mp hr
  exact hsr

variable (desktop : List Entry)

def mergedRecords (dsh : Option Json) (since : Option ℕ) : List UsageRecord :=
  survivors since (desktop.map Entry.record) ++ dshRecordsFromLedger float since dsh

structure Conforms (desktop : List Entry) (dsh : Option Json) (since : Option ℕ) : Prop where
  few : desktop.countP (fun e => survives since e.now) +
    (sessionsOf dsh).countP (sessionCounts since) ≤ 4096
  entries : ∀ e ∈ desktop, survives since e.now = true → e.request.endUnixMs < yearTenThousand
  sessions : ∀ root, dsh = some root → ∀ session ∈ ledgerSessions root, ∀ recordedAt,
    sessionAt session = some recordedAt → survives since recordedAt = true →
      recordedAt < yearTenThousand ∧ isValidCurrency (ledgerCurrency root) = true ∧
        CostFits (sessionCost float session)
  bounded : ∀ total, runningTotal (newestFirst (mergedRecords float desktop dsh since)) =
    some total → total.isFinite = true

theorem merged_length {dsh : Option Json} {since : Option ℕ} :
    (mergedRecords float desktop dsh since).length =
      desktop.countP (fun e => survives since e.now) +
        (sessionsOf dsh).countP (sessionCounts since) := by
  rw [mergedRecords, length_append, length_dshRecords, survivors,
    ← countP_eq_length_filter, countP_map]
  rfl

theorem merged_valid (dsh : Option Json) (since : Option ℕ) :
    (∀ r ∈ mergedRecords float desktop dsh since, usageRecordSchema r.toInstance) ↔
      (∀ e ∈ desktop, survives since e.now → e.request.endUnixMs < yearTenThousand) ∧
      ∀ root, dsh = some root → ∀ ses ∈ ledgerSessions root, ∀ rat,
        sessionAt ses = some rat → survives since rat →
          rat < yearTenThousand ∧ isValidCurrency (ledgerCurrency root) ∧
            CostFits (sessionCost float ses) := by
  constructor
  · intro h
    refine ⟨?_, ?_⟩
    · intro e he hsr
      refine usageRecordSchema_entry.mp (h _ (mem_append_left _ ?_))
      exact mem_filter.mpr ⟨mem_map_of_mem he, hsr⟩
    · intro root hrt ses hss rat hat hsr
      refine (usageRecordSchema_dsh _).mp (h _ (mem_append_right _ ?_))
      exact (mem_dshRecords float).mpr
        ⟨root, hrt, ses, hss, rat, hat, hsr, rfl⟩
  · intro h r hr
    rcases mem_append.mp hr with hen | hdsh
    · obtain ⟨hmem, hsr⟩ := mem_filter.mp hen
      obtain ⟨e, he, rfl⟩ := mem_map.mp hmem
      exact usageRecordSchema_entry.mpr (h.1 e he hsr)
    · obtain ⟨root, hrt, ses, hss, rat, hat, hsr, rfl⟩ := (mem_dshRecords float).mp hdsh
      exact (usageRecordSchema_dsh _).mpr
        (h.2 root hrt ses hss rat hat hsr)

theorem snapshot_records (dsh : Option Json) (since : Option ℕ) (now : ℕ) :
    (snapshotWithDsh float (desktop.map Entry.record) dsh since now).records =
      newestFirst (mergedRecords float desktop dsh since) := by
  rw [snapshotWithDsh, snapshotAtWith, survivors_dshRecords]
  rfl

theorem newestFirst_perm (records : List UsageRecord) : (newestFirst records).Perm records :=
  mergeSort_perm _ _

/-- A snapshot obeys its schema exactly when few enough records survive, their times have
years of four digits, the cost-meter ledger has a proper currency and no negative cost,
and the costs do not add up to infinity. -/
theorem snapshot_valid_iff (desktop : List Entry) (dsh : Option Json) (since : Option ℕ) (now : ℕ) :
    usageSnapshotSchema
        (snapshotWithDsh float (desktop.map Entry.record) dsh since now).toInstance = true ↔
      Conforms float desktop dsh since := by
  have hrecords := snapshot_records float desktop dsh since now
  have htt : (snapshotWithDsh float (desktop.map Entry.record) dsh since now).totals =
      aggregate (newestFirst (mergedRecords float desktop dsh since)) := by
    rw [← hrecords]
    rfl
  have hperm := newestFirst_perm (mergedRecords float desktop dsh since)
  have hvalid : (∀ r ∈ newestFirst (mergedRecords float desktop dsh since),
        usageRecordSchema r.toInstance = true) ↔
      ∀ r ∈ mergedRecords float desktop dsh since, usageRecordSchema r.toInstance = true :=
    forall_congr' fun r => by rw [hperm.mem_iff]
  rw [usageSnapshotSchema_iff, hrecords, htt, hvalid, hperm.length_eq, merged_length]
  constructor
  · intro h
    obtain ⟨-, hfew, hall, hbn⟩ := h
    have hbt := (merged_valid float desktop dsh since).mp hall
    refine ⟨hfew, hbt.1, hbt.2, ?_⟩
    refine (totalsSchema_aggregate ?_).mp hbn
    intro r hr
    exact ((usageRecordSchema_iff r).mp (hvalid.mpr hall r hr)).2.2.2
  · intro h
    have hall := (merged_valid float desktop dsh since).mpr ⟨h.entries, h.sessions⟩
    refine ⟨rfl, h.few, hall, ?_⟩
    refine (totalsSchema_aggregate ?_).mpr h.bounded
    intro r hr
    exact ((usageRecordSchema_iff r).mp (hvalid.mpr hall r hr)).2.2.2

end

def lowerCaseLedger : Json :=
  .object
    [("config", .object [("currency", .string "usd")]), ("days", .object [("2026-08-01",
        .object [("sessions", .array [.object [("at", .nat 1785542400000)]])])])]

theorem lowerCaseLedger_sessions :
    ledgerSessions lowerCaseLedger = [.object [("at", .nat 1785542400000)]] := by
  simp [ledgerSessions, ledgerDays, lowerCaseLedger, mapValues, daySessions, Json.get]

theorem snapshot_of_lower_case_currency : usageSnapshotSchema
      (snapshotWithDsh (fun _ => .finite false 0) [] (some lowerCaseLedger) none
        1785542400000).toInstance = false := by
  rw [Bool.eq_false_iff]
  intro h
  have hall := ((usageSnapshotSchema_iff _).mp h).2.2.1
  have hrecords := snapshot_records (fun _ => .finite false 0) [] (some lowerCaseLedger) none
    1785542400000
  have hmem : dshRecord (fun _ => .finite false 0) "usd" (.object [("at", .nat 1785542400000)])
      1785542400000 ∈
        newestFirst (mergedRecords (fun _ => .finite false 0) [] (some lowerCaseLedger) none) := by
    refine (newestFirst_perm _).mem_iff.mpr (List.mem_append_right _ ?_)
    refine (mem_dshRecords _).mpr ⟨_, rfl, .object [("at", .nat 1785542400000)], ?_, ?_⟩
    · rw [lowerCaseLedger_sessions]
      exact List.mem_cons_self
    · exact ⟨1785542400000, rfl, rfl, rfl⟩
  rw [← hrecords] at hmem
  have hcr := ((usageRecordSchema_dsh _).mp (hall _ hmem)).2.1
  revert hcr
  decide

end DshDesktop.Shell.Usage
