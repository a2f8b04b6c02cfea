import DshDesktop.Library.Pattern
import DshDesktop.Contracts.EcmaScript

/-!
# The schema checker

`validate` of `packages/capability-contracts/src/validate.ts`. A schema node is the record
of its keywords; its subschemas are already checkers, so a `$ref` is the checker it names
and a schema document is one nested expression.
-/

namespace DshDesktop.Contracts
open Json List
variable {v : Json} {members : List (String × Json)} {items : List Json} {P : Json → Prop}

structure Issue where
  path : String
  message : String

abbrev Checker := String → Json → List Issue

inductive JsonType
  | null
  | boolean
  | integer
  | number
  | string
  | array
  | object
  deriving DecidableEq

def JsonType.name : JsonType → String
  | .null => "null"
  | .boolean => "boolean"
  | .integer => "integer"
  | .number => "number"
  | .string => "string"
  | .array => "array"
  | .object => "object"

structure Keywords where
  const : Option Json := none
  enum : Option (List Json) := none
  type : Option (List JsonType) := none
  minLength : Option ℕ := none
  maxLength : Option ℕ := none
  pattern : Option Pattern := none
  dateTime : Bool := false
  minimum : Option ℕ := none
  maximum : Option ℕ := none
  exclusiveMinimum : Option ℕ := none
  exclusiveMaximum : Option ℕ := none
  minItems : Option ℕ := none
  maxItems : Option ℕ := none
  items : Option Checker := none
  uniqueItems : Bool := false
  properties : List (String × Checker) := []
  required : List String := []
  minProperties : Option ℕ := none
  maxProperties : Option ℕ := none
  additionalProperties : Bool := true
  allOf : List Checker := []
  anyOf : List Checker := []
  oneOf : Option (List Checker) := none
  not : Option Checker := none
  onlyIf : Option Checker := none
  thenAlso : Option Checker := none
  elseAlso : Option Checker := none

section
variable (ecma : Ecma) (k : Keywords) (at_ : String)

def pushIf (condition : Bool) (message : String) : List Issue :=
  if condition then [⟨at_, message⟩] else []

def bound (keyword : Option ℕ) (fails : ℕ → Bool) (message : ℕ → String) : List Issue :=
  match keyword with
  | some n => pushIf at_ (fails n) (message n)
  | none => []

def hasType (types : List JsonType) : Json → Bool
  | .null => .null ∈ types
  | .bool _ => .boolean ∈ types
  | .number n => (.integer ∈ types && ecma.isInteger n) || .number ∈ types
  | .string _ => .string ∈ types
  | .array _ => .array ∈ types
  | .object _ => .object ∈ types

def textIssues (s : String) : List Issue :=
  bound at_ k.minLength (fun n => unitLength s < n)
    (fun n => "shorter than minLength " ++ toString n) ++
  bound at_ k.maxLength (fun n => unitLength s > n)
    (fun n => "longer than maxLength " ++ toString n) ++
  (match k.pattern with
    | some p => pushIf at_ (!p.test s) ("\"" ++ s ++ "\" does not match " ++ p.source)
    | none => []) ++
  pushIf at_ (k.dateTime && !ecma.dateParses s) ("\"" ++ s ++ "\" is not a valid date-time")

def numberIssues (n : JsonNumber) : List Issue :=
  bound at_ k.minimum (fun m => ecma.compare n m == .lt)
    (fun m => ecma.numberText n ++ " < minimum " ++ toString m) ++
  bound at_ k.maximum (fun m => ecma.compare n m == .gt)
    (fun m => ecma.numberText n ++ " > maximum " ++ toString m) ++
  bound at_ k.exclusiveMinimum (fun m => ecma.compare n m != .gt)
    (fun m => ecma.numberText n ++ " <= exclusiveMinimum " ++ toString m) ++
  bound at_ k.exclusiveMaximum (fun m => ecma.compare n m != .lt)
    (fun m => ecma.numberText n ++ " >= exclusiveMaximum " ++ toString m)

def itemKey : Json → String
  | .null => "null"
  | .bool b => if b then "true" else "false"
  | .number n => ecma.numberText n
  | .string s => s
  | v => stringify ecma v

def uniqueIssues (seen : List String) : List Json → List Issue
  | [] => []
  | v :: vs =>
    pushIf at_ (itemKey ecma v ∈ seen) "items must be unique" ++
      uniqueIssues (itemKey ecma v :: seen) vs

def itemIssues (items : List Json) : List Issue :=
  match k.items with
  | some sub => items.zipIdx.flatMap fun v => sub (at_ ++ "[" ++ toString v.2 ++ "]") v.1
  | none => []

def arrayIssues (items : List Json) : List Issue :=
  bound at_ k.minItems (fun n => items.length < n)
    (fun n => "fewer than minItems " ++ toString n) ++
  bound at_ k.maxItems (fun n => items.length > n) (fun n => "more than maxItems " ++ toString n) ++
  itemIssues k at_ items ++
  if k.uniqueItems then uniqueIssues ecma at_ [] items else []

def hasProperty (members : List (String × Json)) (key : String) : Bool :=
  key ∈ keys members || key ∈ inheritedNames

def propertyIssues (members : List (String × Json)) : List Issue :=
  k.properties.flatMap fun p =>
    match members.lookup p.1 with
    | some v => p.2 (at_ ++ "." ++ p.1) v
    | none => []

def objectIssues (members : List (String × Json)) : List Issue :=
  propertyIssues k at_ members ++
  (k.required.flatMap fun key =>
    pushIf at_ (!hasProperty members key) ("missing required \"" ++ key ++ "\"")) ++
  bound at_ k.minProperties (fun n => members.length < n)
    (fun n => "fewer than minProperties " ++ toString n) ++
  bound at_ k.maxProperties (fun n => members.length > n)
    (fun n => "more than maxProperties " ++ toString n) ++
  if k.additionalProperties then []
  else (ownKeys members).flatMap fun key =>
    pushIf at_ (key ∉ k.properties.map Prod.fst && key ∉ inheritedNames)
      ("unexpected property \"" ++ key ++ "\"")

def shapeIssues : Json → List Issue
  | .string s => textIssues ecma k at_ s
  | .number n => numberIssues ecma k at_ n
  | .array items => arrayIssues ecma k at_ items
  | .object members => objectIssues k at_ members
  | _ => []

def anyOfIssues (v : Json) : List Checker → List Issue
  | [] => []
  | [sub] => sub (at_ ++ " (anyOf)") v
  | sub :: subs => if sub (at_ ++ " (anyOf)") v = [] then [] else anyOfIssues v subs

def oneOfIssues (v : Json) : List Issue :=
  match k.oneOf with
  | none => []
  | some subs =>
    let passed := subs.countP fun sub => sub (at_ ++ " (oneOf)") v = []
    pushIf at_ (passed ≠ 1)
      ("oneOf matched " ++ toString passed ++ " branches (expected exactly 1)")

def notIssues (v : Json) : List Issue :=
  match k.not with
  | none => []
  | some sub =>
    pushIf at_ (sub (at_ ++ " (not)") v = []) "instance matches forbidden subschema (not)"

def ifIssues (v : Json) : List Issue :=
  match k.onlyIf with
  | none => []
  | some sub =>
    if sub (at_ ++ " (if)") v = [] then
      match k.thenAlso with
      | some also => also (at_ ++ " (then)") v
      | none => []
    else
      match k.elseAlso with
      | some also => also (at_ ++ " (else)") v
      | none => []

def combinedIssues (v : Json) : List Issue :=
  (k.allOf.flatMap fun sub => sub (at_ ++ " (allOf)") v) ++ anyOfIssues at_ v k.anyOf ++
    oneOfIssues k at_ v ++ notIssues k at_ v ++ ifIssues k at_ v

def enumIssues (v : Json) : List Issue :=
  match k.enum with
  | none => []
  | some values =>
    pushIf at_ (stringify ecma v ∉ values.map (stringify ecma))
      ("value " ++ stringify ecma v ++ " not in enum")

def typeIssues (v : Json) : List Issue :=
  match k.type with
  | none => []
  | some types =>
    pushIf at_ (!hasType ecma types v)
      ("expected type " ++ "/".intercalate (types.map JsonType.name) ++ ", got " ++ typeName v)

def validate (v : Json) : List Issue :=
  match k.const with
  | some value =>
    pushIf at_ (stringify ecma v ≠ stringify ecma value)
      ("expected const " ++ stringify ecma value ++ ", got " ++ stringify ecma v)
  | none =>
    enumIssues ecma k at_ v ++
      if typeIssues ecma k at_ v = [] then shapeIssues ecma k at_ v ++ combinedIssues k at_ v
      else typeIssues ecma k at_ v

end

variable {ecma : Ecma} {k : Keywords} {at_ : String}

theorem pushIf_eq_nil {cond : Bool} {message : String} :
    pushIf at_ cond message = [] ↔ cond = false := by
  cases cond <;> simp [pushIf]

theorem bound_eq_nil {keyword : Option ℕ} {fails : ℕ → Bool} {message : ℕ → String} :
    bound at_ keyword fails message = [] ↔ ∀ n ∈ keyword, fails n = false := by
  cases keyword <;> simp [bound, pushIf_eq_nil]

theorem validate_eq_nil (hconst : k.const = none) :
    validate ecma k at_ v = [] ↔ enumIssues ecma k at_ v = [] ∧ typeIssues ecma k at_ v = [] ∧
      shapeIssues ecma k at_ v = [] ∧ combinedIssues k at_ v = [] := by
  rw [validate, hconst, append_eq_nil_iff]
  refine and_congr_right fun _ => ?_
  split
  · next hty => simp [hty]
  · next hty => simp [hty]

theorem combinedIssues_plain (hall : k.allOf = []) (hany : k.anyOf = []) (hone : k.oneOf = none)
    (hnot : k.not = none) (hif : k.onlyIf = none) : combinedIssues k at_ v = [] := by
  simp [combinedIssues, hall, hany, anyOfIssues, oneOfIssues, hone, notIssues, hnot, ifIssues, hif]

theorem uniqueIssues_eq_nil {seen : List String} : uniqueIssues ecma at_ seen items = [] ↔
      (items.map (itemKey ecma)).Nodup ∧ ∀ key ∈ items.map (itemKey ecma), key ∉ seen := by
  induction items generalizing seen with
  | nil => simp [uniqueIssues]
  | cons v vs ih =>
    rw [uniqueIssues, append_eq_nil_iff, pushIf_eq_nil, ih, map_cons, nodup_cons]
    simp only [decide_eq_false_iff_not, mem_cons, not_or, forall_eq_or_imp]
    constructor
    · intro h
      obtain ⟨hv, hnd, hvs⟩ := h
      exact ⟨⟨fun hmem => (hvs _ hmem).1 rfl, hnd⟩, hv, fun key hkey => (hvs key hkey).2⟩
    · intro h
      obtain ⟨⟨hmem, hnd⟩, hv, hvs⟩ := h
      exact ⟨hv, hnd, fun key hkey => ⟨fun heq => hmem (heq ▸ hkey), hvs key hkey⟩⟩

theorem anyOfIssues_eq_nil {subs : List Checker} :
    anyOfIssues at_ v subs = [] ↔ subs = [] ∨ ∃ sub ∈ subs, sub (at_ ++ " (anyOf)") v = [] := by
  induction subs with
  | nil => simp [anyOfIssues]
  | cons sub subs ih =>
    cases subs with
    | nil => simp [anyOfIssues]
    | cons sub' subs =>
      rw [anyOfIssues]
      · split
        · next hsub => simp [hsub]
        · next hsub =>
          rw [ih]
          simp [hsub]
      · simp

def Checker.Means (c : Checker) (P : Json → Prop) : Prop := ∀ at_ v, c at_ v = [] ↔ P v

variable (ecma) {sub : Checker}

def constant (value : String) : Checker := validate ecma { const := some (.string value) }

def oneOfNames (names : List String) : Checker :=
  validate ecma { enum := some (names.map .string) }

def text (minLength maxLength : Option ℕ) : Checker :=
  validate ecma { type := some [.string], minLength := minLength, maxLength := maxLength }

def matching (pattern : Pattern) : Checker :=
  validate ecma { type := some [.string], pattern := some pattern }

def dateTime : Checker := validate ecma { type := some [.string], dateTime := true }

def integer (minimum : ℕ) : Checker :=
  validate ecma { type := some [.integer], minimum := some minimum }

def boolean : Checker := validate ecma { type := some [.boolean] }

def anyObject : Checker := validate ecma { type := some [.object] }

def listOf (items : Checker) : Checker :=
  validate ecma { type := some [.array], items := some items, uniqueItems := true }

def closedRecord (properties : List (String × Checker)) (required : List String) : Checker :=
  validate ecma
    { type := some [.object], additionalProperties := false, required := required,
      properties := properties }

theorem constant_means {value : String} (h : Plain value) :
    (constant ecma value).Means fun v => v = .string value := by
  intro at_ v
  show pushIf at_ _ _ = [] ↔ _
  rw [pushIf_eq_nil, decide_eq_false_iff_not, not_not]
  exact stringify_eq_quote h

theorem oneOfNames_means {names : List String} (h : ∀ name ∈ names, Plain name) :
    (oneOfNames ecma names).Means fun v => ∃ name ∈ names, v = .string name := by
  intro at_ v
  have hsh : shapeIssues ecma { enum := some (names.map .string) } at_ v = [] := by
    cases v <;> simp [shapeIssues, textIssues, numberIssues, arrayIssues, objectIssues, bound,
      pushIf, itemIssues, propertyIssues]
  have hen : enumIssues ecma { enum := some (names.map .string) } at_ v = [] ↔
      ∃ name ∈ names, v = .string name := by
    simp only [enumIssues, pushIf_eq_nil, decide_eq_false_iff_not, not_not, mem_map]
    constructor
    · intro hmem
      obtain ⟨_, ⟨name, hnm, rfl⟩, heq⟩ := hmem
      exact ⟨name, hnm, (stringify_eq_quote (h name hnm)).mp heq.symm⟩
    · intro hmem
      obtain ⟨name, hnm, rfl⟩ := hmem
      exact ⟨_, ⟨name, hnm, rfl⟩, rfl⟩
  rw [oneOfNames, validate_eq_nil rfl, hen, hsh, combinedIssues_plain rfl rfl rfl rfl rfl]
  simp [typeIssues]

theorem text_means (minLength maxLength : Option ℕ) :
    (text ecma minLength maxLength).Means fun v => ∃ s, v = .string s ∧
      (∀ n ∈ minLength, n ≤ unitLength s) ∧ ∀ n ∈ maxLength, unitLength s ≤ n := by
  intro at_ v
  rw [text, validate_eq_nil rfl, combinedIssues_plain rfl rfl rfl rfl rfl]
  cases v <;> simp [enumIssues, typeIssues, pushIf_eq_nil, hasType, shapeIssues, textIssues,
    bound_eq_nil]

theorem matching_means (pattern : Pattern) :
    (matching ecma pattern).Means fun v => ∃ s, v = .string s ∧ pattern.test s := by
  intro at_ v
  rw [matching, validate_eq_nil rfl, combinedIssues_plain rfl rfl rfl rfl rfl]
  cases v <;> simp [enumIssues, typeIssues, pushIf_eq_nil, hasType, shapeIssues, textIssues,
    bound_eq_nil]

theorem dateTime_means : (dateTime ecma).Means fun v => ∃ s, v = .string s ∧ ecma.dateParses s := by
  intro at_ v
  rw [dateTime, validate_eq_nil rfl, combinedIssues_plain rfl rfl rfl rfl rfl]
  cases v <;> simp [enumIssues, typeIssues, pushIf_eq_nil, hasType, shapeIssues, textIssues,
    bound_eq_nil]

theorem integer_means (minimum : ℕ) :
    (integer ecma minimum).Means fun v => ∃ n, v = .number n ∧ ecma.isInteger n ∧
      ecma.compare n minimum ≠ .lt := by
  intro at_ v
  rw [integer, validate_eq_nil rfl, combinedIssues_plain rfl rfl rfl rfl rfl]
  cases v <;> simp [enumIssues, typeIssues, pushIf_eq_nil, hasType, shapeIssues, numberIssues,
    bound_eq_nil]

theorem boolean_means : (boolean ecma).Means fun v => ∃ b, v = .bool b := by
  intro at_ v
  rw [boolean, validate_eq_nil rfl, combinedIssues_plain rfl rfl rfl rfl rfl]
  cases v <;> simp [enumIssues, typeIssues, pushIf_eq_nil, hasType, shapeIssues]

theorem anyObject_means : (anyObject ecma).Means fun v => ∃ members, v = .object members := by
  intro at_ v
  rw [anyObject, validate_eq_nil rfl, combinedIssues_plain rfl rfl rfl rfl rfl]
  cases v <;> simp [enumIssues, typeIssues, pushIf_eq_nil, hasType, shapeIssues, objectIssues,
    propertyIssues, bound_eq_nil]

theorem itemIssues_eq_nil (hsub : sub.Means P) (hk : k.items = some sub) :
    itemIssues k at_ items = [] ↔ ∀ v ∈ items, P v := by
  simp only [itemIssues, hk, flatMap_eq_nil_iff, hsub _ _]
  constructor
  · intro h v hv
    obtain ⟨i, hi⟩ := mem_iff_getElem?.mp hv
    exact h (v, i) (mem_zipIdx_iff_getElem?.mpr hi)
  · intro h v hv
    exact h v.1 (fst_mem_of_mem_zipIdx hv)

theorem listOf_means (hsub : sub.Means P) :
    (listOf ecma sub).Means fun v => ∃ items, v = .array items ∧ (∀ x ∈ items, P x) ∧
      (items.map (itemKey ecma)).Nodup := by
  intro at_ v
  rw [listOf, validate_eq_nil rfl, combinedIssues_plain rfl rfl rfl rfl rfl]
  cases v with
  | array items =>
    have hie : itemIssues { type := some [.array], items := some sub, uniqueItems := true }
        at_ items = [] ↔ ∀ x ∈ items, P x := itemIssues_eq_nil hsub rfl
    simp [enumIssues, typeIssues, pushIf_eq_nil, hasType, shapeIssues, arrayIssues, bound_eq_nil,
      hie, uniqueIssues_eq_nil]
  | _ => simp [enumIssues, typeIssues, pushIf_eq_nil, hasType]

structure RecordOk (properties : List (String × Checker)) (required : List String)
    (at_ : String) (members : List (String × Json)) : Prop where
  values : ∀ p ∈ properties, ∀ v, members.lookup p.1 = some v → p.2 (at_ ++ "." ++ p.1) v = []
  required : ∀ key ∈ required, hasProperty members key = true
  known : ∀ key ∈ keys members, key ∈ properties.map Prod.fst ∨ key ∈ inheritedNames

theorem propertyIssues_eq_nil :
    propertyIssues k at_ members = [] ↔ ∀ p ∈ k.properties, ∀ v, members.lookup p.1 = some v →
      p.2 (at_ ++ "." ++ p.1) v = [] := by
  rw [propertyIssues, flatMap_eq_nil_iff]
  refine forall₂_congr fun p _ => ?_
  cases members.lookup p.1 <;> simp

theorem objectIssues_eq_nil (hmin : k.minProperties = none) (hmax : k.maxProperties = none)
    (hsh : k.additionalProperties = false) :
    objectIssues k at_ members = [] ↔ RecordOk k.properties k.required at_ members := by
  simp only [objectIssues, append_eq_nil_iff, propertyIssues_eq_nil,
    flatMap_eq_nil_iff, pushIf_eq_nil, hmin, hmax, bound, hsh, Bool.false_eq_true,
    if_false, mem_ownKeys]
  constructor
  · intro h
    obtain ⟨⟨⟨⟨hvl, hreq⟩, _⟩, _⟩, hkn⟩ := h
    refine ⟨hvl, ?_, ?_⟩
    · intro key hkey
      simpa using hreq key hkey
    · intro key hkey
      have hin := hkn key hkey
      by_contra hnot
      rw [not_or] at hnot
      simp [hnot] at hin
  · intro h
    refine ⟨⟨⟨⟨h.values, ?_⟩, trivial⟩, trivial⟩, ?_⟩
    · intro key hkey
      simpa using h.required key hkey
    · intro key hkey
      rcases h.known key hkey with hin | hin
      · simp [hin]
      · simp [hin]

theorem closedRecord_eq_nil {props : List (String × Checker)} {rqd : List String} :
    closedRecord ecma props rqd at_ v = [] ↔
      ∃ members, v = .object members ∧ RecordOk props rqd at_ members := by
  rw [closedRecord, validate_eq_nil rfl, combinedIssues_plain rfl rfl rfl rfl rfl]
  cases v with
  | object members =>
    have hob : objectIssues
        { type := some [.object], additionalProperties := false, required := rqd,
          properties := props } at_ members = [] ↔
        RecordOk props rqd at_ members := objectIssues_eq_nil rfl rfl rfl
    simp [enumIssues, typeIssues, pushIf_eq_nil, hasType, shapeIssues, hob]
  | _ => simp [enumIssues, typeIssues, pushIf_eq_nil, hasType]

theorem hasProperty_iff {key : String} (h : key ∉ inheritedNames) :
    hasProperty members key ↔ ∃ v, members.lookup key = some v := by
  rw [← mem_keys_iff_lookup]
  simp [hasProperty, h]

end DshDesktop.Contracts
