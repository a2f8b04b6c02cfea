import DshDesktop.Contracts.Validate

/-!
# The schema checker against JSON Schema

Here schemas are data. `check` is `validate` of `validate.ts` with its `resolve`, one unit of
fuel for a nested call; `Valid` is JSON Schema 2020-12 for the same keywords. `Tame` is
a finite evaluation in which nothing that the checker does its own way comes up; it follows
the branches that are taken and the alternatives that are tried.
-/

namespace DshDesktop.Contracts
open Json List Prod

structure Node (α : Type) where
  ref : Option String := none
  const : Option Json := none
  enum : Option (List Json) := none
  type : Option (List JsonType) := none
  minLength : Option ℕ := none
  maxLength : Option ℕ := none
  pattern : Option Pattern := none
  dateTime : Bool := false
  minimum : Option JsonNumber := none
  maximum : Option JsonNumber := none
  exclusiveMinimum : Option JsonNumber := none
  exclusiveMaximum : Option JsonNumber := none
  minItems : Option ℕ := none
  maxItems : Option ℕ := none
  items : Option α := none
  uniqueItems : Bool := false
  properties : List (String × α) := []
  required : List String := []
  minProperties : Option ℕ := none
  maxProperties : Option ℕ := none
  additionalProperties : Option α := none
  allOf : List α := []
  anyOf : List α := []
  oneOf : Option (List α) := none
  not : Option α := none
  onlyIf : Option α := none
  thenAlso : Option α := none
  elseAlso : Option α := none

inductive Schema
  | bool (b : Bool)
  | node (k : Node Schema)

/-- What a schema is checked with. `compare` is the order of doubles, `inherited` what the
checker says of a member of `Object.prototype`, which is no JSON value, and `meaning` what
a reference means in a document. -/
structure Setting (δ : Type) where
  ecma : Ecma
  compare : JsonNumber → JsonNumber → Ordering
  inherited : Schema → String → List Issue
  defs : Option (List (String × Schema))
  registry : List (String × Schema)
  meaning : δ → String → Option (δ × Schema)

variable {δ : Type} (c : Setting δ)

section
variable (sub : Schema → Checker) (k : Node Schema) (at_ : String)

def Node.keywords : Keywords where
  enum := k.enum
  type := k.type
  minLength := k.minLength
  maxLength := k.maxLength
  pattern := k.pattern
  dateTime := k.dateTime
  minItems := k.minItems
  maxItems := k.maxItems
  items := k.items.map sub
  uniqueItems := k.uniqueItems
  oneOf := k.oneOf.map (·.map sub)
  not := k.not.map sub
  onlyIf := k.onlyIf.map sub
  thenAlso := k.thenAlso.map sub
  elseAlso := k.elseAlso.map sub

def limitIssues (n : JsonNumber) (limit : Option JsonNumber) (fails : Ordering → Bool)
    (relation : String) : List Issue :=
  limit.toList.flatMap fun m => pushIf at_ (fails (c.compare n m))
    (c.ecma.numberText n ++ relation ++ c.ecma.numberText m)

def memberIssues (members : List (String × Json)) : List Issue :=
  (k.properties.flatMap fun p =>
    match members.lookup p.1 with
    | some v => sub p.2 (at_ ++ "." ++ p.1) v
    | none => if p.1 ∈ inheritedNames then c.inherited p.2 (at_ ++ "." ++ p.1) else []) ++
  (k.required.flatMap fun key =>
    pushIf at_ (!hasProperty members key) ("missing required \"" ++ key ++ "\"")) ++
  bound at_ k.minProperties (fun n => members.length < n)
    (fun n => "fewer than minProperties " ++ toString n) ++
  bound at_ k.maxProperties (fun n => members.length > n)
    (fun n => "more than maxProperties " ++ toString n) ++
  match k.additionalProperties with
  | some (.bool false) => (ownKeys members).flatMap fun key =>
    pushIf at_ (key ∉ k.properties.map fst && key ∉ inheritedNames)
      ("unexpected property \"" ++ key ++ "\"")
  | _ => []

def valueIssues : Json → List Issue
  | .string s => textIssues c.ecma (k.keywords sub) at_ s
  | .number n =>
    limitIssues c at_ n k.minimum (· == .lt) " < minimum " ++
      limitIssues c at_ n k.maximum (· == .gt) " > maximum " ++
      limitIssues c at_ n k.exclusiveMinimum (· != .gt) " <= exclusiveMinimum " ++
      limitIssues c at_ n k.exclusiveMaximum (· != .lt) " >= exclusiveMaximum "
  | .array items => arrayIssues c.ecma (k.keywords sub) at_ items
  | .object members => memberIssues c sub k at_ members
  | _ => []

/-- The test `sub === subs[subs.length - 1]` compares two flags by value. -/
def isFlag : Schema → Option Schema → Bool
  | .bool b, some (.bool b') => b == b'
  | _, _ => false

def alternativeIssues (v : Json) (last : Option Schema) : List Schema → List Issue
  | [] => []
  | s :: rest =>
    let issues := sub s (at_ ++ " (anyOf)") v
    if issues = [] then []
    else (if rest.isEmpty || isFlag s last then issues else []) ++ alternativeIssues v last rest

def nodeIssues (v : Json) : List Issue :=
  match k.const with
  | some value =>
    pushIf at_ (stringify c.ecma v ≠ stringify c.ecma value)
      ("expected const " ++ stringify c.ecma value ++ ", got " ++ stringify c.ecma v)
  | none =>
    enumIssues c.ecma (k.keywords sub) at_ v ++
      if typeIssues c.ecma (k.keywords sub) at_ v = [] then
        valueIssues c sub k at_ v ++ (k.allOf.flatMap fun s => sub s (at_ ++ " (allOf)") v) ++
          alternativeIssues sub at_ v k.anyOf.getLast? k.anyOf ++
          oneOfIssues (k.keywords sub) at_ v ++ notIssues (k.keywords sub) at_ v ++
          ifIssues (k.keywords sub) at_ v
      else typeIssues c.ecma (k.keywords sub) at_ v

end

def afterPrefix (start text : String) : Option String :=
  if start.toList.isPrefixOf text.toList then some (String.ofList (text.toList.drop start.length))
  else none

/-- Only the reference of the node itself is followed; the node it leads to is taken as it is. A
name that `defs` inherits leads to a function, or to an object without own keywords. -/
def resolve (at_ : String) : Schema → Except Issue Schema
  | .bool b => .ok (.bool b)
  | .node k =>
    match k.ref with
    | none => .ok (.node k)
    | some r =>
      match afterPrefix "#/$defs/" r with
      | some name =>
        match c.defs with
        | none => .error ⟨at_, "missing $defs entry \"" ++ name ++ "\""⟩
        | some defs =>
          match defs.lookup name with
          | some s => .ok s
          | none =>
            if name = "__proto__" then .ok (.node {})
            else if name ∈ inheritedNames then .error ⟨at_, "schema node is not an object"⟩
            else .error ⟨at_, "missing $defs entry \"" ++ name ++ "\""⟩
      | none =>
        match afterPrefix "./" r with
        | some file =>
          match c.registry.lookup file with
          | some s => .ok s
          | none => .error ⟨at_, "unresolved file $ref \"" ++ r ++ "\""⟩
        | none => .error
          ⟨at_, "unsupported $ref \"" ++ r ++ "\" (only local $defs and file refs)"⟩

def check : ℕ → Schema → Checker
  | 0, _, at_, _ => [⟨at_, "out of fuel"⟩]
  | fuel + 1, schema, at_, v =>
    match resolve c at_ schema with
    | .error issue => [issue]
    | .ok (.bool true) => []
    | .ok (.bool false) => [⟨at_, "schema false"⟩]
    | .ok (.node k) => nodeIssues c (check fuel) k at_ v

def validateAgainstSchema (fuel : ℕ) (v : Json) (schema : Schema) : List Issue :=
  check c fuel schema "value" v

/-- Equality of JSON values, in which the order of members does not count. -/
inductive SameValue : Json → Json → Prop
  | null : SameValue .null .null
  | bool (b : Bool) : SameValue (.bool b) (.bool b)
  | number {n m : JsonNumber} (h : c.compare n m = .eq) : SameValue (.number n) (.number m)
  | string (s : String) : SameValue (.string s) (.string s)
  | array {xs ys : List Json} (h : List.Forall₂ SameValue xs ys) : SameValue (.array xs) (.array ys)
  | object {xs ys : List (String × Json)} (hkeys : ∀ key, key ∈ keys xs ↔ key ∈ keys ys)
      (h : ∀ key x y, xs.lookup key = some x → ys.lookup key = some y → SameValue x y) :
      SameValue (.object xs) (.object ys)

def Fits (k : Node Schema) (P : Schema → Json → Prop) : Json → Prop
  | .string s => (∀ n ∈ k.minLength, n ≤ s.length) ∧ (∀ n ∈ k.maxLength, s.length ≤ n) ∧
      (∀ p ∈ k.pattern, p.test s = true) ∧ (k.dateTime = true → c.ecma.dateParses s = true)
  | .number n => (∀ m ∈ k.minimum, c.compare n m ≠ .lt) ∧ (∀ m ∈ k.maximum, c.compare n m ≠ .gt) ∧
      (∀ m ∈ k.exclusiveMinimum, c.compare n m = .gt) ∧
      ∀ m ∈ k.exclusiveMaximum, c.compare n m = .lt
  | .array items => (∀ n ∈ k.minItems, n ≤ items.length) ∧ (∀ n ∈ k.maxItems, items.length ≤ n) ∧
      (∀ s ∈ k.items, ∀ w ∈ items, P s w) ∧
      (k.uniqueItems = true → items.Pairwise fun x y => ¬ SameValue c x y)
  | .object members => (∀ p ∈ k.properties, ∀ w, members.lookup p.1 = some w → P p.2 w) ∧
      (∀ key ∈ k.required, key ∈ keys members) ∧ (∀ n ∈ k.minProperties, n ≤ members.length) ∧
      (∀ n ∈ k.maxProperties, members.length ≤ n) ∧ ∀ s ∈ k.additionalProperties, ∀ m ∈ members,
        m.1 ∉ k.properties.map fst → P s m.2
  | _ => True

open Classical in
structure Satisfies (k : Node Schema) (P : Schema → Json → Prop) (v : Json) : Prop where
  const : ∀ value ∈ k.const, SameValue c v value
  enum : ∀ values ∈ k.enum, ∃ value ∈ values, SameValue c v value
  type : ∀ types ∈ k.type, hasType c.ecma types v = true
  fits : Fits c k P v
  allOf : ∀ s ∈ k.allOf, P s v
  anyOf : k.anyOf ≠ [] → ∃ s ∈ k.anyOf, P s v
  oneOf : ∀ schemas ∈ k.oneOf, schemas.countP (fun s => decide (P s v)) = 1
  not : ∀ s ∈ k.not, ¬ P s v
  conditional : ∀ s ∈ k.onlyIf, (P s v → ∀ t ∈ k.thenAlso, P t v) ∧
    (¬ P s v → ∀ t ∈ k.elseAlso, P t v)

def Valid : ℕ → δ → Schema → Json → Prop
  | _, _, .bool b, _ => b = true
  | 0, _, .node _, _ => False
  | fuel + 1, d, .node k, v =>
    (∀ r ∈ k.ref, ∃ target, c.meaning d r = some target ∧ Valid fuel target.1 target.2 v) ∧
      Satisfies c k (Valid fuel d) v

/-- The texts of two values are compared in place of the values. -/
def TextTells (v w : Json) : Prop :=
  stringify c.ecma v = stringify c.ecma w ↔ SameValue c v w

/-- Where the checks behind `const`, `enum` and `type` are those of JSON Schema. -/
structure Regular (k : Node Schema) (v : Json) : Prop where
  text : ∀ s, v = .string s → k.minLength = none ∧ k.maxLength = none ∨ unitLength s = s.length
  unique : ∀ items, v = .array items → k.uniqueItems = true →
    ((items.map (itemKey c.ecma)).Nodup ↔ items.Pairwise fun x y => ¬ SameValue c x y)
  inherited : ∀ members, v = .object members →
    ∀ key ∈ k.required ++ k.properties.map fst, key ∈ inheritedNames → key ∈ keys members
  additional : ∀ members, v = .object members → ∀ s ∈ k.additionalProperties,
    s = .bool true ∨ s = .bool false ∧
      ∀ key ∈ keys members, key ∈ inheritedNames → key ∈ k.properties.map fst
  anyOf : k.anyOf.getLast? = some (.bool false) → .bool false ∉ k.anyOf.dropLast

/-- The subschemas that are evaluated at a node, with what they are evaluated on, where `P`
says which of them pass. -/
inductive Visits (k : Node Schema) (P : Schema → Json → Prop) : Json → Schema → Json → Prop
  | item {items : List Json} {s : Schema} {w : Json} (hs : s ∈ k.items) (hw : w ∈ items) :
      Visits k P (.array items) s w
  | property {members : List (String × Json)} {p : String × Schema} {w : Json}
      (hp : p ∈ k.properties) (hw : members.lookup p.1 = some w) :
      Visits k P (.object members) p.2 w
  | inPlace {v : Json} {s : Schema}
      (hs : s ∈ k.allOf ++ k.oneOf.getD [] ++ k.not.toList ++ k.onlyIf.toList) : Visits k P v s v
  | alternative {v : Json} {s : Schema} {failed rest : List Schema}
      (hs : k.anyOf = failed ++ s :: rest) (hfailed : ∀ t ∈ failed, ¬ P t v) : Visits k P v s v
  | thenBranch {v : Json} {s t : Schema} (hs : s ∈ k.onlyIf) (hP : P s v) (ht : t ∈ k.thenAlso) :
      Visits k P v t v
  | elseBranch {v : Json} {s t : Schema} (hs : s ∈ k.onlyIf) (hP : ¬ P s v)
      (ht : t ∈ k.elseAlso) : Visits k P v t v

/-- A constant ends the evaluation of a node, and so does a type that the value has not. What
is evaluated satisfies `T`. -/
structure Follows (k : Node Schema) (P T : Schema → Json → Prop) (v : Json) : Prop where
  const : ∀ value ∈ k.const, TextTells c v value ∧
    (SameValue c v value → k = { const := some value })
  enum : k.const = none → ∀ values ∈ k.enum,
    (stringify c.ecma v ∈ values.map (stringify c.ecma) ↔ ∃ value ∈ values, SameValue c v value)
  regular : k.const = none → (∀ types ∈ k.type, hasType c.ecma types v = true) → Regular c k v
  visits : k.const = none → (∀ types ∈ k.type, hasType c.ecma types v = true) →
    ∀ s w, Visits k P v s w → T s w

def Finds (r : String) (s : Schema) : Prop :=
  (∃ name defs, r = "#/$defs/" ++ name ∧ c.defs = some defs ∧ defs.lookup name = some s) ∨
    ∃ file, r = "./" ++ file ∧ c.registry.lookup file = some s

def Tame : ℕ → δ → Schema → Json → Prop
  | 0, _, _, _ => False
  | _ + 1, _, .bool _, _ => True
  | fuel + 1, d, .node k, v =>
    match k.ref with
    | none => Follows c k (Valid c fuel d) (Tame fuel d) v
    | some r => k = { ref := some r } ∧ ∃ target, c.meaning d r = some target ∧
        Finds c r target.2 ∧ (∀ k', target.2 = .node k' → k'.ref = none) ∧
        Tame fuel target.1 target.2 v

section
variable {c : Setting δ} {sub : Schema → Checker} {P : Schema → Json → Prop} {k : Node Schema}
  {at_ : String} {v : Json}

theorem enum_iff (h : ∀ values ∈ k.enum,
    (stringify c.ecma v ∈ values.map (stringify c.ecma) ↔ ∃ value ∈ values, SameValue c v value)) :
    enumIssues c.ecma (k.keywords sub) at_ v = [] ↔
      ∀ values ∈ k.enum, ∃ value ∈ values, SameValue c v value := by
  rw [enumIssues, Node.keywords]
  cases hen : k.enum with
  | none => simp
  | some values =>
    simp only [pushIf_eq_nil, decide_eq_false_iff_not, not_not, Option.mem_def,
      Option.some.injEq, forall_eq']
    exact h values hen

theorem type_iff : typeIssues c.ecma (k.keywords sub) at_ v = [] ↔
    ∀ types ∈ k.type, hasType c.ecma types v := by
  rw [typeIssues, Node.keywords]
  cases k.type <;> simp [pushIf_eq_nil]

theorem text_iff {s : String} (h : Regular c k (.string s)) :
    textIssues c.ecma (k.keywords sub) at_ s = [] ↔ Fits c k P (.string s) := by
  rcases h.text s rfl with ⟨hmin, hmax⟩ | hlen
  · cases hpt : k.pattern <;>
      simp [textIssues, Node.keywords, Fits, bound, hmin, hmax, hpt, pushIf_eq_nil]
  · cases hpt : k.pattern <;>
      simp [textIssues, Node.keywords, Fits, bound_eq_nil, hlen, hpt, pushIf_eq_nil]

theorem limit_iff {n : JsonNumber} {limit : Option JsonNumber} {fails : Ordering → Bool}
    {relation : String} : limitIssues c at_ n limit fails relation = [] ↔
      ∀ m ∈ limit, fails (c.compare n m) = false := by
  simp [limitIssues, pushIf_eq_nil]

theorem array_iff {items : List Json} (h : Regular c k (.array items))
    (hsub : ∀ s ∈ k.items, ∀ w ∈ items, ∀ at_, sub s at_ w = [] ↔ P s w) :
    arrayIssues c.ecma (k.keywords sub) at_ items = [] ↔ Fits c k P (.array items) := by
  have hie : itemIssues (k.keywords sub) at_ items = [] ↔ ∀ s ∈ k.items, ∀ w ∈ items, P s w := by
    rw [itemIssues, Node.keywords]
    cases hk : k.items with
    | none => simp
    | some s =>
      simp only [Option.map_some, flatMap_eq_nil_iff, Option.mem_def, Option.some.injEq, forall_eq']
      constructor
      · intro hnil w hw
        obtain ⟨i, hi⟩ := mem_iff_getElem?.mp hw
        exact (hsub s hk w hw _).mp (hnil (w, i) (mem_zipIdx_iff_getElem?.mpr hi))
      · intro hall x hx
        have hw := fst_mem_of_mem_zipIdx hx
        exact (hsub s hk x.1 hw _).mpr (hall x.1 hw)
  have hun : k.uniqueItems → (uniqueIssues c.ecma at_ [] items = [] ↔
      items.Pairwise fun x y => ¬ SameValue c x y) := by
    intro hk
    rw [uniqueIssues_eq_nil]
    simp only [not_mem_nil, not_false_eq_true, implies_true, and_true]
    exact h.unique items rfl hk
  simp only [arrayIssues, append_eq_nil_iff, hie, and_assoc]
  cases hk : k.uniqueItems <;>
    simp [Node.keywords, Fits, bound_eq_nil, hk, hun]

section
variable {mems : List (String × Json)} (h : Regular c k (.object mems))
include h

theorem properties_iff
    (hsub : ∀ p ∈ k.properties, ∀ w, mems.lookup p.1 = some w →
      ∀ at_, sub p.2 at_ w = [] ↔ P p.2 w) (at_ : String) :
    (∀ p ∈ k.properties, (match mems.lookup p.1 with
      | some w => sub p.2 (at_ ++ "." ++ p.1) w
      | none => if p.1 ∈ inheritedNames then c.inherited p.2 (at_ ++ "." ++ p.1) else []) = []) ↔
      ∀ p ∈ k.properties, ∀ w, mems.lookup p.1 = some w → P p.2 w := by
  refine forall₂_congr fun p hp => ?_
  cases hget : mems.lookup p.1 with
  | some w => simp [hsub p hp w hget]
  | none =>
    have hnot : p.1 ∉ inheritedNames := by
      intro hinh
      have hkey := h.inherited mems rfl p.1
        (mem_append_right _ (mem_map_of_mem hp)) hinh
      simp [mem_keys_iff_lookup, hget] at hkey
    simp [hnot]

theorem required_iff : (∀ key ∈ k.required, hasProperty mems key) ↔
      ∀ key ∈ k.required, key ∈ keys mems := by
  refine forall₂_congr fun key hkey => ?_
  rw [hasProperty, Bool.or_eq_true, decide_eq_true_eq, decide_eq_true_eq]
  exact or_iff_left_of_imp (h.inherited mems rfl key (mem_append_left _ hkey))

theorem additional_iff (hbool : ∀ b w, P (.bool b) w ↔ b) (at_ : String) :
    (match k.additionalProperties with
      | some (.bool false) => (ownKeys mems).flatMap fun key =>
        pushIf at_ (key ∉ k.properties.map fst && key ∉ inheritedNames)
          ("unexpected property \"" ++ key ++ "\"")
      | _ => []) = [] ↔ ∀ s ∈ k.additionalProperties, ∀ m ∈ mems,
        m.1 ∉ k.properties.map fst → P s m.2 := by
  cases hk : k.additionalProperties with
  | none => simp
  | some s =>
    rcases h.additional mems rfl s hk with rfl | ⟨rfl, hinh⟩
    · simp only [Option.mem_def, Option.some.injEq, forall_eq', true_iff]
      exact fun m _ _ => (hbool true m.2).mpr rfl
    simp only [flatMap_eq_nil_iff, pushIf_eq_nil, mem_ownKeys, Option.mem_def,
      Option.some.injEq, forall_eq']
    constructor
    · intro hkn m hm hnot
      have hkey : m.1 ∈ keys mems := mem_map_of_mem hm
      have hown := mt (hinh m.1 hkey) hnot
      simpa [hnot, hown] using hkn m.1 hkey
    · intro hall key hkey
      obtain ⟨m, hm, rfl⟩ := mem_map.mp hkey
      by_cases hnot : m.1 ∈ k.properties.map fst
      · simp [hnot]
      · exact absurd ((hbool false m.2).mp (hall m hm hnot)) (by simp)

end

theorem value_iff (h : Regular c k v)
    (hsub : ∀ s w, Visits k P v s w → ∀ at_, sub s at_ w = [] ↔ P s w)
    (hbool : ∀ b w, P (.bool b) w ↔ b) :
    valueIssues c sub k at_ v = [] ↔ Fits c k P v := by
  cases v with
  | null | bool _ => simp [valueIssues, Fits]
  | string s => exact text_iff h
  | number n => simp [valueIssues, Fits, limit_iff]
  | array items => exact array_iff h (fun s hs w hw => hsub s w (.item hs hw))
  | object members =>
    have hproperties := properties_iff h (fun p hp w hw => hsub p.2 w (.property hp hw)) at_
    have hadd := additional_iff h hbool at_
    simp only [valueIssues, memberIssues, append_eq_nil_iff, flatMap_eq_nil_iff,
      hproperties, hadd, pushIf_eq_nil, bound_eq_nil, Bool.not_eq_false', required_iff h]
    simp [Fits, and_assoc]

/-- By induction on the alternatives that are left; those before them have failed. -/
theorem alternativeIssues_eq_nil {last : Option Schema} {schemas : List Schema}
    (hsub : ∀ failed s rest, schemas = failed ++ s :: rest → (∀ t ∈ failed, ¬ P t v) →
      ∀ at_, sub s at_ v = [] ↔ P s v)
    (hflag : ∀ s ∈ schemas.dropLast, isFlag s last → P s v) :
    alternativeIssues sub at_ v last schemas = [] ↔ (schemas ≠ [] → ∃ s ∈ schemas, P s v) := by
  induction schemas with
  | nil => simp [alternativeIssues]
  | cons s rest ih =>
    have hs := hsub [] s rest rfl (by simp) (at_ ++ " (anyOf)")
    by_cases hP : P s v
    · simp [alternativeIssues, hs.mpr hP, hP]
    cases rest with
    | nil => simp [alternativeIssues, hs, hP]
    | cons s' rest =>
      have hnot : isFlag s last = false := by
        rw [Bool.eq_false_iff]
        exact fun hs' => hP (hflag s (by simp) hs')
      have hrs := ih
        (fun failed t after heq hno => hsub (s :: failed) t after (congrArg (cons s) heq)
          (forall_mem_cons.mpr ⟨hP, hno⟩))
        fun t ht => hflag t (by simp [ht])
      simpa [alternativeIssues, hs, hP, hnot] using hrs

theorem anyOf_iff (h : Regular c k v)
    (hsub : ∀ failed s rest, k.anyOf = failed ++ s :: rest → (∀ t ∈ failed, ¬ P t v) →
      ∀ at_, sub s at_ v = [] ↔ P s v) (hbool : ∀ b w, P (.bool b) w ↔ b) :
    alternativeIssues sub at_ v k.anyOf.getLast? k.anyOf = [] ↔
      (k.anyOf ≠ [] → ∃ s ∈ k.anyOf, P s v) := by
  refine alternativeIssues_eq_nil hsub ?_
  intro s hs hflag
  cases s with
  | node _ => cases hflag
  | bool b =>
    cases b with
    | true => exact (hbool true v).mpr rfl
    | false =>
      cases hlast : k.anyOf.getLast? with
      | none => simp [hlast, isFlag] at hflag
      | some last =>
        rw [hlast] at hflag
        cases last with
        | node _ => cases hflag
        | bool b =>
          cases b with
          | true => cases hflag
          | false => exact absurd hs (h.anyOf hlast)

open Classical in
theorem oneOf_iff (hsub : ∀ s ∈ k.oneOf.getD [], ∀ at_, sub s at_ v = [] ↔ P s v) (at_ : String) :
    oneOfIssues (k.keywords sub) at_ v = [] ↔
      ∀ schemas ∈ k.oneOf, schemas.countP (fun s => decide (P s v)) = 1 := by
  rw [oneOfIssues, Node.keywords]
  cases hk : k.oneOf with
  | none => simp
  | some schemas =>
    have hcount : (schemas.map sub).countP (fun s => s (at_ ++ " (oneOf)") v = []) =
        schemas.countP fun s => decide (P s v) := by
      rw [countP_map]
      refine countP_congr fun s hs => ?_
      simpa using hsub s (by simpa [hk] using hs) _
    simp [pushIf_eq_nil, hcount]

theorem not_iff_of_sub (hsub : ∀ s ∈ k.not, ∀ at_, sub s at_ v = [] ↔ P s v) (at_ : String) :
    notIssues (k.keywords sub) at_ v = [] ↔ ∀ s ∈ k.not, ¬ P s v := by
  rw [notIssues, Node.keywords]
  cases hk : k.not with
  | none => simp
  | some s => simp [pushIf_eq_nil, hsub s hk]

theorem conditional_iff (hsub : ∀ s ∈ k.onlyIf, ∀ at_, sub s at_ v = [] ↔ P s v)
    (hthen : ∀ s ∈ k.onlyIf, P s v → ∀ t ∈ k.thenAlso, ∀ at_, sub t at_ v = [] ↔ P t v)
    (helse : ∀ s ∈ k.onlyIf, ¬ P s v → ∀ t ∈ k.elseAlso, ∀ at_, sub t at_ v = [] ↔ P t v)
    (at_ : String) :
    ifIssues (k.keywords sub) at_ v = [] ↔ ∀ s ∈ k.onlyIf,
      (P s v → ∀ t ∈ k.thenAlso, P t v) ∧ (¬ P s v → ∀ t ∈ k.elseAlso, P t v) := by
  rw [ifIssues, Node.keywords]
  cases hif : k.onlyIf with
  | none => simp
  | some s =>
    have hs := hsub s hif
    by_cases hP : P s v
    · cases hth : k.thenAlso with
      | none => simp [hs, hP]
      | some t => simp [hs, hP, hthen s hif hP t hth]
    · cases hel : k.elseAlso with
      | none => simp [hs, hP]
      | some t => simp [hs, hP, helse s hif hP t hel]

/-- A node with a reference or a constant and nothing else. -/
theorem satisfies_bare {ref : Option String} {const : Option Json}
    (h : ∀ value ∈ const, SameValue c v value) :
    Satisfies c { ref := ref, const := const } P v where
  const := h
  enum := by simp
  type := by simp
  fits := by cases v <;> simp [Fits]
  allOf := by simp
  anyOf := by simp
  oneOf := by simp
  not := by simp
  conditional := by simp

theorem node_iff (h : Follows c k P (fun s w => ∀ at_, sub s at_ w = [] ↔ P s w) v)
    (hbool : ∀ b w, P (.bool b) w ↔ b) : nodeIssues c sub k at_ v = [] ↔ Satisfies c k P v := by
  rw [nodeIssues]
  cases hconst : k.const with
  | some value =>
    obtain ⟨htl, hbare⟩ := h.const value hconst
    rw [TextTells] at htl
    simp only [pushIf_eq_nil, decide_eq_false_iff_not, not_not, ne_eq, htl]
    constructor
    · intro heq
      rw [hbare heq]
      exact satisfies_bare (by simpa using heq)
    · intro hst
      exact hst.const value hconst
  | none =>
    have hen : enumIssues c.ecma (k.keywords sub) at_ v = [] ↔ _ := enum_iff (h.enum hconst)
    by_cases hty : typeIssues c.ecma (k.keywords sub) at_ v = []
    · have htypes := type_iff.mp hty
      have hreg := h.regular hconst htypes
      have hsub := h.visits hconst htypes
      have hpl : ∀ s ∈ k.allOf ++ k.oneOf.getD [] ++ k.not.toList ++ k.onlyIf.toList,
          ∀ at_, sub s at_ v = [] ↔ P s v := fun s hs => hsub s v (.inPlace hs)
      have hall : (k.allOf.flatMap fun s => sub s (at_ ++ " (allOf)") v) = [] ↔
          ∀ s ∈ k.allOf, P s v := by
        rw [flatMap_eq_nil_iff]
        exact forall₂_congr fun s hs => hpl s (by simp [hs]) _
      have hany : alternativeIssues sub at_ v k.anyOf.getLast? k.anyOf = [] ↔ _ :=
        anyOf_iff hreg (fun _ s _ hs hfailed => hsub s v (.alternative hs hfailed)) hbool
      have hone := oneOf_iff (k := k) (fun s hs => hpl s (by simp [hs])) at_
      have hnot := not_iff_of_sub (k := k) (fun s hs => hpl s (by simp_all)) at_
      have hif := conditional_iff (k := k) (fun s hs => hpl s (by simp_all))
        (fun s hs hP t ht => hsub t v (.thenBranch hs hP ht))
        (fun s hs hP t ht => hsub t v (.elseBranch hs hP ht)) at_
      simp only [if_pos hty, append_eq_nil_iff, hen, value_iff hreg hsub hbool, hall, hany, hone,
        hnot, hif]
      constructor
      · rintro ⟨hen, ⟨⟨⟨⟨hft, hall⟩, hany⟩, hone⟩, hnot⟩, hif⟩
        exact ⟨by simp [hconst], hen, htypes, hft, hall, hany, hone, hnot, hif⟩
      · intro hs
        exact ⟨hs.enum, ⟨⟨⟨⟨hs.fits, hs.allOf⟩, hs.anyOf⟩, hs.oneOf⟩, hs.not⟩, hs.conditional⟩
    rw [if_neg hty, append_eq_nil_iff]
    constructor
    · rintro ⟨-, hnil⟩
      exact absurd hnil hty
    · intro hs
      exact absurd (type_iff.mpr hs.type) hty

end

theorem afterPrefix_append {start rest : String} : afterPrefix start (start ++ rest)
    = some rest := by
  simp [afterPrefix, ← String.length_toList]

variable {c} {s : Schema}

theorem Finds.resolve_eq {at_ : String} {r : String} (h : Finds c r s) :
    resolve c at_ (.node { ref := some r }) = .ok s := by
  rcases h with ⟨name, defs, rfl, hdf, hs⟩ | ⟨file, rfl, hs⟩
  · simp [resolve, afterPrefix_append, hdf, hs]
  · have hlc : afterPrefix "#/$defs/" ("./" ++ file) = none := by
      simp [afterPrefix]
    simp [resolve, hlc, afterPrefix_append, hs]

open Classical in
/-- Two evaluations that agree on what the first visits satisfy the same keywords: the second,
seen as a checker, is compared with each. -/
theorem Follows.satisfies_iff {k : Node Schema} {P Q : Schema → Json → Prop} {v : Json}
    (h : Follows c k P (fun s w => Q s w ↔ P s w) v) (hP : ∀ b w, P (.bool b) w ↔ b)
    (hQ : ∀ b w, Q (.bool b) w ↔ b) : Satisfies c k P v ↔ Satisfies c k Q v := by
  let sub : Schema → Checker := fun s at_ w => pushIf at_ (decide (¬ Q s w)) ""
  have hsub : ∀ s w at_, sub s at_ w = [] ↔ Q s w := by
    intro s w at_
    simp [sub, pushIf_eq_nil]
  have hfirst : Follows c k P (fun s w => ∀ at_, sub s at_ w = [] ↔ P s w) v :=
    ⟨h.const, h.enum, h.regular, fun hcn hty s w hw at_ =>
      (hsub s w at_).trans (h.visits hcn hty s w hw)⟩
  have hsecond : Follows c k Q (fun s w => ∀ at_, sub s at_ w = [] ↔ Q s w) v :=
    ⟨h.const, h.enum, h.regular, fun _ _ s w _ => hsub s w⟩
  have hone : nodeIssues c sub k "value" v = [] ↔ Satisfies c k P v := node_iff hfirst hP
  exact hone.symm.trans (node_iff hsecond hQ)

theorem valid_bool_iff (n : ℕ) (d : δ) (b : Bool) (v : Json) : Valid c n d (.bool b) v ↔ b := by
  simp [Valid]

/-- By induction on the depth of the evaluation. A reference takes no fuel of the checker, so the
two amounts are kept apart. -/
theorem Tame.check_iff {n : ℕ} {d : δ} {v : Json} (h : Tame c n d s v) {m m' : ℕ} (hm : n ≤ m)
    (hm' : n ≤ m') (at_ : String) : check c m s at_ v = [] ↔ Valid c m' d s v := by
  induction n generalizing d s v m m' at_ with
  | zero => exact h.elim
  | succ n ih =>
    obtain ⟨m, rfl⟩ := Nat.exists_eq_add_of_le' (Nat.le_of_add_left_le hm)
    obtain ⟨m', rfl⟩ := Nat.exists_eq_add_of_le' (Nat.le_of_add_left_le hm')
    have hn : n ≤ m := Nat.le_of_succ_le_succ hm
    have hn' : n ≤ m' := Nat.le_of_succ_le_succ hm'
    cases s with
    | bool b => cases b <;> simp [check, resolve, Valid]
    | node k =>
      cases href : k.ref with
      | none =>
        simp only [Tame, href] at h
        have hch : check c (m + 1) (.node k) at_ v = nodeIssues c (check c m) k at_ v := by
          simp [check, resolve, href]
        have hchecker : Follows c k (Valid c n d)
            (fun s w => ∀ at_, check c m s at_ w = [] ↔ Valid c n d s w) v :=
          ⟨h.const, h.enum, h.regular, fun hcn hty s w hw => ih (h.visits hcn hty s w hw) hn le_rfl⟩
        have hfuel : Follows c k (Valid c n d)
            (fun s w => Valid c m' d s w ↔ Valid c n d s w) v := by
          refine ⟨h.const, h.enum, h.regular, fun hcn hty s w hw => ?_⟩
          have htm := h.visits hcn hty s w hw
          exact (ih htm hn hn' "").symm.trans (ih htm hn le_rfl "")
        rw [hch, node_iff hchecker (valid_bool_iff n d),
          hfuel.satisfies_iff (valid_bool_iff n d) (valid_bool_iff m' d)]
        simp [Valid, href]
      | some r =>
        simp only [Tame, href] at h
        obtain ⟨rfl, ⟨d', target⟩, hmeaning, hfn, hlast, htm⟩ := h
        have heq : resolve c at_ target = .ok target := by
          cases target with
          | bool b => rfl
          | node k' => simp [resolve, hlast k' rfl]
        have hch : check c (m + 1) (.node { ref := some r }) at_ v =
            check c (m + 1) target at_ v := by
          rw [check, check, hfn.resolve_eq, heq]
        rw [hch, ih htm (Nat.le_succ_of_le hn) hn']
        simp [Valid, hmeaning, satisfies_bare]

def plainSetting : Setting Unit where
  ecma := default
  compare := fun _ _ => .eq
  inherited := fun _ _ => []
  defs := some [("id", .node { type := some [.string] })]
  registry := []
  meaning := fun _ _ => some ((), .node { type := some [.string] })

/-- The branch under `else` is not taken. -/
def entrySchema : Schema :=
  .node { type := some [.object], properties := [("id", .node { ref := some "#/$defs/id" })],
          required := ["id"], additionalProperties := some (.bool false),
          onlyIf := some (.bool true), elseAlso := some (.node { required := ["toString"] }) }

def entryValue : Json := .object [("id", .string "a")]

theorem entrySchema_tame : Tame plainSetting 3 () entrySchema entryValue := by
  refine ⟨by simp, by simp, fun _ _ => ⟨by simp [entryValue], by simp, ?_, ?_, by simp⟩, ?_⟩
  · rintro _ ⟨rfl⟩ key hkey -
    simpa [Json.keys] using hkey
  · rintro _ ⟨rfl⟩ s ⟨rfl⟩
    refine .inr ⟨rfl, ?_⟩
    rintro key hkey -
    simpa [Json.keys] using hkey
  · intro _ _ s w hvis
    cases hvis with
    | property hp hw =>
      obtain rfl := mem_singleton.mp hp
      cases hw
      refine ⟨rfl, ((), .node { type := some [.string] }), rfl, .inl ?_, by simp, ?_⟩
      · exact ⟨"id", _, rfl, rfl, rfl⟩
      · refine ⟨by simp, by simp, fun _ _ => ⟨by simp, by simp, by simp, by simp, by simp⟩, ?_⟩
        intro _ _ s w hvis
        cases hvis with
        | inPlace hs => simp at hs
        | alternative hs => simp at hs
        | thenBranch hs | elseBranch hs => cases hs
    | inPlace hs =>
      obtain rfl := mem_singleton.mp hs
      trivial
    | alternative hs => simp at hs
    | thenBranch hs hP ht => cases ht
    | elseBranch hs hP ht =>
      cases hs
      exact absurd ((valid_bool_iff 2 () true _).mpr rfl) hP

end DshDesktop.Contracts
