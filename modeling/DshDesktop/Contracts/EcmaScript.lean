import DshDesktop.Library.Json
import Mathlib.Data.List.Sort

/-!
# What the validator asks of ECMAScript

`Ecma` carries what is taken from the language without a model of it: which texts
`Date.parse` understands, and what a number literal of a document is as a double. A
JavaScript value is the collapsed document it was parsed from.
-/

namespace DshDesktop.Contracts
open Json List

structure Ecma where
  dateParses : String → Bool
  isInteger : JsonNumber → Bool
  compare : JsonNumber → ℕ → Ordering
  numberText : JsonNumber → String
  numberJson : JsonNumber → String
  numberJson_ne_quote : ∀ n s, numberJson n ≠ quote s

/-- The assumptions can be met, if only by a language with a single number. -/
instance : Inhabited Ecma where
  default :=
    { dateParses := fun _ => true
      isInteger := fun _ => true
      compare := fun _ minimum => compare 1 minimum
      numberText := fun _ => "1"
      numberJson := fun _ => "1"
      numberJson_ne_quote := fun _ s h => by
        have hfirst := congrArg (fun t => t.toList.head?) h
        simp [quote] at hfirst }

def unitLength (s : String) : ℕ := (s.toList.map fun c => if c.toNat < 0x10000 then 1 else 2).sum

/-- What every object inherits from `Object.prototype`, where the operator `in`
finds it. -/
def inheritedNames : List String :=
  ["constructor", "__defineGetter__", "__defineSetter__", "hasOwnProperty", "__lookupGetter__",
    "__lookupSetter__", "isPrototypeOf", "propertyIsEnumerable", "toString", "valueOf",
    "__proto__", "toLocaleString"]

def arrayIndex (key : String) : Option ℕ :=
  let n := key.toList.foldl (fun n c => 10 * n + (c.toNat - '0'.toNat)) 0
  if toString n = key ∧ n < 2 ^ 32 - 1 then some n else none

def ownOrder {α : Type} (members : List (String × α)) : List (String × α) :=
  ((members.filter fun m => (arrayIndex m.1).isSome).insertionSort
    fun m m' => (arrayIndex m.1).getD 0 ≤ (arrayIndex m'.1).getD 0) ++
  members.filter fun m => (arrayIndex m.1).isNone

def ownKeys (members : List (String × Json)) : List String := (ownOrder members).map Prod.fst

mutual

def stringify (ecma : Ecma) : Json → String
  | .null => "null"
  | .bool b => if b then "true" else "false"
  | .number n => ecma.numberJson n
  | .string s => quote s
  | .array items => "[" ++ ",".intercalate (stringifyItems ecma items) ++ "]"
  | .object members =>
    "\x7b" ++ ",".intercalate ((ownOrder (stringifyMembers ecma members)).map fun m =>
      quote m.1 ++ ":" ++ m.2) ++ "\x7d"

def stringifyItems (ecma : Ecma) : List Json → List String
  | [] => []
  | v :: vs => stringify ecma v :: stringifyItems ecma vs

def stringifyMembers (ecma : Ecma) : List (String × Json) → List (String × String)
  | [] => []
  | (key, v) :: ms => (key, stringify ecma v) :: stringifyMembers ecma ms

end

def typeName : Json → String
  | .null => "null"
  | .bool _ => "boolean"
  | .number _ => "number"
  | .string _ => "string"
  | .array _ => "array"
  | .object _ => "object"

theorem mem_ownKeys {mems : List (String × Json)} {key : String} :
    key ∈ ownKeys mems ↔ key ∈ keys mems := by
  have hmem : ∀ m, m ∈ ownOrder mems ↔ m ∈ mems := by
    intro m
    rw [ownOrder, mem_append, mem_insertionSort, mem_filter, mem_filter]
    cases arrayIndex m.1 <;> simp
  simp [ownKeys, Json.keys, hmem]

theorem ownOrder_of_names {α : Type} {mems : List (String × α)}
    (h : ∀ m ∈ mems, arrayIndex m.1 = none) : ownOrder mems = mems := by
  have hin : mems.filter (fun m => (arrayIndex m.1).isSome) = [] :=
    filter_eq_nil_iff.mpr fun m hm => by simp [h m hm]
  have hel : mems.filter (fun m => (arrayIndex m.1).isNone) = mems :=
    filter_eq_self.mpr fun m hm => by simp [h m hm]
  rw [ownOrder, hin, hel]
  rfl

theorem unitLength_pos {s : String} : 1 ≤ unitLength s ↔ s.isEmpty = false := by
  rw [Bool.eq_false_iff, Ne, String.isEmpty_iff, ← String.toList_eq_nil_iff, unitLength]
  cases s.toList with
  | nil => simp
  | cons c cs =>
    simp only [map_cons, sum_cons, reduceCtorEq, not_false_eq_true, iff_true]
    split <;> omega

theorem stringify_eq_quote {ecma : Ecma} {v : Json} {t : String} (ht : Plain t) :
    stringify ecma v = stringify ecma (.string t) ↔ v = .string t := by
  constructor
  · intro h
    have hfr := congrArg (fun s => s.toList.head?) h
    cases v with
    | string s =>
      rw [(quote_eq_plain ht).mp h]
    | number n => exact absurd h (ecma.numberJson_ne_quote n t)
    | bool b => cases b <;> simp [stringify, quote] at hfr
    | null | array _ | object _ => simp [stringify, quote] at hfr
  · intro h
    rw [h]

end DshDesktop.Contracts
