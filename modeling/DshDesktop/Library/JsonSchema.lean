import DshDesktop.Library.Binary64
import DshDesktop.Library.DateTime
import DshDesktop.Library.Pattern

/-!
# JSON Schema

The assertions of JSON Schema that speak about one value, as checks. A number is an integer
or a finite double, both by their value.
-/

namespace JsonSchema

inductive Instance
  | null
  | boolean (b : Bool)
  | integer (n : ℤ)
  | double (negative : Bool) (units : ℕ)
  | string (s : String)
  | array (items : List Instance)
  | object (members : List (String × Instance))

abbrev Schema := Instance → Bool

def isNull : Schema
  | .null => true
  | _ => false

def isBoolean : Schema
  | .boolean _ => true
  | _ => false

def isInteger : Schema
  | .integer _ => true
  | .double _ units => units % 2 ^ Binary64.unitBits = 0
  | _ => false

def isNumber : Schema
  | .integer _ | .double _ _ => true
  | _ => false

def isString : Schema
  | .string _ => true
  | _ => false

def notNegative : Schema
  | .integer n => 0 ≤ n
  | .double negative units => !(negative && decide (0 < units))
  | _ => true

def constant (expected : ℕ) : Schema
  | .integer n => n = expected
  | .double negative units => !negative && units = expected * 2 ^ Binary64.unitBits
  | _ => false

def lengthBetween (low high : ℕ) : Schema
  | .string s => low ≤ s.length && s.length ≤ high
  | _ => true

def matching (p : Pattern) : Schema
  | .string s => p.test s
  | _ => true

def dateTime : Schema
  | .string s => DateTime.isDateTime s
  | _ => true

def allOf (schemas : List Schema) : Schema := fun v => schemas.all fun schema => schema v

def anyOf (schemas : List Schema) : Schema := fun v => schemas.any fun schema => schema v

def arrayOf (maxItems : ℕ) (items : Schema) : Schema
  | .array vs => vs.length ≤ maxItems && vs.all items
  | _ => false

def closedObject (required : List String) (properties : List (String × Schema)) : Schema
  | .object members =>
    required.all (fun key => key ∈ members.map Prod.fst) &&
      members.all fun m => (properties.lookup m.1).any fun schema => schema m.2
  | _ => false

theorem arrayOf_array {maxItems : ℕ} {items : Schema} {vs : List Instance} :
    arrayOf maxItems items (.array vs) ↔ vs.length ≤ maxItems ∧ ∀ v ∈ vs, items v := by
  rw [arrayOf, Bool.and_eq_true, decide_eq_true_eq, List.all_eq_true]

end JsonSchema
