import Itou.Lib.Texts
import Mathlib.Data.Rat.Defs

/-!
# JSON values

The values that Python reads from a JSON text, and the operations that raise on some of them. What a parser makes of the
numbers is a parameter.
-/

namespace Itou.Lib

universe u

/-- A JSON document, whose numbers are of a given type. -/
inductive JsonValue (ν : Type u) where
  | null
  | bool (b : Bool)
  | number (n : ν)
  | string (s : String)
  | array (items : List (JsonValue ν))
  | object (fields : List (String × JsonValue ν))

namespace JsonValue

variable {ν : Type u}

/-- `value[key]`. `none` when it raises. -/
def get? (key : String) : JsonValue ν → Option (JsonValue ν)
  | object fields => (fields.find? fun f => f.1 = key).map Prod.snd
  | null | bool _ | number _ | string _ | array _ => none

/-- The value is this text. -/
def isText (text : String) : JsonValue ν → Bool
  | string s => s = text
  | null | bool _ | number _ | array _ | object _ => false

/-- `key in value`. `none` when it raises. -/
def contains (key : String) : JsonValue ν → Option Bool
  | object fields => some (fields.any fun f => f.1 = key)
  | array items => some (items.any (isText key))
  | string s => some (isIn key s)
  | null | bool _ | number _ => none

/-- `value.get(key, default)`. `none` when it raises. -/
def getD (value : JsonValue ν) (key : String) (default : JsonValue ν) : Option (JsonValue ν) :=
  match value with
  | object fields => some (((object fields).get? key).getD default)
  | null | bool _ | number _ | string _ | array _ => none

/-- `value.get(key, [])`. -/
def getOrEmptyList (key : String) (value : JsonValue ν) : Option (JsonValue ν) := value.getD key (array [])

/-- `value.get(key)`. -/
def getOrNull (key : String) (value : JsonValue ν) : Option (JsonValue ν) := value.getD key null

/-- `list`. `none` when it raises. -/
def elements : JsonValue ν → Option (List (JsonValue ν))
  | array items => some items
  | object fields => some (fields.map fun f => string f.1)
  | string s => some (s.toList.map fun c => string (String.singleton c))
  | null | bool _ | number _ => none

/-- `len`. `none` when it raises. -/
def length : JsonValue ν → Option Nat
  | string s => some s.length
  | array items => some items.length
  | object fields => some fields.length
  | null | bool _ | number _ => none

/-- `value in {…}`, for a set of texts. `none` when the value has no hash. -/
def isOneOf (texts : List String) : JsonValue ν → Option Bool
  | string s => some (texts.any fun t => t = s)
  | null | bool _ | number _ => some false
  | array _ | object _ => none

/-- A text. -/
def text? : JsonValue ν → Option String
  | string s => some s
  | null | bool _ | number _ | array _ | object _ => none

end JsonValue

/-! ## `json.loads` -/

/-- A number, or one of `NaN` and the infinities. -/
inductive JsonNumber where
  | finite (q : Rat)
  | notFinite
  deriving DecidableEq

instance (n : Nat) : OfNat JsonNumber n := ⟨.finite n⟩

/-- What `json.loads` may return. -/
abbrev Json := JsonValue JsonNumber

namespace JsonValue

/-- `bool`. -/
def isTrue : Json → Bool
  | null => false
  | bool b => b
  | number (.finite q) => q ≠ 0
  | number .notFinite => true
  | string s => s ≠ ""
  | array items => !items.isEmpty
  | object fields => !fields.isEmpty

/-- `value == n`. -/
def isInt (n : Int) : Json → Bool
  | number (.finite q) => q = n
  | bool b => (if b then 1 else 0) = n
  | null | number .notFinite | string _ | array _ | object _ => false

end JsonValue

end Itou.Lib
