import Itou.Lib.Json

/-!
# The values of a session

`JSONEncoder` and `JSONDecoder`, which write the values of a session as JSON and read them back. The types that JSON does
not have, the texts of their values, what reads these texts, and the JSON library are parameters. A statement that raises
gives `none`.
-/

namespace Itou.Sessions

open Itou.Lib

universe u v

/-- The types that the encoder writes with a tag. -/
inductive Tag where
  | datetime
  | date
  | time
  | timedelta
  | decimal
  | uuid
  deriving DecidableEq

def Tag.name : Tag → String
  | datetime => "datetime.datetime"
  | date => "datetime.date"
  | time => "datetime.time"
  | timedelta => "datetime.timedelta"
  | decimal => "decimal.Decimal"
  | uuid => "uuid.UUID"

/-- `isinstance`, of a value of a type: a `datetime` is a `date`. -/
def Tag.isInstance (type ofType : Tag) : Bool := type = ofType || (type = .datetime && ofType = .date)

/-- The branches of `default` and of `_decode_object`, in their order. -/
def Tag.branches : List Tag := [.datetime, .date, .time, .timedelta, .decimal, .uuid]

/-- A Python value. The keys of a dictionary are strings. -/
inductive Value (S : Tag → Type u) where
  | none
  | bool (b : Bool)
  | int (n : Int)
  | str (s : String)
  | scalar (type : Tag) (x : S type)
  | list (items : List (Value S))
  | dict (items : List (String × Value S))
  | querySet (objs : List (Value S))
  | promise (text : String)
  | model (pk : Value S)
  /-- A value of another type. -/
  | other

/-- A JSON document. -/
abbrev Json := JsonValue Int

/-- What the code calls. `build` is the function that reads the texts of a type (`fromisoformat`, `parse_duration`, or the
type itself), on any value. -/
structure Library (S : Tag → Type u) (τ : Type v) where
  text : (type : Tag) → S type → String
  build : Tag → Value S → Option (Value S)
  render : Json → τ
  parse : τ → Option Json

namespace Library

variable {S : Tag → Type u} {τ : Type v} (lib : Library S τ)

/-! ## `JSONEncoder` -/

/-- What `default` gives of a value of one of these types. -/
def tagged (type : Tag) (x : S type) : Option Json :=
  (Tag.branches.find? type.isInstance).map fun branch =>
    .object [("__type__", .string branch.name), ("value", .string (lib.text type x))]

mutual
def encode : Value S → Option Json
  | .none => some .null
  | .bool b => some (.bool b)
  | .int n => some (.number n)
  | .str s => some (.string s)
  | .scalar type x => lib.tagged type x
  | .list items => (encodeList items).map .array
  | .dict items => (encodeItems items).map .object
  | .querySet objs => (encodeList objs).map .array
  | .promise text => some (.string text)
  | .model pk => encode pk
  | .other => none

def encodeList : List (Value S) → Option (List Json)
  | [] => some []
  | x :: xs => (encode x).bind fun j => (encodeList xs).map fun js => j :: js

def encodeItems : List (String × Value S) → Option (List (String × Json))
  | [] => some []
  | (key, x) :: items => (encode x).bind fun j => (encodeItems items).map fun js => (key, j) :: js
end

/-! ## `JSONDecoder` -/

/-- `obj[key] = value`. -/
def setItem (obj : List (String × Value S)) (key : String) (value : Value S) : List (String × Value S) :=
  if obj.any fun item => item.1 = key then obj.map fun item => if item.1 = key then (key, value) else item
  else obj ++ [(key, value)]

/-- `dict(items)`. -/
def toDict (items : List (String × Value S)) : List (String × Value S) :=
  items.foldl (fun obj item => setItem obj item.1 item.2) []

/-- `value == text`. -/
def isText (text : String) : Value S → Bool
  | .str s => s = text
  | _ => false

def decodeObject (obj : List (String × Value S)) : Option (Value S) :=
  match obj.lookup "__type__" with
  | none => some (.dict obj)
  | some type =>
      match Tag.branches.find? fun branch => isText branch.name type with
      | none => some (.dict obj)
      | some branch => (obj.lookup "value").bind (lib.build branch)

mutual
/-- The hook is called on the objects that are inside before those that are outside. -/
def decode : Json → Option (Value S)
  | .null => some .none
  | .bool b => some (.bool b)
  | .number n => some (.int n)
  | .string s => some (.str s)
  | .array items => (decodeList items).map .list
  | .object items => (decodeItems items).bind fun items => lib.decodeObject (toDict items)

def decodeList : List Json → Option (List (Value S))
  | [] => some []
  | j :: js => (decode j).bind fun x => (decodeList js).map fun xs => x :: xs

def decodeItems : List (String × Json) → Option (List (String × Value S))
  | [] => some []
  | (key, j) :: items => (decode j).bind fun x => (decodeItems items).map fun items => (key, x) :: items
end

/-! ## `JSONSerializer` -/

def dumps (x : Value S) : Option τ := (lib.encode x).map lib.render

def loads (data : τ) : Option (Value S) := (lib.parse data).bind lib.decode

end Library

/-! ## Trees -/

section Trees

variable {S : Tag → Type u}

mutual
/-- The values that JSON and the tagged types make, without the key of the tag. -/
def Value.IsTree : Value S → Prop
  | .none | .bool _ | .int _ | .str _ | .scalar _ _ => True
  | .list items => AreTrees items
  | .dict items => (items.map Prod.fst).Nodup ∧ "__type__" ∉ items.map Prod.fst ∧ AreItems items
  | .querySet _ | .promise _ | .model _ | .other => False

def AreTrees : List (Value S) → Prop
  | [] => True
  | x :: xs => x.IsTree ∧ AreTrees xs

def AreItems : List (String × Value S) → Prop
  | [] => True
  | item :: items => item.2.IsTree ∧ AreItems items
end

variable (same : (type : Tag) → S type → S type → Prop)

mutual
/-- The same tree, up to the equality of the tagged types. -/
def Value.Same : Value S → Value S → Prop
  | .none, .none => True
  | .bool b, .bool b' => b = b'
  | .int n, .int n' => n = n'
  | .str s, .str s' => s = s'
  | .scalar type x, .scalar type' x' => ∃ h : type = type', same type' (h ▸ x) x'
  | .list items, .list items' => SameList items items'
  | .dict items, .dict items' => SameItems items items'
  | _, _ => False

def SameList : List (Value S) → List (Value S) → Prop
  | [], [] => True
  | x :: xs, y :: ys => x.Same y ∧ SameList xs ys
  | _, _ => False

def SameItems : List (String × Value S) → List (String × Value S) → Prop
  | [], [] => True
  | item :: items, item' :: items' => item.1 = item'.1 ∧ item.2.Same item'.2 ∧ SameItems items items'
  | _, _ => False
end

/-- The texts of the tagged types are read back up to equality, and so are the documents that the encoder makes of trees. -/
structure Library.ReadsBack {τ : Type v} (lib : Library S τ) : Prop where
  equivalence : ∀ type, Equivalence (same type)
  build : ∀ type (x : S type), ∃ y, lib.build type (.str (lib.text type x)) = some (.scalar type y) ∧ same type y x
  parse : ∀ {x j}, x.IsTree → lib.encode x = some j → lib.parse (lib.render j) = some j

end Trees

end Itou.Sessions
