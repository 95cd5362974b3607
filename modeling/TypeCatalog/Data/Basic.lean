import TypeCatalog.Number.Double

/-! Plain data: what documents, records and configurations are made of. Objects keep the order in which their keys were
first put, and a key is put at most once. Texts are of Unicode scalar values: half of a surrogate pair alone is no
character, so texts that hold one are not data here. -/

namespace TypeCatalog

/-- A key of an object. Documents read from text may have keys that are not text. -/
inductive Key where
  | null
  | bool (value : Bool)
  | int (value : Int)
  | real (value : Double)
  | text (value : String)
  deriving DecidableEq, Repr, Inhabited

/-- A data value. Integers are unbounded and differ from floating point numbers. -/
inductive Data where
  | null
  | bool (value : Bool)
  | int (value : Int)
  | real (value : Double)
  | text (value : String)
  | array (items : List Data)
  | object (fields : List (Key × Data))
  deriving Repr, Inhabited

/-- The contents of an object. -/
abbrev Fields := List (Key × Data)

namespace Key

/-- A key as a value. -/
def data : Key → Data
  | .null => .null
  | .bool value => .bool value
  | .int value => .int value
  | .real value => .real value
  | .text value => .text value

/-- The place of a numeric key on the number line. Truth values count as 0 and 1. -/
def place? : Key → Option Magnitude
  | .bool value => some (.ofInt (if value then 1 else 0))
  | .int value => some (.ofInt value)
  | .real value => value.magnitude?
  | _ => none

/-- Whether two keys are one and the same in an object: numbers of one value are, but every NaN is a key of its own. -/
def same : Key → Key → Bool
  | .text a, .text b => a == b
  | .null, .null => true
  | a, b => match a.place?, b.place? with
    | some m, some n => m.same n
    | _, _ => false

end Key

namespace Fields

def get? (fields : Fields) (key : Key) : Option Data :=
  (fields.find? fun field => field.1.same key).map (·.2)

/-- The value under a key that is text. -/
def find? (fields : Fields) (name : String) : Option Data := fields.get? (.text name)

def has (fields : Fields) (name : String) : Bool := (fields.find? name).isSome

/-- Puts a value under a key: a key that is there keeps its place, a new one comes last. -/
def put (key : Key) (value : Data) : Fields → Fields
  | [] => [(key, value)]
  | (other, old) :: rest => if other.same key then (other, value) :: rest else (other, old) :: put key value rest

/-- The object that results from putting all entries in order. -/
def ofList (entries : List (Key × Data)) : Fields :=
  entries.foldl (fun fields (key, value) => put key value fields) []

/-- The fields of one object with those of another put over them. -/
def merge (base override : Fields) : Fields :=
  override.foldl (fun fields (key, value) => put key value fields) base

end Fields

namespace Data

/-- An object whose keys are text. -/
def record (fields : List (String × Data)) : Data :=
  .object (fields.map fun (name, value) => (.text name, value))

/-- The place of a number on the number line. Truth values count as 0 and 1, a NaN has no place. -/
def place? : Data → Option Magnitude
  | .bool value => some (.ofInt (if value then 1 else 0))
  | .int value => some (.ofInt value)
  | .real value => value.magnitude?
  | _ => none

/-- Integers, floating point numbers and truth values can be calculated with. -/
def isNumber : Data → Bool
  | .bool _ | .int _ | .real _ => true
  | _ => false

/-- Whether the first number is below the second; false if one of them has no place. -/
def isLess (a b : Data) : Bool :=
  match a.place?, b.place? with
  | some m, some n => m.lt n
  | _, _ => false

/-- Whether two numbers have one value. A NaN differs from every number. -/
def levelWith (a b : Data) : Bool :=
  match a.place?, b.place? with
  | some m, some n => m.same n
  | _, _ => false

/-- Null, false, zero and what is empty do not hold; everything else does. -/
def holds : Data → Bool
  | .null => false
  | .bool value => value
  | .int value => value != 0
  | .real (.finite _ mantissa _) => mantissa != 0
  | .real _ => true
  | .text value => !value.isEmpty
  | .array items => !items.isEmpty
  | .object fields => !fields.isEmpty

/-- The value under a key of an object. -/
def find? : Data → String → Option Data
  | .object fields, name => Fields.find? fields name
  | _, _ => none

mutual

/-- Equality by value: numbers are equal if their values are, whatever their type, and the order of keys in objects
does not matter. Whether a NaN equals a NaN is a matter of choice. -/
def sameWith (nan : Bool) : Data → Data → Bool
  | .null, .null => true
  | .text a, .text b => a == b
  | .array a, .array b => sameItems nan a b
  | .object a, .object b => a.length == b.length && coveredBy nan a b
  | .real .nan, .real .nan => nan
  | a, b => a.levelWith b

/-- Equality of arrays, item by item. -/
def sameItems (nan : Bool) : List Data → List Data → Bool
  | [], [] => true
  | a :: as, b :: bs => sameWith nan a b && sameItems nan as bs
  | _, _ => false

/-- Whether every field of the first object is in the second. -/
def coveredBy (nan : Bool) : List (Key × Data) → Fields → Bool
  | [], _ => true
  | (key, value) :: rest, other =>
    (match other.get? key with
      | some found => sameWith nan value found
      | none => false) && coveredBy nan rest other

end

/-- Equality of values that are kept as they are, a NaN among them. -/
def same (a b : Data) : Bool := sameWith true a b

mutual

/-- How many collections are inside of each other. -/
def depth : Data → Nat
  | .array items => listDepth items + 1
  | .object fields => fieldDepth fields + 1
  | _ => 0

def listDepth : List Data → Nat
  | [] => 0
  | item :: rest => max (depth item) (listDepth rest)

def fieldDepth : List (Key × Data) → Nat
  | [] => 0
  | (_, value) :: rest => max (depth value) (fieldDepth rest)

end

end Data

end TypeCatalog
