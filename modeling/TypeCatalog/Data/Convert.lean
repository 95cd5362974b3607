import TypeCatalog.Failure

/-! Data in a place where something else is needed: a key, fields, members, an indentation, or what can be written. -/

namespace TypeCatalog

/-- Whether a key can be written. -/
def Key.isWritable : Key → Bool
  | .int value => (writeInt? value).isSome
  | _ => true

namespace Data

/-- The key that a value can serve as; arrays and objects cannot. -/
def toKey : Data → Except Failure Key
  | .null => .ok .null
  | .bool value => .ok (.bool value)
  | .int value => .ok (.int value)
  | .real value => .ok (.real value)
  | .text value => .ok (.text value)
  | _ => .error .illTyped

/-- The members of a collection: items, keys or characters. -/
def members : Data → Except Failure (List Data)
  | .array items => .ok items
  | .object fields => .ok (fields.map (·.1.data))
  | .text value => .ok (value.toList.map fun c => .text (String.singleton c))
  | _ => .error .illTyped

/-- The key and the value that a collection of two members stands for. -/
def toPair (data : Data) : Except Failure (Key × Data) := do
  match ← data.members with
  | [key, value] => return (← key.toKey, value)
  | _ => throw .notPair

/-- The fields of an object. Another collection will do if it consists of pairs, of which the last with a key counts. -/
def toFields : Data → Except Failure Fields
  | .object fields => .ok fields
  | data => do return Fields.ofList (← (← data.members).mapM toPair)

mutual

/-- Whether all integers can be written, keys among them. -/
def isWritable : Data → Bool
  | .int value => (writeInt? value).isSome
  | .array items => areWritable items
  | .object fields => fieldsAreWritable fields
  | _ => true

def areWritable : List Data → Bool
  | [] => true
  | item :: rest => isWritable item && areWritable rest

def fieldsAreWritable : List (Key × Data) → Bool
  | [] => true
  | (key, value) :: rest => key.isWritable && isWritable value && fieldsAreWritable rest

end

/-- Fails if there is an integer that cannot be written. -/
def checkWritable (data : Data) : Except Failure Unit :=
  if data.isWritable then .ok () else .error .tooManyDigits

end Data

/-- A wanted indentation. -/
inductive Indent where
  /-- A number of spaces for every level. -/
  | width (count : Int)
  /-- A text for every level. -/
  | filler (text : String)
  /-- Something that tells no indentation. -/
  | unusable
  deriving DecidableEq, Repr, Inhabited

namespace Indent

/-- Whether a count fits a signed number of some bits. -/
def fits (bits : Nat) (count : Int) : Bool := -(Nat.pow 2 (bits - 1) : Int) ≤ count && count < Nat.pow 2 (bits - 1)

end Indent

end TypeCatalog
