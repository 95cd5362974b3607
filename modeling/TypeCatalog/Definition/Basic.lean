import TypeCatalog.Definition.Bound
import TypeCatalog.Definition.Kind

/-! Definitions as the notation states them, before anything is derived from them. -/

namespace TypeCatalog

/-- How often the type of a series occurs. -/
inductive Series where
  | unbounded
  | counted (count : Int)
  deriving DecidableEq, Repr, Inhabited

/-- A named entry of a structured definition. Enumeration values and bits have only a name, a number and a comment;
options and fields have a type, and their number is a context tag. -/
structure Item where
  name : String
  number : Option Int := none
  optional : Bool := false
  type : Option String := none
  series : Option Series := none
  size : Option Range := none
  range : Option Range := none
  items : Option (List Item) := none
  extensible : Bool := false
  comment : Option String := none
  deriving Repr, Inhabited

/-- What stands after the name of a definition. -/
structure Shape where
  type : String
  series : Option Series := none
  size : Option Range := none
  range : Option Range := none
  items : Option (List Item) := none
  extensible : Bool := false
  comment : Option String := none
  deriving Repr, Inhabited

/-- A top level definition `Name ::= [APPLICATION n] Type`. -/
structure Definition extends Shape where
  name : String
  primitive : Option Int := none
  deriving Repr, Inhabited

end TypeCatalog
