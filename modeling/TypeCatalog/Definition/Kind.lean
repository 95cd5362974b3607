/-! The kinds of types that the notation builds in. Every other type name refers to a definition. -/

namespace TypeCatalog

inductive Kind where
  | enumerated
  | bitString
  | octetString
  | characterString
  | unsigned
  | integer
  | real
  | double
  | any
  | choice
  | sequence
  deriving DecidableEq, Repr, Inhabited

namespace Kind

def all : List Kind :=
  [enumerated, bitString, octetString, characterString, unsigned, integer, real, double, any, choice, sequence]

/-- The type name under which definitions carry a kind. -/
def typeName : Kind → String
  | enumerated => "Enumerated"
  | bitString => "BitString"
  | octetString => "OctetString"
  | characterString => "CharacterString"
  | unsigned => "Unsigned"
  | integer => "Integer"
  | real => "Real"
  | double => "Double"
  | any => "Any"
  | choice => "CHOICE"
  | sequence => "SEQUENCE"

/-- The kind of a type name; references have none. -/
def ofTypeName? (name : String) : Option Kind := all.find? fun kind => kind.typeName == name

/-- Kinds whose items are written `name (number)`. -/
def isSimple : Kind → Bool
  | enumerated | bitString => true
  | _ => false

/-- Kinds whose items are written `name [tag] Type OPTIONAL`. -/
def isComplex : Kind → Bool
  | choice | sequence => true
  | _ => false

end Kind

end TypeCatalog
