import TypeCatalog.Failure
import TypeCatalog.Text.Lower

/-! Names of the catalogue. A name of the notation is split into words, which are joined by hyphens and written in lower
case. The word `BACnet` in front of a name counts as one word and can be left out or replaced. -/

namespace TypeCatalog.Name

/-- What becomes of the word `BACnet` in front of a name, with the hyphen after it if there is one. -/
inductive Lead where
  | keep
  | replace (text : List Char)
  deriving DecidableEq, Repr

namespace Lead

def drop : Lead := .replace []

/-- Replaced by a number with a hyphen. -/
def number (n : Int) : Lead := .replace (intDigits n ++ ['-'])

end Lead

/-- Replaces the word `BACnet` in front of a name. -/
def replaceLead (lead : Lead) (name : List Char) : List Char :=
  match lead, name with
  | .replace text, 'B' :: 'A' :: 'C' :: 'n' :: 'e' :: 't' :: '-' :: rest => text ++ rest
  | .replace text, 'B' :: 'A' :: 'C' :: 'n' :: 'e' :: 't' :: rest => text ++ rest
  | _, name => name

/-- Writes every `BACnet` as one word. -/
def unifyBrand : List Char → List Char
  | 'B' :: 'A' :: 'C' :: 'n' :: 'e' :: 't' :: rest => 'B' :: 'a' :: 'c' :: 'n' :: 'e' :: 't' :: unifyBrand rest
  | c :: rest => c :: unifyBrand rest
  | [] => []

/-- Puts a hyphen after every character that a word ends with, seen with what follows it. -/
def separate (isEnd : Char → List Char → Bool) : List Char → List Char
  | c :: rest => if isEnd c rest then c :: '-' :: separate isEnd rest else c :: separate isEnd rest
  | [] => []

/-- A small letter or a digit ends a word in front of a capital letter. -/
def endsBeforeCapital (c : Char) (rest : List Char) : Bool :=
  (c.isLower || c.isDigit) && rest.head?.any Char.isUpper

/-- A capital letter ends a run of capitals in front of a word that starts with a capital and a small letter. -/
def endsAcronym (c : Char) : List Char → Bool
  | next :: after :: _ => c.isUpper && next.isUpper && after.isLower
  | _ => false

/-- A letter ends a word in front of a digit. -/
def endsBeforeDigit (c : Char) (rest : List Char) : Bool :=
  c.isAlpha && rest.head?.any Text.isDigit

/-- The catalogue's name for a name of the notation. Digits are words of their own only in names that start with a
capital letter. -/
def convert (lead : Lead) (name : List Char) : List Char :=
  let name := replaceLead lead name
  let words := separate endsAcronym (separate endsBeforeCapital (unifyBrand name))
  Text.lower (if name.head?.any Char.isUpper then separate endsBeforeDigit words else words)

/-- The name of a type, without the word in front. -/
def ofType (name : String) : String := String.ofList (convert .drop name.toList)

/-- The name of an item. -/
def ofItem (name : String) : String := String.ofList (convert .keep name.toList)

/-- What a value asks to be done with the word in front: null keeps it, a truth value leaves it out or counts as zero, and
a number or a text replaces it. No other value can replace it. -/
def leadOf? : Data → Except Failure (Option Lead)
  | .null => .ok (some .keep)
  | .bool isNumber => .ok (some (if isNumber then .number 0 else .drop))
  | .int n => if (writeInt? n).isSome then .ok (some (.number n)) else .error .tooManyDigits
  | .text text => .ok (some (.replace text.toList))
  | _ => .ok none

/-- Whether the word `BACnet` stands in front of a name. -/
def hasLead (name : List Char) : Bool := "BACnet".toList.isPrefixOf name

/-- The name for a text that is given as data, with the word in front treated as a value says. -/
def ofData (lead name : Data) : Except Failure String := do
  match ← leadOf? lead, name with
  | some lead, .text name => return String.ofList (convert lead name.toList)
  | none, .text name =>
    if hasLead name.toList then throw .illTyped
    return String.ofList (convert .keep name.toList)
  | _, _ => throw .illTyped

/-- The name of a type that is given as data, which must be text. -/
def ofTypeData : Data → Except Failure String
  | .text name => .ok (ofType name)
  | _ => .error .illTyped

/-- The name of an item that is given as data, which must be text. -/
def ofItemData : Data → Except Failure String
  | .text name => .ok (ofItem name)
  | _ => .error .illTyped

end TypeCatalog.Name
