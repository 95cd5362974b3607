import TypeCatalog.Text.Scan

/-! The lexical forms of the notation. A form is known by its regular expression, which messages quote, and recognised
by a function that also gives the parts that matter. -/

namespace TypeCatalog.Source
open Text

inductive Pattern where
  | header
  | application
  | series
  | enumerated
  | bitString
  | octetString
  | typeName
  | size
  | constraint
  | itemName
  | itemNumber
  | contextTag
  | optional
  deriving DecidableEq, Repr, Inhabited

namespace Pattern

/-- The regular expression of a form. -/
def expression : Pattern → String
  | header => "([A-Z][0-9A-Za-z]*(?:-[A-Z][0-9A-Za-z]*)*)\\s*::="
  | application => "\\[\\s*APPLICATION\\s+(\\d+)\\s*\\]"
  | series => "SEQUENCE\\s*(?:SIZE\\s*\\(\\s*(\\d+)\\s*\\)\\s*)?OF\\b"
  | enumerated => "ENUMERATED\\b"
  | bitString => "BIT\\s+STRING\\b"
  | octetString => "OCTET\\s+STRING\\b"
  | typeName => "[A-Z][0-9A-Za-z]*(?:-[A-Z][0-9A-Za-z]*)*"
  | size => "\\(?\\s*SIZE\\b"
  | constraint =>
    "\\(\\s*(MIN|MAX|[+-]?\\d+(?:\\.\\d+)?)\\s*(?:\\.\\.\\s*(MIN|MAX|[+-]?\\d+(?:\\.\\d+)?)\\s*)?\\)"
  | itemName => "[a-z][0-9a-z]*(?:-[0-9a-z]+)*"
  | itemNumber => "\\(\\s*(\\d+)\\s*\\)"
  | contextTag => "\\[\\s*(\\d+)\\s*\\]"
  | optional => "OPTIONAL\\b"

end Pattern

namespace Form
open Scan

/-- The rest of a name: characters of the name, and hyphens that are followed by one that may come after a hyphen. -/
def nameRest (inner afterHyphen : Char → Bool) : List Char → List Char × List Char
  | '-' :: c :: rest =>
    if afterHyphen c then
      let (name, rest) := nameRest inner afterHyphen rest
      ('-' :: c :: name, rest)
    else ([], '-' :: c :: rest)
  | c :: rest =>
    if inner c then
      let (name, rest) := nameRest inner afterHyphen rest
      (c :: name, rest)
    else ([], c :: rest)
  | [] => ([], [])

/-- Takes a name that starts with a character of the first class. -/
def name (first inner afterHyphen : Char → Bool) : Scan (List Char) := fun text =>
  match text with
  | [] => none
  | c :: rest =>
    if first c then
      let (tail, rest) := nameRest inner afterHyphen rest
      some ⟨c :: tail, c :: tail, rest⟩
    else none

/-- A type name: words of letters and digits, each with a capital letter in front, joined by hyphens. -/
def typeName : Scan (List Char) := name Char.isUpper Char.isAlphanum Char.isUpper

def isSmallAlphanum (c : Char) : Bool := c.isLower || c.isDigit

/-- An item name: words of small letters and digits joined by hyphens, with a letter in front. -/
def itemName : Scan (List Char) := name Char.isLower isSmallAlphanum isSmallAlphanum

def keyword (word : String) : Scan Unit := do
  literal word.toList
  wordEnd

/-- `Name ::=`, for the name. -/
def header : Scan (List Char) := do
  let name ← typeName
  let _ ← blanks
  literal "::=".toList
  return name

/-- A number between two marks, for its digits. -/
def enclosed (opening closing : Char) : Scan (List Char) := do
  literal [opening]
  let _ ← blanks
  let number ← digits
  let _ ← blanks
  literal [closing]
  return number

/-- `(n)` -/
def itemNumber : Scan (List Char) := enclosed '(' ')'

/-- `[n]` -/
def contextTag : Scan (List Char) := enclosed '[' ']'

/-- `[APPLICATION n]`, for the digits of the number. -/
def application : Scan (List Char) := do
  literal ['[']
  let _ ← blanks
  literal "APPLICATION".toList
  let _ ← someBlanks
  let number ← digits
  let _ ← blanks
  literal [']']
  return number

/-- `SIZE (n)` inside a series, for the digits of the count. -/
def seriesCount : Scan (List Char) := do
  literal "SIZE".toList
  let _ ← blanks
  let count ← itemNumber
  let _ ← blanks
  return count

/-- `SEQUENCE OF` or `SEQUENCE SIZE (n) OF`, for the digits of the count if there is one. -/
def series : Scan (Option (List Char)) := do
  literal "SEQUENCE".toList
  let _ ← blanks
  let count ← optionally seriesCount
  keyword "OF"
  return count

def enumerated : Scan Unit := keyword "ENUMERATED"

def bitString : Scan Unit := do
  literal "BIT".toList
  let _ ← someBlanks
  keyword "STRING"

def octetString : Scan Unit := do
  literal "OCTET".toList
  let _ ← someBlanks
  keyword "STRING"

/-- The type that stands for any value. -/
def anyType : Scan Unit := literal "ABSTRACT-SYNTAX.&Type".toList

/-- `SIZE` or `(SIZE`, for whether the parenthesis is there. -/
def size : Scan Bool := do
  let parenthesis ← optionally (literal ['('])
  let _ ← blanks
  keyword "SIZE"
  return parenthesis.isSome

/-- The fractional digits of a number, with the point. -/
def fraction : Scan (List Char) := do
  literal ['.']
  let places ← digits
  return '.' :: places

def signed : Scan (List Char) := do
  let sign ← optionally (either (do literal ['+']; return '+') (do literal ['-']; return '-'))
  let whole ← digits
  let places ← optionally fraction
  return sign.toList ++ whole ++ places.getD []

/-- `MIN`, `MAX` or a number, as written. -/
def bound : Scan (List Char) :=
  either (do literal "MIN".toList; return "MIN".toList)
    (either (do literal "MAX".toList; return "MAX".toList) signed)

/-- `.. high` inside a constraint. -/
def upperBound : Scan (List Char) := do
  literal ['.', '.']
  let _ ← blanks
  let high ← bound
  let _ ← blanks
  return high

/-- `(low .. high)` or `(value)`, for the bounds as written. -/
def constraint : Scan (List Char × Option (List Char)) := do
  literal ['(']
  let _ ← blanks
  let low ← bound
  let _ ← blanks
  let high ← optionally upperBound
  literal [')']
  return (low, high)

def optional : Scan Unit := keyword "OPTIONAL"

end Form

namespace Pattern

/-- Recognises a form, for the parts that its expression captures. A part may have no share in the lexeme. -/
def captures : Pattern → Scan (List (Option (List Char)))
  | header => do return [some (← Form.header)]
  | application => do return [some (← Form.application)]
  | series => do return [← Form.series]
  | enumerated => do Form.enumerated; return []
  | bitString => do Form.bitString; return []
  | octetString => do Form.octetString; return []
  | typeName => do let _ ← Form.typeName; return []
  | size => do let _ ← Form.size; return []
  | constraint => do
    let (low, high) ← Form.constraint
    return [some low, high]
  | itemName => do let _ ← Form.itemName; return []
  | itemNumber => do return [some (← Form.itemNumber)]
  | contextTag => do return [some (← Form.contextTag)]
  | optional => do Form.optional; return []

end Pattern

end TypeCatalog.Source
