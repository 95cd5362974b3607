import TypeCatalog.Data.Convert
import TypeCatalog.Text.Escape

/-! JSON text of data. The text is plain ASCII; with an indent every item stands on a line of its own. -/

namespace TypeCatalog.Json

/-- The two units that spell a code point beyond the first 65536. -/
def surrogates (point : Nat) : Nat × Nat := (0xD800 + (point - 0x10000) / 0x400, 0xDC00 + (point - 0x10000) % 0x400)

def escapedUnit (unit : Nat) : List Char := ['\\', 'u'] ++ Text.hex Text.lowerHexDigit 4 unit

/-- One character of a string. Only printable ASCII other than the quote and the backslash stands for itself. -/
def escapedChar (c : Char) : List Char :=
  if c == '"' then ['\\', '"']
  else if c == '\\' then ['\\', '\\']
  else if c == '\n' then ['\\', 'n']
  else if c == '\r' then ['\\', 'r']
  else if c == '\t' then ['\\', 't']
  else if c == '\x0c' then ['\\', 'f']
  else if c == '\x08' then ['\\', 'b']
  else if ' ' ≤ c && c ≤ '~' then [c]
  else if c.toNat < 0x10000 then escapedUnit c.toNat
  else escapedUnit (surrogates c.toNat).1 ++ escapedUnit (surrogates c.toNat).2

def writeString (text : List Char) : List Char := '"' :: text.flatMap escapedChar ++ ['"']

def writeInt (n : Int) : Except Failure (List Char) :=
  match writeInt? n with
  | some text => .ok text.toList
  | none => .error .tooManyDigits

/-- A floating point number must be finite. -/
def writeReal (x : Double) : Except Failure (List Char) :=
  if x.isFinite then .ok x.text.toList else .error (.notFinite .json x)

def writeBool (value : Bool) : List Char := if value then "true".toList else "false".toList

/-- Keys are strings; what is no text is written as text. -/
def writeKey : Key → Except Failure (List Char)
  | .text value => .ok (writeString value.toList)
  | .null => .ok (writeString "null".toList)
  | .bool value => .ok (writeString (writeBool value))
  | .int value => return writeString (← writeInt value)
  | .real value => return writeString (← writeReal value)

/-- The text in front of a line at a depth, if parts stand on lines of their own. -/
abbrev Margin := Option (Nat → List Char)

/-- The margin that a wanted indentation gives. Less than no spaces are none. -/
def marginOf : Option Indent → Except Failure Margin
  | none => .ok none
  | some (.width count) =>
    if Indent.fits 64 count then .ok (some fun depth => List.replicate (count.toNat * depth) ' ') else .error .overflow
  | some (.filler text) => .ok (some fun depth => (List.replicate depth text.toList).flatten)
  | some .unusable => .error .illTyped

/-- The end of a line and the margin of the next, at a depth. Without a margin there are no lines. -/
def lineBreak (margin : Margin) (depth : Nat) : List Char :=
  match margin with
  | none => []
  | some lead => '\n' :: lead depth

/-- What stands between two items. -/
def separator (margin : Margin) (depth : Nat) : List Char :=
  match margin with
  | none => [',', ' ']
  | some _ => ',' :: lineBreak margin depth

/-- Parts between two marks. Without parts the marks touch. -/
def enclose (margin : Margin) (depth : Nat) (opening closing : Char) (parts : List (List Char)) : List Char :=
  if parts.isEmpty then [opening, closing]
  else
    [opening] ++ lineBreak margin (depth + 1) ++ (separator margin (depth + 1)).intercalate parts ++
      lineBreak margin depth ++ [closing]

mutual

/-- The text of a value at a depth. -/
def write (margin : Margin) (depth : Nat) : Data → Except Failure (List Char)
  | .null => .ok "null".toList
  | .bool value => .ok (writeBool value)
  | .int value => writeInt value
  | .real value => writeReal value
  | .text value => .ok (writeString value.toList)
  | .array items => return enclose margin depth '[' ']' (← writeItems margin (depth + 1) items)
  | .object fields => return enclose margin depth '\x7b' '\x7d' (← writeFields margin (depth + 1) fields)

def writeItems (margin : Margin) (depth : Nat) : List Data → Except Failure (List (List Char))
  | [] => .ok []
  | item :: rest => do
    let first ← write margin depth item
    return first :: (← writeItems margin depth rest)

def writeFields (margin : Margin) (depth : Nat) : List (Key × Data) → Except Failure (List (List Char))
  | [] => .ok []
  | (key, value) :: rest => do
    let name ← writeKey key
    let first ← write margin depth value
    return (name ++ [':', ' '] ++ first) :: (← writeFields margin depth rest)

end

/-- The JSON text of data. A text alone has no parts that could be indented. -/
def encode (indent : Option Indent) : Data → Except Failure String
  | .text value => .ok (String.ofList (writeString value.toList))
  | data => do
    let margin ← marginOf indent
    return String.ofList (← write margin 0 data)

end TypeCatalog.Json
