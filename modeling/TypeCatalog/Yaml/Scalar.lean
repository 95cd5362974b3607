import TypeCatalog.Failure
import TypeCatalog.Text.Escape
import TypeCatalog.Text.Lower
import TypeCatalog.Text.Scan

/-! The meaning of plain YAML scalars. A scalar that is not quoted may be a null, a truth value or a number; every other
one is text. Numbers may have underscores between their digits, integers may be binary, octal, hexadecimal or in base 60,
and floating point numbers may be in base 60 too. -/

namespace TypeCatalog.Yaml
open Text

/-- What a plain scalar stands for. -/
inductive Tag where
  | null
  | bool
  | int
  | real
  | text
  /-- A date, with a time of day or without. -/
  | timestamp
  /-- `<<`, which merges mappings. -/
  | merge
  /-- `=`, the default value of a mapping. -/
  | default
  /-- An indicator that stands alone. -/
  | indicator
  deriving DecidableEq, Repr, Inhabited

def nullWords : List String := ["~", "null", "Null", "NULL", ""]

def trueWords : List String := ["yes", "Yes", "YES", "true", "True", "TRUE", "on", "On", "ON"]

def falseWords : List String := ["no", "No", "NO", "false", "False", "FALSE", "off", "Off", "OFF"]

def infinityWords : List String := [".inf", ".Inf", ".INF"]

def nanWords : List String := [".nan", ".NaN", ".NAN"]

def isOneOf (words : List String) (text : List Char) : Bool := words.any (·.toList == text)

/-- Digits and underscores. -/
def isSpaced (digit : Char → Bool) (c : Char) : Bool := digit c || c == '_'

/-- Text that starts with a digit and goes on with digits and underscores. -/
def isSpacedNumber : List Char → Bool
  | [] => false
  | c :: rest => c.isDigit && rest.all (isSpaced Char.isDigit)

/-- Parts between colons. -/
def colonParts (text : List Char) : List (List Char) := text.splitOn ':'

/-- A digit of base 60. -/
def isSixtieth : List Char → Bool
  | [c] => c.isDigit
  | [a, b] => '0' ≤ a && a ≤ '5' && b.isDigit
  | _ => false

/-- A number of at least two parts in base 60. -/
def isSexagesimal (text : List Char) : Bool :=
  match colonParts text with
  | whole :: part :: parts => isSpacedNumber whole && (part :: parts).all isSixtieth
  | _ => false

/-- An integer without its sign. -/
def isUnsignedInt : List Char → Bool
  | ['0'] => true
  | '0' :: 'b' :: bits => !bits.isEmpty && bits.all (isSpaced fun c => c == '0' || c == '1')
  | '0' :: 'x' :: digits => !digits.isEmpty && digits.all (isSpaced fun c => (hexValue? c).isSome)
  | '0' :: digits => !digits.isEmpty && digits.all (isSpaced fun c => '0' ≤ c && c ≤ '7')
  | text => isSpacedNumber text || isSexagesimal text

/-- The power of ten of a floating point number, which must have a sign. It may be missing. -/
def isPower : List Char → Bool
  | [] => true
  | mark :: sign :: digits =>
    (mark == 'e' || mark == 'E') && (sign == '+' || sign == '-') && !digits.isEmpty && digits.all Char.isDigit
  | _ => false

/-- The part of a floating point number after the point. -/
def isFraction (text : List Char) : Bool := isPower (text.dropWhile (isSpaced Char.isDigit))

/-- A floating point number without its sign. A number that starts with its point has no sign. -/
def isUnsignedReal (signed : Bool) (text : List Char) : Bool :=
  let whole := text.takeWhile (· != '.')
  match text.dropWhile (· != '.') with
  | [] => false
  | _ :: fraction =>
    if whole.isEmpty then
      isOneOf infinityWords text ||
        (!signed && (isOneOf nanWords text || (fraction.head?.any Char.isDigit && isFraction fraction)))
    else (isSpacedNumber whole && isFraction fraction) ||
      (isSexagesimal whole && fraction.all (isSpaced Char.isDigit))

def digit : Scan Unit := fun text =>
  match text with
  | c :: rest => if c.isDigit then some ⟨(), [c], rest⟩ else none
  | [] => none

def oneOrTwoDigits : Scan Unit := do
  digit
  let _ ← Scan.optionally digit
  return ()

def twoDigits : Scan Unit := do
  digit
  digit

/-- A full date alone. -/
def date : Scan Unit := do
  twoDigits
  twoDigits
  Scan.literal ['-']
  twoDigits
  Scan.literal ['-']
  twoDigits

def isInlineBlank (c : Char) : Bool := c == ' ' || c == '\t'

def zone : Scan Unit := do
  let _ ← Scan.allOf isInlineBlank
  Scan.either (Scan.literal ['Z']) (do
    Scan.either (Scan.literal ['+']) (Scan.literal ['-'])
    oneOrTwoDigits
    let _ ← Scan.optionally (do Scan.literal [':']; twoDigits)
    return ())

/-- A date with a time of day. -/
def moment : Scan Unit := do
  twoDigits
  twoDigits
  Scan.literal ['-']
  oneOrTwoDigits
  Scan.literal ['-']
  oneOrTwoDigits
  Scan.either (Scan.either (Scan.literal ['T']) (Scan.literal ['t'])) (do let _ ← Scan.someOf isInlineBlank; return ())
  oneOrTwoDigits
  Scan.literal [':']
  twoDigits
  Scan.literal [':']
  twoDigits
  let _ ← Scan.optionally (do Scan.literal ['.']; let _ ← Scan.allOf Char.isDigit; return ())
  let _ ← Scan.optionally zone
  return ()

def isTimestamp (text : List Char) : Bool :=
  let whole (scan : Scan Unit) := (scan text).any (·.rest.isEmpty)
  whole date || whole moment

/-- Whether a text starts with a sign. -/
def isSigned (text : List Char) : Bool := text.head?.any fun c => c == '+' || c == '-'

/-- What a plain scalar stands for. -/
def resolve (text : List Char) : Tag :=
  let body := (Decimal.takeSign text).2
  if isOneOf trueWords text || isOneOf falseWords text then .bool
  else if isUnsignedReal (isSigned text) body then .real
  else if isUnsignedInt body then .int
  else if text == ['<', '<'] then .merge
  else if isOneOf nullWords text then .null
  else if isTimestamp text then .timestamp
  else if text == ['='] then .default
  else if text == ['!'] || text == ['&'] || text == ['*'] then .indicator
  else .text

/-- The value of digits in a base. There must be digits, and nothing else. -/
def inBase (base : Nat) (digits : List Char) : Except Failure Nat :=
  if digits.isEmpty || !digits.all fun c => (hexValue? c).any (· < base) then .error .notNumber
  else .ok (digits.foldl (fun value c => base * value + (hexValue? c).getD 0) 0)

/-- The value of decimal digits, unless there are too many. -/
def decimal (digits : List Char) : Except Failure Nat :=
  if digits.isEmpty || !digits.all Char.isDigit then .error .notNumber
  else match readNat? digits with
    | some n => .ok n
    | none => .error .tooManyDigits

/-- The integer that a scalar spells. Its digits may all be underscores, and then it has no value. -/
def intValue (text : List Char) : Except Failure Int := do
  let (negative, body) := Decimal.takeSign (text.filter (· != '_'))
  let value ← match body with
    | ['0'] => pure 0
    | '0' :: 'b' :: bits => inBase 2 bits
    | '0' :: 'x' :: digits => inBase 16 digits
    | '0' :: digits => inBase 8 digits
    | body => do
      let parts ← (colonParts body).mapM decimal
      pure (parts.foldl (fun value part => 60 * value + part) 0)
  return if negative then -(value : Int) else value

/-- The sum of parts in base 60, least first, rounded at every step. The scale of every part must fit. -/
def sixtieths (scale : Int) (sum : Double) : List Double → Except Failure Double
  | [] => .ok sum
  | part :: rest =>
    if Double.overflows scale then .error .overflow
    else sixtieths (60 * scale) (sum.add (part.mul (.ofInt scale))) rest

/-- The floating point number that a scalar spells. -/
def realValue (text : List Char) : Except Failure Double := do
  let (negative, body) := Decimal.takeSign (text.filter (· != '_'))
  if isOneOf infinityWords body then return .infinite negative
  if isOneOf nanWords body then return .nan
  let parts ← (colonParts body).mapM fun part => match Decimal.unsigned? false part with
    | some number => pure number.toDouble
    | none => throw .notNumber
  let value ← match parts with
    | [value] => pure value
    | parts => sixtieths 1 (.zero false) parts.reverse
  return if negative then value.neg else value

/-- The value of a scalar of the given meaning. -/
def scalarValue (tag : Tag) (text : List Char) : Except Failure Key :=
  match tag with
  | .null => .ok .null
  | .bool =>
    let word := lower text
    if isOneOf trueWords word then .ok (.bool true)
    else if isOneOf falseWords word then .ok (.bool false)
    else .error (.missingKey (.text (String.ofList word)))
  | .int => return .int (← intValue text)
  | .real => return .real (← realValue text)
  | .text | .default => .ok (.text (String.ofList text))
  | .timestamp | .merge | .indicator => .error .yamlMalformed

end TypeCatalog.Yaml
