import TypeCatalog.Failure
import TypeCatalog.Text.Escape

/-! Data from JSON text. Numbers are unbounded integers unless they have a fraction or an exponent; the words `NaN`,
`Infinity` and `-Infinity` are accepted as numbers. Of several fields with one key the last one counts, at the place of
the first. -/

namespace TypeCatalog.Json

def isSpace (c : Char) : Bool := c == ' ' || c == '\t' || c == '\n' || c == '\r'

def skipSpace (text : List Char) : List Char := text.dropWhile isSpace

/-- The code point of an escape with one letter. -/
def escapeValue? : Char → Option Nat
  | '"' => some 0x22
  | '\\' => some 0x5C
  | '/' => some 0x2F
  | 'b' => some 8
  | 'f' => some 12
  | 'n' => some 10
  | 'r' => some 13
  | 't' => some 9
  | _ => none

/-- The value of four hexadecimal digits. -/
def unit? (a b c d : Char) : Option Nat := (Text.takeHex 0 4 [a, b, c, d]).map (·.1)

/-- The code points and escaped units of a string up to its closing quote, and the text after it. -/
def readUnits : List Char → Option (List Nat × List Char)
  | [] => none
  | '"' :: rest => some ([], rest)
  | '\\' :: 'u' :: a :: b :: c :: d :: rest => do
    let unit ← unit? a b c d
    let (units, rest) ← readUnits rest
    return (unit :: units, rest)
  | '\\' :: c :: rest => do
    let unit ← escapeValue? c
    let (units, rest) ← readUnits rest
    return (unit :: units, rest)
  | c :: rest => do
    if c.toNat < 0x20 then none
    let (units, rest) ← readUnits rest
    return (c.toNat :: units, rest)

/-- The character of a unit on its own. Half of a pair has none: its place is taken by the replacement character, which
departs from readers whose texts may hold such halves. -/
def charOf (unit : Nat) : Char := if 0xD800 ≤ unit && unit < 0xE000 then '\ufffd' else Char.ofNat unit

/-- The characters that units spell. Two units that make a pair spell one character. -/
def joinUnits : List Nat → List Char
  | [] => []
  | high :: low :: rest =>
    if 0xD800 ≤ high && high < 0xDC00 && 0xDC00 ≤ low && low < 0xE000 then
      Char.ofNat (0x10000 + (high - 0xD800) * 0x400 + (low - 0xDC00)) :: joinUnits rest
    else charOf high :: joinUnits (low :: rest)
  | [unit] => [charOf unit]

/-- A string after its opening quote. -/
def readString (text : List Char) : Except Failure (String × List Char) :=
  match readUnits text with
  | some (units, rest) => .ok (String.ofList (joinUnits units), rest)
  | none => .error .jsonMalformed

/-- The digits of a whole number: a zero alone, or digits without a zero in front. -/
def takeWhole : List Char → Option (List Char × List Char)
  | '0' :: rest => some (['0'], rest)
  | text =>
    let digits := text.takeWhile Char.isDigit
    if digits.isEmpty then none else some (digits, text.dropWhile Char.isDigit)

/-- The digits of a fraction, if there is one. -/
def takeFraction : List Char → Option (List Char × List Char)
  | '.' :: rest =>
    let digits := rest.takeWhile Char.isDigit
    if digits.isEmpty then none else some (digits, rest.dropWhile Char.isDigit)
  | _ => none

/-- The exponent, if there is one. -/
def takeExponent : List Char → Option (Int × List Char)
  | [] => none
  | mark :: rest =>
    if mark == 'e' || mark == 'E' then
      let (negative, tail) := Decimal.takeSign rest
      let digits := tail.takeWhile Char.isDigit
      if digits.isEmpty then none
      else
        let value : Int := Text.digitsValue digits
        some (if negative then -value else value, tail.dropWhile Char.isDigit)
    else none

/-- A number. -/
def readNumber (text : List Char) : Except Failure (Data × List Char) :=
  let (negative, body) := match text with
    | '-' :: rest => (true, rest)
    | _ => (false, text)
  match takeWhole body with
  | none => .error .jsonMalformed
  | some (whole, rest) =>
    let fraction := takeFraction rest
    let rest := (fraction.map (·.2)).getD rest
    let exponent := takeExponent rest
    let rest := (exponent.map (·.2)).getD rest
    if fraction.isNone && exponent.isNone then
      match readNat? whole with
      | some n => .ok (.int (if negative then -(n : Int) else n), rest)
      | none => .error .tooManyDigits
    else
      let places := (fraction.map (·.1)).getD []
      let power := (exponent.map (·.1)).getD 0
      .ok (.real (Decimal.ofDigits negative whole places power).toDouble, rest)

/-- The words that stand for values. -/
def words : List (String × Data) :=
  [("null", .null), ("true", .bool true), ("false", .bool false), ("NaN", .real .nan),
   ("Infinity", .real (.infinite false)), ("-Infinity", .real (.infinite true))]

/-- A word, if one comes next. -/
def readWord? (text : List Char) : Option (Data × List Char) :=
  words.findSome? fun (word, value) => (word.toList.isPrefixOf? text).map fun rest => (value, rest)

mutual

/-- A value at the front of a text without space in front of it. The steps bound the calls; every second one reads a
character. -/
def readValue : Nat → List Char → Except Failure (Data × List Char)
  | 0, _ => .error .jsonMalformed
  | steps + 1, text =>
    match text with
    | '"' :: rest => do
      let (value, rest) ← readString rest
      return (.text value, rest)
    | '\x7b' :: rest =>
      match skipSpace rest with
      | '\x7d' :: rest => .ok (.object [], rest)
      | rest => do
        let (fields, rest) ← readFields steps rest
        return (.object (Fields.ofList fields), rest)
    | '[' :: rest =>
      match skipSpace rest with
      | ']' :: rest => .ok (.array [], rest)
      | rest => do
        let (items, rest) ← readItems steps rest
        return (.array items, rest)
    | text => match readWord? text with
      | some result => .ok result
      | none => readNumber text

/-- The items of an array up to its end. -/
def readItems : Nat → List Char → Except Failure (List Data × List Char)
  | 0, _ => .error .jsonMalformed
  | steps + 1, text => do
    let (item, rest) ← readValue steps text
    match skipSpace rest with
    | ',' :: rest =>
      let (items, rest) ← readItems steps (skipSpace rest)
      return (item :: items, rest)
    | ']' :: rest => return ([item], rest)
    | _ => throw .jsonMalformed

/-- The fields of an object up to its end. -/
def readFields : Nat → List Char → Except Failure (List (Key × Data) × List Char)
  | 0, _ => .error .jsonMalformed
  | steps + 1, text =>
    match text with
    | '"' :: rest => do
      let (name, rest) ← readString rest
      match skipSpace rest with
      | ':' :: rest =>
        let (value, rest) ← readValue steps (skipSpace rest)
        match skipSpace rest with
        | ',' :: rest =>
          let (fields, rest) ← readFields steps (skipSpace rest)
          return ((.text name, value) :: fields, rest)
        | '\x7d' :: rest => return ([(.text name, value)], rest)
        | _ => throw .jsonMalformed
      | _ => throw .jsonMalformed
    | _ => .error .jsonMalformed

end

/-- The data that a JSON text spells. -/
def decode (text : String) : Except Failure Data := do
  let chars := text.toList
  let (value, rest) ← readValue (2 * chars.length + 2) (skipSpace chars)
  if (skipSpace rest).isEmpty then return value else throw .jsonMalformed

end TypeCatalog.Json
