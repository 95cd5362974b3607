import TypeCatalog.Text.Printable

/-! Hexadecimal escapes, and quoted text as it stands in messages: between single quotes, or between double quotes if that
saves escaping the single quotes inside. -/

namespace TypeCatalog.Text

def lowerHexDigit (n : Nat) : Char := Char.ofNat (if n < 10 then 48 + n else 87 + n)

def upperHexDigit (n : Nat) : Char := Char.ofNat (if n < 10 then 48 + n else 55 + n)

/-- The last `width` hexadecimal digits of a number, most significant first. -/
def hex (digit : Nat → Char) : Nat → Nat → List Char
  | 0, _ => []
  | width + 1, n => hex digit width (n / 16) ++ [digit (n % 16)]

/-- The value of a hexadecimal digit of either case. -/
def hexValue? (c : Char) : Option Nat :=
  if '0' ≤ c && c ≤ '9' then some (c.toNat - 48)
  else if 'a' ≤ c && c ≤ 'f' then some (c.toNat - 87)
  else if 'A' ≤ c && c ≤ 'F' then some (c.toNat - 55)
  else none

/-- Reads exactly `width` hexadecimal digits after the number `value` read so far. -/
def takeHex (value : Nat) : Nat → List Char → Option (Nat × List Char)
  | 0, rest => some (value, rest)
  | _ + 1, [] => none
  | width + 1, c :: rest => (hexValue? c).bind fun digit => takeHex (16 * value + digit) width rest

/-- One character between the given quotes. Only printable characters stand for themselves. -/
def quotedChar (quote c : Char) : List Char :=
  let point := c.toNat
  if c == quote || c == '\\' then ['\\', c]
  else if c == '\n' then ['\\', 'n']
  else if c == '\r' then ['\\', 'r']
  else if c == '\t' then ['\\', 't']
  else if isPrintable c then [c]
  else if point < 0x100 then ['\\', 'x'] ++ hex lowerHexDigit 2 point
  else if point < 0x10000 then ['\\', 'u'] ++ hex lowerHexDigit 4 point
  else ['\\', 'U'] ++ hex lowerHexDigit 8 point

/-- The quote that surrounds a text: double if it holds single quotes and no double ones, else single. -/
def quoteFor (text : List Char) : Char :=
  if text.contains '\x27' && !text.contains '"' then '"' else '\x27'

/-- The text in quotes, with escapes inside. -/
def quoted (text : String) : String :=
  let chars := text.toList
  let quote := quoteFor chars
  String.ofList (quote :: chars.flatMap (quotedChar quote) ++ [quote])

end TypeCatalog.Text
