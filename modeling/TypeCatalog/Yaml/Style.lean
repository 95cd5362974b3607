import TypeCatalog.Text.Escape
import TypeCatalog.Yaml.Scalar
import TypeCatalog.Yaml.Sheet

/-! How a scalar is written: plain if it can be, else between single quotes, and between double quotes if it needs
escapes. Long scalars are folded at single spaces. -/

namespace TypeCatalog.Yaml
open Text

/-- The column after which a scalar is folded. -/
def bestWidth : Nat := 80

/-- The greatest length in bytes of a key that is written on one line with its value. -/
def maxKeyLength : Nat := 128

inductive Style where
  | plain
  | single
  | double
  deriving DecidableEq, Repr

def isBreak (c : Char) : Bool :=
  c == '\n' || c == '\r' || c == '\x85' || c == '\u2028' || c == '\u2029'

/-- A character after which a word ends: a blank, a line break, or none at all. -/
def isBlankOrEnd : Option Char → Bool
  | none => true
  | some c => c == ' ' || c == '\t' || c == '\x00' || isBreak c

/-- A character that only an escape can write. -/
def needsEscape (c : Char) : Bool := !(c == '\n' || (' ' ≤ c && c ≤ '~'))

/-- Marks that no plain scalar starts with. -/
def startMarks : List Char :=
  ['#', ',', '[', ']', '\x7b', '\x7d', '&', '*', '!', '|', '>', '\x27', '"', '%', '@', '\x60']

/-- Whether the start of a text would be read as a mark. -/
def startsWithMark : List Char → Bool
  | [] => false
  | c :: rest =>
    startMarks.contains c || ((c == '?' || c == ':' || c == '-') && isBlankOrEnd rest.head?) ||
      (c == '-' && rest.take 2 == ['-', '-']) || (c == '.' && rest.take 2 == ['.', '.'])

/-- Whether a text holds a colon that ends a key, or a number sign that starts a comment, after its first character. -/
def holdsMark : List Char → Bool
  | a :: b :: rest =>
    (b == ':' && isBlankOrEnd rest.head?) || (b == '#' && isBlankOrEnd (some a)) || holdsMark (b :: rest)
  | _ => false

/-- Whether a character of one class is followed by one of another. -/
def holdsPair (first second : Char → Bool) : List Char → Bool
  | a :: b :: rest => (first a && second b) || holdsPair first second (b :: rest)
  | _ => false

def isEdge (c : Char) : Bool := c == ' ' || isBreak c

/-- Whether a text can stand as a plain scalar. -/
def canBePlain (text : List Char) : Bool :=
  !startsWithMark text && !holdsMark text && !text.any needsEscape && !text.any isBreak &&
    !text.head?.any isEdge && !text.getLast?.any isEdge

/-- Whether a text can stand between single quotes: no escapes, and no space next to a line break. -/
def canBeSingle (text : List Char) : Bool :=
  !text.any needsEscape && !holdsPair isBreak (· == ' ') text && !holdsPair (· == ' ') isBreak text

/-- The style of a text. A text that would be read as something else is quoted. -/
def styleOf (text : List Char) : Style :=
  if canBePlain text && resolve text == .text then .plain
  else if canBeSingle text then .single
  else .double

/-- Whether a text is short enough to be a key on one line. -/
def isSimpleKey (text : List Char) : Bool :=
  !text.any isBreak && text.foldl (fun size c => size + c.utf8Size) 0 ≤ maxKeyLength

/-- The letter of a short escape. -/
def shortEscape? (c : Char) : Option Char :=
  match c.toNat with
  | 0x00 => some '0'
  | 0x07 => some 'a'
  | 0x08 => some 'b'
  | 0x09 => some 't'
  | 0x0A => some 'n'
  | 0x0B => some 'v'
  | 0x0C => some 'f'
  | 0x0D => some 'r'
  | 0x1B => some 'e'
  | 0x22 => some '"'
  | 0x5C => some '\\'
  | 0x85 => some 'N'
  | 0xA0 => some '_'
  | 0x2028 => some 'L'
  | 0x2029 => some 'P'
  | _ => none

def escape (c : Char) : List Char :=
  match shortEscape? c with
  | some letter => ['\\', letter]
  | none =>
    let point := c.toNat
    if point < 0x100 then ['\\', 'x'] ++ hex upperHexDigit 2 point
    else if point < 0x10000 then ['\\', 'u'] ++ hex upperHexDigit 4 point
    else ['\\', 'U'] ++ hex upperHexDigit 8 point

namespace Sheet

/-- Whether a space can be replaced by a line break: the line is full, and the space is the only one here. -/
def canFold (sheet : Sheet) (allowBreaks afterSpace : Bool) : Bool :=
  allowBreaks && !afterSpace && bestWidth < sheet.column

/-- The characters of a plain scalar. -/
def plainChars (indent : Nat) (allowBreaks : Bool) (afterSpace : Bool) : List Char → Sheet → Sheet
  | [], sheet => sheet
  | c :: rest, sheet =>
    if c == ' ' then
      let sheet := if sheet.canFold allowBreaks afterSpace && rest.head? != some ' ' then sheet.indent indent
        else sheet.put c
      plainChars indent allowBreaks true rest sheet
    else plainChars indent allowBreaks false rest { sheet.put c with indented := false }

def plain (sheet : Sheet) (indent : Nat) (allowBreaks : Bool) (text : List Char) : Sheet :=
  let sheet := if !sheet.spaced && !text.isEmpty then sheet.put ' ' else sheet
  (plainChars indent allowBreaks false text sheet).close

/-- The characters between single quotes. A line break is written as two, and a quote is doubled. -/
def singleChars (indent : Nat) (allowBreaks : Bool) (isFirst afterSpace afterBreak : Bool) : List Char → Sheet → Sheet
  | [], sheet => if afterBreak then sheet.indent indent else sheet
  | c :: rest, sheet =>
    if c == ' ' then
      let folds := sheet.canFold allowBreaks afterSpace && !isFirst && !rest.isEmpty && rest.head? != some ' '
      let sheet := if folds then sheet.indent indent else sheet.put c
      singleChars indent allowBreaks false true afterBreak rest sheet
    else if c == '\n' then
      let sheet := if afterBreak then sheet else sheet.breakLine
      singleChars indent allowBreaks false afterSpace true rest { sheet.breakLine with indented := true }
    else
      let sheet := if afterBreak then sheet.indent indent else sheet
      let sheet := if c == '\x27' then sheet.put c else sheet
      singleChars indent allowBreaks false false false rest { sheet.put c with indented := false }

def single (sheet : Sheet) (indent : Nat) (allowBreaks : Bool) (text : List Char) : Sheet :=
  let sheet := sheet.mark ['\x27'] true false false
  let sheet := singleChars indent allowBreaks true false false text sheet
  (sheet.mark ['\x27'] false false false).close

/-- The characters between double quotes. A fold in front of further spaces keeps them by a backslash. -/
def doubleChars (indent : Nat) (allowBreaks : Bool) (isFirst afterSpace : Bool) : List Char → Sheet → Sheet
  | [], sheet => sheet
  | c :: rest, sheet =>
    if needsEscape c || isBreak c || c == '"' || c == '\\' then
      doubleChars indent allowBreaks false false rest (sheet.putAll (escape c))
    else if c == ' ' then
      if sheet.canFold allowBreaks afterSpace && !isFirst && !rest.isEmpty then
        let sheet := sheet.indent indent
        let sheet := if rest.head? == some ' ' then sheet.put '\\' else sheet
        doubleChars indent allowBreaks false true rest sheet
      else doubleChars indent allowBreaks false true rest (sheet.put c)
    else doubleChars indent allowBreaks false false rest (sheet.put c)

def double (sheet : Sheet) (indent : Nat) (allowBreaks : Bool) (text : List Char) : Sheet :=
  let sheet := sheet.mark ['"'] true false false
  let sheet := doubleChars indent allowBreaks true false text sheet
  (sheet.mark ['"'] false false false).close

/-- A scalar in its style. Keys that stand on one line are not folded. -/
def scalar (sheet : Sheet) (indent : Nat) (isKey : Bool) (style : Style) (text : List Char) : Sheet :=
  match style with
  | .plain => sheet.plain indent (!isKey) text
  | .single => sheet.single indent (!isKey) text
  | .double => sheet.double indent (!isKey) text

end Sheet

end TypeCatalog.Yaml
