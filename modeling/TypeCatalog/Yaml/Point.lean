import TypeCatalog.Yaml.Style

/-! A place in a YAML text, with its line and column. -/

namespace TypeCatalog.Yaml

/-- A place in a text of some size: what comes next, and how far it is from the start of the text and of the line. -/
structure Point where
  rest : List Char
  size : Nat
  index : Nat := 0
  line : Nat := 0
  column : Nat := 0
  deriving Repr

namespace Point

def ofText (text : List Char) : Point := { rest := text, size := text.length }

/-- How many characters come next at most. -/
def left (point : Point) : Nat := point.size - point.index

/-- The character that comes next, or the one that comes some characters later. -/
def peek (point : Point) (ahead : Nat := 0) : Option Char := point.rest[ahead]?

def next (point : Point) (c : Char) : Bool := point.peek == some c

def atEnd (point : Point) : Bool := point.rest.isEmpty

def atBlank (point : Point) : Bool := point.peek.any isInlineBlank

def atBreak (point : Point) : Bool := point.peek.any isBreak

def atBreakOrEnd (point : Point) : Bool := point.atEnd || point.atBreak

/-- Whether a blank, a line break or the end is some characters ahead. -/
def blankAhead (point : Point) (ahead : Nat) : Bool := isBlankOrEnd (point.peek ahead)

/-- Goes over characters of a line. -/
def skip (point : Point) (count : Nat := 1) : Point :=
  { point with rest := point.rest.drop count, index := point.index + count, column := point.column + count }

/-- Goes over a line break, and gives the character that it stands for. A carriage return and a line feed are one. -/
def readBreak (point : Point) : List Char × Point :=
  let past (count : Nat) : Point :=
    { point with rest := point.rest.drop count, index := point.index + count, line := point.line + 1, column := 0 }
  match point.rest with
  | '\r' :: '\n' :: _ => (['\n'], past 2)
  | c :: _ =>
    if c == '\n' || c == '\r' || c == '\x85' then (['\n'], past 1)
    else if isBreak c then ([c], past 1)
    else ([], point)
  | [] => ([], point)

/-- Goes over the characters of a class. -/
def skipWhile (point : Point) (accepts : Char → Bool) : Point := point.skip (point.rest.takeWhile accepts).length

/-- Goes over a comment and to the end of the line. -/
def skipComment (point : Point) : Point :=
  if point.next '#' then point.skipWhile (!isBreak ·) else point

/-- Whether a line starts here with three characters that separate documents. -/
def atSeparator (point : Point) (c : Char) : Bool :=
  point.column == 0 && point.rest.take 3 == [c, c, c] && point.blankAhead 3

/-- Whether a document starts or ends here. -/
def atDocumentMark (point : Point) : Bool := point.atSeparator '-' || point.atSeparator '.'

end Point

end TypeCatalog.Yaml
