import TypeCatalog.Definition.Basic
import TypeCatalog.Failure
import TypeCatalog.Source.Cursor

/-! Reading definitions. The grammar is

    Definition = Name "::=" ["[" "APPLICATION" Int "]"] Type
    Type       = ["SEQUENCE" ["SIZE" "(" Int ")"] "OF"] BaseType
                 [["("] "SIZE" Constraint [")"]] [Constraint] [ItemList]
    ItemList   = "{" Item ("," Item)* ["," "..."] "}"
    Item       = LowerName ("(" Int ")" | ["[" Int "]"] Type ["OPTIONAL"])
    Constraint = "(" Bound [".." Bound] ")"
    Bound      = "MIN" | "MAX" | Number

Types and item lists nest, so their readers take a count of steps that is bounded by the length of the text: every step
reads at least one character. -/

namespace TypeCatalog.Source
open Text (Scan)

/-- A reader moves a cursor and gives a value, or stops. -/
abbrev Read := StateT Cursor (Except Fault)

namespace Read

def skip : Read Skip := fun cursor => .ok cursor.skip

/-- Reads a form if it comes next. -/
def attempt {α : Type} (scan : Scan α) : Read (Option (Token α)) := fun cursor =>
  match cursor.take? scan with
  | some (token, next) => .ok (some token, next)
  | none => .ok (none, cursor)

/-- Reads a form that has to come next. -/
def form {α : Type} (pattern : Pattern) (scan : Scan α) : Read (Token α) := fun cursor =>
  cursor.require (.pattern pattern) scan

/-- Reads characters that have to come next. -/
def mark (text : String) : Read (Token Unit) := fun cursor =>
  cursor.require (.literal text) (Scan.literal text.toList)

/-- Stops with a cause at an offset. -/
def reject {α : Type} (cause : Cause) (offset : Nat) : Read α := fun _ => .error (.rejected cause offset)

/-- Stops with a cause at the current position. -/
def rejectHere {α : Type} (cause : Cause) : Read α := fun cursor => .error (.rejected cause cursor.offset)

/-- The number that digits spell. -/
def natural (digits : List Char) : Read Nat := fun cursor =>
  match readNat? digits with
  | some n => .ok (n, cursor)
  | none => .error .tooManyDigits

/-- The bound that a text spells: a number with a point is rounded, one without is exact. -/
def bound (text : List Char) : Read Bound := do
  if text == "MIN".toList then return .lowest
  if text == "MAX".toList then return .highest
  let (negative, body) := Decimal.takeSign text
  if body.contains '.' then
    let whole := body.takeWhile (· != '.')
    let fraction := (body.dropWhile (· != '.')).drop 1
    return .real (Decimal.ofDigits negative whole fraction 0).toDouble
  let value ← natural body
  return .int (if negative then -(value : Int) else value)

/-- The range of a matched constraint. One bound stands for both. -/
def range (token : Token (List Char × Option (List Char))) : Read Range := do
  let low ← bound token.value.1
  let high ← match token.value.2 with
    | some text => bound text
    | none => pure low
  if high.lt low then reject (.invertedRange low high) token.offset
  return ⟨low, high⟩

/-- `SEQUENCE OF`, if it comes next. -/
def series : Read (Option Series) := do
  match ← attempt Form.series with
  | none => return none
  | some token => match token.value with
    | none => return some .unbounded
    | some digits => return some (.counted (← natural digits))

/-- The base type. Keywords stand for the kinds they name. -/
def baseType : Read String := do
  if (← attempt Form.anyType).isSome then return Kind.any.typeName
  if (← attempt Form.enumerated).isSome then return Kind.enumerated.typeName
  if (← attempt Form.bitString).isSome then return Kind.bitString.typeName
  if (← attempt Form.octetString).isSome then return Kind.octetString.typeName
  let token ← form .typeName Form.typeName
  return String.ofList token.value

/-- `SIZE` with its constraint, in parentheses or not, if it comes next. -/
def size : Read (Option Range) := do
  match ← attempt Form.size with
  | none => return none
  | some token =>
    let size ← range (← form .constraint Form.constraint)
    if token.value then
      let _ ← mark ")"
    return some size

/-- A constraint, if it comes next. -/
def valueRange : Read (Option Range) := do
  match ← attempt Form.constraint with
  | none => return none
  | some token => return some (← range token)

/-- A number in the given form, if it comes next. -/
def number (scan : Scan (List Char)) : Read (Option Int) := do
  match ← attempt scan with
  | none => return none
  | some token => return some (← natural token.value)

/-- An item list: its items, whether it is open to more, and the comment in front of its end. -/
structure ItemList where
  items : List Item
  extensible : Bool
  comment : Option String

/-- The rest of an item with a number only. -/
def valueItem (name : String) (comment : Option String) : Read Item := do
  let token ← form .itemNumber Form.itemNumber
  return { name, number := some ((← natural token.value) : Int), comment }

mutual

/-- A type. A comment in front of the end of its item list belongs to it. -/
def type : Nat → Read Shape
  | 0 => rejectHere (.missing (.pattern .typeName))
  | steps + 1 => do
    let series ← series
    let base ← baseType
    let size ← size
    let range ← valueRange
    let list ← itemList steps base
    return {
      type := base, series, size, range
      items := list.map (·.items)
      extensible := list.any (·.extensible)
      comment := list.bind (·.comment) }

/-- The item list of a type, if one comes next. -/
def itemList : Nat → String → Read (Option ItemList)
  | 0, _ => rejectHere (.missing (.literal "\x7d"))
  | steps + 1, base => do
    if (← attempt (Scan.literal ['\x7b'])).isNone then return none
    match Kind.ofTypeName? base with
    | some kind =>
      if !kind.isSimple && !kind.isComplex then rejectHere (.noItems base)
      let (items, extensible) ← items steps kind
      let closing ← mark "\x7d"
      return some ⟨items, extensible, closing.comment⟩
    | none => rejectHere (.noItems base)

/-- Items up to the end of their list, and whether they end in an ellipsis. -/
def items : Nat → Kind → Read (List Item × Bool)
  | 0, _ => rejectHere (.missing (.pattern .itemName))
  | steps + 1, kind => do
    let skipped ← skip
    if !skipped.more then return ([], false)
    let name ← form .itemName Form.itemName
    let item ← if kind.isSimple then valueItem (String.ofList name.value) skipped.comment
      else typedItem steps (String.ofList name.value) skipped.comment
    if (← attempt (Scan.literal [','])).isNone then return ([item], false)
    if kind != .sequence then
      if (← attempt (Scan.literal ['.', '.', '.'])).isSome then return ([item], true)
    let (more, extensible) ← items steps kind
    return (item :: more, extensible)

/-- The rest of an item with a type, after its name. -/
def typedItem : Nat → String → Option String → Read Item
  | 0, _, _ => rejectHere (.missing (.pattern .typeName))
  | steps + 1, name, comment => do
    let tag ← number Form.contextTag
    let shape ← type steps
    let isOptional ← attempt Form.optional
    return {
      name, number := tag, optional := isOptional.isSome, type := some shape.type, series := shape.series
      size := shape.size, range := shape.range, items := shape.items, extensible := shape.extensible
      comment := shape.comment.or comment }

end

/-- A definition. The comment in front of it is its own unless its item list has one. -/
def definition (steps : Nat) (comment : Option String) : Read Definition := do
  let header ← form .header Form.header
  let primitive ← number Form.application
  let shape ← type steps
  return { shape with name := String.ofList header.value, primitive, comment := shape.comment.or comment }

/-- All definitions up to the end of the text. -/
def definitions : Nat → Read (List Definition)
  | 0 => rejectHere (.missing (.pattern .header))
  | steps + 1 => do
    let skipped ← skip
    if !skipped.more then return []
    let first ← definition (2 * steps) skipped.comment
    return first :: (← definitions steps)

end Read

/-- Line ends as single line feeds. -/
def unifyLineEnds : List Char → List Char
  | '\r' :: '\n' :: rest => '\n' :: unifyLineEnds rest
  | '\r' :: rest => '\n' :: unifyLineEnds rest
  | c :: rest => c :: unifyLineEnds rest
  | [] => []

/-- The notation is written in printable ASCII, tabs and line feeds. -/
def isAllowed (c : Char) : Bool := c == '\t' || c == '\n' || (' ' ≤ c && c ≤ '~')

/-- The definitions in a text with unified line ends. -/
def readContent (content : List Char) : Except Fault (List Definition) :=
  match content.findIdx? (!isAllowed ·) with
  | some offset => .error (.rejected .invalidCharacters offset)
  | none => match Read.definitions (content.length + 1) (.ofText content) with
    | .ok (definitions, _) => .ok definitions
    | .error fault => .error fault

/-- The definitions in a source text. Positions of errors refer to the text with unified line ends. -/
def parse (text : String) : Except Failure (List Definition) :=
  let content := unifyLineEnds text.toList
  match readContent content with
  | .ok definitions => .ok definitions
  | .error (.rejected cause offset) => .error (.source (.ofCause content cause offset))
  | .error .tooManyDigits => .error .tooManyDigits

end TypeCatalog.Source
