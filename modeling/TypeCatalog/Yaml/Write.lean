import TypeCatalog.Data.Convert
import TypeCatalog.Data.Reference
import TypeCatalog.Yaml.Style

/-! YAML text of data, in block style. Sequences inside mappings are not indented further, and the marks of block
collections are padded to the indentation. A collection that occurs several times is written once, with an anchor that
its other occurrences refer to. -/

namespace TypeCatalog.Yaml

/-- The indentation that is used for a wanted one. -/
def indentStep : Option Indent → Except Failure Nat
  | none => .ok 2
  | some (.width count) =>
    if !Indent.fits 32 count then .error .overflow
    else .ok (if 2 ≤ count && count ≤ 9 then count.toNat else 2)
  | some _ => .error .illTyped

/-- The text of a floating point number. A number with an exponent has a point. -/
def realText : Double → List Char
  | .nan => ".nan".toList
  | .infinite negative => if negative then "-.inf".toList else ".inf".toList
  | value =>
    let text := value.text.toList
    if text.contains '.' then text
    else text.takeWhile (· != 'e') ++ (if text.contains 'e' then ['.', '0'] else []) ++ text.dropWhile (· != 'e')

/-- A node to be written: text is quoted where needed, other scalars are plain, and collections nest. -/
inductive Node where
  | scalar (style : Style) (text : List Char)
  | sequence (anchor : Option (List Char)) (items : List Node)
  | mapping (anchor : Option (List Char)) (fields : List ((Style × List Char) × Node))
  /-- A reference to a collection with an anchor. -/
  | alias (name : List Char)

/-- The style and the text of a scalar. -/
def scalarText : Key → Style × List Char
  | .null => (.plain, "null".toList)
  | .bool value => (.plain, if value then "true".toList else "false".toList)
  | .int value => (.plain, intDigits value)
  | .real value => (.plain, realText value)
  | .text value => (styleOf value.toList, value.toList)

section Anchors

variable {μ : Type} [BEq μ]

/-- The marks met so far, and those that were met again, last first. -/
structure Survey (μ : Type) where
  met : List μ := []
  metAgain : List μ := []

/-- Notes a mark. A collection that was met before is not entered again. -/
def Survey.visit (survey : Survey μ) (mark : Option μ) (enter : Survey μ → Survey μ) : Survey μ :=
  match mark with
  | none => enter survey
  | some mark =>
    if !survey.met.contains mark then enter { survey with met := mark :: survey.met }
    else if survey.metAgain.contains mark then survey
    else { survey with metAgain := mark :: survey.metAgain }

mutual

/-- Goes through data in the order of writing. -/
def survey : Marked μ → Survey μ → Survey μ
  | .scalar _, state => state
  | .array mark items, state => state.visit mark (surveyList items)
  | .object mark fields, state => state.visit mark (surveyFields fields)
  | .reference mark, state => state.visit (some mark) id

def surveyList : List (Marked μ) → Survey μ → Survey μ
  | [], state => state
  | item :: rest, state => surveyList rest (survey item state)

def surveyFields : List (Key × Marked μ) → Survey μ → Survey μ
  | [], state => state
  | (_, value) :: rest, state => surveyFields rest (survey value state)

end

/-- The name of an anchor: its number with at least three digits. -/
def anchorName (number : Nat) : List Char :=
  let digits := natDigits number
  ['i', 'd'] ++ List.replicate (3 - digits.length) '0' ++ digits

/-- The anchor of a mark, if the mark occurs again. Anchors are numbered in the order in which marks occur again. -/
def anchorOf (repeated : List μ) (mark : Option μ) : Option (List Char) :=
  (mark.bind repeated.idxOf?).map fun index => anchorName (index + 1)

/-- The marks of collections that are written already. -/
abbrev Written (μ : Type) := List μ

/-- The node of a collection, which is an alias if the collection is written already. -/
def nodeOnce (repeated : List μ) (mark : Option μ) (written : Written μ)
    (node : Option (List Char) → Written μ → Node × Written μ) : Node × Written μ :=
  match anchorOf repeated mark with
  | none => node none written
  | some name => if mark.any written.contains then (.alias name, written) else node name (mark.toList ++ written)

mutual

/-- The node of data, given the marks that occur again. -/
def nodeOf (repeated : List μ) : Marked μ → Written μ → Node × Written μ
  | .scalar value, written => (.scalar (scalarText value).1 (scalarText value).2, written)
  | .array mark items, written => nodeOnce repeated mark written fun anchor written =>
    let (items, written) := nodesOf repeated items written
    (.sequence anchor items, written)
  | .object mark fields, written => nodeOnce repeated mark written fun anchor written =>
    let (fields, written) := fieldNodesOf repeated fields written
    (.mapping anchor fields, written)
  | .reference mark, written => (.alias ((anchorOf repeated (some mark)).getD []), written)

def nodesOf (repeated : List μ) : List (Marked μ) → Written μ → List Node × Written μ
  | [], written => ([], written)
  | item :: rest, written =>
    let (first, written) := nodeOf repeated item written
    let (others, written) := nodesOf repeated rest written
    (first :: others, written)

def fieldNodesOf (repeated : List μ) :
    List (Key × Marked μ) → Written μ → List ((Style × List Char) × Node) × Written μ
  | [], written => ([], written)
  | (key, value) :: rest, written =>
    let (first, written) := nodeOf repeated value written
    let (others, written) := fieldNodesOf repeated rest written
    ((scalarText key, first) :: others, written)

end

/-- The node of a whole document. -/
def documentNode (data : Marked μ) : Node := (nodeOf (survey data {}).metAgain.reverse data []).1

end Anchors

/-- The indentation inside a collection. At the top there is none yet. -/
def deeper (step : Nat) : Option Nat → Nat
  | none => 0
  | some indent => indent + step

/-- The indentation of the lines of a folded scalar. -/
def foldIndent (step : Nat) : Option Nat → Nat
  | none => step
  | some indent => indent + step

namespace Sheet

/-- The anchor in front of a collection. -/
def anchor (sheet : Sheet) : Option (List Char) → Sheet
  | none => sheet
  | some name => sheet.mark ('&' :: name) true false false

/-- The mark in front of an item. -/
def itemMark (sheet : Sheet) (indent : Nat) : Sheet := (sheet.indent indent).mark ['-'] true false true

/-- A key and the mark in front of its value. Keys that are long or have several lines get a mark of their own. -/
def key (sheet : Sheet) (step indent : Nat) (style : Style) (text : List Char) : Sheet :=
  let sheet := sheet.indent indent
  if isSimpleKey text then
    (sheet.scalar (indent + step) true style text).mark [':'] false false false
  else
    let sheet := (sheet.mark ['?'] true false true).scalar (indent + step) false style text
    (sheet.indent indent).mark [':'] true false true

mutual

/-- Writes a node at an indentation. -/
def node (step : Nat) (indent : Option Nat) (inMapping : Bool) : Node → Sheet → Sheet
  | .scalar style text, sheet => sheet.scalar (foldIndent step indent) false style text
  | .alias name, sheet => sheet.mark ('*' :: name) true false false
  | .sequence anchor [], sheet => ((sheet.anchor anchor).mark ['['] true true false).mark [']'] false false false
  | .sequence anchor items, sheet =>
    let sheet := sheet.anchor anchor
    let inner := if inMapping && !sheet.indented then indent.getD 0 else deeper step indent
    nodes step inner items sheet
  | .mapping anchor [], sheet => ((sheet.anchor anchor).mark ['\x7b'] true true false).mark ['\x7d'] false false false
  | .mapping anchor fields, sheet => fieldNodes step (deeper step indent) fields (sheet.anchor anchor)

def nodes (step : Nat) (indent : Nat) : List Node → Sheet → Sheet
  | [], sheet => sheet
  | item :: rest, sheet => nodes step indent rest (node step (some indent) false item (sheet.itemMark indent))

def fieldNodes (step : Nat) (indent : Nat) : List ((Style × List Char) × Node) → Sheet → Sheet
  | [], sheet => sheet
  | ((style, text), value) :: rest, sheet =>
    fieldNodes step indent rest (node step (some indent) true value (sheet.key step indent style text))

end

end Sheet

mutual

/-- Checks that all floating point numbers among the values are finite. -/
def checkFinite : Data → Except Failure Unit
  | .real value => if value.isFinite then .ok () else .error (.notFinite .yaml value)
  | .array items => checkItems items
  | .object fields => checkFields fields
  | _ => .ok ()

def checkItems : List Data → Except Failure Unit
  | [] => .ok ()
  | item :: rest => do
    checkFinite item
    checkItems rest

def checkFields : List (Key × Data) → Except Failure Unit
  | [] => .ok ()
  | (_, value) :: rest => do
    checkFinite value
    checkFields rest

end

/-- The YAML text of data without references, in which collections with one mark are written once. -/
def encodeMarked {μ : Type} [BEq μ] (indent : Option Indent) (data : Marked μ) : Except Failure String := do
  checkFinite data.data
  if !data.references.isEmpty then throw .endless
  let step ← indentStep indent
  data.data.checkWritable
  return ((Sheet.node step none false (documentNode data) {}).indent 0).text

/-- The YAML text of data. -/
def encode (indent : Option Indent) (data : Data) : Except Failure String :=
  encodeMarked indent (.plain data : Marked Empty)

end TypeCatalog.Yaml
