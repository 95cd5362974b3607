import TypeCatalog.Yaml.ScalarText
import TypeCatalog.Yaml.Tag

/-! The tokens of a YAML text. Indentation is turned into marks that open and close block collections, and a key that is
known as one only by the colon after it gets its mark in front afterwards. -/

namespace TypeCatalog.Yaml

inductive Token where
  | directive (directive : Directive)
  | documentStart
  | documentEnd
  | blockSequence
  | blockMapping
  | blockEnd
  | flowSequence
  | flowSequenceEnd
  | flowMapping
  | flowMappingEnd
  | entry
  | flowEntry
  | key
  | value
  | alias (name : List Char)
  | anchor (name : List Char)
  | tag (handle suffix : List Char)
  | scalar (isPlain : Bool) (text : List Char)
  deriving DecidableEq, Repr

/-- A place where a key may have started: its place among the tokens and in the text. A required one must become a key. -/
structure KeyStart where
  token : Nat
  point : Point
  isRequired : Bool

/-- The state of reading tokens. -/
structure Tokens where
  point : Point
  /-- The tokens so far, last first, and how many they are. -/
  tokens : List Token := []
  count : Nat := 0
  /-- The indentation of the innermost block, `-1` outside of blocks. -/
  indent : Int := -1
  outerIndents : List Int := []
  /-- Whether a key may start here. -/
  keyAllowed : Bool := true
  /-- The possible key at every level of brackets, innermost first. -/
  keys : List (Option KeyStart) := [none]

namespace Tokens

def inFlow (state : Tokens) : Bool := 1 < state.keys.length

def push (state : Tokens) (token : Token) : Tokens := { state with tokens := token :: state.tokens, count := state.count + 1 }

/-- Puts a token in front of those from a number on. -/
def insertAt (state : Tokens) (number : Nat) (token : Token) : Tokens :=
  let after := state.count - number
  { state with
    tokens := state.tokens.take after ++ token :: state.tokens.drop after
    count := state.count + 1 }

/-- A key must be on one line and not too far back. -/
def isStale (state : Tokens) (key : KeyStart) : Bool :=
  key.point.line < state.point.line || key.point.index + 1024 < state.point.index

/-- Drops possible keys that cannot become keys any more. -/
def dropStale (state : Tokens) : Option Tokens := do
  let keys ← state.keys.mapM fun
    | some key => if state.isStale key then (if key.isRequired then none else some none) else some (some key)
    | none => some none
  return { state with keys }

/-- Gives up the possible key of the current level. -/
def removeKey (state : Tokens) : Option Tokens :=
  match state.keys with
  | some key :: rest => if key.isRequired then none else some { state with keys := none :: rest }
  | _ => some state

/-- Notes that a key may start here. -/
def saveKey (state : Tokens) : Option Tokens :=
  if !state.keyAllowed then some state
  else do
    let key : KeyStart :=
      { token := state.count, point := state.point
        isRequired := !state.inFlow && state.indent == state.point.column }
    let state ← state.removeKey
    return { state with keys := some key :: state.keys.drop 1 }

/-- Opens a block at a column unless one is open there. -/
def roll (state : Tokens) (column : Nat) (number : Option Nat) (token : Token) : Tokens :=
  if !state.inFlow && state.indent < column then
    let state := { state with outerIndents := state.indent :: state.outerIndents, indent := column }
    match number with
    | some number => state.insertAt number token
    | none => state.push token
  else state

/-- Closes the blocks that are indented further than a column. -/
def unroll (column : Int) : Nat → Tokens → Tokens
  | 0, state => state
  | steps + 1, state =>
    if !state.inFlow && column < state.indent then
      unroll column steps
        { state.push .blockEnd with indent := state.outerIndents.headD (-1), outerIndents := state.outerIndents.drop 1 }
    else state

def unrollTo (state : Tokens) (column : Int) : Tokens := unroll column (state.outerIndents.length + 1) state

/-- Goes over white space, comments and line breaks. Tabs do not count as white space where they could be taken for
indentation. A byte order mark may stand in front of every line. -/
def toNext : Nat → Tokens → Tokens
  | 0, state => state
  | steps + 1, state =>
    let allowsTab := state.inFlow || !state.keyAllowed
    let start := if state.point.column == 0 && state.point.next '\ufeff' then state.point.skip else state.point
    let point := (start.skipWhile fun c => c == ' ' || (allowsTab && c == '\t')).skipComment
    if point.atBreak then
      toNext steps { state with point := point.readBreak.2, keyAllowed := state.keyAllowed || !state.inFlow }
    else { state with point }

/-- A mark of some characters. -/
def take (state : Tokens) (count : Nat) (token : Token) : Tokens :=
  { state.push token with point := state.point.skip count }

/-- A separator of documents. -/
def separator (state : Tokens) (token : Token) : Option Tokens := do
  let state ← (state.unrollTo (-1)).removeKey
  return { state with keyAllowed := false }.take 3 token

def openFlow (state : Tokens) (token : Token) : Option Tokens := do
  let state ← state.saveKey
  return { state with keys := none :: state.keys, keyAllowed := true }.take 1 token

def closeFlow (state : Tokens) (token : Token) : Option Tokens := do
  let state ← state.removeKey
  let keys := if state.inFlow then state.keys.drop 1 else state.keys
  return { state with keys, keyAllowed := false }.take 1 token

def flowEntry (state : Tokens) : Option Tokens := do
  let state ← state.removeKey
  return { state with keyAllowed := true }.take 1 .flowEntry

def blockEntry (state : Tokens) : Option Tokens := do
  if !state.inFlow && !state.keyAllowed then none
  let state ← (state.roll state.point.column none .blockSequence).removeKey
  return { state with keyAllowed := true }.take 1 .entry

def explicitKey (state : Tokens) : Option Tokens := do
  if !state.inFlow && !state.keyAllowed then none
  let state ← (state.roll state.point.column none .blockMapping).removeKey
  return { state with keyAllowed := !state.inFlow }.take 1 .key

/-- The colon in front of a value. It turns what came before into a key, if a key may have started there. -/
def value (state : Tokens) : Option Tokens := do
  match state.keys with
  | some key :: rest =>
    let state := state.insertAt key.token .key
    let state := state.roll key.point.column (some key.token) .blockMapping
    return { state with keys := none :: rest, keyAllowed := false }.take 1 .value
  | _ =>
    if !state.inFlow && !state.keyAllowed then none
    let state := state.roll state.point.column none .blockMapping
    return { state with keyAllowed := !state.inFlow }.take 1 .value

/-- The name of an anchor or an alias. -/
def name (state : Tokens) (make : List Char → Token) : Option Tokens := do
  let state ← state.saveKey
  let start := state.point.skip
  let name := start.rest.takeWhile isNameChar
  let point := start.skip name.length
  let endsWell := point.blankAhead 0 || point.peek.any ['?', ':', ',', ']', '\x7d', '%', '@', '\x60'].contains
  if name.isEmpty || !endsWell then none
  return { state.push (make name) with point, keyAllowed := false }

/-- Goes over what was taken from the front of the text. -/
def upTo (point : Point) (rest : List Char) : Point := point.skip (point.left - rest.length)

/-- A tag, after which a blank must follow, or a comma inside brackets. -/
def tag (state : Tokens) : Option Tokens := do
  let state ← state.saveKey
  let (handle, suffix, rest) ← takeTag state.point.rest
  let point := upTo state.point rest
  if !point.blankAhead 0 && !(state.inFlow && point.next ',') then none
  return { state.push (.tag handle suffix) with point, keyAllowed := false }

def blockScalar (state : Tokens) (literal : Bool) : Option Tokens := do
  let state ← state.removeKey
  let (text, point) ← readBlock literal state.indent state.point.skip
  return { state.push (.scalar false text) with point, keyAllowed := true }

def quotedScalar (state : Tokens) (quote : Char) : Option Tokens := do
  let state ← state.saveKey
  let start := state.point.skip
  let (text, point) ← readQuoted quote (start.left + 1) [] start
  return { state.push (.scalar false text) with point, keyAllowed := false }

def plainScalar (state : Tokens) : Option Tokens := do
  let state ← state.saveKey
  let (text, point, broken) ←
    readPlain state.inFlow (state.indent + 1) (state.point.left + 1) [] {} state.point
  return { state.push (.scalar true text) with point, keyAllowed := broken }

/-- Whether a plain scalar can start here. -/
def startsPlain (state : Tokens) : Bool :=
  match state.point.peek with
  | none => false
  | some c =>
    (!isBlankOrEnd (some c) && !(startMarks ++ ['-', '?', ':']).contains c) ||
      (c == '-' && !state.point.blankAhead 1) ||
      (!state.inFlow && (c == '?' || c == ':') && !state.point.blankAhead 1)

/-- A directive in front of a document, with the rest of its line. -/
def directive (state : Tokens) : Option Tokens := do
  let state ← (state.unrollTo (-1)).removeKey
  let (directive, rest) ← takeDirective (state.point.rest.drop 1)
  let point := ((upTo state.point rest).skipWhile isInlineBlank).skipComment
  if !point.atBreakOrEnd then none
  return { state.push (.directive directive) with point := point.readBreak.2, keyAllowed := false }

/-- Reads the token that comes next; blocks that end in front of it are closed. -/
def step (state : Tokens) : Option Tokens := do
  let state ← (toNext (state.point.left + 1) state).dropStale
  let state := state.unrollTo state.point.column
  let point := state.point
  let blankNext := point.blankAhead 1
  match point.peek with
  | none => none
  | some c =>
    if point.column == 0 && c == '%' then state.directive
    else if point.atSeparator '-' then state.separator .documentStart
    else if point.atSeparator '.' then state.separator .documentEnd
    else if c == '[' then state.openFlow .flowSequence
    else if c == '\x7b' then state.openFlow .flowMapping
    else if c == ']' then state.closeFlow .flowSequenceEnd
    else if c == '\x7d' then state.closeFlow .flowMappingEnd
    else if c == ',' then state.flowEntry
    else if c == '-' && blankNext then state.blockEntry
    else if c == '?' && (state.inFlow || blankNext) then state.explicitKey
    else if c == ':' && (state.inFlow || blankNext) then state.value
    else if c == '*' then state.name .alias
    else if c == '&' then state.name .anchor
    else if c == '!' then state.tag
    else if c == '|' && !state.inFlow then state.blockScalar true
    else if c == '>' && !state.inFlow then state.blockScalar false
    else if c == '\x27' || c == '"' then state.quotedScalar c
    else if state.startsPlain then state.plainScalar
    else none

/-- Reads all tokens. Every step reads at least one character. -/
def readAll : Nat → Tokens → Option Tokens
  | 0, _ => none
  | steps + 1, state =>
    let ahead := toNext (state.point.left + 1) state
    if ahead.point.atEnd then do
      let state ← ahead.dropStale
      (state.unrollTo (-1)).removeKey
    else state.step.bind (readAll steps)

end Tokens

/-- Characters that a YAML text may hold. -/
def isReadable (c : Char) : Bool :=
  let point := c.toNat
  point == 9 || point == 10 || point == 13 || (0x20 ≤ point && point ≤ 0x7E) || point == 0x85 ||
    (0xA0 ≤ point && point ≤ 0xD7FF) || (0xE000 ≤ point && point ≤ 0xFFFD) || 0x10000 ≤ point

/-- The tokens of a text. A byte order mark in front is dropped. -/
def tokensOf (text : List Char) : Option (List Token) :=
  let text := if text.head? == some '\ufeff' then text.drop 1 else text
  if text.all isReadable then
    (Tokens.readAll (text.length + 1) { point := .ofText text }).map (·.tokens.reverse)
  else none

end TypeCatalog.Yaml
