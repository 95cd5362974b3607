import TypeCatalog.Yaml.Point

/-! The text of scalars as they stand in YAML. Lines of plain and quoted scalars are folded: one line break is a space,
and of several the first is dropped. -/

namespace TypeCatalog.Yaml
open Text

/-- Blanks and line breaks inside a scalar. -/
structure Gap where
  /-- The blanks, if there is no line break. -/
  blanks : List Char := []
  /-- The first line break. -/
  first : List Char := []
  /-- The line breaks after the first. -/
  others : List Char := []
  /-- Whether there is a line break. -/
  broken : Bool := false

namespace Gap

/-- What a gap is read as. -/
def fold (gap : Gap) : List Char :=
  if !gap.broken then gap.blanks
  else if gap.first == ['\n'] then (if gap.others.isEmpty then [' '] else gap.others)
  else gap.first ++ gap.others

/-- Reads a gap. A tab must not stand in front of the wanted indentation of a line. -/
def read (indent : Option Int) : Nat → Gap → Point → Option (Gap × Point)
  | 0, gap, point => some (gap, point)
  | steps + 1, gap, point =>
    if point.atBlank then
      if gap.broken && point.next '\t' && indent.any ((point.column : Int) < ·) then none
      else if gap.broken then read indent steps gap point.skip
      else read indent steps { gap with blanks := gap.blanks ++ point.peek.toList } point.skip
    else if point.atBreak then
      let (break_, point) := point.readBreak
      if gap.broken then read indent steps { gap with others := gap.others ++ break_ } point
      else read indent steps { gap with blanks := [], first := break_, broken := true } point
    else some (gap, point)

end Gap

/-- Marks that end a plain scalar inside brackets. -/
def flowMarks : List Char := [',', '[', ']', '\x7b', '\x7d']

/-- The characters of a plain scalar up to a blank, a line break or a mark that ends it. Inside brackets a colon must not
stand in front of a bracket. -/
def plainRun (inFlow : Bool) : List Char → Option (List Char)
  | [] => some []
  | c :: rest =>
    if isBlankOrEnd (some c) then some []
    else if inFlow && c == ':' && rest.head?.any (fun d => d == '?' || flowMarks.contains d) then none
    else if (c == ':' && isBlankOrEnd rest.head?) || (inFlow && flowMarks.contains c) then some []
    else (plainRun inFlow rest).map (c :: ·)

/-- A plain scalar: its text, the place after it, and whether a line break follows it. -/
def readPlain (inFlow : Bool) (indent : Int) :
    Nat → List Char → Gap → Point → Option (List Char × Point × Bool)
  | 0, text, gap, point => some (text, point, gap.broken)
  | steps + 1, text, gap, point =>
    if point.atDocumentMark || point.next '#' then some (text, point, gap.broken)
    else do
      let run ← plainRun inFlow point.rest
      let point := point.skip run.length
      let (text, gap) := if run.isEmpty then (text, gap) else (text ++ gap.fold ++ run, {})
      if !(point.atBlank || point.atBreak) then return (text, point, gap.broken)
      let (gap, point) ← Gap.read (some indent) (point.left + 1) gap point
      if !inFlow && (point.column : Int) < indent then return (text, point, gap.broken)
      readPlain inFlow indent steps text gap point

/-- The character of an escape with one letter. -/
def unescape? : Char → Option Char
  | '0' => some '\x00'
  | 'a' => some '\x07'
  | 'b' => some '\x08'
  | 't' => some '\t'
  | '\t' => some '\t'
  | 'n' => some '\n'
  | 'v' => some '\x0b'
  | 'f' => some '\x0c'
  | 'r' => some '\r'
  | 'e' => some '\x1b'
  | ' ' => some ' '
  | '"' => some '"'
  | '/' => some '/'
  | '\\' => some '\\'
  | 'N' => some '\x85'
  | '_' => some '\xa0'
  | 'L' => some '\u2028'
  | 'P' => some '\u2029'
  | _ => none

/-- The number of digits of an escape with digits. -/
def escapeWidth? : Char → Option Nat
  | 'x' => some 2
  | 'u' => some 4
  | 'U' => some 8
  | _ => none

/-- The character of an escape, and its length without the backslash. -/
def readEscape : List Char → Option (Char × Nat)
  | [] => none
  | c :: rest => match escapeWidth? c with
    | some width => do
      let (point, _) ← takeHex 0 width rest
      if (0xD800 ≤ point && point < 0xE000) || 0x10FFFF < point then none
      return (Char.ofNat point, width + 1)
    | none => (unescape? c).map (·, 1)

/-- The characters of a quoted scalar up to a blank, a line break or the closing quote, and whether they end in an
escaped line break. -/
def quotedRun (quote : Char) : Nat → List Char → Point → Option (List Char × Point × Bool)
  | 0, _, _ => none
  | steps + 1, text, point =>
    match point.rest with
    | [] => some (text, point, false)
    | c :: rest =>
      if isBlankOrEnd (some c) then some (text, point, false)
      else if c == quote then
        if quote == '\x27' && rest.head? == some quote then quotedRun quote steps (text ++ [c]) (point.skip 2)
        else some (text, point, false)
      else if quote == '"' && c == '\\' then
        if rest.head?.any isBreak then some (text, point.skip.readBreak.2, true)
        else do
          let (value, length) ← readEscape rest
          quotedRun quote steps (text ++ [value]) (point.skip (length + 1))
      else quotedRun quote steps (text ++ [c]) point.skip

/-- A quoted scalar after its opening quote. -/
def readQuoted (quote : Char) : Nat → List Char → Point → Option (List Char × Point)
  | 0, _, _ => none
  | steps + 1, text, point => do
    if point.atDocumentMark || point.atEnd then none
    let (text, point, escapedBreak) ← quotedRun quote (point.left + 1) text point
    if !escapedBreak && point.next quote then return (text, point.skip)
    let (gap, point) ← Gap.read none (point.left + 1) { broken := escapedBreak } point
    readQuoted quote steps (text ++ gap.fold) point

/-- What becomes of the line breaks at the end of a block scalar. -/
inductive Chomp where
  | strip
  | clip
  | keep
  deriving DecidableEq

/-- The marks after the start of a block scalar: what becomes of its end, and how far it is indented. -/
def blockHeader (point : Point) : Option (Chomp × Nat × Point) := do
  let chomp? (point : Point) : Option Chomp :=
    if point.next '+' then some .keep else if point.next '-' then some .strip else none
  let width? (point : Point) : Option Nat :=
    point.peek.bind fun c => if c.isDigit then some (c.toNat - 48) else none
  let (chomp, width, point) := match chomp? point with
    | some chomp => match width? point.skip with
      | some width => (chomp, some width, point.skip 2)
      | none => (chomp, none, point.skip)
    | none => match width? point with
      | some width => match chomp? point.skip with
        | some chomp => (chomp, some width, point.skip 2)
        | none => (.clip, some width, point.skip)
      | none => (.clip, none, point)
  if width == some 0 then none
  let point := (point.skipWhile isInlineBlank).skipComment
  if !point.atBreakOrEnd then none
  return (chomp, width.getD 0, point.readBreak.2)

/-- The empty lines in front of a line of a block scalar. Without an indentation of its own the scalar takes that of its
first line, or of the longest empty one before it; zero stands for one that is not known. -/
def blockBreaks (indent : Nat) (longest : Nat) : Nat → List Char → Point → Option (List Char × Nat × Point)
  | 0, breaks, point => some (breaks, longest, point)
  | steps + 1, breaks, point =>
    let spaces := (point.rest.takeWhile (· == ' ')).length
    let point := point.skip (if indent == 0 then spaces else min spaces (indent - point.column))
    let longest := max longest point.column
    if (indent == 0 || point.column < indent) && point.next '\t' then none
    else if point.atBreak then
      let (break_, point) := point.readBreak
      blockBreaks indent longest steps (breaks ++ break_) point
    else some (breaks, longest, point)

/-- The lines of a block scalar. -/
def blockLines (literal : Bool) (indent : Nat) :
    Nat → List Char → List Char → List Char → Bool → Point → Option (List Char × List Char × List Char × Point)
  | 0, text, lead, breaks, _, point => some (text, lead, breaks, point)
  | steps + 1, text, lead, breaks, afterBlank, point =>
    if point.column != indent || point.atEnd then some (text, lead, breaks, point)
    else do
      let folds := !literal && lead == ['\n'] && !afterBlank && !point.atBlank
      let joint := if folds then (if breaks.isEmpty then [' '] else []) else lead
      let line := point.rest.takeWhile (!isBreak ·)
      let (lead, after) := (point.skip line.length).readBreak
      let (breaksAfter, _, next) ← blockBreaks indent 0 (after.left + 1) [] after
      blockLines literal indent steps (text ++ joint ++ breaks ++ line) lead breaksAfter point.atBlank next

/-- A block scalar after its first mark, inside a block of the given indentation. -/
def readBlock (literal : Bool) (outer : Int) (point : Point) : Option (List Char × Point) := do
  let (chomp, width, point) ← blockHeader point
  let known := if width == 0 then 0 else (max outer 0).toNat + width
  let (breaks, longest, point) ← blockBreaks known 0 (point.left + 1) [] point
  let indent := if known == 0 then max (max longest (outer + 1).toNat) 1 else known
  let (text, lead, breaks, point) ← blockLines literal indent (point.left + 1) [] [] breaks false point
  let tail := match chomp with
    | .strip => []
    | .clip => lead
    | .keep => lead ++ breaks
  return (text ++ tail, point)

end TypeCatalog.Yaml
