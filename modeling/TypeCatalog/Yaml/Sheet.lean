/-! The page on which YAML text is written. It knows the column, and whether the last thing written was white space or
belongs to the indentation of the line: this decides where spaces and line breaks go. -/

namespace TypeCatalog.Yaml

structure Sheet where
  /-- What is written so far, last character first. -/
  written : List Char := []
  column : Nat := 0
  /-- Whether the last thing written leaves room for what follows. -/
  spaced : Bool := true
  /-- Whether only indentation and the marks of block collections stand on the line. -/
  indented : Bool := true
  deriving Repr

namespace Sheet

def put (sheet : Sheet) (c : Char) : Sheet :=
  { sheet with written := c :: sheet.written, column := sheet.column + 1 }

def putAll (sheet : Sheet) (text : List Char) : Sheet := text.foldl put sheet

def breakLine (sheet : Sheet) : Sheet := { sheet with written := '\n' :: sheet.written, column := 0 }

/-- Goes to an indentation: on the same line if nothing else stands there, else on a new one. -/
def indent (sheet : Sheet) (width : Nat) : Sheet :=
  let isUsed := !sheet.indented || width < sheet.column || (sheet.column == width && !sheet.spaced)
  let sheet := if isUsed then sheet.breakLine else sheet
  let sheet := sheet.putAll (List.replicate (width - sheet.column) ' ')
  { sheet with spaced := true, indented := true }

/-- Writes a mark. Some need a space in front, some leave room for what follows, and some belong to the indentation. -/
def mark (sheet : Sheet) (text : List Char) (needsSpace leavesSpace isIndentation : Bool) : Sheet :=
  let sheet := if needsSpace && !sheet.spaced then sheet.put ' ' else sheet
  { sheet.putAll text with spaced := leavesSpace, indented := sheet.indented && isIndentation }

/-- Ends a scalar or a name. -/
def close (sheet : Sheet) : Sheet := { sheet with spaced := false, indented := false }

def text (sheet : Sheet) : String := String.ofList sheet.written.reverse

end Sheet

end TypeCatalog.Yaml
