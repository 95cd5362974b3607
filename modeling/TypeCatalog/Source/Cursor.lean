import TypeCatalog.Source.Error

/-! A position in a source text. White space and comments, which start with two hyphens and end with the line, are
skipped before every match, and a match that fails moves nothing. -/

namespace TypeCatalog.Source
open Text (Scan)

/-- A run of white space and comments at the front of a text. -/
structure Run where
  length : Nat
  /-- The texts of the comments in it, without the hyphens. -/
  comments : List (List Char)
  /-- What comes after the run. -/
  rest : List Char
  deriving Repr

namespace Run

def longer (run : Run) (count : Nat) : Run := { run with length := run.length + count }

mutual

/-- The run at the front of a text. -/
def outside : List Char → Run
  | '-' :: '-' :: rest =>
    let (comment, run) := inside rest
    { run with length := run.length + 2, comments := comment :: run.comments }
  | c :: rest => if Text.isBlank c then (outside rest).longer 1 else ⟨0, [], c :: rest⟩
  | [] => ⟨0, [], []⟩

/-- The rest of a comment that has begun, and the run after it. -/
def inside : List Char → List Char × Run
  | c :: rest =>
    if c == '\n' then ([], (outside rest).longer 1)
    else
      let (comment, run) := inside rest
      (c :: comment, run.longer 1)
  | [] => ([], ⟨0, [], []⟩)

end

/-- The comment that a run carries: the texts of its comments that are not blank, joined by spaces. -/
def comment (run : Run) : Option String :=
  let lines := (run.comments.map Text.strip).filter (!·.isEmpty)
  if lines.isEmpty then none else some (String.ofList ([' '].intercalate lines))

end Run

/-- A position: how many characters were read, and those that were not. -/
structure Cursor where
  offset : Nat
  rest : List Char
  deriving Repr

/-- A matched lexeme: its value, where it starts, and the comment in front of it. -/
structure Token (α : Type) where
  value : α
  offset : Nat
  comment : Option String
  deriving Repr

/-- The result of skipping: whether text remains, and the comment that was skipped. -/
structure Skip where
  more : Bool
  comment : Option String
  deriving Repr

namespace Cursor

def ofText (content : List Char) : Cursor := ⟨0, content⟩

/-- The position after white space and comments. -/
def past (cursor : Cursor) (run : Run) : Cursor := ⟨cursor.offset + run.length, run.rest⟩

/-- Skips white space and comments. -/
def skip (cursor : Cursor) : Skip × Cursor :=
  let run := Run.outside cursor.rest
  (⟨!run.rest.isEmpty, run.comment⟩, cursor.past run)

/-- Matches a form after white space and comments. -/
def take? {α : Type} (scan : Scan α) (cursor : Cursor) : Option (Token α × Cursor) :=
  let run := Run.outside cursor.rest
  match scan run.rest with
  | none => none
  | some taken =>
    let start := cursor.offset + run.length
    some (⟨taken.value, start, run.comment⟩, ⟨start + taken.lexeme.length, taken.rest⟩)

/-- Matches a form that has to come next. If it does not, the fault is placed after white space and comments. -/
def require {α : Type} (expected : Expected) (scan : Scan α) (cursor : Cursor) : Except Fault (Token α × Cursor) :=
  match cursor.take? scan with
  | some result => .ok result
  | none => .error (.rejected (.missing expected) cursor.skip.2.offset)

end Cursor

end TypeCatalog.Source
