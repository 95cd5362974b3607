import TypeCatalog.Definition.Bound
import TypeCatalog.Source.Pattern
import TypeCatalog.Text.Escape

/-! Why a source text is rejected, and where. -/

namespace TypeCatalog.Source

/-- What had to come next. -/
inductive Expected where
  | literal (text : String)
  | pattern (form : Pattern)
  deriving DecidableEq, Repr, Inhabited

/-- The reason for rejecting a text. -/
inductive Cause where
  /-- The text has characters that the notation does not use. -/
  | invalidCharacters
  | missing (expected : Expected)
  /-- The low bound of a constraint is above its high bound. -/
  | invertedRange (low high : Bound)
  /-- An item list follows a type that has no items. -/
  | noItems (type : String)
  deriving DecidableEq, Repr, Inhabited

/-- A rejection at a position. Offsets count characters, lines count from 1. -/
structure Error where
  cause : Cause
  offset : Nat
  line : Nat
  deriving DecidableEq, Repr, Inhabited

/-- What stops the reading of a text: a cause at an offset, or a number with too many digits. -/
inductive Fault where
  | rejected (cause : Cause) (offset : Nat)
  | tooManyDigits
  deriving DecidableEq, Repr, Inhabited

def Expected.message : Expected → String
  | .literal text => "expected " ++ Text.quoted text ++ " not found"
  | .pattern form => "expected pattern " ++ Text.quoted form.expression ++ " not found"

def Cause.message : Cause → String
  | .invalidCharacters => "invalid characters in content"
  | .missing expected => expected.message
  | .invertedRange low high =>
    "invalid range: minimum (" ++ low.text ++ ") is greater than maximum (" ++ high.text ++ ")"
  | .noItems type => "type '" ++ type ++ "' cannot have items"

/-- The line of a position in a text: one more than the line ends before it. -/
def lineAt (content : List Char) (offset : Nat) : Nat := (content.take offset).count '\n' + 1

/-- A message with its line. -/
def withLine (message : String) (line : Nat) : String :=
  message ++ " (line " ++ String.ofList (natDigits line) ++ ")"

namespace Error

def ofCause (content : List Char) (cause : Cause) (offset : Nat) : Error := ⟨cause, offset, lineAt content offset⟩

def message (error : Error) : String := error.cause.message

end Error

end TypeCatalog.Source
