import TypeCatalog.Text.Classes
import TypeCatalog.Text.Word

/-! Recognisers for the front of a text. Each one is deterministic: it takes the longest lexeme it can and never goes
back on it, and what it returns splits the text into the lexeme and the rest. -/

namespace TypeCatalog.Text

/-- A recognised lexeme, what it stands for, and the text after it. -/
structure Taken (α : Type) where
  value : α
  lexeme : List Char
  rest : List Char
  deriving Repr

/-- A recogniser of lexemes that stand for values of type `α`. -/
def Scan (α : Type) : Type := List Char → Option (Taken α)

namespace Scan

/-- Applies one recogniser after another. -/
def andThen {α β : Type} (scan : Scan α) (next : α → Scan β) : Scan β := fun text =>
  match scan text with
  | none => none
  | some first => match next first.value first.rest with
    | none => none
    | some second => some { second with lexeme := first.lexeme ++ second.lexeme }

instance : Monad Scan where
  pure value := fun text => some ⟨value, [], text⟩
  bind := andThen

/-- Takes the given characters. -/
def literal (chars : List Char) : Scan Unit := fun text =>
  match chars.isPrefixOf? text with
  | none => none
  | some rest => some ⟨(), chars, rest⟩

/-- Takes all characters of a class at the front. -/
def allOf (accepts : Char → Bool) : Scan (List Char) := fun text =>
  let run := text.takeWhile accepts
  some ⟨run, run, text.dropWhile accepts⟩

/-- Takes all characters of a class at the front, of which there must be one. -/
def someOf (accepts : Char → Bool) : Scan (List Char) := fun text =>
  let run := text.takeWhile accepts
  if run.isEmpty then none else some ⟨run, run, text.dropWhile accepts⟩

/-- Takes what a recogniser takes, or nothing. -/
def optionally {α : Type} (scan : Scan α) : Scan (Option α) := fun text =>
  match scan text with
  | none => some ⟨none, [], text⟩
  | some taken => some { taken with value := some taken.value }

/-- Takes what the first recogniser that accepts the text takes. -/
def either {α : Type} (first second : Scan α) : Scan α := fun text =>
  match first text with
  | none => second text
  | some taken => some taken

def blanks : Scan (List Char) := allOf isBlank

def someBlanks : Scan (List Char) := someOf isBlank

def digits : Scan (List Char) := someOf isDigit

/-- Accepts the end of a word without taking anything. -/
def wordEnd : Scan Unit := fun text => if endsWord text then some ⟨(), [], text⟩ else none

end Scan

end TypeCatalog.Text
