import TypeCatalog.Number.Decimal
import TypeCatalog.Text.Scan

/-! The sentence in a comment that documents which values of an enumeration are reserved for the standard and which are
open to others. -/

namespace TypeCatalog.Reserved
open Text Scan

/-- The digits of the four limits in the sentence. -/
structure Limits where
  standardFrom : List Char
  standardTo : List Char
  othersFrom : List Char
  othersTo : List Char
  deriving Repr

/-- `values low - high` -/
def valueSpan : Scan (List Char × List Char) := do
  literal "values".toList
  let _ ← someBlanks
  let low ← digits
  let _ ← blanks
  literal ['-']
  let _ ← blanks
  let high ← digits
  return (low, high)

/-- Words, each with white space in front of it. -/
def phrase : List String → Scan Unit
  | [] => pure ()
  | word :: rest => do
    let _ ← someBlanks
    literal word.toList
    phrase rest

/-- The part about the values that are open to others. -/
def openPart : Scan (List Char × List Char) := do
  let span ← valueSpan
  phrase ["may", "be", "used", "by", "others"]
  return span

/-- A word and the white space after it. -/
def word : Scan Unit := do
  let _ ← someOf isWord
  let _ ← someBlanks
  return ()

/-- The first place after some words where the second part stands. -/
def afterWords : Nat → Scan (List Char × List Char)
  | 0 => openPart
  | steps + 1 => either openPart (do word; afterWords steps)

/-- The whole sentence at the front of a text. -/
def sentence : Scan Limits := fun text =>
  (do
    let (standardFrom, standardTo) ← valueSpan
    phrase ["are", "reserved", "for", "definition", "by", "ASHRAE."]
    let _ ← blanks
    let (othersFrom, othersTo) ← afterWords text.length
    return Limits.mk standardFrom standardTo othersFrom othersTo : Scan Limits) text

/-- The first sentence in a text. -/
def search : List Char → Option Limits
  | [] => none
  | c :: rest => match sentence (c :: rest) with
    | some taken => some taken.value
    | none => search rest

end TypeCatalog.Reserved
