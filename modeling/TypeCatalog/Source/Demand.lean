import TypeCatalog.Source.Cursor

/-! What is asked of a cursor, and what comes of it. Demands are met one after the other: one that is not met leaves the
cursor at a position from which the next one is tried. -/

namespace TypeCatalog.Source
open Text (Scan)

/-- A matched lexeme. That of a form comes with the parts that its expression captures. -/
structure Match where
  lexeme : List Char
  captures : Option (List (Option (List Char)))
  deriving Repr

/-- Recognises what is expected. -/
def Expected.scan : Expected → Scan Match
  | .literal text => do
    Scan.literal text.toList
    return ⟨text.toList, none⟩
  | .pattern form => fun text =>
    (form.captures text).map fun taken => { taken with value := ⟨taken.lexeme, some taken.value⟩ }

/-- What is asked of a cursor. A match is made into a value. -/
inductive Demand (α : Type) where
  | skip
  /-- Something that may come next. -/
  | attempt (expected : Expected) (transform : Match → α)
  /-- Something that has to come next. -/
  | require (expected : Expected) (transform : Match → α)

/-- What comes of a demand. -/
inductive Reply (α : Type) where
  | skipped (skip : Skip)
  | matched (token : Token α)
  /-- What may come next does not. -/
  | missed
  | rejected (fault : Fault)
  deriving Repr

namespace Token

def map {α β : Type} (transform : α → β) (token : Token α) : Token β := { token with value := transform token.value }

end Token

/-- A demand with its reply, and the positions before and after it. -/
structure Turn (α : Type) where
  before : Cursor
  demand : Demand α
  reply : Reply α
  after : Cursor

namespace Cursor

variable {α : Type}

/-- Meets a demand. If what has to come next does not, the cursor is left where it would have to be. -/
def meet (cursor : Cursor) : Demand α → Reply α × Cursor
  | .skip => (.skipped cursor.skip.1, cursor.skip.2)
  | .attempt expected transform => match cursor.take? expected.scan with
    | some (token, next) => (.matched (token.map transform), next)
    | none => (.missed, cursor)
  | .require expected transform => match cursor.require expected expected.scan with
    | .ok (token, next) => (.matched (token.map transform), next)
    | .error fault => (.rejected fault, cursor.skip.2)

def turn (cursor : Cursor) (demand : Demand α) : Turn α :=
  let (reply, next) := cursor.meet demand
  ⟨cursor, demand, reply, next⟩

/-- Meets demands in their order. -/
def turns (cursor : Cursor) : List (Demand α) → List (Turn α)
  | [] => []
  | demand :: rest =>
    let turn := cursor.turn demand
    turn :: turns turn.after rest

end Cursor

end TypeCatalog.Source
