import TypeCatalog.Data.Basic

/-! Data in which collections can have marks. Collections with one mark are one and the same, not only equal, so a
collection may be inside of itself. Marks are lost in plain data; they matter where a document refers to a collection
that it writes elsewhere. -/

namespace TypeCatalog

/-- Data whose arrays and objects may be marked. What is neither is a scalar, and every scalar can be a key. -/
inductive Marked (μ : Type) where
  | scalar (value : Key)
  | array (mark : Option μ) (items : List (Marked μ))
  | object (mark : Option μ) (fields : List (Key × Marked μ))
  /-- A reference to the collection with a mark. -/
  | reference (mark : μ)
  deriving Repr

namespace Marked

variable {μ ν : Type}

instance : Inhabited (Marked μ) := ⟨.scalar .null⟩

mutual

/-- Data without marks. -/
def plain : Data → Marked μ
  | .null => .scalar .null
  | .bool value => .scalar (.bool value)
  | .int value => .scalar (.int value)
  | .real value => .scalar (.real value)
  | .text value => .scalar (.text value)
  | .array items => .array none (plainList items)
  | .object fields => .object none (plainFields fields)

def plainList : List Data → List (Marked μ)
  | [] => []
  | item :: rest => plain item :: plainList rest

def plainFields : List (Key × Data) → List (Key × Marked μ)
  | [] => []
  | (key, value) :: rest => (key, plain value) :: plainFields rest

end

mutual

/-- Changes all marks. -/
def map (change : μ → ν) : Marked μ → Marked ν
  | .scalar value => .scalar value
  | .array mark items => .array (mark.map change) (mapList change items)
  | .object mark fields => .object (mark.map change) (mapFields change fields)
  | .reference mark => .reference (change mark)

def mapList (change : μ → ν) : List (Marked μ) → List (Marked ν)
  | [] => []
  | item :: rest => map change item :: mapList change rest

def mapFields (change : μ → ν) : List (Key × Marked μ) → List (Key × Marked ν)
  | [] => []
  | (key, value) :: rest => (key, map change value) :: mapFields change rest

end

mutual

/-- Gives every collection a number of its own, from a number on, and tells the number after the last. -/
def number (next : Nat) : Data → Marked Nat × Nat
  | .array items =>
    let (items, after) := numberList (next + 1) items
    (.array (some next) items, after)
  | .object fields =>
    let (fields, after) := numberFields (next + 1) fields
    (.object (some next) fields, after)
  | .null => (.scalar .null, next)
  | .bool value => (.scalar (.bool value), next)
  | .int value => (.scalar (.int value), next)
  | .real value => (.scalar (.real value), next)
  | .text value => (.scalar (.text value), next)

def numberList (next : Nat) : List Data → List (Marked Nat) × Nat
  | [] => ([], next)
  | item :: rest =>
    let (first, next) := number next item
    let (others, next) := numberList next rest
    (first :: others, next)

def numberFields (next : Nat) : List (Key × Data) → List (Key × Marked Nat) × Nat
  | [] => ([], next)
  | (key, value) :: rest =>
    let (first, next) := number next value
    let (others, next) := numberFields next rest
    ((key, first) :: others, next)

end

/-- Data in which every collection is different from all others. -/
def distinct (data : Data) : Marked Nat := (number 0 data).1

end Marked

end TypeCatalog
