import TypeCatalog.WellKnown

/-! A registry of records. Every record has an alias, its name in the notation, and a name in the catalogue, and is found
by either. Later records take the place of earlier ones with the same keys. -/

namespace TypeCatalog

namespace Registry

/-- A record with its place among the records that the registry was made of, which tells it from records that are equal
to it. -/
structure Entry where
  index : Nat
  record : Data
  deriving Repr, Inhabited

/-- Entries by one of their keys, in the order in which the keys first came. -/
abbrev Table := List (Key × Entry)

namespace Table

def get? (table : Table) (key : Key) : Option Entry :=
  (table.find? fun row => row.1.same key).map (·.2)

/-- Puts an entry under a key. A key that is there keeps its place. -/
def put (key : Key) (entry : Entry) : Table → Table
  | [] => [(key, entry)]
  | (other, old) :: rest => if other.same key then (other, entry) :: rest else (other, old) :: put key entry rest

end Table

end Registry

structure Registry where
  byAlias : Registry.Table
  byName : Registry.Table
  deriving Repr, Inhabited

namespace Registry

def empty : Registry := ⟨[], []⟩

/-- The key under which a record is listed. -/
def keyOf (record : Data) (field : String) : Except Failure Key :=
  match record with
  | .object fields => match Fields.find? fields field with
    | some value => value.toKey
    | none => .error (.missingKey (.text field))
  | _ => .error .illTyped

/-- The registry with one more record. -/
def add (registry : Registry) (entry : Entry) : Except Failure Registry := do
  let first ← keyOf entry.record "alias"
  let second ← keyOf entry.record "name"
  return ⟨registry.byAlias.put first entry, registry.byName.put second entry⟩

/-- Adds records that are numbered from an index on. -/
def addAll (registry : Registry) (index : Nat) : List Data → Except Failure Registry
  | [] => .ok registry
  | record :: rest => do
    let registry ← registry.add ⟨index, record⟩
    registry.addAll (index + 1) rest

def ofRecords (records : List Data) : Except Failure Registry := empty.addAll 0 records

/-- The record with an alias, or else the one with a name. -/
def get? (registry : Registry) (key : Key) : Option Entry :=
  (registry.byAlias.get? key).or (registry.byName.get? key)

def contains (registry : Registry) (key : Key) : Bool := (registry.get? key).isSome

/-- One record for every name. -/
def records (registry : Registry) : List Data := registry.byName.map (·.2.record)

def size (registry : Registry) : Nat := registry.byName.length

def data (registry : Registry) : Data := .array registry.records

end Registry

end TypeCatalog
