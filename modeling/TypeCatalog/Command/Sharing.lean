import TypeCatalog.Data.Reference
import TypeCatalog.Definition.Basic

/-! Which collections of the output are one and the same. A record of the registry is, wherever it is used, and so are the
collections inside an entry of a configuration: a type takes copies of its spans, but not of what is inside of them. -/

namespace TypeCatalog.Command

/-- Where a collection of the output comes from, and its mark there. -/
inductive Origin where
  | configuration (mark : Nat)
  /-- A record by its place among those that the registry was made of. -/
  | record (index mark : Nat)
  deriving DecidableEq, Repr

namespace Sharing

/-- Marks one field of an object, and leaves the others plain. -/
def markField (name : String) (mark : Data → Marked Origin) : Data → Marked Origin
  | .object fields => .object none (fields.map fun (key, value) =>
      (key, if key.same (.text name) then mark value else .plain value))
  | data => .plain data

/-- Marks the items of an array. -/
def markItems (mark : List Data → List (Marked Origin)) : Data → Marked Origin
  | .array items => .array none (mark items)
  | data => .plain data

/-- The entry of a configuration in a table of well known types. -/
def entry? (configuration : Marked Origin) (table name : String) : Option (Marked Origin) :=
  ((configuration.find? "well_known").bind (·.find? table)).bind (·.find? name)

/-- A type whose fields of the given names are copies of those of an entry. -/
def markCopies (entry : Marked Origin) (names : List String) : Data → Marked Origin
  | .object fields => .object none (fields.map fun (key, value) =>
      match names.find? fun name => key.same (.text name) with
      | some name => (key, ((entry.find? name).map (·.copy)).getD (.plain value))
      | none => (key, .plain value))
  | data => .plain data

/-- A type whose spans may be copies of those of an entry in a table. -/
def markWellKnown (configuration : Marked Origin) (table name : String) (spans : List String) (data : Data) :
    Marked Origin :=
  match entry? configuration table name with
  | some entry => markCopies entry spans data
  | none => .plain data

/-- A type of some kind with a name. Its members, if it has any, are marked by a function of their own. -/
def markKind (configuration : Marked Origin) (kind : Option Kind) (name : String)
    (markMembers : List Data → List (Marked Origin)) (data : Data) : Marked Origin :=
  match kind with
  | some .enumerated => markWellKnown configuration "enumerated" name ["range", "standard", "proprietary"] data
  | some .bitString => markWellKnown configuration "bit_string" name ["proprietary"] data
  | some .choice => markField "options" (markItems markMembers) data
  | some .sequence => markField "fields" (markItems markMembers) data
  | _ => .plain data

mutual

/-- The type of an item. -/
def markType (configuration : Marked Origin) : Item → Data → Marked Origin
  | .mk name _ _ type _ _ _ items _ _, data =>
    markKind configuration (type.bind Kind.ofTypeName?) name (markMembers configuration items) data

def markMembers (configuration : Marked Origin) : Option (List Item) → List Data → List (Marked Origin)
  | none, members => members.map .plain
  | some items, members => markList configuration items members

/-- The options or fields of items. -/
def markList (configuration : Marked Origin) : List Item → List Data → List (Marked Origin)
  | item :: items, member :: members =>
    markField "type" (markType configuration item) member :: markList configuration items members
  | _, members => members.map .plain

end

/-- The record that was made for a definition. -/
def markRecord (configuration : Marked Origin) (definition : Definition) (record : Data) : Marked Origin :=
  markField "type" (markKind configuration (Kind.ofTypeName? definition.type) definition.name
    (markMembers configuration definition.items)) record

end Sharing

end TypeCatalog.Command
