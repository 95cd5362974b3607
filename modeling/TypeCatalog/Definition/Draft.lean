import TypeCatalog.Data.Convert
import TypeCatalog.Definition.Basic

/-! Definitions as data. A draft has the fields of a definition or of an item, but a field may hold any value, as a
document may put one there. Fields that are null or false are left out of the data, so every definition that is read
from source text comes back from its data unchanged. -/

namespace TypeCatalog

/-- A range whose bounds may be any values; `MIN` and `MAX` are already infinities. -/
structure Span where
  min : Data
  max : Data
  deriving Repr, Inhabited

/-- A definition or an item, loosely typed. -/
structure Draft where
  name : Data
  type : Data := .null
  number : Data := .null
  optional : Data := .bool false
  primitive : Data := .null
  series : Data := .null
  size : Option Span := none
  range : Option Span := none
  items : Option (List Draft) := none
  extensible : Data := .bool false
  comment : Data := .null
  deriving Repr, Inhabited

/-- Whether a draft stands on its own or in an item list. Only definitions have a primitive tag, only items have a
number and can be optional, and only items can be without a type. -/
inductive Role where
  | definition
  | item
  deriving DecidableEq, Repr

namespace Span

def data (span : Span) : Data := .record [("min", span.min.ofBound), ("max", span.max.ofBound)]

/-- The range that an object with two bounds spells. -/
def ofData : Data → Except Failure Span
  | .object fields => do
    let some min := Fields.find? fields "min" | throw (.missingKey (.text "min"))
    let some max := Fields.find? fields "max" | throw (.missingKey (.text "max"))
    return ⟨min.toBound, max.toBound⟩
  | _ => .error .illTyped

def same (a b : Span) : Bool := a.min.same b.min && a.max.same b.max

end Span

namespace Draft

/-- Null and false are the defaults that data leaves out. -/
def isOmitted : Data → Bool
  | .null => true
  | .bool false => true
  | _ => false

/-- The fields of a role in the order in which data lists them. -/
def order : Role → List String
  | .definition => ["name", "type", "primitive", "series", "size", "range", "items", "extensible", "comment"]
  | .item => ["name", "number", "optional", "type", "series", "size", "range", "items", "extensible", "comment"]

mutual

/-- A draft as data. -/
def data (role : Role) : Draft → Data
  | .mk name type number optional primitive series size range items extensible comment =>
    let fields : List (String × Data) :=
      [("name", name), ("type", type), ("number", number), ("optional", optional), ("primitive", primitive),
       ("series", series), ("size", (size.map Span.data).getD .null), ("range", (range.map Span.data).getD .null),
       ("items", itemsData items), ("extensible", extensible), ("comment", comment)]
    .record <| (order role).filterMap fun field =>
      match fields.lookup field with
      | some value => if isOmitted value then none else some (field, value)
      | none => none

def itemsData : Option (List Draft) → Data
  | none => .null
  | some items => .array (listData items)

def listData : List Draft → List Data
  | [] => []
  | item :: rest => data .item item :: listData rest

end

/-- The fields of a draft as they are found in data. Structured fields are read, but a failure in one of them is kept
until its turn comes. -/
structure Slots where
  plain : Fields := []
  size : Option (Except Failure Span) := none
  range : Option (Except Failure Span) := none
  items : Option (Except Failure (List Draft)) := none

/-- The value of a field that may be missing, with its failure. -/
private def settle {α : Type} : Option (Except Failure α) → Except Failure (Option α)
  | none => .ok none
  | some (.ok value) => .ok (some value)
  | some (.error failure) => .error failure

theorem settle_ok {α : Type} (value : Option α) : settle (value.map .ok) = .ok value := by cases value <;> rfl

/-- The draft that found fields make up. Structured fields come first, then names that the role does not have, then
fields that it must have. -/
def Slots.draft (role : Role) (slots : Slots) : Except Failure Draft := do
  let size ← settle slots.size
  let range ← settle slots.range
  let items ← settle slots.items
  let known : Key → Bool
    | .text name => (order role).contains name
    | _ => false
  if !slots.plain.all (known ·.1) then throw .illTyped
  let some name := slots.plain.find? "name" | throw .illTyped
  if role = .definition && !slots.plain.has "type" then throw .illTyped
  let get (field : String) (default : Data) : Data := (slots.plain.find? field).getD default
  return {
    name, type := get "type" .null, number := get "number" .null, optional := get "optional" (.bool false)
    primitive := get "primitive" .null, series := get "series" .null, size, range, items
    extensible := get "extensible" (.bool false), comment := get "comment" .null }

/-- The items that a key stands for where a list is needed. Its characters are no items, so only an empty text will do. -/
def itemsOfKey : Key → Except Failure (List Draft)
  | .text "" => .ok []
  | .text _ => .error .notPair
  | _ => .error .illTyped

/-- The item that a key stands for. An empty text has no fields, and so not those that an item must have. -/
def itemOfKey : Key → Except Failure Draft
  | .text "" => Slots.draft .item {}
  | .text _ => .error .notPair
  | _ => .error .illTyped

/-- Puts a value in a field, in place of what was there. The items that it spells are asked for where they matter. -/
def Slots.put (slots : Slots) (key : Key) (value : Data) (items : Unit → Except Failure (List Draft)) : Slots :=
  match key with
  | .text "size" => { slots with size := some (Span.ofData value) }
  | .text "range" => { slots with range := some (Span.ofData value) }
  | .text "items" => { slots with items := some (items ()) }
  | _ => { slots with plain := Fields.put key value slots.plain }

def Slots.putKey (slots : Slots) (key value : Key) : Slots := slots.put key value.data fun _ => itemsOfKey value

mutual

/-- The draft that data spells. A list of pairs will do for an object. -/
def ofData (role : Role) : Data → Except Failure Draft
  | .object fields => (slotsOfFields {} fields).draft role
  | .array pairs => do (← slotsOfPairs {} pairs).draft role
  | .text "" => Slots.draft role {}
  | .text _ => .error .notPair
  | _ => .error .illTyped

def slotsOfFields (slots : Slots) : List (Key × Data) → Slots
  | [] => slots
  | (key, value) :: rest => slotsOfFields (slots.put key value fun _ => itemsOf value) rest

def slotsOfPairs (slots : Slots) : List Data → Except Failure Slots
  | [] => .ok slots
  | pair :: rest => do slotsOfPairs (← slotsWithPair slots pair) rest

/-- The slots with the value of a pair: a list of a key and a value, two keys of an object, or two characters. -/
def slotsWithPair (slots : Slots) : Data → Except Failure Slots
  | .array [key, value] => do return slots.put (← key.toKey) value fun _ => itemsOf value
  | .object [(key, _), (value, _)] => .ok (slots.putKey key value)
  | .text text => match text.toList with
    | [key, value] => .ok (slots.putKey (.text (String.singleton key)) (.text (String.singleton value)))
    | _ => .error .notPair
  | .array _ | .object _ => .error .notPair
  | _ => .error .illTyped

def itemsOf : Data → Except Failure (List Draft)
  | .array items => listOf items
  | .object fields => fields.mapM (itemOfKey ·.1)
  | .text text => itemsOfKey (.text text)
  | _ => .error .illTyped

def listOf : List Data → Except Failure (List Draft)
  | [] => .ok []
  | item :: rest => do
    let first ← ofData .item item
    return first :: (← listOf rest)

end

mutual

/-- Equality by value, field by field. -/
def same : Draft → Draft → Bool
  | .mk name type number optional primitive series size range items extensible comment, other =>
    name.same other.name && type.same other.type && number.same other.number && optional.same other.optional &&
    primitive.same other.primitive && series.same other.series && sameSpan size other.size &&
    sameSpan range other.range && sameItems items other.items && extensible.same other.extensible &&
    comment.same other.comment

def sameItems : Option (List Draft) → Option (List Draft) → Bool
  | none, none => true
  | some a, some b => sameList a b
  | _, _ => false

def sameList : List Draft → List Draft → Bool
  | [], [] => true
  | a :: as, b :: bs => same a b && sameList as bs
  | _, _ => false

def sameSpan : Option Span → Option Span → Bool
  | none, none => true
  | some a, some b => a.same b
  | _, _ => false

end

end Draft

namespace Series

def data : Series → Data
  | .unbounded => .bool true
  | .counted count => .int count

end Series

/-- A field that may be missing, as data. -/
def orNull {α : Type} (data : α → Data) : Option α → Data
  | none => .null
  | some value => data value

namespace Range

def span (range : Range) : Span := ⟨range.min.data, range.max.data⟩

end Range

namespace Item

mutual

def draft : Item → Draft
  | .mk name number optional type series size range items extensible comment =>
    { name := .text name, type := orNull .text type, number := orNull .int number, optional := .bool optional
      series := orNull Series.data series, size := size.map Range.span, range := range.map Range.span
      items := itemsDraft items, extensible := .bool extensible, comment := orNull .text comment }

def itemsDraft : Option (List Item) → Option (List Draft)
  | none => none
  | some items => some (listDraft items)

def listDraft : List Item → List Draft
  | [] => []
  | item :: rest => draft item :: listDraft rest

end

end Item

namespace Definition

/-- A definition among the drafts. -/
def draft (definition : Definition) : Draft where
  name := .text definition.name
  type := .text definition.type
  primitive := orNull .int definition.primitive
  series := orNull Series.data definition.series
  size := definition.size.map Range.span
  range := definition.range.map Range.span
  items := Item.itemsDraft definition.items
  extensible := .bool definition.extensible
  comment := orNull .text definition.comment

/-- A definition as data. -/
def data (definition : Definition) : Data := definition.draft.data .definition

end Definition

end TypeCatalog
