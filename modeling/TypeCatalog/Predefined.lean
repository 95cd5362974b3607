import TypeCatalog.Name
import TypeCatalog.Registry

/-! Records that are given in short form: a name with a primitive tag, or with a base type and limits. -/

namespace TypeCatalog.Predefined

/-- The value of a field that must be there. -/
def field (fields : Fields) (name : String) : Except Failure Data :=
  match fields.find? name with
  | some value => .ok value
  | none => .error (.missingKey (.text name))

/-- A field as a list of one entry, or none if it is missing. -/
def entry (fields : Fields) (name : String) (value : Data → List (String × Data)) : List (String × Data) :=
  match fields.find? name with
  | some data => value data
  | none => []

/-- The constrained type over a base. The lower limit is zero unless it is given, a length is a greatest length, and a
size is an exact one. -/
def constrained (base : String) (fields : Fields) : Data :=
  let limits := entry fields "maximum" fun maximum =>
    [("minimum", (fields.find? "minimum").getD (.int 0)), ("maximum", maximum)]
  let length := if fields.has "size" then entry fields "size" fun size => [("length", size)]
    else entry fields "length" fun length => [("length", .limits (.int 0) length)]
  .record ([("base", .text base)] ++ limits ++ length)

/-- The record that a short form stands for. A form with nothing but a name and a base has the base as its type. -/
def record : Data → Except Failure Data
  | .object fields => do
    let label ← field fields "name"
    let name ← Name.ofTypeData label
    let head := [("alias", label), ("name", .text name)]
    match Fields.find? fields "primitive" with
    | some primitive => return .record (head ++ [("primitive", primitive)])
    | none =>
      let base ← Name.ofTypeData (← field fields "base")
      let type := if fields.length == 2 then .text base else constrained base fields
      return .record (head ++ [("type", type)])
  | _ => .error .illTyped

/-- The records of a document of short forms. -/
def records : Data → Except Failure (List Data)
  | .object fields => do
    match ← field fields "definitions" with
    | .array forms => forms.mapM record
    | .object [] | .text "" => return []
    | _ => throw .illTyped
  | _ => .error .illTyped

private def primitive (name : String) (tag : Int) : Data := .record [("name", .text name), ("primitive", .int tag)]

private def limited (name base : String) (limits : List (String × Data)) : Data :=
  .record ([("name", .text name), ("base", .text base)] ++ limits)

/-- The application primitives and the numeric types of fixed width. -/
def standardForms : Data :=
  .record [("definitions", .array
    [primitive "Null" 0, primitive "Boolean" 1, primitive "Unsigned" 2, primitive "Integer" 3, primitive "Real" 4,
     primitive "Double" 5, primitive "OctetString" 6, primitive "CharacterString" 7, primitive "BitString" 8,
     primitive "Enumerated" 9, primitive "Date" 10, primitive "Time" 11, primitive "BACnetObjectIdentifier" 12,
     primitive "Any" (-1),
     limited "Unsigned8" "Unsigned" [("maximum", .int 255)],
     limited "Unsigned16" "Unsigned" [("maximum", .int 65535)],
     limited "Unsigned32" "Unsigned" [("maximum", .int 4294967295)],
     limited "Unsigned64" "Unsigned" [("maximum", .text "18446744073709551615")],
     limited "Integer8" "Integer" [("minimum", .int (-128)), ("maximum", .int 127)],
     limited "Integer16" "Integer" [("minimum", .int (-32768)), ("maximum", .int 32767)],
     limited "Integer32" "Integer" [("minimum", .int (-2147483648)), ("maximum", .int 2147483647)],
     limited "Integer64" "Integer"
       [("minimum", .text "-9223372036854775808"), ("maximum", .text "9223372036854775807")],
     limited "BACnetWeekNDay" "OctetString" [("size", .int 3)]])]

/-- The registry of the standard forms. -/
def standard : Registry :=
  match records standardForms with
  | .ok records => (Registry.ofRecords records).toOption.getD .empty
  | .error _ => .empty

end TypeCatalog.Predefined
