import TypeCatalog.Data.Convert

/-! The dialects of the schema language. A schema states its dialect by an address; one that states none, or one that is
not known, is in the dialect of the schema around it. -/

namespace TypeCatalog.Schema

inductive Dialect where
  | draft3
  | draft4
  | draft6
  | draft7
  | draft2019
  | draft2020
  deriving DecidableEq, Repr, Inhabited

/-- The keywords that ask something of data. All others are annotations. -/
inductive Keyword where
  | type
  | required
  | properties
  | additionalProperties
  | items
  | oneOf
  | enum
  | minimum
  deriving DecidableEq, Repr

namespace Dialect

/-- Removes one mark at the end, after which nothing stands. -/
def dropEnd (mark : Char) (text : List Char) : List Char :=
  if text.getLast? == some mark then text.dropLast else text

/-- The usual form of an address: without blanks in front and line breaks, without an empty fragment or query, and with
the scheme in lower case. -/
def usualForm (text : String) : String :=
  let chars := (text.toList.dropWhile (· ≤ ' ')).filter fun c => c != '\t' && c != '\n' && c != '\r'
  let scheme := (chars.takeWhile (· != ':')).map Char.toLower
  String.ofList (scheme ++ dropEnd '?' (dropEnd '#' (chars.drop scheme.length)))

/-- The dialect with an address. -/
def ofAddress? (text : String) : Option Dialect :=
  match usualForm text with
  | "http://json-schema.org/draft-03/schema" => some draft3
  | "http://json-schema.org/draft-04/schema" => some draft4
  | "http://json-schema.org/draft-06/schema" => some draft6
  | "http://json-schema.org/draft-07/schema" => some draft7
  | "https://json-schema.org/draft/2019-09/schema" => some draft2019
  | "https://json-schema.org/draft/2020-12/schema" => some draft2020
  | _ => none

/-- The dialect that a schema states, or else the one around it. -/
def stated (outer : Dialect) (schema : Fields) : Except Failure Dialect :=
  match schema.find? "$schema" with
  | none => .ok outer
  | some (.text address) => .ok ((ofAddress? address).getD outer)
  | some (.array _) | some (.object _) => .error .illTyped
  | some value => if value.holds then .error .illTyped else .ok outer

/-- Dialects before the sixth draft. -/
def isEarly : Dialect → Bool
  | draft3 | draft4 => true
  | _ => false

/-- The field that identifies a schema. -/
def idField (dialect : Dialect) : String := if dialect.isEarly then "id" else "$id"

/-- Checks that the identifier of a schema is text, if there is one. -/
def checkId (dialect : Dialect) (schema : Fields) : Except Failure Unit :=
  match schema.find? dialect.idField with
  | none | some .null | some (.text _) => .ok ()
  | some _ => .error .illTyped

/-- The keyword of a field. The third draft has fewer keywords. -/
def keyword? (dialect : Dialect) : Key → Option Keyword
  | .text "type" => some .type
  | .text "required" => if dialect = draft3 then none else some .required
  | .text "properties" => some .properties
  | .text "additionalProperties" => some .additionalProperties
  | .text "items" => some .items
  | .text "oneOf" => if dialect = draft3 then none else some .oneOf
  | .text "enum" => some .enum
  | .text "minimum" => some .minimum
  | _ => none

/-- Whether a value is of a type with a name, if there is such a type. Truth values are no numbers. A floating point number
without a fraction is an integer, but for early dialects. -/
def hasType? (dialect : Dialect) (name : String) (data : Data) : Option Bool :=
  match name with
  | "object" => some (data matches .object _)
  | "array" => some (data matches .array _)
  | "integer" => some (match data with
    | .int _ => true
    | .real value => !dialect.isEarly && value.isIntegral
    | _ => false)
  | "number" => some (data matches .int _ | .real _)
  | "string" => some (data matches .text _)
  | "boolean" => some (data matches .bool _)
  | "null" => some (data matches .null)
  | "any" => if dialect = draft3 then some true else none
  | _ => none

/-- Whether a value is of the type that an entry names. -/
def hasType (dialect : Dialect) (data : Data) : Data → Except Failure Bool
  | .text name => match dialect.hasType? name data with
    | some answer => .ok answer
    | none => .error .unknownType
  | .array _ | .object _ => .error .illTyped
  | _ => .error .unknownType

end Dialect

end TypeCatalog.Schema
