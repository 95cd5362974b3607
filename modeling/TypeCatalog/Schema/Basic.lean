import TypeCatalog.Data.Convert
import TypeCatalog.Schema.Dialect

/-! Schemas, which tell valid data from invalid. A schema is itself given as data, and what it asks for is looked at
keyword by keyword, in order. A keyword that makes no sense is a failure where it is looked at; what comes after the first
rejection is not, unless the alternatives of a choice are tried out. -/

namespace TypeCatalog.Schema

mutual

/-- Equality of values as a schema sees it: truth values differ from numbers, and numbers are equal by value. -/
def equal : Data → Data → Bool
  | .null, .null => true
  | .bool a, .bool b => a == b
  | .text a, .text b => a == b
  | .array a, .array b => equalItems a b
  | .object a, .object b => a.length == b.length && equalFields a b
  | .int a, b => !(b matches .bool _) && Data.levelWith (.int a) b
  | .real a, b => !(b matches .bool _) && Data.levelWith (.real a) b
  | _, _ => false

def equalItems : List Data → List Data → Bool
  | [], [] => true
  | a :: as, b :: bs => equal a b && equalItems as bs
  | _, _ => false

def equalFields : List (Key × Data) → Fields → Bool
  | [], _ => true
  | (key, value) :: rest, other =>
    (match other.get? key with
      | some found => equal value found
      | none => false) && equalFields rest other

end

/-- How an answer comes about: whether data is accepted, unless the question makes no sense. -/
abbrev Answer := Except Failure Bool

/-- A rejection tells what was rejected, which must be possible to write. -/
def reject (told : List Data) : Answer := if told.all Data.isWritable then .ok false else .error .tooManyDigits

/-- Both of two questions. The second is asked after a rejection too if the check is thorough. -/
def both (thorough : Bool) (first : Answer) (second : Unit → Answer) : Answer := do
  if ← first then second ()
  else if thorough then
    let _ ← second ()
    return false
  else return false

/-- A question about every member of a list. -/
def every {α : Type} (thorough : Bool) (ask : α → Answer) : List α → Answer
  | [] => .ok true
  | first :: rest => both thorough (ask first) fun _ => every thorough ask rest

/-- A question about the members of a list up to the first for which the answer is yes. -/
def some? {α : Type} (ask : α → Answer) : List α → Answer
  | [] => .ok false
  | first :: rest => do if ← ask first then return true else some? ask rest

/-- A question that concerns objects only. -/
def ofObject (data : Data) (ask : Fields → Answer) : Answer :=
  match data with
  | .object fields => ask fields
  | _ => .ok true

/-- A question that concerns arrays only. -/
def ofArray (data : Data) (ask : List Data → Answer) : Answer :=
  match data with
  | .array items => ask items
  | _ => .ok true

/-- Whether a text occurs in another. -/
def occursIn (part : List Char) : List Char → Bool
  | [] => part.isEmpty
  | c :: rest => part.isPrefixOf (c :: rest) || occursIn part rest

/-- Whether a key is known to what stands for the properties of a schema. -/
def isKnown (key : Key) : Data → Answer
  | .object named => .ok (Fields.get? named key).isSome
  | .array names => .ok (names.any (Data.sameWith false key.data))
  | .text text => match key with
    | .text name => .ok (occursIn name.toList text.toList)
    | _ => .error .illTyped
  | _ => .error .illTyped

/-- The fields of an object that a schema has no properties for. -/
def extras (schema : Fields) (fields : Fields) : Except Failure Fields :=
  let known := (schema.find? "properties").getD (.object [])
  fields.filterM fun field => return !(← isKnown field.1 known)

/-- Whether the fields that are named are all there. -/
def checkRequired (thorough : Bool) (names : Data) (fields : Fields) : Answer := do
  every thorough (fun name => do
    if (fields.get? (← name.toKey)).isSome then return true else reject [name]) (← names.members)

/-- Whether data is one of some values. -/
def checkEnum (values data : Data) : Answer := do
  if (← values.members).any (equal · data) then return true else reject [data, values]

/-- Whether a number reaches a limit. -/
def checkMinimum (limit data : Data) : Answer :=
  match data with
  | .int _ | .real _ =>
    if !limit.isNumber then .error .illTyped
    else if data.isLess limit then reject [data, limit]
    else .ok true
  | _ => .ok true

/-- The entries of a list of types, which may be a single name. -/
def typeEntries : Data → Except Failure (List Data)
  | .text name => .ok [.text name]
  | entries => entries.members

/-- Whether data is of one of some types. -/
def checkType (dialect : Dialect) (types data : Data) : Answer := do
  if ← some? (dialect.hasType data) (← typeEntries types) then return true else reject [data]

/-- What early dialects make of a value in the place of schemas for items: characters of a text are no schemas. -/
def checkNoPlaces (value : Data) (items : List Data) : Answer :=
  match value with
  | .text text => if items.isEmpty || text.isEmpty then .ok true else .error .illTyped
  | _ => .error .illTyped

/-- What is made of a value in the place of schemas to choose from: one without members offers nothing. -/
def checkNoSchemas (value data : Data) : Answer :=
  match value with
  | .object [] | .text "" => reject [data]
  | _ => .error .illTyped

mutual

/-- Whether data satisfies a schema inside of another. -/
def check (outer : Dialect) (thorough : Bool) (data : Data) : Data → Answer
  | .bool value => if value then .ok true else reject [data]
  | .object schema => do
    outer.checkId schema
    checkKeywords (← outer.stated schema) thorough schema data schema
  | _ => .error .illTyped
termination_by structural schema => schema

/-- Whether data satisfies the keywords of a schema. -/
def checkKeywords (dialect : Dialect) (thorough : Bool) (schema : Fields) (data : Data) : List (Key × Data) → Answer
  | [] => .ok true
  | (key, value) :: rest =>
    both thorough (match dialect.keyword? key with
      | none => .ok true
      | some .required => ofObject data (checkRequired thorough value)
      | some .enum => checkEnum value data
      | some .minimum => checkMinimum value data
      | some .type => match value with
        | .array entries =>
          if dialect = .draft3 then checkAlternatives dialect data entries else checkType dialect value data
        | _ => checkType dialect value data
      | some .properties => ofObject data fun fields => match value with
        | .object named => checkProperties dialect thorough fields named
        | _ => .error .illTyped
      | some .additionalProperties => ofObject data fun fields => do
        let extras ← extras schema fields
        if value matches .object _ then every thorough (fun field => check dialect thorough field.2 value) extras
        else if value.holds || extras.isEmpty then return true
        else reject (extras.map (·.1.data))
      | some .items => ofArray data fun items =>
        let all := every thorough (fun item => check dialect thorough item value) items
        match value with
        | .object _ => all
        | .array schemas => if dialect = .draft2020 then all else checkPlaces dialect thorough items schemas
        | _ =>
          if dialect.isEarly then checkNoPlaces value items
          else if value matches .bool false && dialect = .draft2020 && !items.isEmpty then reject items
          else all
      | some .oneOf => match value with
        | .array schemas => checkOneOf dialect data schemas
        | _ => checkNoSchemas value data)
    fun _ => checkKeywords dialect thorough schema data rest
termination_by structural keywords => keywords

/-- Whether the fields of an object satisfy the schemas under their names. In the third draft a schema can ask for its
field. -/
def checkProperties (dialect : Dialect) (thorough : Bool) (fields : Fields) : List (Key × Data) → Answer
  | [] => .ok true
  | (key, schema) :: rest =>
    both thorough (match fields.get? key with
      | some value => check dialect thorough value schema
      | none =>
        if dialect ≠ .draft3 then .ok true
        else match schema with
          | .object schema => if (Fields.find? schema "required").any Data.holds then reject [key.data] else .ok true
          | _ => .error .illTyped)
    fun _ => checkProperties dialect thorough fields rest
termination_by structural named => named

/-- Whether items satisfy the schemas at their places, as far as there are any. -/
def checkPlaces (dialect : Dialect) (thorough : Bool) : List Data → List Data → Answer
  | item :: items, schema :: schemas =>
    both thorough (check dialect thorough item schema) fun _ => checkPlaces dialect thorough items schemas
  | _, _ => .ok true
termination_by structural _ schemas => schemas

/-- Whether data is of a type or satisfies a schema among alternatives, in the third draft. -/
def checkAlternatives (dialect : Dialect) (data : Data) : List Data → Answer
  | [] => reject [data]
  | entry :: rest => do
    let accepted ← if entry matches .object _ then check dialect true data entry else dialect.hasType data entry
    if accepted then return true else checkAlternatives dialect data rest
termination_by structural entries => entries

/-- Whether data satisfies exactly one schema. The schemas up to the first that accepts it are tried out thoroughly. -/
def checkOneOf (dialect : Dialect) (data : Data) : List Data → Answer
  | [] => reject [data]
  | schema :: rest => do
    if ← check dialect true data schema then
      if ← anyAccepts dialect data rest then reject [data] else return true
    else checkOneOf dialect data rest
termination_by structural schemas => schemas

/-- Whether one of some schemas accepts data. All of them are asked. -/
def anyAccepts (dialect : Dialect) (data : Data) : List Data → Answer
  | [] => .ok false
  | schema :: rest => do
    let accepted ← match schema with
      | .bool value => if value then .ok true else reject [data]
      | .object schema => do checkKeywords (← dialect.stated schema) false schema data schema
      | _ => .error .illTyped
    let others ← anyAccepts dialect data rest
    return accepted || others
termination_by structural schemas => schemas

end

/-- Whether data satisfies a schema that stands on its own. -/
def accepts (schema data : Data) : Answer :=
  match schema with
  | .object fields => do
    let dialect ← Dialect.draft2020.stated fields
    dialect.checkId fields
    checkKeywords dialect false fields data fields
  | .bool value => if value then .ok true else reject [data]
  | _ => .error .illTyped

end TypeCatalog.Schema
