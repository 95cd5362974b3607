import TypeCatalog.Definition.Draft
import TypeCatalog.Name
import TypeCatalog.Normal.Reserved
import TypeCatalog.Normal.Sorting
import TypeCatalog.Registry

/-! Records of the catalogue. A definition becomes a record with its alias, its name and its type; a type without
constraints, items or series is given by its name alone, any other one is an object over a base. -/

namespace TypeCatalog.Normal

/-- The greatest context tag that can be used. -/
def maxContext : Int := 254

/-- The span of proprietary values where none is documented: an empty one. -/
def unspecified : Data := .valueSpan 1 0

/-- A bound in a record: the infinities are words. An integer must fit the floating point range. -/
def bound : Data → Except Failure Data
  | .int n => if Double.overflows n then .error .overflow else .ok (.int n)
  | .bool value => .ok (.bool value)
  | .real value => .ok (Data.ofBound (.real value))
  | _ => .error .illTyped

/-- A length is one number if its limits are equal. -/
def length (size : Span) : Except Failure Data := do
  if size.min.isNumber && size.max.isNumber then
    if size.min.levelWith size.max then return ← bound size.min
  else if size.min.same size.max then return ← bound size.min
  let minimum ← bound size.min
  let maximum ← bound size.max
  return .limits minimum maximum

/-- The drafts in the order of their numbers; those with equal numbers stay in order. -/
def sortByNumber (drafts : List Draft) : List Draft := Sorting.sort (fun a b => a.number.isLess b.number) drafts

/-- The first of the least numbers. -/
def least (first : Data) (rest : List Data) : Data :=
  rest.foldl (fun found number => if number.isLess found then number else found) first

/-- The first of the greatest numbers. -/
def greatest (first : Data) (rest : List Data) : Data :=
  rest.foldl (fun found number => if found.isLess number then number else found) first

/-- The number after a number. -/
def next : Data → Except Failure Data
  | .int n => .ok (.int (n + 1))
  | .bool value => .ok (.int (if value then 2 else 1))
  | .real value => .ok (.real (value.add (.ofInt 1)))
  | _ => .error .illTyped

/-- The entries of an enumeration or a bit string in the order of their numbers, which are given under a key. -/
def numbered (key : String) (items : List Draft) : Except Failure (List Data) :=
  (sortByNumber items).mapM fun item => do
    let name ← Name.ofItemData item.name
    return .record [("alias", item.name), ("name", .text name), (key, item.number)]

/-- The least number of items and the number after their greatest. -/
def extent (first : Draft) (rest : List Draft) : Except Failure (Data × Data) := do
  if !(first :: rest).all (·.number.isNumber) then throw .illTyped
  let numbers := rest.map (·.number)
  return (least first.number numbers, ← next (greatest first.number numbers))

/-- A field of an entry that must be an object, if it is there. -/
def copied (name : String) (entry : Data) : Except Failure (List (String × Data)) :=
  match entry.find? name with
  | none => .ok []
  | some value => return [(name, .object (← value.toFields))]

/-- A field that an entry must have. -/
def required (name : String) : Data → Except Failure Data
  | .object fields => match Fields.find? fields name with
    | some value => .ok value
    | none => .error (.missingKey (.text name))
  | _ => .error .illTyped

/-- The entry for a name in a table of well known types. Entries that are empty do not count. -/
def entryFor (table : Fields) (name : Data) : Except Failure (Option Data) := do
  return (table.get? (← name.toKey)).filter Data.holds

/-- The documented spans of standard and proprietary values of an enumeration: the first sentence in its comments that
documents them, unless a span in it is inverted. -/
def reservedSpans (shape : Draft) (items : List Draft) : Except Failure (Option (Data × Data)) := do
  let texts ← ((shape.comment :: items.map (·.comment)).filter Data.holds).mapM fun
    | .text comment => .ok comment.toList
    | _ => .error .illTyped
  match Reserved.search ([' '].intercalate texts) with
  | none => return none
  | some limits =>
    match readNat? limits.standardFrom, readNat? limits.standardTo, readNat? limits.othersFrom,
        readNat? limits.othersTo with
    | some low, some high, some lowOthers, some highOthers =>
      if high < low || highOthers < lowOthers then return none
      return some (.valueSpan low high, .valueSpan lowOthers highOthers)
    | _, _, _, _ => throw .tooManyDigits

def bitString (tables : WellKnown) (shape : Draft) (first : Draft) (rest : List Draft) : Except Failure Data := do
  let items := first :: rest
  let (_, length) ← extent first rest
  let bits ← numbered "position" items
  let head := [("base", .text "bit-string"), ("bits", .array bits), ("extensible", shape.extensible)]
  match ← entryFor tables.bitString shape.name with
  | none => return .record (head ++ [("length", length)])
  | some entry =>
    let maximum ← required "maximum" entry
    return .record (head ++ [("length", .limits length maximum)] ++ (← copied "proprietary" entry))

def enumerated (tables : WellKnown) (shape : Draft) (first : Draft) (rest : List Draft) : Except Failure Data := do
  let items := first :: rest
  let (minimum, maximum) ← extent first rest
  let values ← numbered "constant" items
  let head := [("base", .text "enumerated"), ("values", .array values)]
  match ← entryFor tables.enumerated shape.name with
  | some entry =>
    let range ← (← required "range" entry).toFields
    let standard ← copied "standard" entry
    let proprietary ← copied "proprietary" entry
    return .record (head ++ [("extensible", .bool true), ("range", .object range)] ++ standard ++ proprietary)
  | none =>
    let plain := head ++ [("extensible", shape.extensible), ("range", .limits minimum maximum)]
    if !shape.extensible.holds then return .record plain
    match ← reservedSpans shape items with
    | none => return .record (plain ++ [("proprietary", unspecified)])
    | some (standard, proprietary) =>
      return .record (plain ++ [("standard", standard), ("proprietary", proprietary)])

/-- The kind of a type that is given as data. -/
def kindOf : Data → Option Kind
  | .text name => Kind.ofTypeName? name
  | _ => none

/-- Whether a series is given at all. -/
def isSeries : Data → Bool
  | .null => false
  | .bool false => false
  | _ => true

/-- A type with its series. -/
def withSeries (series type : Data) : Data :=
  if !isSeries series then type
  else match type with
    | .object fields => .object (Fields.put (.text "series") series fields)
    | type => .record [("base", type), ("series", series)]

/-- A context tag, if the number can be one. -/
def context (number : Data) : List (String × Data) :=
  match number with
  | .int n => if 0 ≤ n && n ≤ maxContext then [("context", number)] else []
  | _ => []

/-- A comment, unless it is empty. -/
def comment (text : Data) : List (String × Data) := if text.holds then [("comment", text)] else []

mutual

/-- The type of a definition or an item in the catalogue. -/
def type (tables : WellKnown) : Draft → Except Failure Data
  | .mk name typeName number optional primitive series size range items extensible comment => do
    let shape : Draft := ⟨name, typeName, number, optional, primitive, series, size, range, items, extensible, comment⟩
    let plain : Except Failure Data := do return .text (← Name.ofTypeData typeName)
    let type ← match kindOf typeName with
      | none | some .any => plain
      | some .unsigned | some .integer | some .real | some .double =>
        match range with
        | none => plain
        | some range => do
          let base ← Name.ofTypeData typeName
          let minimum ← bound range.min
          let maximum ← bound range.max
          pure (.record [("base", .text base), ("minimum", minimum), ("maximum", maximum)])
      | some .octetString | some .characterString =>
        match size with
        | none => plain
        | some size => do
          let base ← Name.ofTypeData typeName
          pure (.record [("base", .text base), ("length", ← length size)])
      | some .bitString =>
        match items with
        | some (first :: rest) => bitString tables shape first rest
        | _ => plain
      | some .enumerated =>
        match items with
        | some (first :: rest) => enumerated tables shape first rest
        | _ => plain
      | some .choice => do pure (.record [("base", .text "choice"), ("options", .array (← options tables items))])
      | some .sequence => do pure (.record [("base", .text "sequence"), ("fields", .array (← fields tables items))])
    return withSeries series type

def options (tables : WellKnown) : Option (List Draft) → Except Failure (List Data)
  | none => .ok []
  | some items => members tables false items

def fields (tables : WellKnown) : Option (List Draft) → Except Failure (List Data)
  | none => .ok []
  | some items => members tables true items

/-- The options of a choice or the fields of a sequence; only fields tell whether they are optional. -/
def members (tables : WellKnown) (areFields : Bool) : List Draft → Except Failure (List Data)
  | [] => .ok []
  | item :: rest => do
    let name ← Name.ofItemData item.name
    let type ← type tables item
    let member := .record ([("alias", item.name), ("name", .text name), ("type", type)] ++ context item.number ++
      (if areFields then [("optional", item.optional)] else []) ++ Normal.comment item.comment)
    return member :: (← members tables areFields rest)

end

/-- A record of the catalogue: made for a definition, or found in a registry. -/
inductive Normalized where
  | made (record : Data)
  | found (entry : Registry.Entry)
  deriving Repr

def Normalized.data : Normalized → Data
  | .made record => record
  | .found entry => entry.record

/-- The record of a definition. One that the registry has under the definition's alias or name comes first. -/
def normalize (registry : Option Registry) (tables : WellKnown) (draft : Draft) : Except Failure Normalized := do
  let name ← Name.ofTypeData draft.name
  let found := registry.bind fun registry =>
    ((draft.name.toKey.toOption.bind registry.get?).filter (·.record.holds)).or (registry.get? (.text name))
  match found with
  | some entry => return .found entry
  | none =>
    let type ← type tables draft
    let primitive := match draft.primitive with
      | .null => []
      | tag => [("primitive", tag)]
    return .made (.record ([("alias", draft.name), ("name", .text name)] ++ primitive ++ comment draft.comment ++
      [("type", type)]))

/-- The records of definitions in order, up to the first failure. -/
def normalizeAll (registry : Option Registry) (tables : WellKnown) : List Draft → List Normalized × Option Failure
  | [] => ([], none)
  | draft :: rest => match normalize registry tables draft with
    | .error failure => ([], some failure)
    | .ok first =>
      let (others, failure) := normalizeAll registry tables rest
      (first :: others, failure)

end TypeCatalog.Normal
