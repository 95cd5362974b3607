import TypeCatalog.Data.Convert

/-! Types whose value spaces are fixed in advance. An entry of an enumeration gives its range and the spans of standard
and proprietary values; an entry of a bit string gives its greatest length and the span of proprietary bits. Entries are
found by the name of the definition in the notation. -/

namespace TypeCatalog

structure WellKnown where
  enumerated : Fields
  bitString : Fields
  deriving Repr, Inhabited

namespace Data

/-- A closed span of values. -/
def valueSpan (low high : Int) : Data := .record [("from", .int low), ("to", .int high)]

/-- A pair of limits. -/
def limits (minimum maximum : Data) : Data := .record [("minimum", minimum), ("maximum", maximum)]

end Data

namespace WellKnown

def data (tables : WellKnown) : Data :=
  .record [("enumerated", .object tables.enumerated), ("bit_string", .object tables.bitString)]

/-- The tables in data; a table that is missing is empty. -/
def ofData : Data → Except Failure WellKnown
  | .object fields => do
    let enumerated ← ((Fields.find? fields "enumerated").getD (.object [])).toFields
    let bitString ← ((Fields.find? fields "bit_string").getD (.object [])).toFields
    return ⟨enumerated, bitString⟩
  | _ => .error .illTyped

/-- The tables with the entries of others in place of their own. -/
def merge (base override : WellKnown) : WellKnown :=
  ⟨Fields.merge base.enumerated override.enumerated, Fields.merge base.bitString override.bitString⟩

/-- An enumeration whose standard values are followed by proprietary ones. -/
def enumeration (name : String) (standardTo proprietaryTo : Int) : Key × Data :=
  (.text name, .record
    [("range", .limits (.int 0) (.int (proprietaryTo + 1))),
     ("standard", .valueSpan 0 standardTo),
     ("proprietary", .valueSpan (standardTo + 1) proprietaryTo)])

/-- The tables of the standard. -/
def standard : WellKnown where
  enumerated :=
    [enumeration "BACnetAuditOperation" 31 63,
     enumeration "BACnetErrorClass" 63 65535,
     enumeration "BACnetErrorCode" 255 65535,
     enumeration "BACnetEventType" 63 65535,
     enumeration "BACnetLifeSafetyMode" 255 65535,
     enumeration "BACnetLifeSafetyOperation" 63 65535,
     enumeration "BACnetLifeSafetyState" 255 65535,
     enumeration "BACnetObjectType" 127 1023,
     enumeration "BACnetPropertyIdentifier" 511 4194303,
     enumeration "BACnetReliability" 63 65535,
     enumeration "BACnetRestartReason" 63 255]
  bitString :=
    [(.text "BACnetAuditOperationFlags", .record [("maximum", .int 64), ("proprietary", .valueSpan 32 63)])]

end WellKnown

end TypeCatalog
