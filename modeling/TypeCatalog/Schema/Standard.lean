import TypeCatalog.Schema.Repository

/-! The schemas of configurations, of records and of documents of predefined types. -/

namespace TypeCatalog.Standard

def texts (names : List String) : Data := .array (names.map .text)

/-- A schema of a type. -/
def typed (name : String) (more : List (String × Data)) : Data := .record (("type", .text name) :: more)

def integer : Data := typed "integer" []

def natural : Data := typed "integer" [("minimum", .int 0)]

def string : Data := typed "string" []

/-- An object with two integers that must be there. -/
def integerPair (first second : String) : Data :=
  typed "object" [("required", texts [first, second]), ("properties", .record [(first, integer), (second, integer)])]

def valueSpan : Data := integerPair "from" "to"

def configurationId : String := "baclib://asn1/main.yaml"

def predefinedId : String := "baclib://asn1/predefined.yaml"

def recordId : String := "baclib://asn1/record.yaml"

/-- A schema document. -/
def document (id title : String) (fields : List (String × Data)) : Data :=
  .record ([("$schema", .text "http://json-schema.org/draft-07/schema#"), ("$id", .text (id ++ "#")),
    ("title", .text title)] ++ fields)

/-- An entry of a table of well known enumerations. -/
def enumeratedEntry : Data :=
  typed "object" [("required", texts ["range"]), ("properties", .record
    [("range", integerPair "minimum" "maximum"), ("standard", valueSpan), ("proprietary", valueSpan)])]

/-- An entry of a table of well known bit strings. -/
def bitStringEntry : Data :=
  typed "object" [("required", texts ["maximum"]), ("properties", .record
    [("maximum", typed "integer" [("minimum", .int 1)]), ("proprietary", valueSpan)])]

/-- A table whose entries satisfy a schema. -/
def table (entry : Data) : Data := typed "object" [("additionalProperties", entry)]

/-- Tables of well known types. -/
def tables : Data :=
  typed "object" [("properties", .record [("enumerated", table enumeratedEntry), ("bit_string", table bitStringEntry)])]

/-- Configurations. -/
def configuration : Data :=
  document configurationId "baclib-asn1 configuration"
    [("type", .text "object"),
     ("properties", .record
       [("log", typed "object" [("description", .text "logging.config.dictConfig configuration\n")]),
        ("format", .record [("enum", texts ["yaml", "json"])]),
        ("predefined", typed "array"
          [("description", .text "additional predefined type files or directories\n"), ("items", string)]),
        ("well_known", tables)])]

/-- A limit of values, which may be given as text. -/
def limit : Data := .record [("type", texts ["integer", "number", "string"])]

/-- The short form of a primitive type. -/
def primitiveForm : Data :=
  typed "object"
    [("required", texts ["name", "primitive"]), ("additionalProperties", .bool false),
     ("properties", .record [("name", string), ("primitive", integer)])]

/-- The short form of a type over a base. -/
def derivedForm : Data :=
  typed "object"
    [("required", texts ["name", "base"]), ("additionalProperties", .bool false),
     ("properties", .record
       [("name", string), ("base", string), ("minimum", limit), ("maximum", limit), ("length", natural),
        ("size", natural)])]

/-- Documents of predefined types in short form. -/
def predefined : Data :=
  document predefinedId "Abstract predefined types"
    [("type", .text "object"), ("required", texts ["definitions"]),
     ("properties", .record
       [("definitions", typed "array" [("items", .record [("oneOf", .array [primitiveForm, derivedForm])])])])]

/-- Records of the catalogue. -/
def record : Data :=
  document recordId "Normalized definition"
    [("type", .text "object"), ("required", texts ["alias", "name"]),
     ("properties", .record
       [("alias", string), ("name", string), ("primitive", integer), ("comment", string),
        ("type", .record [("oneOf", .array
          [string, typed "object" [("required", texts ["base"]), ("properties", .record [("base", string)])]])])])]

/-- The repository of these schemas. -/
def repository : Repository :=
  ⟨[(configurationId, .plain configuration), (predefinedId, .plain predefined), (recordId, .plain record)]⟩

end TypeCatalog.Standard
