import TypeCatalog.Source.Error

/-! Everything that can go wrong, by its cause. -/

namespace TypeCatalog

/-- The two text formats of documents. -/
inductive Format where
  | json
  | yaml
  deriving DecidableEq, Repr, Inhabited

inductive Failure where
  /-- A source text is rejected. -/
  | source (error : Source.Error)
  /-- A value has a type that the operation cannot use, or a record has fields it must not have. -/
  | illTyped
  /-- A collection that stands for an object has a member that is no pair. -/
  | notPair
  | missingKey (key : Key)
  /-- An integer is too large for a floating point number. -/
  | overflow
  | tooManyDigits
  /-- A word that stands for a number cannot be read as one. -/
  | notNumber
  /-- A document to be written holds a collection that is inside of itself. -/
  | circular
  /-- Data that has to be gone through has a collection that is inside of itself. -/
  | endless
  /-- A document to be written holds an infinity or a NaN. -/
  | notFinite (format : Format) (value : Double)
  | unsupportedFormat
  | unknownSuffix
  | jsonMalformed
  | yamlMalformed
  | schemaViolated
  /-- A schema asks for a type that there is not. -/
  | unknownType
  | duplicateSchema (id : String)
  | unsupportedPredefined (path : String)
  | predefinedNotFound (path : String)
  | fileNotFound
  | isDirectory
  | notDirectory
  /-- A path holds the character that ends a path. -/
  | nullInPath
  | nameTooLong
  | notUtf8
  | badLogging
  deriving DecidableEq, Repr, Inhabited

namespace Key

/-- A key as messages quote it. -/
def quoted : Key → String
  | .null => "None"
  | .bool true => "True"
  | .bool false => "False"
  | .int value => String.ofList (intDigits value)
  | .real value => value.text
  | .text value => Text.quoted value

end Key

namespace Failure

/-- The text of a failure, for those that have one. -/
def message : Failure → Option String
  | .source error => some (Source.withLine error.message error.line)
  | .missingKey key => some key.quoted
  | .notFinite .yaml value => some ("out of range float value " ++ value.text)
  | .unsupportedFormat => some "unsupported format"
  | .unknownSuffix => some "can not determine format from path suffix"
  | .duplicateSchema id => some ("duplicate schema id " ++ id)
  | .unsupportedPredefined path => some ("unsupported predefined file " ++ path)
  | .predefinedNotFound path => some ("predefined path " ++ path ++ " not found")
  | _ => none

end Failure

end TypeCatalog
