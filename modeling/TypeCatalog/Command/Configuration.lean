import TypeCatalog.Library

/-! Configurations of the command. -/

namespace TypeCatalog.Command

/-- The user's configuration files, in the order in which they are looked for. -/
def candidates (userDirectory : Path) : List Path :=
  ["asn1.yaml", "asn1.yml", "asn1.json"].map userDirectory.child

/-- The configuration in a file; data that does not hold counts as an empty one. -/
def readConfiguration (files : FileTree) (path : Path) : Except Failure (Marked Nat) := do
  let document ← Document.readMarked files path .bySuffix
  let document := if document.data.holds then document else .object none []
  Standard.repository.validate Standard.configurationId document.view
  return document

/-- The configuration at a path, or else the user's own, or else an empty one. -/
def findConfiguration (files : FileTree) (userDirectory : Path) (path : Option Path) :
    Except Failure (Marked Nat) := do
  let path ← match path with
    | some path => pure (some path)
    | none => (candidates userDirectory).findM? files.has
  match path with
  | some path => readConfiguration files path
  | none => return .object none []

/-- The configuration as data. -/
def loadConfiguration (files : FileTree) (userDirectory : Path) (path : Option Path) : Except Failure Data := do
  (← findConfiguration files userDirectory path).toData

/-- The configuration of logging where none is given: messages from a level on are shown. -/
def defaultLogging (level : String) : Data := .record
  [("version", .int 1),
    ("formatters", .record [("console", .record
      [("format", .text "[%(asctime)s %(levelname)s %(name)s] %(message)s")])]),
    ("handlers", .record [("console", .record
      [("class", .text "logging.StreamHandler"), ("formatter", .text "console"), ("level", .text level)])]),
    ("loggers", .record [("baclib", .record [("level", .text level)])]),
    ("root", .record [("level", .text "WARNING"), ("handlers", .array [.text "console"])]),
    ("disable_existing_loggers", .bool false)]

/-- The configuration of logging: that in the configuration of the command, unless it is empty, or else the default. -/
def loggingOf (configuration : Data) (level : String) : Data :=
  ((configuration.find? "log").filter Data.holds).getD (defaultLogging level)

/-- The texts in a list. -/
def textsOf : Data → List String
  | .array items => items.filterMap fun
    | .text value => some value
    | _ => none
  | _ => []

/-- The paths of predefined types that a configuration names. -/
def predefinedPaths (configuration : Data) : List Path :=
  (textsOf ((configuration.find? "predefined").getD (.array []))).map Path.ofText

/-- The tables of well known types: those of the standard with those of a configuration over them. -/
def tablesOf (configuration : Data) : Except Failure WellKnown := do
  return WellKnown.standard.merge (← WellKnown.ofData ((configuration.find? "well_known").getD (.object [])))

end TypeCatalog.Command
