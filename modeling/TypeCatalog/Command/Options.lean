import TypeCatalog.Files.Path

/-! The command line: options, which may stand anywhere, and paths. -/

namespace TypeCatalog.Command

/-- The options of the command that take a value. -/
inductive ValueOption where
  | conf
  | format
  | predefined
  | logLevel
  | output
  deriving DecidableEq, Repr

/-- The words of a command line by what they are. A value that is given again takes the place of the one before, but for
predefined paths, which add up. -/
structure Words where
  values : List (ValueOption × String) := []
  raw : Bool := false
  help : Bool := false
  paths : List String := []

namespace Words

def optionOf? : String → Option ValueOption
  | "--conf" => some .conf
  | "--format" => some .format
  | "--predefined" => some .predefined
  | "--log-level" => some .logLevel
  | "--output" => some .output
  | _ => none

def withValue (words : Words) (option : ValueOption) (value : String) : Words :=
  { words with values := words.values ++ [(option, value)] }

def withPath (words : Words) (path : String) : Words := { words with paths := words.paths ++ [path] }

/-- An argument at the first equals sign, if it has one. -/
def splitValue (argument : String) : String × Option String :=
  let chars := argument.toList
  if chars.contains '=' then
    (String.ofList (chars.takeWhile (· != '=')), some (String.ofList ((chars.dropWhile (· != '=')).drop 1)))
  else (argument, none)

/-- Whether an argument is an option rather than a path. A hyphen alone is a path. -/
def isOption (argument : String) : Bool := argument.toList.head? == some '-' && argument != "-"

/-- Sorts arguments. An option must be known, must have its value, and must have none if it takes none. Two hyphens end
the options. -/
def read (words : Words) : List String → Option Words
  | [] => some words
  | "--" :: rest => some { words with paths := words.paths ++ rest }
  | argument :: rest =>
    if !isOption argument then read (words.withPath argument) rest
    else match splitValue argument with
      | ("--raw", none) => read { words with raw := true } rest
      | ("--help", none) => read { words with help := true } rest
      | (name, some value) => (optionOf? name).bind fun option => read (words.withValue option value) rest
      | (name, none) => match optionOf? name, rest with
        | some option, value :: rest => read (words.withValue option value) rest
        | _, _ => none

/-- The last value of an option. -/
def last (words : Words) (option : ValueOption) : Option String :=
  (words.values.reverse.find? (·.1 == option)).map (·.2)

/-- All values of an option. -/
def every (words : Words) (option : ValueOption) : List String :=
  words.values.filterMap fun (other, value) => if other = option then some value else none

end Words

/-- What the command is asked to do. -/
structure Options where
  conf : Option Path
  format : Option Format
  raw : Bool
  predefined : List Path
  logLevel : String
  output : Option Path
  paths : List Path
  deriving Repr

/-- What a command line asks for. -/
inductive Request where
  | usageError
  | help
  | convert (options : Options)

/-- The format that a name in a configuration or an option stands for. -/
def formatOf? : String → Option Format
  | "yaml" => some .yaml
  | "json" => some .json
  | _ => none

def logLevels : List String := ["CRITICAL", "ERROR", "WARNING", "INFO", "DEBUG"]

/-- The request of a command line. There must be a path, and options with fixed choices must have one of them. -/
def Request.ofArguments (arguments : List String) : Request :=
  match Words.read {} arguments with
  | none => .usageError
  | some words =>
    if words.help then .help
    else
      let format := words.last .format
      let badFormat := format.any fun name => (formatOf? name).isNone
      let badLevel := (words.last .logLevel).any (!logLevels.contains ·)
      if badFormat || badLevel || words.paths.isEmpty then .usageError
      else .convert {
        conf := (words.last .conf).map .ofText
        format := format.bind formatOf?
        raw := words.raw
        predefined := (words.every .predefined).map .ofText
        logLevel := (words.last .logLevel).getD "WARNING"
        output := (words.last .output).map .ofText
        paths := words.paths.map .ofText }

end TypeCatalog.Command
