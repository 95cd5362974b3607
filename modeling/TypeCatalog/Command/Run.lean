import TypeCatalog.Command.Configuration
import TypeCatalog.Command.Options
import TypeCatalog.Command.Sharing
import TypeCatalog.Command.World
import TypeCatalog.Normal.Normalize

/-! The command: it reads source files and writes their definitions as one document, as they are or as records of the
catalogue. -/

namespace TypeCatalog.Command

/-- The endings of source files. -/
def sourceEndings : List String := [".asn1", ".asn"]

/-- The source files that paths stand for. Directories are searched. -/
def expand (files : FileTree) (paths : List Path) : Except Failure (List Path) := do
  let found ← paths.mapM fun path => do
    if ← files.isDirectory path then files.search path sourceEndings else return [path]
  return found.flatten

open TypeCatalog.Command.Action

/-- The handlers that the host sets up. -/
def setUp (host : Host) (configuration : Data) : Action Handlers := fun world =>
  match host.logging configuration world with
  | (result, later) => ofResult result later

/-- Goes on with what was read of a source file. -/
def conclude (handlers : Handlers) (path : Path) : Except Failure (List Definition) → Action (List Definition)
  | .ok definitions => do
    log handlers (.parsed definitions.length)
    return definitions
  | .error (.source error) => do
    log handlers (.rejected path error)
    stop (.rejected path error)
  | .error failure => stop (.failed failure)

/-- The definitions in a source file. -/
def readSource (handlers : Handlers) (path : Path) : Action (List Definition) := do
  log handlers (.parsing path)
  conclude handlers path (Source.parseFile (← files) path)

/-- The definitions in all files, up to the first that is rejected. -/
def readSources (handlers : Handlers) (paths : List Path) : Action (List Definition) := do
  return (← paths.mapM (readSource handlers)).flatten

/-- The records of the standard, with those in files after them. -/
def loadRecords (handlers : Handlers) (paths : List Path) : Action (List (Marked Nat)) := do
  log handlers .standardLoaded
  let loaded ← paths.mapM fun path => do
    let records ← reads (Library.recordsAt · path)
    log handlers (.loaded path records.length)
    return records
  return Library.following (some Predefined.standard) loaded.flatten

/-- The record of a definition with its marks, made with a configuration or found among records. -/
def marked (records : List (Marked Nat)) (configuration : Marked Origin) (definition : Definition) :
    Normal.Normalized → Marked Origin
  | .made record => Sharing.markRecord configuration definition record
  | .found entry => match records[entry.index]? with
    | some record => (record.map (.record entry.index)).expanded
    | none => .plain entry.record

/-- The records of definitions. What comes from the registry or the configuration is marked with its origin. -/
def normalized (records : List (Marked Nat)) (configuration : Marked Nat) (registry : Registry) (tables : WellKnown)
    (definitions : List Definition) : Except Failure (List (Marked Origin)) :=
  let configuration := (configuration.map .configuration).expanded
  match Normal.normalizeAll (some registry) tables (definitions.map (·.draft)) with
  | (_, some failure) => .error failure
  | (results, none) => .ok (definitions.zipWith (marked records configuration) results)

/-- The items of the document to be written. -/
def output (handlers : Handlers) (configuration : Marked Nat) (options : Options) (definitions : List Definition) :
    Action (List (Marked Origin)) := do
  if options.raw then return definitions.map fun definition => .plain definition.data
  let conf := configuration.view
  let records ← loadRecords handlers (predefinedPaths conf ++ options.predefined)
  let registry ← ofResult (Registry.ofRecords (records.map (·.view)))
  let tables ← ofResult (tablesOf conf)
  log handlers (.normalizing registry tables definitions)
  ofResult (normalized records configuration registry tables definitions)

/-- The text of the document. -/
def encodeOutput (format : Format) (items : List (Marked Origin)) : Except Failure String :=
  format.encodeMarked (some (.width 4)) (.array none items)

/-- The format of the document: asked for, configured, or that of the output file. -/
def outputFormat (configuration : Data) (options : Options) : Except Failure Format :=
  let configured := match configuration.find? "format" with
    | some (.text name) => formatOf? name
    | _ => none
  match options.format.or configured, options.output with
  | some format, _ => .ok format
  | none, some path => path.format
  | none, none => .ok .yaml

/-- Writes the text of the document, if it could be made, to a file or else to the standard output. -/
def deliver (host : Host) (path : Option Path) (text : Except Failure String) : Action Unit := fun world =>
  match path, text with
  | some path, text => match Document.writeMade world.files path text with
    | (result, files) => ofResult result { world with files }
  | none, .ok text => (.ok (), { world with stdout := world.stdout ++ echoed host.showsOutput text })
  | none, .error failure => stop (.failed failure) world

/-- The document to be written, and its format. -/
def gather (handlers : Handlers) (configuration : Marked Nat) (options : Options) :
    Action (Format × List (Marked Origin)) := do
  let format ← ofResult (outputFormat configuration.view options)
  let definitions ← readSources handlers (← reads (expand · options.paths))
  let items ← output handlers configuration options definitions
  log handlers (.converted items.length)
  return (format, items)

def convert (host : Host) (options : Options) : Action Unit := do
  let configuration ← reads (findConfiguration · host.userDirectory options.conf)
  let handlers ← setUp host (loggingOf configuration.view options.logLevel)
  let (format, items) ← gather handlers configuration options
  deliver host options.output (encodeOutput format items)

/-- What the command leaves behind. -/
structure Outcome where
  exitCode : Nat
  world : World
  stopped : Option Stop := none

/-- The outcome of a run, which tells why it stopped. -/
def finish (host : Host) : Except Stop Unit × World → Outcome
  | (.ok (), world) => { exitCode := 0, world }
  | (.error stop, world) => { exitCode := 1, world := world.tell (stop.report host), stopped := some stop }

def usage : String := "Usage: baclib-asn1 [OPTIONS] PATHS...\n"

/-- Runs the command with arguments on a tree of files. -/
def run (host : Host) (files : FileTree) (arguments : List String) : Outcome :=
  match Request.ofArguments arguments with
  | .usageError => { exitCode := 2, world := World.tell { files } usage }
  | .help => { exitCode := 0, world := { files, stdout := usage } }
  | .convert options => finish host (convert host options { files })

end TypeCatalog.Command
