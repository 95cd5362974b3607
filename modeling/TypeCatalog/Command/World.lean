import TypeCatalog.Library

/-! What a command is run on, and what it leaves behind: files, and texts on the standard streams. How messages are
logged is up to the host. It sets up handlers, which may do with the files and the streams what they like. -/

namespace TypeCatalog.Command

/-- Text on the standard error stream: told by the command itself, or written by handlers of its log. -/
inductive Printed where
  | told (text : String)
  | logged (text : String)
  deriving DecidableEq, Repr

namespace Printed

def text : Printed → String
  | .told text => text
  | .logged text => text

def isTold : Printed → Bool
  | .told _ => true
  | .logged _ => false

end Printed

/-- What is logged about. All that is logged while definitions are normalized is one event: the command touches neither
files nor streams in between. -/
inductive Event where
  | parsing (path : Path)
  | parsed (count : Nat)
  | rejected (path : Path) (error : Source.Error)
  | standardLoaded
  | loaded (path : Path) (count : Nat)
  | normalizing (registry : Registry) (tables : WellKnown) (definitions : List Definition)
  | converted (count : Nat)

structure World where
  files : FileTree
  stdout : String := ""
  stderr : List Printed := []
  /-- What has been logged about so far. -/
  events : List Event := []

/-- What handlers do each time that something is logged. They are given all events up to then, and they may fail. -/
abbrev Handlers := List Event → World → Except Failure Unit × World

/-- Sets up handlers as a configuration wants them, or refuses to. Files may be opened on the way. -/
abbrev Logging := Data → World → Except Failure Handlers × World

/-- What a command finds around it, apart from files. -/
structure Host where
  /-- The directory of the user's configuration. -/
  userDirectory : Path
  logging : Logging
  /-- Whether the standard streams are terminals. -/
  showsOutput : Bool := false
  showsErrors : Bool := false

/-- A world after something was told on the standard error stream. -/
def World.tell (world : World) (text : String) : World := { world with stderr := world.stderr ++ [.told text] }

/-- Logging that looks at nothing but the version of a configuration, and handles nothing. -/
def Logging.versioned : Logging := fun configuration world =>
  let accepted : Bool := (configuration.find? "version").any (·.same (.int 1))
  (if accepted then .ok fun _ world => (.ok (), world) else .error .badLogging, world)

/-- The characters of a control sequence of a terminal: parameters, intermediate characters and a final one. -/
def isParameter (c : Char) : Bool := '0' ≤ c && c ≤ '?'

def isIntermediate (c : Char) : Bool := ' ' ≤ c && c ≤ '/'

def isFinal (c : Char) : Bool := '@' ≤ c && c ≤ '~'

/-- What follows a control sequence, if a text starts with one. -/
def afterControl? : List Char → Option (List Char)
  | '\x1b' :: '[' :: rest => match (rest.dropWhile isParameter).dropWhile isIntermediate with
    | c :: rest => if isFinal c then some rest else none
    | [] => none
  | _ => none

/-- A text without its control sequences. Every step takes at least one character. -/
def withoutControls : Nat → List Char → List Char
  | 0, text => text
  | _, [] => []
  | steps + 1, c :: text => match afterControl? (c :: text) with
    | some rest => withoutControls steps rest
    | none => c :: withoutControls steps text

/-- A line as it is put on a stream. Only terminals are sent control sequences. -/
def echoed (terminal : Bool) (line : String) : String :=
  (if terminal then line else String.ofList (withoutControls line.length line.toList)) ++ "\n"

/-- The line about a rejected file. -/
def rejectionLine (path : Path) (error : Source.Error) : String :=
  path.text ++ ":" ++ String.ofList (natDigits error.line) ++ ": " ++ error.message

/-- How the command ends without an output. -/
inductive Stop where
  /-- A source file is rejected. -/
  | rejected (path : Path) (error : Source.Error)
  | failed (failure : Failure)

/-- What is told about a stop. -/
def Stop.report (host : Host) : Stop → String
  | .rejected path error => echoed host.showsErrors (rejectionLine path error)
  | .failed failure => failure.message.getD "the conversion failed" ++ "\n"

/-- A part of a run. It may stop, and what has been done to the world until then remains. -/
def Action (α : Type) : Type := World → Except Stop α × World

namespace Action

variable {α β : Type}

instance : Monad Action where
  pure value world := (.ok value, world)
  bind action next world := match action world with
    | (.ok value, later) => next value later
    | (.error stop, later) => (.error stop, later)

def stop (reason : Stop) : Action α := fun world => (.error reason, world)

def ofResult : Except Failure α → Action α
  | .ok value => pure value
  | .error failure => stop (.failed failure)

def files : Action FileTree := fun world => (.ok world.files, world)

/-- Reads files. -/
def reads (result : FileTree → Except Failure α) : Action α := do ofResult (result (← files))

/-- Has handlers do what they do about an event. -/
def log (handlers : Handlers) (event : Event) : Action Unit := fun world =>
  let events := world.events ++ [event]
  match handlers events world with
  | (result, later) => ofResult result { later with events }

end Action

end TypeCatalog.Command
