import TypeCatalog.Files.Tree
import TypeCatalog.Json.Read
import TypeCatalog.Json.Write
import TypeCatalog.Source.Parse
import TypeCatalog.Yaml.Read
import TypeCatalog.Yaml.Write

/-! Documents: data in one of the two text formats, on its own or in a file. -/

namespace TypeCatalog

namespace Format

def ofName? : String → Option Format
  | "JSON" => some .json
  | "YAML" => some .yaml
  | _ => none

def encode : Format → Option Indent → Data → Except Failure String
  | .json => Json.encode
  | .yaml => Yaml.encode

def decode : Format → String → Except Failure Data
  | .json => Json.decode
  | .yaml => Yaml.decode

/-- The data of a text with its collections marked. In JSON no collection occurs twice. -/
def decodeMarked : Format → String → Except Failure (Marked Nat)
  | .json => fun text => return .distinct (← Json.decode text)
  | .yaml => Yaml.decodeMarked

/-- The text of data without references, whose collections may be marked. In JSON a collection is written wherever it
occurs. -/
def encodeMarked {μ : Type} [BEq μ] : Format → Option Indent → Marked μ → Except Failure String
  | .json => fun indent data => if !data.references.isEmpty then .error .circular else Json.encode indent data.data
  | .yaml => Yaml.encodeMarked

end Format

/-- How the format of a document in a file is chosen. -/
inductive FormatChoice where
  | bySuffix
  | named (name : String)

namespace FormatChoice

/-- The chosen format; a name may stand for none. A suffix that stands for none is a failure at once. -/
def resolve (choice : FormatChoice) (path : Path) : Except Failure (Option Format) :=
  match choice with
  | .bySuffix => path.format.map some
  | .named name => .ok (Format.ofName? name)

end FormatChoice

namespace Document

/-- The text of data in a format, which must be supported. -/
def encode (format : Option Format) (indent : Option Indent) (data : Data) : Except Failure String :=
  match format with
  | some format => format.encode indent data
  | none => .error .unsupportedFormat

def decode (format : Option Format) (text : String) : Except Failure Data :=
  match format with
  | some format => format.decode text
  | none => .error .unsupportedFormat

/-- The data in a file, with its collections marked. Line ends are unified before decoding. -/
def readMarked (files : FileTree) (path : Path) (choice : FormatChoice) : Except Failure (Marked Nat) := do
  let format ← choice.resolve path
  let text ← files.readText path
  match format with
  | some format => format.decodeMarked (String.ofList (Source.unifyLineEnds text.toList))
  | none => throw .unsupportedFormat

/-- The data in a file. -/
def read (files : FileTree) (path : Path) (choice : FormatChoice) : Except Failure Data := do
  (← readMarked files path choice).toData

/-- Writes a file whose text is made after the file was emptied: if making it fails, the file stays empty. -/
def writeMade (files : FileTree) (path : Path) (text : Except Failure String) : Except Failure Unit × FileTree :=
  match files.writeText path "" with
  | .error failure => (.error failure, files)
  | .ok emptied => match text with
    | .error failure => (.error failure, emptied)
    | .ok text => match emptied.writeText path text with
      | .ok written => (.ok (), written)
      | .error failure => (.error failure, emptied)

/-- Writes data to a file. -/
def write (files : FileTree) (path : Path) (choice : FormatChoice) (indent : Option Indent) (data : Data) :
    Except Failure Unit × FileTree :=
  match choice.resolve path with
  | .error failure => (.error failure, files)
  | .ok format => writeMade files path (encode format indent data)

end Document

namespace Source

/-- The definitions in a source file. -/
def parseFile (files : FileTree) (path : Path) : Except Failure (List Definition) := do
  parse (← files.readText path)

end Source

end TypeCatalog
