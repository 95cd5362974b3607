import TypeCatalog.Predefined
import TypeCatalog.Schema.Standard

/-! Registries from files. A file holds either a document of predefined types in short form, or one record. -/

namespace TypeCatalog.Library

/-- The files that a path stands for: itself, or the document files in a directory. -/
def filesAt (files : FileTree) (path : Path) : Except Failure (List Path) := do
  if ← files.isDirectory path then files.search path Repository.endings
  else if !(← files.has path) then throw (.predefinedNotFound path.text)
  else if Repository.endings.contains path.suffix then return [path]
  else throw (.unsupportedPredefined path.text)

/-- The records in one file. -/
def recordsIn (files : FileTree) (path : Path) : Except Failure (List (Marked Nat)) := do
  let document ← Document.readMarked files path .bySuffix
  let data := document.view
  if (data.find? "definitions").isSome then
    Standard.repository.validate Standard.predefinedId data
    return (← Predefined.records data).map .distinct
  else
    Standard.repository.validate Standard.recordId data
    return [document]

/-- The records in the files that a path stands for. -/
def recordsAt (files : FileTree) (path : Path) : Except Failure (List (Marked Nat)) := do
  return (← (← filesAt files path).mapM (recordsIn files)).flatten

/-- Records after those of a base registry. -/
def following (base : Option Registry) (records : List (Marked Nat)) : List (Marked Nat) :=
  ((base.map (·.records)).getD []).map .distinct ++ records

/-- The records at some paths, after those of a base registry. -/
def load (files : FileTree) (paths : List Path) (base : Option Registry) : Except Failure (List (Marked Nat)) := do
  return following base (← paths.mapM (recordsAt files)).flatten

/-- The records at a path as data. -/
def records (files : FileTree) (path : Path) : Except Failure (List Data) := do
  (← recordsAt files path).mapM (·.toData)

/-- The registry of the records at some paths, which take precedence over those of a base registry. -/
def registry (files : FileTree) (paths : List Path) (base : Option Registry) : Except Failure Registry := do
  Registry.ofRecords (← (← load files paths base).mapM (·.toData))

end TypeCatalog.Library
