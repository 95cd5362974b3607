import TypeCatalog.Document
import TypeCatalog.Schema.Basic

/-! A repository of schemas. Every schema has an identifier, and no two schemas that are added have the same. A schema may
be inside of itself; it is then followed as far as the data that it is asked about goes. -/

namespace TypeCatalog

/-- Schemas by their identifiers, in the order in which the identifiers first came. -/
structure Repository where
  schemas : List (String × Marked Nat)
  deriving Inhabited

namespace Repository

def empty : Repository := ⟨[]⟩

def ids (repository : Repository) : List String := repository.schemas.map (·.1)

/-- An identifier without its fragment. -/
def baseOf (id : String) : String := String.ofList (id.toList.takeWhile (· != '#'))

/-- The identifier that a schema states. -/
def idOf : Data → Except Failure String
  | .object fields => match Fields.find? fields "$id" with
    | some (.text id) => .ok (baseOf id)
    | some _ => .error .illTyped
    | none => .error (.missingKey (.text "$id"))
  | _ => .error .illTyped

def add (repository : Repository) (schema : Marked Nat) : Except Failure Repository := do
  let id ← idOf schema.data
  if repository.ids.contains id then throw (.duplicateSchema id)
  return ⟨repository.schemas ++ [(id, schema)]⟩

/-- Puts a schema under an identifier, in place of the one that is there. -/
def put (id : String) (schema : Marked Nat) : List (String × Marked Nat) → List (String × Marked Nat)
  | [] => [(id, schema)]
  | (other, old) :: rest => if other == id then (other, schema) :: rest else (other, old) :: put id schema rest

/-- The repository with all schemas of another, which take the place of its own. -/
def update (repository other : Repository) : Repository :=
  ⟨other.schemas.foldl (fun schemas (id, schema) => put id schema schemas) repository.schemas⟩

/-- What a repository is made of. -/
inductive Argument where
  | schema (data : Data)
  | repository (repository : Repository)
  /-- A schema file, or a directory that is searched for schema files. -/
  | path (path : Path)

/-- The endings of document files. -/
def endings : List String := [".json", ".yaml", ".yml"]

/-- The schema files that a path stands for. -/
def filesAt (files : FileTree) (path : Path) : Except Failure (List Path) :=
  if endings.contains path.suffix then .ok [path] else files.search path endings

def addArgument (files : FileTree) (repository : Repository) : Argument → Except Failure Repository
  | .schema data => repository.add (.plain data)
  | .repository other => .ok (repository.update other)
  | .path path => do
    let found ← filesAt files path
    found.foldlM (fun repository file => do repository.add (← Document.readMarked files file .bySuffix)) repository

/-- The repository of some arguments, in order. -/
def create (files : FileTree) (arguments : List Argument) : Except Failure Repository :=
  arguments.foldlM (addArgument files) empty

/-- A schema as far as it concerns data. One that is inside of itself asks about a deeper part of the data at the latest
when all of its collections have been referred to. -/
def reach (schema : Marked Nat) (data : Data) : Data :=
  let rounds := schema.targets.length
  schema.unfold (if schema.isEndless then rounds * (data.depth + 1) else rounds)

/-- Checks data against the schema with an identifier. -/
def validate (repository : Repository) (id : String) (data : Data) : Except Failure Unit :=
  match repository.schemas.lookup (baseOf id) with
  | none => .error (.missingKey (.text (baseOf id)))
  | some schema => do if !(← Schema.accepts (reach schema data) data) then throw .schemaViolated

end Repository

end TypeCatalog
