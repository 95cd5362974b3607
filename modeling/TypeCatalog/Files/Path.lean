import TypeCatalog.Failure

/-! Paths of files, as the names on the way to them. Empty names and the name of the current directory do not count. A
path from the root has the root as its first name. Two slashes in front are a root of their own, more than two are one. -/

namespace TypeCatalog

structure Path where
  parts : List String
  deriving DecidableEq, Repr, Inhabited

namespace Path

/-- The name of the root. -/
def root : String := "/"

/-- The root of paths with two slashes in front. -/
def outerRoot : String := "//"

def isRoot (name : String) : Bool := name == root || name == outerRoot

/-- The root that a text starts with, if it does. -/
def rootOf (text : List Char) : List String :=
  match (text.takeWhile (· == '/')).length with
  | 0 => []
  | 2 => [outerRoot]
  | _ => [root]

def ofText (text : String) : Path :=
  let parts := ((text.toList.splitOn '/').map String.ofList).filter fun part => part != "" && part != "."
  ⟨rootOf text.toList ++ parts⟩

/-- The text of a path; the current directory is a point. -/
def text (path : Path) : String :=
  match path.parts with
  | [] => "."
  | first :: rest => if isRoot first then first ++ "/".intercalate rest else "/".intercalate (first :: rest)

/-- The greatest length of a name in bytes. -/
def maxName : Nat := 255

/-- The greatest length of a path in bytes. -/
def maxLength : Nat := 4095

/-- Checks that a path can be asked for: it must not hold the character that ends a path, and must not be too long. -/
def check (path : Path) : Except Failure Unit :=
  if path.text.toList.contains '\x00' then .error .nullInPath
  else if maxLength < path.text.utf8ByteSize then .error .nameTooLong
  else .ok ()

/-- The names to follow. There is only one root. -/
def names (path : Path) : List String := path.parts.map fun name => if isRoot name then root else name

def child (path : Path) (name : String) : Path := ⟨path.parts ++ [name]⟩

def name (path : Path) : String := path.parts.getLastD ""

/-- The end of a name from its last point on. A point that is the first or the last character starts no suffix. -/
def suffixOf (name : List Char) : List Char :=
  let ending := (name.reverse.takeWhile (· != '.')).reverse
  let start := name.length - ending.length
  if ending.isEmpty || start ≤ 1 then [] else '.' :: ending

def suffix (path : Path) : String := String.ofList (suffixOf path.name.toList)

/-- Whether the name has one of the endings. -/
def endsIn (path : Path) (endings : List String) : Bool :=
  endings.any fun ending => ending.toList.isSuffixOf path.name.toList

/-- The order of paths, name by name. -/
def isLess (a b : Path) : Bool := decide (a.parts < b.parts)

/-- Inserts a path in front of the first one that is greater. -/
def insert (path : Path) : List Path → List Path
  | [] => [path]
  | next :: rest => if next.isLess path then next :: insert path rest else path :: next :: rest

def sort (paths : List Path) : List Path := paths.foldr insert []

/-- The format of a document with this path. -/
def format (path : Path) : Except Failure Format :=
  if path.suffix == ".json" then .ok .json
  else if path.suffix == ".yaml" || path.suffix == ".yml" then .ok .yaml
  else .error .unknownSuffix

end Path

end TypeCatalog
