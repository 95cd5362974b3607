import TypeCatalog.Files.Path

/-! A tree of files and directories as a value. Reading and writing are functions on it. The top is the current directory;
what lies outside of it hangs under two entries of its own, one for the directory around and one for the root. -/

namespace TypeCatalog

inductive FileTree where
  | file (content : ByteArray)
  | directory (entries : List (String × FileTree))
  deriving Inhabited

namespace FileTree

def empty : FileTree := .directory []

/-- What names lead to downward from a node. -/
def locate : FileTree → List String → Option FileTree
  | node, [] => some node
  | .file _, _ :: _ => none
  | .directory entries, name :: rest => (entries.lookup name).bind (locate · rest)

/-- A way from the top with one more name. Two points lead to the directory around; at the top they are the name of an
entry, and at the root they lead nowhere. -/
def turn (way : List String) (name : String) : List String :=
  if name != ".." then way ++ [name]
  else match way.getLast? with
    | none | some ".." => way ++ [name]
    | some last => if last == Path.root then way else way.dropLast

/-- The names on the way to a directory without the steps back, but for those that lead out of the top. -/
def straight (names : List String) : List String := names.foldl turn []

/-- One step of a way, which leads from a directory to something that is there. -/
def step (tree : FileTree) (way : List String) (name : String) : Except Failure (List String) :=
  match tree.locate way with
  | some (.directory _) =>
    if name != ".." && Path.maxName < name.utf8ByteSize then .error .nameTooLong
    else if (tree.locate (turn way name)).isSome then .ok (turn way name)
    else .error .fileNotFound
  | _ => .error .notDirectory

/-- What names lead to from the top, step by step. -/
def follow (tree : FileTree) (names : List String) : Except Failure FileTree := do
  match tree.locate (← names.foldlM tree.step []) with
  | some node => return node
  | none => throw .fileNotFound

/-- What is at a path. -/
def get (tree : FileTree) (path : Path) : Except Failure FileTree := do
  path.check
  tree.follow path.names

/-- What is at a path, if anything is. Only a path that is too long is a failure. -/
def get? (tree : FileTree) (path : Path) : Except Failure (Option FileTree) :=
  match tree.get path with
  | .ok node => .ok (some node)
  | .error .nameTooLong => .error .nameTooLong
  | .error _ => .ok none

def isDirectory (tree : FileTree) (path : Path) : Except Failure Bool := do
  return match ← tree.get? path with
    | some (.directory _) => true
    | _ => false

def has (tree : FileTree) (path : Path) : Except Failure Bool := return (← tree.get? path).isSome

/-- The text of a file. -/
def readText (tree : FileTree) (path : Path) : Except Failure String := do
  match ← tree.get path with
  | .directory _ => throw .isDirectory
  | .file content => match String.fromUTF8? content with
    | some text => return text
    | none => throw .notUtf8

def replaceEntry (name : String) (node : FileTree) : List (String × FileTree) → List (String × FileTree)
  | [] => [(name, node)]
  | (other, old) :: rest => if other == name then (other, node) :: rest else (other, old) :: replaceEntry name node rest

/-- The tree with a node put under a name in the directory that names lead to. -/
def put (name : String) (node : FileTree) : List String → FileTree → FileTree
  | [], .directory entries => .directory (replaceEntry name node entries)
  | part :: rest, .directory entries =>
    .directory (replaceEntry part (put name node rest ((entries.lookup part).getD empty)) entries)
  | _, .file content => .file content

/-- The tree with a node at a path; directories on the way are made. -/
def place (tree : FileTree) (path : Path) (node : FileTree) : FileTree :=
  let parts := straight path.names
  match parts.getLast? with
  | some name => put name node parts.dropLast tree
  | none => node

/-- The tree with a file of the given text in place of what was there. The directory around it must exist. -/
def writeText (tree : FileTree) (path : Path) (text : String) : Except Failure FileTree := do
  path.check
  match path.names.getLast? with
  | none => throw .isDirectory
  | some name =>
    let around := path.names.dropLast
    match ← tree.follow around with
    | .file _ => throw .notDirectory
    | .directory entries =>
      if name == ".." || name == Path.root then throw .isDirectory
      if Path.maxName < name.utf8ByteSize then throw .nameTooLong
      match entries.lookup name with
      | some (.directory _) => throw .isDirectory
      | _ => return put name (.file text.toUTF8) (straight around) tree

mutual

/-- Everything in a node with its path. The entries that lead out of the top do not belong to it. -/
def descendants (path : Path) : FileTree → List (Path × FileTree)
  | .file _ => []
  | .directory entries => entryDescendants path entries

def entryDescendants (path : Path) : List (String × FileTree) → List (Path × FileTree)
  | [] => []
  | (name, node) :: rest =>
    if name == ".." || name == Path.root then entryDescendants path rest
    else (path.child name, node) :: (descendants (path.child name) node ++ entryDescendants path rest)

end

/-- Everything under a directory whose name has one of the endings, in the order of paths. -/
def search (tree : FileTree) (path : Path) (endings : List String) : Except Failure (List Path) := do
  match ← tree.get? path with
  | some node => return Path.sort (((descendants path node).map (·.1)).filter (·.endsIn endings))
  | none => return []

end FileTree

end TypeCatalog
