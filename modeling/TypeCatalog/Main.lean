import TypeCatalog.Command.Run

/-! The command line program: it loads the files that the arguments refer to, runs the command on them, and writes what
the command leaves behind. -/

namespace TypeCatalog.Command

/-- Reads a file, or a directory with everything in it. -/
partial def readNode (text : String) : IO (Option FileTree) := do
  let file := (← IO.currentDir) / text
  if !(← file.pathExists) then return none
  if ← file.isDir then
    let mut entries := []
    for entry in ← file.readDir do
      if let some node ← readNode entry.path.toString then
        entries := (entry.fileName, node) :: entries
    return some (.directory entries)
  return some (.file (← IO.FS.readBinFile file))

/-- The tree with the directories on the way to a path, as far as they exist. -/
def loadWay (files : FileTree) (path : Path) : IO FileTree :=
  (List.range (path.parts.length - 1)).foldlM (fun files count => do
    let directory : Path := ⟨path.parts.take (count + 1)⟩
    let isThere := match files.has directory with
      | .ok isThere => isThere
      | .error _ => true
    if isThere || !(← ((← IO.currentDir) / directory.text).isDir) then return files
    return files.place directory .empty) files

/-- The tree with what is found at a path. -/
def loadPath (files : FileTree) (path : Path) : IO FileTree := do
  let files ← loadWay files path
  match ← readNode path.text with
  | some node => return files.place path node
  | none => return files

/-- The directory of the user's configuration. -/
def userDirectory : IO Path := do
  match ← IO.getEnv "XDG_CONFIG_HOME" with
  | some directory => return (Path.ofText directory).child "baclib"
  | none => return ((Path.ofText ((← IO.getEnv "HOME").getD "")).child ".config").child "baclib"

/-- The files that a conversion can refer to. -/
def loadFiles (user : Path) (options : Options) : IO FileTree := do
  let configurations := match options.conf with
    | some path => [path]
    | none => candidates user
  let sources := options.paths.filter (·.parts.isEmpty) ++ options.paths.filter (!·.parts.isEmpty)
  let mut files ← (sources ++ configurations ++ options.predefined).foldlM loadPath .empty
  if let .ok configuration := loadConfiguration files user options.conf then
    files ← (predefinedPaths configuration).foldlM loadPath files
  options.output.toList.foldlM loadPath files

end TypeCatalog.Command

open TypeCatalog Command in
def main (arguments : List String) : IO UInt32 := do
  let host : Host := {
    userDirectory := ← userDirectory
    logging := .versioned
    showsOutput := ← (← IO.getStdout).isTty
    showsErrors := ← (← IO.getStderr).isTty }
  let request := Request.ofArguments arguments
  let files ← match request with
    | .convert options => loadFiles host.userDirectory options
    | _ => pure .empty
  let outcome := run host files arguments
  IO.print outcome.world.stdout
  outcome.world.stderr.forM fun printed => IO.eprint printed.text
  if let .convert options := request then
    if let some path := options.output then
      if let .ok (.file content) := outcome.world.files.get path then
        IO.FS.writeBinFile path.text content
  return outcome.exitCode.toUInt32
