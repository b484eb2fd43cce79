import StructuredText.Command.Run

/-!
# The program

The files that a run can look at are read into a tree first. The run itself is a function of the command line and that
tree, and what it writes is printed at the end. The log shows nothing.
-/

namespace StructuredText

/-! ## Which files a run can look at -/

/-- The names that lead from the root to a path. -/
def namesFromRoot (workingDirectory path : String) : List String :=
  let absolute := if Path.isAbsolute path then path else workingDirectory ++ "/" ++ path
  (Path.segments absolute).foldl (fun names segment =>
    if segment.isEmpty || segment == ['.'] then names
    else if segment == ['.', '.'] then names.dropLast
    else names ++ [String.ofList segment]) []

/-- A directory that holds everything a pattern can match. -/
def directoryOfPattern (pattern : String) : String :=
  let fixed := (Path.segments pattern).takeWhile fun segment => !segment.any fun c => c == '*' || c == '?' || c == '['
  let path := "/".intercalate (fixed.map String.ofList)
  if !path.isEmpty then path else if Path.isAbsolute pattern then "/" else "."

/-- The settings files that a command line can mean. -/
def Arguments.settingsPaths (a : Arguments) : List String :=
  match a.options.config with
  | some path => [path]
  | none => Settings.fileNames

/-- The paths that hold everything a command looks at. -/
def Command.paths (settings : Settings) : Command → List String
  | check [] => settings.patterns.map directoryOfPattern
  | check paths => paths ++ paths.flatMap fun path =>
      settings.patterns.map fun pattern => directoryOfPattern (path ++ "/" ++ pattern)
  | dump path _ => [path]
  | tokens path _ => [path]

/-! ## Reading them -/

/-- What stands at a path. A link to a directory inside of a directory counts as empty. -/
partial def readTree (path : String) : IO FileTree := do
  let place ← IO.FS.realPath path
  if ← place.isDir then
    let entries ← (← place.readDir).toList.mapM fun entry => do
      let path := entry.path.toString
      let isLink := (← entry.path.symlinkMetadata).type == .symlink
      if isLink && (← entry.path.isDir) then return (entry.fileName, .directory [])
      try return (entry.fileName, ← readTree path)
      catch _ => return (entry.fileName, .file ByteArray.empty)
    return .directory entries
  return .file (← IO.FS.readBinFile place)

/-- The tree with what stands at a path, if anything does. -/
def addPath (workingDirectory : String) (tree : FileTree) (path : String) : IO FileTree := do
  try return FileTree.place (← readTree path) (namesFromRoot workingDirectory path) tree
  catch _ => return tree

/-- What the run with this command line has around it. -/
def hostFor (words : List String) : IO Host := do
  let workingDirectory := (← IO.currentDir).toString
  let start := FileTree.place (.directory []) (namesFromRoot workingDirectory ".") (.directory [])
  let host (tree : FileTree) : IO Host := do
    return ⟨⟨tree, workingDirectory⟩, ← (← IO.getStdout).isTty, ← (← IO.getStderr).isTty⟩
  match Arguments.read words with
  | .error _ => host start
  | .ok a =>
    let tree ← a.settingsPaths.foldlM (addPath workingDirectory) start
    match Settings.load ⟨tree, workingDirectory⟩ a.options with
    | .error _ => host tree
    | .ok (settings, _) => host (← (a.command.paths settings).foldlM (addPath workingDirectory) tree)

end StructuredText

/-- Runs the program with the words of a command line. -/
def main (words : List String) : IO UInt32 := do
  let outcome := StructuredText.run (← StructuredText.hostFor words) words
  (← IO.getStdout).putStr outcome.written.output
  (← IO.getStderr).putStr outcome.written.error
  return outcome.code.toUInt32
