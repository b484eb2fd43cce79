import StructuredText.Files.Path

/-!
# File trees

A file tree is a value: directories and what the files in them hold. Paths are looked up from the root or from the
working directory, and a look-up fails for one of the reasons of `FileError`.
-/

namespace StructuredText

/-- A file or a directory. -/
inductive FileTree where
  | file (content : ByteArray)
  | directory (entries : List (String × FileTree))

instance : Inhabited FileTree := ⟨.directory []⟩

/-- Why a file could not be read. -/
inductive FileError where
  | notFound | notADirectory | isADirectory | notText
deriving DecidableEq

/-- The reason in words. -/
def FileError.message : FileError → String
  | notFound => "No such file or directory (os error 2)"
  | notADirectory => "Not a directory (os error 20)"
  | isADirectory => "Is a directory (os error 21)"
  | notText => "stream did not contain valid UTF-8"

namespace FileTree

/-- It is a directory. -/
def isDirectory : FileTree → Bool
  | directory _ => true
  | file _ => false

/-- What stands under this name. -/
def child? (name : String) : FileTree → Option FileTree
  | directory entries => entries.lookup name
  | file _ => none

/-- The tree with `change` made to what stands under this name, or to an empty directory if nothing does. -/
def updateChild (name : String) (change : FileTree → FileTree) : FileTree → FileTree
  | directory entries => directory (update entries)
  | file _ => directory [(name, change (directory []))]
where
  update : List (String × FileTree) → List (String × FileTree)
    | [] => [(name, change (directory []))]
    | (n, t) :: entries => if n == name then (n, change t) :: entries else (n, t) :: update entries

/-- The tree with `node` at the end of a chain of names. -/
def place (node : FileTree) : List String → FileTree → FileTree
  | [], _ => node
  | name :: names, t => t.updateChild name (place node names)

/-- Follows the segments of a path, with the directories around a tree, the innermost first. -/
def follow : List (List Char) → FileTree → List FileTree → Except FileError FileTree
  | [], t, _ => .ok t
  | segment :: segments, t, around =>
    if !t.isDirectory then .error .notADirectory
    else if segment.isEmpty || segment == ['.'] then follow segments t around
    else if segment == ['.', '.'] then
      match around with
      | outer :: around => follow segments outer around
      | [] => follow segments t []
    else
      match t.child? (String.ofList segment) with
      | some inner => follow segments inner (t :: around)
      | none => .error .notFound

end FileTree

/-- A file tree and a place in it. -/
structure Files where
  root : FileTree
  /-- The absolute path of the working directory. -/
  workingDirectory : String

namespace Files

/-- What stands at a path. -/
def find (files : Files) (path : String) : Except FileError FileTree :=
  if path.isEmpty then .error .notFound
  else
    let absolute := if Path.isAbsolute path then path else files.workingDirectory ++ "/" ++ path
    files.root.follow (Path.segments absolute) []

/-- Something stands at the path. -/
def contains (files : Files) (path : String) : Bool :=
  match files.find path with
  | .ok _ => true
  | .error _ => false

/-- A file stands at the path. -/
def isFile (files : Files) (path : String) : Bool :=
  match files.find path with
  | .ok t => !t.isDirectory
  | .error _ => false

/-- A directory stands at the path. -/
def isDirectory (files : Files) (path : String) : Bool :=
  match files.find path with
  | .ok t => t.isDirectory
  | .error _ => false

/-- The text of the file at the path. -/
def read (files : Files) (path : String) : Except FileError String :=
  match files.find path with
  | .ok (.file content) =>
    match String.fromUTF8? content with
    | some text => .ok text
    | none => .error .notText
  | .ok (.directory _) => .error .isADirectory
  | .error e => .error e

end Files

end StructuredText
