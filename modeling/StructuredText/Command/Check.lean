import StructuredText.Command.Session
import StructuredText.Report.Render

/-!
# Checking files

Files are checked in the order of their paths, each path once. A path of a directory stands for the files below it that
the patterns of the settings match. The diagnostics go to the standard output, and a summary follows on the standard
error output.
-/

namespace StructuredText

namespace Check

/-! ## Which files -/

/-- The files that patterns match. -/
def filesMatching (files : Files) (patterns : List String) : Except Failure (List String) := do
  let found ← patterns.mapM fun pattern => (files.glob pattern).mapError (.invalidPattern pattern)
  return found.flatten

/-- The paths that a given path stands for. -/
def filesAt (files : Files) (patterns : List String) (path : String) : Except Failure (List String) :=
  if files.isDirectory path then filesMatching files (patterns.map fun pattern => path ++ "/" ++ pattern)
  else .ok [path]

/-- Paths in order, each once. -/
def inOrder (paths : List String) : List String := paths.foldl (fun sorted path => Path.insert path sorted) []

/-- The files to check: those at the given paths, or those that the patterns match if no path is given. -/
def filesToCheck (files : Files) (patterns paths : List String) : Except Failure (List String) := do
  if paths.isEmpty then return inOrder (← filesMatching files patterns)
  return inOrder (← paths.mapM (filesAt files patterns)).flatten

/-! ## Summary -/

/-- What was found in the files checked so far. -/
structure Summary where
  files : Nat
  filesWithErrors : Nat
  diagnostics : Nat
deriving DecidableEq

namespace Summary

/-- No file is checked. -/
def empty : Summary := ⟨0, 0, 0⟩

/-- The summary with one more file. -/
def add (s : Summary) (p : Parse Tree) : Summary :=
  ⟨s.files + 1, s.filesWithErrors + (if p.hasErrors then 1 else 0), s.diagnostics + p.diagnostics.length⟩

/-- The summary in words. -/
def message (s : Summary) : String :=
  if s.files = 0 then "No files to check"
  else if s.filesWithErrors = 0 then s!"Checked {s.files} file(s), no errors"
  else s!"Checked {s.files} file(s): {s.filesWithErrors} with errors, {s.diagnostics} diagnostic(s)"

/-- The style of the summary. -/
def style (s : Summary) : Style :=
  if s.files = 0 then .warning else if s.filesWithErrors = 0 then .success else .error

end Summary

/-! ## Checking -/

/-- The diagnostics of a file as the settings want them. -/
def report (settings : Settings) (palette : Palette) (path text : String) (ds : List Diagnostic) : String :=
  match settings.format with
  | .text => Diagnostic.renderAll path text.toList settings.maxPerFile palette ds
  | .json => Diagnostic.renderAllJson path text.toList settings.maxPerFile ds

/-- Checks one file. -/
def checkFile (host : Host) (line : LogEntry → String) (settings : Settings) (summary : Summary) (path : String) :
    Session Summary := do
  let text ← Session.readText host path
  let p := parse settings.entry (.ofText text)
  Session.note line [.parsed settings.entry text, .fileChecked path p.diagnostics.length]
  Session.write (report settings (settings.color.palette host.outputIsTerminal) path text p.diagnostics)
  return summary.add p

/-- Checks files and tells what was found. -/
def check (host : Host) (line : LogEntry → String) (settings : Settings) (paths : List String) : Session Summary := do
  let files ← Session.ofExcept (filesToCheck host.files settings.patterns paths)
  Session.note line [.filesCollected files.length]
  let summary ← files.foldlM (checkFile host line settings) .empty
  if settings.format = .text then
    Session.writeError (host.errorPalette.paint summary.style summary.message ++ "\n")
  return summary

end Check

end StructuredText
