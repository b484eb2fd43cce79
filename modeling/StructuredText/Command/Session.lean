import StructuredText.Files.Glob
import StructuredText.Settings

/-!
# Sessions

A command runs in a session: it looks at files and writes to the two outputs, and it may fail. What was written before
a failure stays written. On its way it notes what it does. The log shows some of these notes on the standard error
output, in between what the command writes there itself: what it shows and in which words is up to the log.
-/

namespace StructuredText

/-- What a run has around it. -/
structure Host where
  files : Files
  /-- The standard output goes to a terminal. -/
  outputIsTerminal : Bool
  /-- The standard error output goes to a terminal. -/
  errorIsTerminal : Bool

/-- The palette of the standard error output. -/
def Host.errorPalette (host : Host) : Palette := ⟨host.errorIsTerminal⟩

/-- Why a command fails. -/
inductive Failure where
  | settingsNotFound (path : String)
  | settingsUnreadable (path : String) (error : FileError)
  | settingsInvalid (path : String)
  | invalidPattern (pattern : String) (error : PatternError)
  | unreadable (path : String) (error : FileError)
deriving DecidableEq

/-- The reason in words. -/
def Failure.message : Failure → String
  | settingsNotFound path => s!"config file not found: {path}"
  | settingsUnreadable path error => s!"failed to read {path}: {error.message}"
  | settingsInvalid path => s!"invalid config {path}"
  | invalidPattern pattern error => s!"invalid include pattern '{pattern}': {error.message}"
  | unreadable path error => s!"failed to read '{path}': {error.message}"

/-- What a session notes. -/
inductive LogEntry where
  /-- The working directory has no settings file. -/
  | noSettingsFile (directory : String)
  | settingsLoaded (path : String)
  | settingsUsed (path : String)
  | settingsResolved (settings : Settings)
  /-- So many files are to be checked. -/
  | filesCollected (count : Nat)
  /-- All that is noted while a text is parsed. -/
  | parsed (entry : Entry) (text : String)
  /-- All that is noted while the tokens of a text are found. -/
  | lexed (text : String)
  /-- A file was checked, with so many diagnostics. -/
  | fileChecked (path : String) (diagnostics : Nat)
deriving DecidableEq

/-- What the log shows of an entry, without the time of day: lines, or nothing. This goes by `--verbose`, and by what is
set around the run. -/
abbrev Log := (verbose : Bool) → LogEntry → String

/-- The log that shows nothing. -/
def Log.off : Log := fun _ _ => ""

/-- What is written to the two outputs. -/
structure Written where
  output : String
  error : String
deriving DecidableEq

/-- What is written once entries are noted of which the log shows these lines. -/
def Written.noted (w : Written) (line : LogEntry → String) (entries : List LogEntry) : Written :=
  { w with error := w.error ++ String.join (entries.map line) }

/-- A part of a run: it writes, and it gives a value or fails. -/
abbrev Session := EStateM Failure Written

namespace Session

/-- Writes to the standard output. -/
def write (text : String) : Session Unit := modify fun w => { w with output := w.output ++ text }

/-- Writes to the standard error output. -/
def writeError (text : String) : Session Unit := modify fun w => { w with error := w.error ++ text }

/-- Notes entries of which the log shows these lines. -/
def note (line : LogEntry → String) (entries : List LogEntry) : Session Unit := modify fun w => w.noted line entries

/-- Gives a value, or fails. -/
def ofExcept : Except Failure α → Session α
  | .ok a => pure a
  | .error failure => throw failure

/-- The text of a file. -/
def readText (host : Host) (path : String) : Session String :=
  match host.files.read path with
  | .ok text => pure text
  | .error e => throw (.unreadable path e)

end Session

end StructuredText
