import StructuredText.Command.Check
import StructuredText.Command.Listing
import StructuredText.Command.Usage

/-!
# Runs

A run reads the command line, then the settings file, and then carries out the command. It ends with 0, with 1 if an
error was found in a file, and with 2 if it failed. The log is a parameter of the run.
-/

namespace StructuredText

/-! ## Settings -/

namespace Settings

/-- The names of settings files, in the order in which they are looked for in the working directory. -/
def fileNames : List String := ["stalg.toml", ".stalg.toml"]

/-- The settings file to use, if there is one. A file that is asked for has to be there. -/
def findFile (files : Files) : Option String → Except Failure (Option String)
  | some path => if files.isFile path then .ok (some path) else .error (.settingsNotFound path)
  | none => .ok ((fileNames.map (Path.join files.workingDirectory)).find? files.isFile)

/-- The settings in a file. -/
def readFile (files : Files) (path : String) : Except Failure Settings :=
  match files.read path with
  | .error e => .error (.settingsUnreadable path e)
  | .ok text =>
    match read text with
    | some settings => .ok settings
    | none => .error (.settingsInvalid path)

/-- The settings of a run with these options, and the settings file that was used for them, if one was. -/
def load (files : Files) (options : Options) : Except Failure (Settings × Option String) := do
  match ← findFile files options.config with
  | some path => return (options.apply (← readFile files path), some path)
  | none => return (options.apply standard, none)

/-- What is noted about the settings of a run. -/
def entries (files : Files) (settings : Settings) : Option String → List LogEntry
  | some path => [.settingsLoaded path, .settingsUsed path, .settingsResolved settings]
  | none => [.noSettingsFile files.workingDirectory, .settingsResolved settings]

end Settings

/-! ## Runs -/

/-- Carries out a command, and tells whether an error was found in a file. -/
def Command.perform (host : Host) (line : LogEntry → String) (settings : Settings) : Command → Session Bool
  | check paths => do return (← Check.check host line settings paths).filesWithErrors != 0
  | dump path compact => do return (← StructuredText.dump host line settings path compact).hasErrors
  | tokens path trivia => do
    listTokens host line settings path trivia
    return false

/-- Loads the settings and carries out the command. -/
def Arguments.perform (host : Host) (log : Log) (a : Arguments) : Session Bool := do
  let line := log a.options.verbose
  let (settings, path) ← Session.ofExcept (Settings.load host.files a.options)
  Session.note line (settings.entries host.files path)
  a.command.perform host line settings

/-- How a run ends, and what it writes. -/
structure Outcome where
  code : Nat
  written : Written
deriving DecidableEq

/-- The outcome of a session. -/
def Session.outcome (host : Host) (session : Session Bool) : Outcome :=
  match session.run ⟨"", ""⟩ with
  | .ok foundErrors written => ⟨if foundErrors then 1 else 0, written⟩
  | .error failure written =>
    ⟨2, { written with
      error := written.error ++ host.errorPalette.paint .error ("Error: " ++ failure.message) ++ "\n" }⟩

/-- The outcome of a command line that gives no command to run. -/
def UsageError.outcome : UsageError → Outcome
  | help => ⟨0, ⟨helpText, ""⟩⟩
  | version => ⟨0, ⟨versionLine, ""⟩⟩
  | nothingGiven => ⟨2, ⟨"", helpText⟩⟩
  | e => ⟨2, ⟨"", "error: " ++ e.message ++ "\n\nFor more information, try '--help'.\n"⟩⟩

/-- The outcome of a command line with a log. -/
def runLogged (log : Log) (host : Host) (words : List String) : Outcome :=
  match Arguments.read words with
  | .ok a => Session.outcome host (a.perform host log)
  | .error e => e.outcome

/-- The outcome of a command line where the log shows nothing. -/
def run (host : Host) (words : List String) : Outcome := runLogged .off host words

end StructuredText
