import StructuredText.Settings

/-!
# Command lines

The words of a command line name a command, the files it is for, and options. Options for all commands stand in front
of the command or behind it. A value is looked at only when the next option, the next path of another kind or the end of
the line shows that nothing more belongs to it, so of two mistakes the later one can be the one that is told.
-/

namespace StructuredText

/-! ## What a command line asks for -/

/-- What is to be done. -/
inductive Command where
  /-- Show the diagnostics of these files, or of the files that the settings name. -/
  | check (paths : List String)
  /-- Write the tree of a file as JSON, on one line or indented. -/
  | dump (path : String) (compact : Bool)
  /-- List the tokens of a file, with trivia or without. -/
  | tokens (path : String) (trivia : Bool)
deriving DecidableEq

/-- The options that go with every command. -/
structure Options where
  verbose : Bool
  config : Option String
  entry : Option Entry
  format : Option OutputFormat
  color : Option ColorMode
deriving DecidableEq

namespace Options

/-- No options. -/
def empty : Options := ⟨false, none, none, none, none⟩

/-- The options together with others that stand behind them. -/
def followedBy (o later : Options) : Options :=
  ⟨o.verbose || later.verbose, later.config.or o.config, later.entry.or o.entry, later.format.or o.format,
    later.color.or o.color⟩

/-- The settings with what the options say in their place. -/
def apply (o : Options) (s : Settings) : Settings :=
  { s with entry := o.entry.getD s.entry, format := o.format.getD s.format, color := o.color.getD s.color }

end Options

/-- A command with its options. -/
structure Arguments where
  options : Options
  command : Command
deriving DecidableEq

/-- Why a command line gives no command to run. A request for help or for the version is one of the reasons. -/
inductive UsageError where
  | help
  | version
  /-- Neither a command nor an option. -/
  | nothingGiven
  /-- Options, but no command. -/
  | missingCommand
  | unknownCommand
  | missingPath
  /-- An option that does not exist here, or a path too many. -/
  | unknownArgument
  /-- A value that is missing or means nothing, or an empty path. -/
  | invalidValue
  | repeatedOption
  /-- A value for an option without one. -/
  | unwantedValue
deriving DecidableEq

/-! ## Words -/

/-- The commands without what they are for. -/
inductive Verb where
  | check | dump | tokens
deriving DecidableEq

namespace Verb

/-- The names that can stand for the command, with the commands; help is one of the names. -/
def names : List (String × Option Verb) :=
  [("check", some check), ("dump", some dump), ("tokens", some tokens), ("help", none)]

/-- The only name that begins with the word, with its command. -/
def named? (word : String) : Option (Option Verb) :=
  match names.filter fun (name, _) => word.toList.isPrefixOf name.toList with
  | [(_, verb)] => some verb
  | _ => none

/-- The option that only this command has. -/
def ownSwitch? : Verb → Option String
  | check => none
  | dump => some "compact"
  | tokens => some "trivia"

end Verb

/-- The options without a value. -/
inductive Switch where
  | verbose | help | version
  /-- The option that only the command at hand has. -/
  | own
deriving DecidableEq

namespace Switch

/-- The option with this name in front of the command or behind it. -/
def ofName? (verb : Option Verb) (name : String) : Option Switch :=
  if name == "verbose" then some verbose
  else if name == "help" then some help
  else
    match verb with
    | none => if name == "version" then some version else none
    | some verb => if verb.ownSwitch? == some name then some own else none

/-- The option with this letter in front of the command or behind it. -/
def ofLetter? (verb : Option Verb) (c : Char) : Option Switch :=
  if c == 'v' then some verbose
  else if c == 'h' then some help
  else if c == 'V' && verb.isNone then some version
  else none

end Switch

/-- The options with a value. -/
inductive ValueOption where
  | config | entry | format | color
deriving DecidableEq

namespace ValueOption

/-- The name of the option. -/
def name : ValueOption → String
  | config => "config"
  | entry => "entry"
  | format => "format"
  | color => "color"

/-- The option with this name. -/
def ofName? (s : String) : Option ValueOption := [config, entry, format, color].find? (·.name == s)

end ValueOption

/-- The form of a word. -/
inductive Word where
  /-- `--`, behind which all words are paths. -/
  | separator
  /-- `--name` or `--name=value` -/
  | long (name : String) (value : Option String)
  /-- A hyphen with the letters of options. -/
  | letters (letters : List Char)
  | plain

/-- The form of a word. -/
def Word.ofChars : List Char → Word
  | '-' :: '-' :: cs =>
    if cs.isEmpty then separator
    else long (String.ofList (cs.takeWhile (· != '='))) ((cs.dropWhile (· != '=')).tail?.map String.ofList)
  | '-' :: c :: cs => letters (c :: cs)
  | _ => plain

/-! ## Reading -/

/-- What was read last and may not be complete. -/
inductive Pending where
  | nothing
  | option (option : ValueOption) (value : Option String)
  | paths (paths : List String)
deriving DecidableEq

/-- What the words up to here give. -/
structure Draft where
  options : Options
  /-- The option that only the command at hand has. -/
  own : Bool
  paths : List String
  pending : Pending
  /-- Only paths follow. -/
  pathsOnly : Bool

/-- A value for an option that has none yet. -/
def setOnce (old : Option α) (new : Option α) : Except UsageError (Option α) :=
  if old.isSome then .error .repeatedOption
  else if new.isSome then .ok new
  else .error .invalidValue

/-- The options with a value for one of them. -/
def Options.set (o : Options) (option : ValueOption) (value : String) : Except UsageError Options :=
  match option with
  | .config => return { o with config := ← setOnce o.config (if value.isEmpty then none else some value) }
  | .entry => return { o with entry := ← setOnce o.entry (Entry.ofSpelling? value) }
  | .format => return { o with format := ← setOnce o.format (OutputFormat.ofSpelling? value) }
  | .color => return { o with color := ← setOnce o.color (ColorMode.ofSpelling? value) }

namespace Draft

/-- Nothing is given. -/
def empty : Draft := ⟨.empty, false, [], .nothing, false⟩

/-- Takes in what was read last. -/
def settle (d : Draft) : Except UsageError Draft :=
  match d.pending with
  | .nothing => .ok d
  | .option _ none => .error .invalidValue
  | .option option (some value) => return { d with options := ← d.options.set option value, pending := .nothing }
  | .paths paths =>
    if paths.contains "" then .error .invalidValue
    else .ok { d with paths := d.paths ++ paths, pending := .nothing }

/-- Takes an option without a value. -/
def turnOn (d : Draft) (switch : Switch) : Except UsageError Draft := do
  let d ← d.settle
  match switch with
  | .help => .error .help
  | .version => .error .version
  | .verbose =>
    if d.options.verbose then .error .repeatedOption
    else return { d with options := { d.options with verbose := true } }
  | .own => if d.own then .error .repeatedOption else return { d with own := true }

/-- Takes the letters of options without a value. -/
def turnOnLetters (verb : Option Verb) : List Char → Draft → Except UsageError Draft
  | [], d => .ok d
  | c :: cs, d =>
    match Switch.ofLetter? verb c with
    | some switch => do turnOnLetters verb cs (← d.turnOn switch)
    | none => .error .unknownArgument

/-- Takes `--name` or `--name=value`. -/
def takeLong (d : Draft) (verb : Option Verb) (name : String) (value : Option String) : Except UsageError Draft :=
  match ValueOption.ofName? name with
  | some option => do
    let d ← d.settle
    match value with
    | some value => return { d with options := ← d.options.set option value }
    | none => return { d with pending := .option option none }
  | none =>
    match Switch.ofName? verb name with
    | some switch => if value.isSome then .error .unwantedValue else d.turnOn switch
    | none => .error .unknownArgument

/-- A path is given. -/
def hasPath (d : Draft) : Bool :=
  !d.paths.isEmpty || match d.pending with
    | .paths _ => true
    | _ => false

/-- Takes a path. Only one command has more than one, and none stands in front of a command. -/
def takePath (d : Draft) (verb : Option Verb) (path : String) : Except UsageError Draft :=
  match verb with
  | none => .error (if d.pathsOnly && (Verb.named? path).isSome then .unknownArgument else .unknownCommand)
  | some .check =>
    match d.pending with
    | .paths paths => .ok { d with pending := .paths (paths ++ [path]) }
    | _ => return { ← d.settle with pending := .paths [path] }
  | some _ => if d.hasPath then .error .unknownArgument else return { ← d.settle with pending := .paths [path] }

/-- Takes the next word. -/
def take (verb : Option Verb) (d : Draft) (word : String) : Except UsageError Draft :=
  if d.pathsOnly then d.takePath verb word
  else
    match Word.ofChars word.toList with
    | .separator => .ok { d with pathsOnly := true }
    | .long name value => d.takeLong verb name value
    | .letters cs => d.turnOnLetters verb cs
    | .plain =>
      match d.pending with
      | .option option none => .ok { d with pending := .option option (some word) }
      | _ => d.takePath verb word

/-- The next word can be the name of a command. -/
def awaitsCommand (d : Draft) : Bool :=
  !d.pathsOnly && match d.pending with
    | .option _ none => false
    | _ => true

/-- The command that its words give. -/
def command (d : Draft) : Verb → Except UsageError Command
  | .check => .ok (.check d.paths)
  | .dump => (d.paths.head?.map fun path => .ok (.dump path d.own)).getD (.error .missingPath)
  | .tokens => (d.paths.head?.map fun path => .ok (.tokens path d.own)).getD (.error .missingPath)

end Draft

namespace Arguments

/-- Reads the words behind a command. -/
def ofCommandWords (verb : Verb) (words : List String) : Except UsageError Arguments := do
  let d ← (← words.foldlM (Draft.take (some verb)) .empty).settle
  return ⟨d.options, ← d.command verb⟩

/-- What a request for help with these commands comes to: commands have no commands of their own. -/
def helpWith : List String → UsageError
  | [] => .help
  | [word] => if Verb.names.any (·.1 == word) then .help else .unknownCommand
  | _ => .unknownCommand

/-- Reads words of which `d` are already read, none of them a command. -/
def readFrom : Draft → List String → Except UsageError Arguments
  | d, [] => do
    let d ← d.settle
    .error (if d.options = .empty then .nothingGiven else .missingCommand)
  | d, word :: words =>
    match if d.awaitsCommand then Verb.named? word else none with
    | some none => .error (helpWith words)
    | some (some verb) => do
      let later ← ofCommandWords verb words
      let d ← d.settle
      return { later with options := d.options.followedBy later.options }
    | none => do readFrom (← d.take none word) words

/-- Reads a command line without the name of the program. -/
def read (words : List String) : Except UsageError Arguments := readFrom .empty words

end Arguments

end StructuredText
