import StructuredText.Parse
import StructuredText.Report.Palette
import StructuredText.Settings.Toml.File

/-!
# Settings

Settings say how files are read, which files are checked and how the outcome is shown. A settings file has the sections
`parse`, `diagnostics` and `output`, each a table of settings by name or an array of them in order. What the file leaves
out has its default; a name that means nothing, or a value of the wrong kind, makes the whole file invalid.
-/

namespace StructuredText

/-- How diagnostics are written. -/
inductive OutputFormat where
  | text | json
deriving DecidableEq, Inhabited

namespace OutputFormat

/-- Every format. -/
def all : List OutputFormat := [text, json]

/-- The name of the format in settings. -/
def spelling : OutputFormat → String
  | text => "text"
  | json => "json"

/-- The format with this name in settings. -/
def ofSpelling? (s : String) : Option OutputFormat := all.find? (·.spelling == s)

end OutputFormat

/-- When output is coloured. -/
inductive ColorMode where
  /-- If it goes to a terminal. -/
  | auto
  | always | never
deriving DecidableEq, Inhabited

namespace ColorMode

/-- Every mode. -/
def all : List ColorMode := [auto, always, never]

/-- The name of the mode in settings. -/
def spelling : ColorMode → String
  | auto => "auto"
  | always => "always"
  | never => "never"

/-- The mode with this name in settings. -/
def ofSpelling? (s : String) : Option ColorMode := all.find? (·.spelling == s)

/-- The palette of an output that goes to a terminal or not. -/
def palette (mode : ColorMode) (terminal : Bool) : Palette :=
  match mode with
  | auto => ⟨terminal⟩
  | always => ⟨true⟩
  | never => ⟨false⟩

end ColorMode

/-- The settings of a run. -/
structure Settings where
  /-- What a file is read as. -/
  entry : Entry
  /-- The patterns of the files in a directory that are checked. -/
  patterns : List String
  /-- So many diagnostics of a file are shown. -/
  maxPerFile : Nat
  format : OutputFormat
  color : ColorMode
deriving DecidableEq

/-- The settings that hold where nothing else is said. -/
def Settings.standard : Settings := ⟨.source, ["**/*.st"], 50, .text, .auto⟩

instance : Inhabited Settings := ⟨Settings.standard⟩

/-! ## Values of settings -/

namespace Toml

/-- The values of a section by name, if it has no other names. -/
def fields? (names : List String) : Toml → Option Entries
  | .table _ entries => if entries.all fun (name, _) => names.contains name then some entries else none
  | .arr items => some (names.zip items)
  | .tables rows => some (names.zip (rows.map (.table .header)))
  | _ => none

/-- The section with this name among the sections of a file, empty where it is left out. -/
def section? (file : Entries) (name : String) (names : List String) : Option Entries :=
  match file.lookup name with
  | none => some []
  | some v => v.fields? names

/-- The setting with this name in a section, or its default where it is left out. -/
def setting? (entries : Entries) (name : String) (read : Toml → Option α) (default : α) : Option α :=
  match entries.lookup name with
  | none => some default
  | some v => read v

/-- A string. -/
def string? : Toml → Option String
  | .str s => some s
  | _ => none

/-- An array of strings. -/
def strings? : Toml → Option (List String)
  | .arr items => items.mapM string?
  | _ => none

/-- An integer that a word of 64 bits holds. -/
def count? : Toml → Option Nat
  | .int n => if 0 ≤ n && n.toNat < UInt64.size then some n.toNat else none
  | _ => none

/-- A name out of a fixed list: a string, or the only key of a table, with nothing under it. -/
def name? : Toml → Option String
  | .str s => some s
  | .table _ [(name, .table _ [])] => some name
  | .table _ [(name, .arr [])] => some name
  | _ => none

end Toml

/-! ## Settings files -/

namespace Settings

/-- The settings that a value gives. -/
def ofToml? (file : Toml) : Option Settings := do
  let file ← file.fields? ["parse", "diagnostics", "output"]
  let reading ← Toml.section? file "parse" ["entry", "include"]
  let limits ← Toml.section? file "diagnostics" ["max_per_file"]
  let output ← Toml.section? file "output" ["format", "color"]
  return {
    entry := ← Toml.setting? reading "entry" (fun v => v.name?.bind Entry.ofSpelling?) standard.entry
    patterns := ← Toml.setting? reading "include" Toml.strings? standard.patterns
    maxPerFile := ← Toml.setting? limits "max_per_file" Toml.count? standard.maxPerFile
    format := ← Toml.setting? output "format" (fun v => v.name?.bind OutputFormat.ofSpelling?) standard.format
    color := ← Toml.setting? output "color" (fun v => v.name?.bind ColorMode.ofSpelling?) standard.color }

/-- The settings of a settings file, unless it is invalid. -/
def read (text : String) : Option Settings := (Toml.read text).bind ofToml?

end Settings

end StructuredText
