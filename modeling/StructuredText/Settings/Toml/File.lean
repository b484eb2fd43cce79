import StructuredText.Settings.Toml
import StructuredText.Settings.Toml.Moment
import StructuredText.Settings.Toml.Quoted

/-!
# Reading settings files

`Toml.read` gives a settings file as a value, or nothing where it is malformed, defines a key twice or nests too deeply.
-/

namespace StructuredText.Toml

/-! ## Keys -/

/-- Reads one part of a key. -/
def keyPart : Reader String := do
  if ← atString then quotedString
  else
    let name ← run isKeyChar
    if name.isEmpty then failure
    return String.ofList name

/-- Reads a key of at most `limit` parts with dots between. -/
def keyWithin : (limit : Nat) → Reader (List String)
  | 0 => failure
  | limit + 1 => do
    spaces
    let part ← keyPart
    spaces
    if ← charIf '.' then return part :: (← keyWithin limit)
    return [part]

/-- Reads a key. -/
def key : Reader (List String) := keyWithin maxDepth

/-! ## Values -/

/-- The value that a word writes. -/
def ofWord? (word : List Char) : Option Toml :=
  match integer? word with
  | some v => some v
  | none =>
    if word == "true".toList || word == "false".toList || isFloat word || reads moment word then some .other else none

/-- Reads a word: a number, a boolean, a date or a time. Of the words, only a date goes on behind a blank, with its
time. -/
def word : Reader (List Char) := do
  let front ← run isWordChar
  match ← get with
  | ' ' :: c :: cs =>
    if reads date front && c.isDigit then
      set (c :: cs)
      return front ++ ' ' :: (← run isWordChar)
    else return front
  | _ => return front
where
  /-- A character that does not end a word. -/
  isWordChar (c : Char) : Bool :=
    !([' ', '\t', '\r', '\n', '#', ',', '=', '[', ']', '\x7b', '\x7d'].contains c)

/-- Reads a value without other values in it. -/
def scalar : Reader Toml := do
  if ← atString then return .str (← anyString)
  else
    match ofWord? (← word) with
    | some v => return v
    | none => failure

/-- Reads at most `fuel` items of an array, up to its closing bracket. -/
def itemsWithin (item : Reader Toml) : (fuel : Nat) → Reader (List Toml)
  | 0 => failure
  | fuel + 1 => do
    gap
    if ← charIf ']' then return []
    let first ← item
    gap
    if ← charIf ',' then return first :: (← itemsWithin item fuel)
    char ']'
    return [first]

/-- Reads the items of an array up to its closing bracket. -/
def items (item : Reader Toml) : Reader (List Toml) := do itemsWithin item ((← get).length + 1)

/-- Reads at most `fuel` entries of a table in braces up to its closing brace, behind those already read. -/
def fieldsWithin (item : Reader Toml) : (fuel : Nat) → Entries → Reader Entries
  | 0, _ => failure
  | fuel + 1, entries => do
    gap
    if ← charIf '\x7d' then return entries
    let names ← key
    gap
    char '='
    gap
    let entries ← addDotted? names (← item) entries
    gap
    if ← charIf ',' then fieldsWithin item fuel entries
    else
      char '\x7d'
      return entries

/-- Reads the entries of a table in braces up to its closing brace. -/
def fields (item : Reader Toml) : Reader Entries := do fieldsWithin item ((← get).length + 1) []

/-- Reads a value with at most `levels` arrays and tables in braces inside each other. -/
def value : (levels : Nat) → Reader Toml
  | 0 => scalar
  | levels + 1 => do
    if ← charIf '[' then return .arr (← items (value levels))
    else if ← charIf '\x7b' then return .table .inline (← fields (value levels))
    else scalar

/-! ## Lines -/

/-- Stops unless the line ends here, up to blanks and a comment. -/
def lineEnd : Reader Unit := do
  spaces
  let cs ← get
  if !(cs.isEmpty || cs.head? == some '#' || atBreak cs) then failure

/-- Reads a line `key = value` into the entries of a table. -/
def assignment (entries : Entries) : Reader Entries := do
  let names ← key
  char '='
  spaces
  let v ← value maxDepth
  lineEnd
  addDotted? names v entries

/-- Reads a line that begins a table. -/
def header : Reader Header := do
  char '['
  if ← charIf '[' then
    let names ← key
    char ']'
    char ']'
    lineEnd
    return .row names
  else
    let names ← key
    char ']'
    lineEnd
    return .table names

/-- The table that the lines stand in at some place of a file. -/
structure Section where
  /-- The line that began the table, unless the lines stand in front of all tables. -/
  header : Option Header
  /-- What the table holds so far. -/
  body : Entries
  /-- What stands in front of the table. -/
  root : Entries

namespace Section

/-- In front of all tables. -/
def start : Section := ⟨none, [], []⟩

/-- The file up to the end of the table. -/
def close? (s : Section) : Option Entries :=
  match s.header with
  | none => some s.body
  | some header => header.close? s.body s.root

end Section

/-- Reads lines, of which at most `fuel` hold something. -/
def lines : (fuel : Nat) → Section → Reader Entries
  | 0, _ => failure
  | fuel + 1, s => do
    gap
    match (← get).head? with
    | none => s.close?
    | some c =>
      if c == '[' then
        let root ← s.close?
        let h ← header
        lines fuel ⟨some h, h.entries root, root⟩
      else lines fuel { s with body := ← assignment s.body }

/-- The value of a settings file. A mark of the byte order at the beginning is passed over. -/
def read (text : String) : Option Toml :=
  let cs := text.toList
  let cs := if cs.head? == some '\uFEFF' then cs.tail else cs
  (lines (cs.length + 1) .start cs).map fun (entries, _) => .table .header entries

end StructuredText.Toml
