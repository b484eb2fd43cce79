import StructuredText.Text.Hex

/-!
# JSON values

A JSON value with natural numbers, written on one line (`Json.compact`) or indented (`Json.pretty`). A written string
holds no character below U+0020, so a value on one line is one line.
-/

namespace StructuredText

/-- A JSON value. The fields of an object keep their order. -/
inductive Json where
  | null
  | bool (value : Bool)
  | num (value : Nat)
  | str (value : String)
  | arr (items : List Json)
  | obj (fields : List (String × Json))
deriving Inhabited

namespace Json

/-! ## Strings -/

/-- How a character is written inside a string. -/
def escapeChar (c : Char) : List Char :=
  if c == '"' then ['\\', '"']
  else if c == '\\' then ['\\', '\\']
  else if c == '\x08' then ['\\', 'b']
  else if c == '\t' then ['\\', 't']
  else if c == '\n' then ['\\', 'n']
  else if c == '\x0C' then ['\\', 'f']
  else if c == '\r' then ['\\', 'r']
  else if c.toNat < 0x20 then '\\' :: 'u' :: (Text.fixedHex 4 c.toNat).map Char.toLower
  else [c]

/-- The string in quotes. -/
def quoted (s : String) : String := String.ofList ('"' :: s.toList.flatMap escapeChar ++ ['"'])

/-! ## On one line -/

mutual

/-- The value on one line, without spaces. -/
def compact : Json → String
  | .null => "null"
  | .bool b => if b then "true" else "false"
  | .num n => toString n
  | .str s => quoted s
  | .arr items => "[" ++ ",".intercalate (compactItems items) ++ "]"
  | .obj fields => "\x7b" ++ ",".intercalate (compactFields fields) ++ "\x7d"

/-- Each value on one line. -/
def compactItems : List Json → List String
  | [] => []
  | v :: vs => v.compact :: compactItems vs

/-- Each field on one line. -/
def compactFields : List (String × Json) → List String
  | [] => []
  | (name, v) :: fields => (quoted name ++ ":" ++ v.compact) :: compactFields fields

end

/-! ## Indented -/

/-- A line break and two spaces for each level. -/
def newline (level : Nat) : String := String.ofList ('\n' :: List.replicate (2 * level) ' ')

/-- The parts of an array or an object, one on a line; brackets without parts touch. -/
def block (opener closer : String) (level : Nat) (parts : List String) : String :=
  if parts.isEmpty then opener ++ closer
  else opener ++ newline (level + 1) ++ ("," ++ newline (level + 1)).intercalate parts ++ newline level ++ closer

mutual

/-- The value with its parts on lines of their own, `level` steps to the right. -/
def indented (level : Nat) : Json → String
  | .arr items => block "[" "]" level (indentedItems (level + 1) items)
  | .obj fields => block "\x7b" "\x7d" level (indentedFields (level + 1) fields)
  | .null => "null"
  | .bool b => if b then "true" else "false"
  | .num n => toString n
  | .str s => quoted s

/-- Each value with its parts on lines of their own. -/
def indentedItems (level : Nat) : List Json → List String
  | [] => []
  | v :: vs => v.indented level :: indentedItems level vs

/-- Each field with the parts of its value on lines of their own. -/
def indentedFields (level : Nat) : List (String × Json) → List String
  | [] => []
  | (name, v) :: fields => (quoted name ++ ": " ++ v.indented level) :: indentedFields level fields

end

/-- The value with every part on a line of its own. -/
def pretty (v : Json) : String := v.indented 0

/-! ## Order of fields -/

mutual

/-- The value with the fields of all its objects in the order of their names. -/
def sorted : Json → Json
  | .arr items => .arr (sortedItems items)
  | .obj fields => .obj ((sortedFields fields).mergeSort fun a b => a.1 ≤ b.1)
  | v => v

/-- Each value with its fields in order. -/
def sortedItems : List Json → List Json
  | [] => []
  | v :: vs => v.sorted :: sortedItems vs

/-- Each field with the fields of its value in order. -/
def sortedFields : List (String × Json) → List (String × Json)
  | [] => []
  | (name, v) :: fields => (name, v.sorted) :: sortedFields fields

end

/-! ## Building -/

/-- An optional value, absent ones as null. -/
def ofOption (f : α → Json) : Option α → Json
  | some a => f a
  | none => .null

/-- A value under its name. -/
def tagged (name : String) (v : Json) : Json := .obj [(name, v)]

end Json

end StructuredText
