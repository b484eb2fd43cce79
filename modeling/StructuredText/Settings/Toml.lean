/-!
# Settings files as values

A settings file is written in TOML: lines `key = value`, gathered into tables by lines `[table]` and `[[table]]`. Here
is the value that such a file has, and what its lines add to it. A line adds nothing twice: a key has one value, and
a table one line of its own.
-/

namespace StructuredText

namespace Toml

/-- How a table came to be. This decides what may still be added to it. -/
inductive Origin where
  /-- By a line of its own. -/
  | header
  /-- By a line for a table inside it, so that its own line may still follow. -/
  | implied
  /-- By a key with dots, so that such keys may still add to it. -/
  | dotted
  /-- In braces. Nothing is added to it. -/
  | inline
deriving DecidableEq

end Toml

/-- A value of a settings file. -/
inductive Toml where
  | str (value : String)
  | int (value : Int)
  /-- A boolean, a float, a date, a time or what only has the form of an integer. No setting takes such a value. -/
  | other
  | arr (items : List Toml)
  | table (origin : Toml.Origin) (entries : List (String × Toml))
  /-- Tables by lines `[[table]]`, at least one. The last one may still be added to. -/
  | tables (rows : List (List (String × Toml)))
deriving Inhabited

namespace Toml

/-- The keys of a table with their values. -/
abbrev Entries := List (String × Toml)

/-- How deep arrays and tables in braces may stand inside each other, and how many parts a key may have. -/
def maxDepth : Nat := 80

/-! ## Entries -/

/-- The entries with a value for a key, in place of another one it may have. -/
def assign (key : String) (value : Toml) (entries : Entries) : Entries :=
  if (entries.lookup key).isSome then entries.map fun (name, old) => (name, if name == key then value else old)
  else entries ++ [(key, value)]

/-- The entries with one more, unless the key is taken. -/
def addNew? (key : String) (value : Toml) (entries : Entries) : Option Entries :=
  if (entries.lookup key).isSome then none else some (assign key value entries)

/-- The rows with the last one changed by `f`. -/
def alterLast? (f : Entries → Option Entries) (rows : List Entries) : Option (List Entries) :=
  rows.getLast?.bind fun row => (f row).map fun row => rows.dropLast ++ [row]

/-! ## Keys with dots -/

/-- The entries with a value under a row of keys. The keys before the last name tables that such rows make. On the way
a row may go through tables of another origin, except those with a line of their own and those in braces, but the value
does not go into one. -/
def addDotted? : List String → Toml → Entries → Option Entries
  | [], _, _ => none
  | [key], value, entries => addNew? key value entries
  | key :: keys, value, entries =>
    let passes := 1 < keys.length
    match entries.lookup key with
    | none => (addDotted? keys value []).map fun inner => assign key (.table .dotted inner) entries
    | some (.table origin inner) =>
      if origin = .dotted || (origin = .implied && passes) then
        (addDotted? keys value inner).map fun inner => assign key (.table origin inner) entries
      else none
    | some (.tables rows) =>
      if passes then (alterLast? (addDotted? keys value) rows).map fun rows => assign key (.tables rows) entries
      else none
    | some _ => none

/-! ## Lines for tables -/

/-- The entries with `f` applied to what a line for a table names. The tables on the way there are implied, and of the
tables by lines `[[table]]` the last one is meant. -/
def alterAt? (f : Option Toml → Option Toml) : List String → Entries → Option Entries
  | [], _ => none
  | [key], entries => (f (entries.lookup key)).map fun value => assign key value entries
  | key :: keys, entries =>
    match entries.lookup key with
    | none => (alterAt? f keys []).map fun inner => assign key (.table .implied inner) entries
    | some (.table origin inner) =>
      if origin = .inline then none
      else (alterAt? f keys inner).map fun inner => assign key (.table origin inner) entries
    | some (.tables rows) => (alterLast? (alterAt? f keys) rows).map fun rows => assign key (.tables rows) entries
    | some _ => none

/-- What an implied table holds that a line `[table]` names. -/
def impliedAt : List String → Entries → Entries
  | [], _ => []
  | key :: keys, entries =>
    match entries.lookup key with
    | some (.table origin inner) =>
      if keys.isEmpty then if origin = .implied then inner else [] else impliedAt keys inner
    | some (.tables rows) => if keys.isEmpty then [] else impliedAt keys (rows.getLast?.getD [])
    | _ => []

/-- A line that begins a table. -/
inductive Header where
  /-- `[names]` -/
  | table (names : List String)
  /-- `[[names]]` -/
  | row (names : List String)

namespace Header

/-- The entries that a table has before the lines behind its header. -/
def entries (root : Entries) : Header → Entries
  | table names => impliedAt names root
  | row _ => []

/-- The root with the table of a header, whose entries are `body`. -/
def close? (body root : Entries) : Header → Option Entries
  | table names =>
    alterAt? (fun
      | none | some (.table .implied _) => some (.table .header body)
      | some _ => none) names root
  | row names =>
    alterAt? (fun
      | none => some (.tables [body])
      | some (.tables rows) => some (.tables (rows ++ [body]))
      | some _ => none) names root

end Header

end Toml

end StructuredText
