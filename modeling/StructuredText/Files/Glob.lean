import StructuredText.Files.Tree

/-!
# Patterns for paths

A pattern names files by wildcards: `?` is any character, `*` any characters, `[a-z]` and `[!a-z]` a character inside
or outside of ranges, and `**` between slashes any number of directories. A pattern is matched part by part against the
names in a directory; a part without wildcards is looked up.
-/

namespace StructuredText

/-! ## Wildcards -/

/-- A piece of a pattern. -/
inductive Wildcard where
  | char (c : Char)
  | anyChar
  | anyChars
  | anyDirectories
  /-- A character of one of the ranges. -/
  | within (ranges : List (Char × Char))
  /-- A character of none of the ranges. -/
  | except (ranges : List (Char × Char))
deriving DecidableEq

/-- What is wrong with a pattern, and at which character. -/
structure PatternError where
  position : Nat
  reason : String
deriving DecidableEq

namespace PatternError

/-- The error in words. -/
def message (e : PatternError) : String := s!"Pattern syntax error near position {e.position}: {e.reason}"

/-- More than two stars. -/
def tooManyStars (position : Nat) : PatternError :=
  ⟨position, "wildcards are either regular \x60*\x60 or recursive \x60**\x60"⟩

/-- Two stars beside something else than a slash. -/
def starsInName (position : Nat) : PatternError :=
  ⟨position, "recursive wildcards must form a single path component"⟩

/-- A bracket without a range. -/
def badRange (position : Nat) : PatternError := ⟨position, "invalid range pattern"⟩

end PatternError

namespace Wildcard

/-- The ranges between brackets: `a-z`, or a character for itself. -/
def ranges : List Char → List (Char × Char)
  | a :: '-' :: b :: cs => (a, b) :: ranges cs
  | a :: cs => (a, a) :: ranges cs
  | [] => []

/-- The characters up to a closing bracket, of which the first may be a bracket itself, and the pattern behind it. -/
def splitRange? : List Char → Option (List Char × List Char)
  | [] => none
  | c :: cs =>
    match cs.dropWhile (· != ']') with
    | _ :: rest => some (c :: cs.takeWhile (· != ']'), rest)
    | [] => none

/-- The wildcard of a range behind its opening bracket, and the pattern behind it. -/
def range? : List Char → Option (Wildcard × List Char)
  | '!' :: cs => (splitRange? cs).map fun (inner, rest) => (.except (ranges inner), rest)
  | cs => (splitRange? cs).map fun (inner, rest) => (.within (ranges inner), rest)

/-- Reads a pattern at `position`, where `previous` is the character in front. At most `fuel` pieces are read. -/
def readFrom : (fuel position : Nat) → (previous : Option Char) → List Char → Except PatternError (List Wildcard)
  | 0, _, _, _ => .ok []
  | _ + 1, _, _, [] => .ok []
  | fuel + 1, position, previous, c :: cs =>
    if c == '?' then return .anyChar :: (← readFrom fuel (position + 1) (some c) cs)
    else if c == '[' then
      match range? cs with
      | some (range, rest) =>
        return range :: (← readFrom fuel (position + 1 + (cs.length - rest.length)) (some ']') rest)
      | none => .error (.badRange position)
    else if c == '*' then
      let stars := (cs.takeWhile (· == '*')).length + 1
      let rest := cs.dropWhile (· == '*')
      if stars > 2 then .error (.tooManyStars (position + 2))
      else if stars = 1 then return .anyChars :: (← readFrom fuel (position + 1) (some c) rest)
      else if previous != none && previous != some '/' then .error (.starsInName (position - 1))
      else
        match rest with
        | [] => return [.anyDirectories]
        | d :: rest =>
          if d == '/' then return .anyDirectories :: (← readFrom fuel (position + 3) (some d) rest)
          else .error (.starsInName (position + 2))
    else return .char c :: (← readFrom fuel (position + 1) (some c) cs)

/-- Reads a pattern. -/
def read (cs : List Char) : Except PatternError (List Wildcard) := readFrom cs.length 0 none cs

/-- The character lies in one of the ranges. -/
def inRanges (ranges : List (Char × Char)) (c : Char) : Bool := ranges.any fun (a, b) => a ≤ c && c ≤ b

/-- Any number of characters, and then what `tail` matches. -/
def matchesTail (tail : List Char → Bool) : List Char → Bool
  | [] => tail []
  | c :: cs => tail (c :: cs) || matchesTail tail cs

/-- The pattern matches the whole name. -/
def matchesAll : List Wildcard → List Char → Bool
  | [], cs => cs.isEmpty
  | .anyChars :: ws, cs => matchesTail (matchesAll ws) cs
  | .anyDirectories :: ws, cs => matchesTail (matchesAll ws) cs
  | _ :: _, [] => false
  | .char d :: ws, c :: cs => c == d && matchesAll ws cs
  | .anyChar :: ws, _ :: cs => matchesAll ws cs
  | .within ranges :: ws, c :: cs => inRanges ranges c && matchesAll ws cs
  | .except ranges :: ws, c :: cs => !inRanges ranges c && matchesAll ws cs

/-- The name that a pattern without wildcards stands for. -/
def literal? : List Wildcard → Option (List Char)
  | [] => some []
  | .char c :: ws => (literal? ws).map (c :: ·)
  | _ :: _ => none

end Wildcard

/-! ## Search -/

namespace FileTree

/-- The path of an entry of the directory at `path`. The directory `.` is left out. -/
def entryPath (path name : String) : String := if Path.compare path "." = .eq then name else Path.join path name

/-- The names and trees in a directory. -/
def entries : FileTree → List (String × FileTree)
  | file _ => []
  | directory entries => entries

mutual

/-- The path, name and tree of everything below a tree at a path. -/
def everything (path : String) : FileTree → List (String × String × FileTree)
  | .file _ => []
  | .directory entries => everythingIn path entries

/-- The path, name and tree of everything in the entries of a directory at a path. -/
def everythingIn (path : String) : List (String × FileTree) → List (String × String × FileTree)
  | [] => []
  | (name, t) :: entries =>
    (entryPath path name, name, t) :: everything (entryPath path name) t ++ everythingIn path entries

end

end FileTree

namespace Files

/-- The special entries `.` and `..` of a directory that a part with a leading point matches. -/
def specialEntries (pattern : List Wildcard) (path : String) : List String :=
  if pattern.head? = some (.char '.') then
    [".", ".."].filterMap fun name =>
      if Wildcard.matchesAll pattern name.toList then some (Path.join path name) else none
  else []

/-- The names in the directory at a path that a part of a pattern matches, as paths. -/
def entriesMatching (files : Files) (pattern : List Wildcard) (path : String) : List String :=
  match Wildcard.literal? pattern with
  | some name =>
    let name := String.ofList name
    let entry := FileTree.entryPath path name
    if (if name == "." || name == ".." then files.isDirectory path else files.contains entry) then [entry] else []
  | none =>
    match files.find path with
    | .ok (.directory entries) =>
      entries.filterMap (fun (name, _) =>
        if Wildcard.matchesAll pattern name.toList then some (FileTree.entryPath path name) else none) ++
      specialEntries pattern path
    | _ => []

mutual

/-- The paths below the directory at `path` that the parts of a pattern match. -/
def search (files : Files) : List (List Wildcard) → String → List String
  | [], path => [path]
  | pattern :: patterns, path =>
    if pattern = [.anyDirectories] then
      match files.find path with
      | .ok t => (t.everything path).flatMap (searchEntry files patterns)
      | .error _ => []
    else (files.entriesMatching pattern path).flatMap (search files patterns)

/-- The paths at and below an entry that the parts of a pattern behind `**` match. -/
def searchEntry (files : Files) : List (List Wildcard) → String × String × FileTree → List String
  | [], (path, _, t) => if t.isDirectory then [path] else []
  | pattern :: patterns, (path, name, t) =>
    if pattern = [.anyDirectories] then searchEntry files patterns (path, name, t)
    else if Wildcard.matchesAll pattern name.toList then search files patterns path
    else []

end

/-- The files that a pattern matches, in no order. A pattern that ends with a slash matches directories only. -/
def glob (files : Files) (pattern : String) : Except PatternError (List String) := do
  let _ ← Wildcard.read pattern.toList
  let patterns ← ((Path.segments pattern).drop (if Path.isAbsolute pattern then 1 else 0)).mapM Wildcard.read
  let found := files.search patterns (if Path.isAbsolute pattern then "/" else ".")
  return if pattern.toList.getLast? = some '/' then [] else found.filter files.isFile

end Files

end StructuredText
