/-!
# Paths

A path is kept as it was written. For comparing, it is a list of parts: empty parts count for nothing, and so does a
`.` unless the path begins with it.
-/

namespace StructuredText.Path

/-- A part of a path. -/
inductive Part where
  /-- The `/` at the beginning. -/
  | root
  /-- The `.` at the beginning. -/
  | here
  /-- `..` -/
  | up
  | name (name : String)
deriving DecidableEq

/-- The place of the kinds of parts in the order. -/
def Part.rank : Part → Nat
  | root => 0
  | here => 1
  | up => 2
  | name _ => 3

/-- Parts in order; names in the order of their characters. -/
def Part.compare : Part → Part → Ordering
  | .name a, .name b => Ord.compare a b
  | a, b => Ord.compare a.rank b.rank

/-- The path cut at each `/`. -/
def segments (path : String) : List (List Char) := cut [] path.toList
where
  cut (segment : List Char) : List Char → List (List Char)
    | [] => [segment.reverse]
    | c :: cs => if c == '/' then segment.reverse :: cut [] cs else cut (c :: segment) cs

/-- The path begins at the root. -/
def isAbsolute (path : String) : Bool := path.toList.head? == some '/'

/-- The parts of a path. -/
def parts (path : String) : List Part :=
  let front := if isAbsolute path then [Part.root] else if (segments path).head? == some ['.'] then [.here] else []
  front ++ (segments path).filterMap fun segment =>
    if segment.isEmpty || segment == ['.'] then none
    else if segment == ['.', '.'] then some .up
    else some (.name (String.ofList segment))

/-- Lists of parts in the order of the first parts that differ. -/
def compareParts : List Part → List Part → Ordering
  | [], [] => .eq
  | [], _ :: _ => .lt
  | _ :: _, [] => .gt
  | a :: as, b :: bs => (a.compare b).then (compareParts as bs)

/-- Paths in the order of their parts. -/
def compare (a b : String) : Ordering := compareParts (parts a) (parts b)

/-- Two paths joined; an absolute second path stands for itself. -/
def join (path name : String) : String :=
  if isAbsolute name || path.isEmpty then name
  else if path.toList.getLast? == some '/' then path ++ name
  else path ++ "/" ++ name

/-- The paths with one more at its place in the order, unless an equal one is among them. -/
def insert (path : String) : List String → List String
  | [] => [path]
  | p :: ps =>
    match compare path p with
    | .lt => path :: p :: ps
    | .eq => p :: ps
    | .gt => p :: insert path ps

end StructuredText.Path
