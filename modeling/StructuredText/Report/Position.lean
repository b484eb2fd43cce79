import StructuredText.Text.Bytes

/-!
# Lines and columns

A byte offset is shown as a line and a column, both counted from one. The offsets at which the lines of a text begin are
listed once (`LineIndex`), and the line of an offset is found among them by halving (`partitionPoint`). Columns count
characters; an offset inside a character counts the bytes of the line in front of it instead, and an offset past the end
of the text means its end.
-/

namespace StructuredText

/-! ## Halving -/

/-- The first index from `low` on whose item fails `p`, or `high` if none before it does. The items of which `p` holds
have to stand in front of the others. -/
def partitionBetween (p : α → Bool) (items : Array α) (low high : Nat) (h : high ≤ items.size) : Nat :=
  if hlt : low < high then
    have hmid : (low + high) / 2 < high := by omega
    if p items[(low + high) / 2] then partitionBetween p items ((low + high) / 2 + 1) high h
    else partitionBetween p items low ((low + high) / 2) (by omega)
  else low
termination_by high - low

/-- The number of items of which `p` holds, where these stand in front of the others. -/
def partitionPoint (p : α → Bool) (items : Array α) : Nat := partitionBetween p items 0 items.size (Nat.le_refl _)

/-! ## Positions -/

/-- A line and a column, counted from one. -/
structure Position where
  line : Nat
  column : Nat
deriving DecidableEq

/-- The offsets behind the line feeds of a text that begins at `offset`. -/
def lineStartsFrom (offset : Nat) : List Char → List Nat
  | [] => []
  | c :: cs => (if c = '\n' then [offset + 1] else []) ++ lineStartsFrom (offset + c.utf8Size) cs

/-- A text, and where its lines begin. -/
structure LineIndex where
  source : List Char
  starts : Array Nat

namespace LineIndex

/-- The lines of a text. The first one begins with the text, and each line feed begins another one. -/
def ofSource (cs : List Char) : LineIndex := ⟨cs, (0 :: lineStartsFrom 0 cs).toArray⟩

/-- The position of a byte offset. -/
def position (index : LineIndex) (offset : Nat) : Position :=
  let offset := min offset (Text.byteLength index.source)
  let line := partitionPoint (· ≤ offset) index.starts - 1
  let start := index.starts.getD line 0
  let column := match Text.slice? index.source start offset with
    | some inner => inner.length
    | none => offset - start
  ⟨line + 1, column + 1⟩

end LineIndex

/-- The position of a byte offset in a text. -/
def Position.ofOffset (cs : List Char) (offset : Nat) : Position := (LineIndex.ofSource cs).position offset

end StructuredText
