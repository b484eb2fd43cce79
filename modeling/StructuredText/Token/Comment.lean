import StructuredText.Token.Scan

/-!
# Comments and pragmas

Block comments come in two styles, `(* … *)` and `/* … */`. A comment may hold comments of its own style, and the
delimiters of the other style mean nothing in it. A comment or pragma that is not closed takes the rest of the text as
an error.
-/

namespace StructuredText

/-- The two styles of block comments. -/
inductive CommentStyle where
  | round | slashed
deriving DecidableEq

namespace CommentStyle

/-- The character before the star that opens a comment. -/
def left : CommentStyle → Char
  | round => '('
  | slashed => '/'

/-- The character after the star that closes a comment. -/
def right : CommentStyle → Char
  | round => ')'
  | slashed => '/'

/-- What follows an opener inside `depth` further comments, up to the closer of the outermost one and behind it. -/
def body? (style : CommentStyle) : Nat → List Char → Option (List Char × List Char)
  | depth, a :: b :: cs =>
    if a = style.left ∧ b = '*' then
      (body? style (depth + 1) cs).map fun (inner, rest) => (a :: b :: inner, rest)
    else if a = '*' ∧ b = style.right then
      match depth with
      | 0 => some ([a, b], cs)
      | depth + 1 => (body? style depth cs).map fun (inner, rest) => (a :: b :: inner, rest)
    else
      (body? style depth (b :: cs)).map fun (inner, rest) => (a :: inner, rest)
  | _, _ => none

/-- Reads a block comment behind its opener. -/
def scan (style : CommentStyle) (cs : List Char) : Scan :=
  match style.body? 0 cs with
  | some (inner, rest) => ⟨.blockComment, inner, rest⟩
  | none => ⟨.error, cs, []⟩

/-- The body of a comment loses nothing of the text. -/
theorem append_of_body? {style : CommentStyle} {depth : Nat} {cs inner rest : List Char}
    (h : style.body? depth cs = some (inner, rest)) : inner ++ rest = cs := by
  fun_induction body? style depth cs generalizing inner rest with
  | case1 depth a b cs _ ih =>
    obtain ⟨⟨i, r⟩, hb, heq⟩ := Option.map_eq_some_iff.1 h
    cases heq; simp [ih hb]
  | case2 a b cs => cases h; simp
  | case3 a b cs _ _ depth ih =>
    obtain ⟨⟨i, r⟩, hb, heq⟩ := Option.map_eq_some_iff.1 h
    cases heq; simp [ih hb]
  | case4 depth a b cs _ _ ih =>
    obtain ⟨⟨i, r⟩, hb, heq⟩ := Option.map_eq_some_iff.1 h
    cases heq; simp [ih hb]
  | case5 => cases h

theorem scan_of (style : CommentStyle) (cs : List Char) : (style.scan cs).Of cs := by
  unfold scan
  split
  · next h => exact append_of_body? h
  · simp [Scan.Of]

end CommentStyle

/-- Reads a comment that ends with its line, behind its `//`. -/
def scanLineComment (cs : List Char) : Scan :=
  ⟨.lineComment, cs.takeWhile (!isLineEnd ·), cs.dropWhile (!isLineEnd ·)⟩

/-- Reads a pragma behind its opening brace. -/
def scanPragma (cs : List Char) : Scan :=
  match cs.dropWhile (· != '}') with
  | close :: rest => ⟨.pragma, cs.takeWhile (· != '}') ++ [close], rest⟩
  | [] => ⟨.error, cs, []⟩

theorem scanLineComment_of (cs : List Char) : (scanLineComment cs).Of cs := List.takeWhile_append_dropWhile

theorem scanPragma_of (cs : List Char) : (scanPragma cs).Of cs := by
  unfold scanPragma
  split
  · next close rest h =>
    have := List.takeWhile_append_dropWhile (p := (· != '}')) (l := cs)
    rw [h] at this
    simpa [Scan.Of] using this
  · simp [Scan.Of]

end StructuredText
