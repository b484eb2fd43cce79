import StructuredText.Token
import StructuredText.Token.Comment
import StructuredText.Token.LiteralType
import StructuredText.Token.Number
import StructuredText.Token.Quoted
import StructuredText.Token.Temporal

/-!
# Cutting a text into tokens

Every text can be cut into pieces, each of which is a token; text that is no token becomes a piece of kind `error`. The
scan of one token loses nothing of the text (`scanToken_of`).
-/

namespace StructuredText

/-- A token with its own text. -/
structure Piece where
  kind : TokenKind
  lexeme : List Char
deriving DecidableEq

/-! ## One token -/

/-- The symbols of two characters. -/
def symbolOfTwo? : Char → Char → Option TokenKind
  | ':', ':' => some .colonColon
  | ':', '=' => some .assign
  | '.', '.' => some .dotDot
  | '=', '>' => some .arrow
  | '<', '>' => some .neq
  | '<', '=' => some .ltEq
  | '>', '=' => some .gtEq
  | '*', '*' => some .power
  | '%', c => (AccessWidth.ofLetter? c).map .access
  | _, _ => none

/-- The symbols of one character. -/
def symbolOfOne? : Char → Option TokenKind
  | ';' => some .semicolon
  | ':' => some .colon
  | ',' => some .comma
  | '.' => some .dot
  | '(' => some .lParen
  | ')' => some .rParen
  | '[' => some .lBracket
  | ']' => some .rBracket
  | '#' => some .hash
  | '=' => some .eq
  | '<' => some .lt
  | '>' => some .gt
  | '+' => some .plus
  | '-' => some .minus
  | '*' => some .star
  | '/' => some .slash
  | '&' => some .ampersand
  | _ => none

/-- Reads the longest symbol that begins with `c`; a character that begins none is an error of its own. -/
def scanSymbol (c : Char) (cs : List Char) : Scan :=
  match cs with
  | [] => ⟨(symbolOfOne? c).getD .error, [c], []⟩
  | d :: ds =>
    match symbolOfTwo? c d with
    | some kind => ⟨kind, [c, d], ds⟩
    | none => ⟨(symbolOfOne? c).getD .error, [c], d :: ds⟩

/-- Reads what follows a word and its `#`. -/
def scanTyped (word value : List Char) : Scan :=
  match LiteralType.ofName? (String.ofList word) with
  | some .duration => scanDuration value
  | some .date => Stamp.date.scan value
  | some .timeOfDay => Stamp.timeOfDay.scan value
  | some .dateAndTime => Stamp.dateAndTime.scan value
  | _ => .stop .typedLiteralPrefix value

/-- The kind of a word without a `#` behind it. -/
def wordKind (word : List Char) : TokenKind := (TokenKind.ofWord? (String.ofList (Text.upper word))).getD .ident

/-- Reads what follows a word. -/
def scanAfterWord (word : List Char) : List Char → Scan
  | [] => ⟨wordKind word, word, []⟩
  | c :: cs => if c == '#' then (scanTyped word cs).after (word ++ [c]) else ⟨wordKind word, word, c :: cs⟩

/-- Reads a word at its first character. -/
def scanWord (cs : List Char) : Scan := scanAfterWord (cs.takeWhile isWordPart) (cs.dropWhile isWordPart)

/-- Reads the block comment of the style that `c` opens, if one is opened here. -/
def scanBlockComment? (c : Char) : List Char → Option Scan
  | '*' :: cs =>
    if c == '(' then some ((CommentStyle.round.scan cs).after [c, '*'])
    else if c == '/' then some ((CommentStyle.slashed.scan cs).after [c, '*'])
    else none
  | _ => none

/-- Reads the token that begins with `c`. -/
def scanToken (c : Char) (cs : List Char) : Scan :=
  if isBlank c then ⟨.whitespace, c :: cs.takeWhile isBlank, cs.dropWhile isBlank⟩
  else if isWordStart c then scanWord (c :: cs)
  else if c.isDigit then scanNumber (c :: cs)
  else if c == Quote.single.mark then (Quote.single.scan cs).cons c
  else if c == Quote.double.mark then (Quote.double.scan cs).cons c
  else if c == '\x7b' then (scanPragma cs).cons c
  else if c == '/' && startsWith (· == '/') cs then (scanLineComment cs).cons c
  else (scanBlockComment? c cs).getD (scanSymbol c cs)

/-! ## All tokens -/

/-- The dots directly behind an integer: two of them are a range, and of three or more the first stands alone. -/
def dotsAfterInteger? : List Char → Option (Piece × List Char)
  | '.' :: '.' :: '.' :: cs => some (⟨.dot, ['.']⟩, '.' :: '.' :: cs)
  | '.' :: '.' :: cs => some (⟨.dotDot, ['.', '.']⟩, cs)
  | '.' :: cs => some (⟨.dot, ['.']⟩, cs)
  | _ => none

/-- The dots directly behind a scan of an integer, unless it ends with the `#` of a base. -/
def dotsAfter? (s : Scan) : Option (Piece × List Char) :=
  if s.kind = .intLiteral ∧ s.lexeme.getLast? ≠ some '#' then dotsAfterInteger? s.rest else none

/-- The pieces of a text of at most `fuel` characters. -/
def piecesWithin : Nat → List Char → List Piece
  | 0, _ => []
  | _ + 1, [] => []
  | fuel + 1, c :: cs =>
    let s := scanToken c cs
    ⟨s.kind, s.lexeme⟩ ::
      match dotsAfter? s with
      | some (dots, rest) => dots :: piecesWithin fuel rest
      | none => piecesWithin fuel s.rest

/-- The pieces of a text. -/
def pieces (cs : List Char) : List Piece := piecesWithin cs.length cs

/-- The pieces as tokens, the first of which begins at `offset`. Offsets are as large as the text makes them: they are
those of 32 bits for texts of less than 4 GiB, and longer texts are left out. -/
def place : Nat → List Piece → List Token
  | _, [] => []
  | offset, p :: ps =>
    let stop := offset + Text.byteLength p.lexeme
    ⟨p.kind, ⟨offset, stop⟩⟩ :: place stop ps

/-- The tokens of a text, trivia included. -/
def lex (text : String) : List Token := place 0 (pieces text.toList)

/-! ## Nothing is lost -/

theorem scanSymbol_of (c : Char) (cs : List Char) : (scanSymbol c cs).Of (c :: cs) := by
  unfold scanSymbol
  split
  · rfl
  · split <;> rfl

theorem scanTyped_of (word value : List Char) : (scanTyped word value).Of value := by
  unfold scanTyped
  split
  · exact scanDuration_of value
  · exact Stamp.scan_of _ value
  · exact Stamp.scan_of _ value
  · exact Stamp.scan_of _ value
  · rfl

theorem scanAfterWord_of (word cs : List Char) : (scanAfterWord word cs).Of (word ++ cs) := by
  unfold scanAfterWord
  split
  · rfl
  · next c cs =>
    split
    · simpa using (scanTyped_of word cs).after (word ++ [c])
    · rfl

theorem scanWord_of (cs : List Char) : (scanWord cs).Of cs := by
  have h := scanAfterWord_of (cs.takeWhile isWordPart) (cs.dropWhile isWordPart)
  rwa [List.takeWhile_append_dropWhile] at h

theorem scanBlockComment?_of {c : Char} {cs : List Char} {s : Scan} (h : scanBlockComment? c cs = some s) :
    s.Of (c :: cs) := by
  unfold scanBlockComment? at h
  split at h
  · split at h
    · cases h; exact (CommentStyle.scan_of _ _).after _
    · split at h
      · cases h; exact (CommentStyle.scan_of _ _).after _
      · cases h
  · cases h

theorem scanToken_of (c : Char) (cs : List Char) : (scanToken c cs).Of (c :: cs) := by
  unfold scanToken
  split
  · simp [Scan.Of]
  · split
    · exact scanWord_of _
    · split
      · exact scanNumber_of _
      · split
        · exact (Quote.scan_of _ _).cons c
        · split
          · exact (Quote.scan_of _ _).cons c
          · split
            · exact (scanPragma_of _).cons c
            · split
              · exact (scanLineComment_of _).cons c
              · cases h : scanBlockComment? c cs with
                | none => exact scanSymbol_of c cs
                | some s => exact scanBlockComment?_of h

end StructuredText
