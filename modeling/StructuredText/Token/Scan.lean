import StructuredText.Text.Quoted
import StructuredText.Token.Kind

/-!
# Scans

A scan is the outcome of reading one token at the front of a text: the kind of the token, its lexeme, and the text
behind it. Scanners build their lexeme from the characters they step over, so that a scan of `cs` satisfies
`s.lexeme ++ s.rest = cs` (`Scan.Of`).
-/

namespace StructuredText

/-- One token read at the front of a text. -/
structure Scan where
  kind : TokenKind
  lexeme : List Char
  rest : List Char
deriving DecidableEq

namespace Scan

/-- A token that ends before `rest`. -/
def stop (kind : TokenKind) (rest : List Char) : Scan := ⟨kind, [], rest⟩

/-- The scan with one more character in front. -/
def cons (c : Char) (s : Scan) : Scan := { s with lexeme := c :: s.lexeme }

/-- The scan with more characters in front. -/
def after (taken : List Char) (s : Scan) : Scan := { s with lexeme := taken ++ s.lexeme }

/-- The scan reads the front of `cs` and loses nothing. -/
def Of (s : Scan) (cs : List Char) : Prop := s.lexeme ++ s.rest = cs

@[simp] theorem stop_of (kind : TokenKind) (cs : List Char) : (stop kind cs).Of cs := rfl

theorem Of.cons {s : Scan} {cs : List Char} (h : s.Of cs) (c : Char) : (s.cons c).Of (c :: cs) := by
  simpa [Of, Scan.cons] using h

theorem Of.after {s : Scan} {cs : List Char} (h : s.Of cs) (taken : List Char) : (s.after taken).Of (taken ++ cs) := by
  simpa [Of, Scan.after] using h

end Scan

/-! ## Classes of characters -/

/-- The characters between tokens. -/
def isBlank (c : Char) : Bool := c == ' ' || c == '\t' || c == '\r' || c == '\n'

/-- The characters that end a line. -/
def isLineEnd (c : Char) : Bool := c == '\r' || c == '\n'

/-- The characters a word begins with: ASCII letters and `_`. -/
def isWordStart (c : Char) : Bool := c.isAlpha || c == '_'

/-- The characters of a word: ASCII letters, digits and `_`. -/
def isWordPart (c : Char) : Bool := c.isAlphanum || c == '_'

/-- The digits of base eight. -/
def isOctalDigit (c : Char) : Bool := '0' ≤ c && c ≤ '7'

/-- The digits of base two. -/
def isBinaryDigit (c : Char) : Bool := c == '0' || c == '1'

/-- The text begins with a character of the class. -/
def startsWith (p : Char → Bool) : List Char → Bool
  | [] => false
  | c :: _ => p c

end StructuredText
