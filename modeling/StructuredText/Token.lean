import StructuredText.Span
import StructuredText.Text.Bytes
import StructuredText.Token.Kind

/-!
# Tokens

A token is a kind and the span of the text it was read from. Tokens need not come from the text they are used with: a
span that cuts no text out of it stands for the empty text.
-/

namespace StructuredText

/-- A token of a text. -/
structure Token where
  kind : TokenKind
  span : Span
deriving DecidableEq

/-- The part of a text that a span covers, or nothing where the span does not fit the text. -/
def Span.textIn (s : Span) (source : List Char) : String :=
  match Text.slice? source s.start s.stop with
  | some cs => String.ofList cs
  | none => ""

namespace Token

/-- The text of the token in its source. -/
def text (t : Token) (source : List Char) : String := t.span.textIn source

/-- The token moved `n` bytes to the right. -/
def shift (n : Nat) (t : Token) : Token := { t with span := t.span.shift n }

end Token

end StructuredText
