/-!
# Colours

A palette wraps text in the escape sequences of a terminal, or leaves it as it is. The text itself is never changed.
-/

namespace StructuredText

/-- What a text is to look like. -/
inductive Style where
  | success | warning | error | accent | dim
deriving DecidableEq

namespace Style

/-- The number of the escape sequence that begins the style. -/
def opening : Style → Nat
  | success => 32
  | warning => 33
  | error => 31
  | accent => 36
  | dim => 2

/-- The number of the escape sequence that ends the style. -/
def closing : Style → Nat
  | dim => 0
  | _ => 39

end Style

/-- The escape sequence with this number. -/
def escapeSequence (number : Nat) : String := "\x1b[" ++ toString number ++ "m"

/-- Colours text or not. -/
structure Palette where
  enabled : Bool
deriving DecidableEq

/-- The text in a style. -/
def Palette.paint (p : Palette) (style : Style) (text : String) : String :=
  if p.enabled then escapeSequence style.opening ++ text ++ escapeSequence style.closing else text

end StructuredText
