import Mathlib.Computability.Language
import StructuredText.Token.Lexer

/-!
# The languages of the kinds of tokens

`TokenKind.language` says which texts a kind of token is meant for, apart from how a text is scanned. The scanner keeps
to it but for `TokenKind.overrun`: some numbers and names are read on past the longest text of their language, and are
left as they are where what was hoped for does not come.
-/

namespace StructuredText

open Computability

/-! ## Patterns -/

/-- The characters of a class. -/
def oneOf (p : Char → Bool) : Language Char := {l | ∃ c, l = [c] ∧ p c = true}

/-- The text itself. -/
def exactly (s : String) : Language Char := {s.toList}

/-- The words, in either case of their letters. -/
def anyCase (words : List String) : Language Char := {l | String.ofList (Text.upper l) ∈ words}

/-- A text that may be missing. -/
def maybe (a : Language Char) : Language Char := 1 + a

/-- One or more characters of a class. -/
def many (p : Char → Bool) : Language Char := oneOf p * (oneOf p)∗

/-- Digits, with single underscores between digits. -/
def grouped (isDigit : Char → Bool) : Language Char := oneOf isDigit * (oneOf isDigit + exactly "_" * oneOf isDigit)∗

/-! ## Trivia -/

/-- What stands between the opener of a comment and the text behind its closer: comments of the same style, one inside
or behind the other, and characters at which neither an opener nor a closer stands. -/
inductive CommentStyle.Balanced (style : CommentStyle) : List Char → Prop
  | close : Balanced style ['*', style.right]
  | nested {a b : List Char} : Balanced style a → Balanced style b → Balanced style (style.left :: '*' :: (a ++ b))
  | char {c : Char} {a : List Char} : ¬[style.left, '*'] <+: c :: a → ¬['*', style.right] <+: c :: a →
      Balanced style a → Balanced style (c :: a)

/-- The comments of a style. -/
def CommentStyle.language (style : CommentStyle) : Language Char :=
  {l | ∃ body, l = style.left :: '*' :: body ∧ style.Balanced body}

/-! ## Literals -/

namespace Literals

/-- The sign and the digits of an exponent are read behind its mark. -/
def exponentMark : Language Char := oneOf (fun c => c == 'e' || c == 'E') * maybe (oneOf fun c => c == '+' || c == '-')

/-- The whole part of a real number, its point and the digits behind it. -/
def fixedPoint : Language Char := grouped Char.isDigit * exactly "." * grouped Char.isDigit

/-- A real number. -/
def real : Language Char := fixedPoint * maybe (exponentMark * grouped Char.isDigit)

/-- An integer behind its base. -/
def based : Language Char :=
  exactly "16#" * grouped isHexDigit + exactly "2#" * grouped isBinaryDigit + exactly "8#" * grouped isOctalDigit

/-- The units of durations. -/
def unitNames : List String := ["MS", "US", "NS", "D", "H", "M", "S"]

/-- A number with its unit. -/
def amount : Language Char :=
  many Char.isDigit * maybe (exactly "." * many Char.isDigit) * anyCase unitNames

/-- The type names of durations. -/
def durationNames : List String := ["T", "TIME", "LT", "LTIME"]

/-- A duration. -/
def duration : Language Char :=
  anyCase durationNames * exactly "#" *
    (maybe (oneOf fun c => c == '+' || c == '-') * (amount * (maybe (exactly "_") * amount)∗))

/-- So many digits. -/
def digits (n : Nat) : Language Char := oneOf Char.isDigit ^ n

/-- Year, month and day. -/
def date : Language Char := digits 4 * exactly "-" * digits 2 * exactly "-" * digits 2

/-- Hour, minute and second. -/
def clock : Language Char := digits 2 * exactly ":" * digits 2 * exactly ":" * digits 2

/-- A fraction of a second. -/
def secondsFraction : Language Char :=
  exactly "." * (oneOf Char.isDigit * (oneOf fun c => c.isDigit || c == '_')∗)

end Literals

/-- The type names of dates and times of day. -/
def Stamp.names : Stamp → List String
  | date => ["DATE", "D", "LDATE", "LD"]
  | timeOfDay => ["TOD", "TIME_OF_DAY", "LTOD", "LTIME_OF_DAY"]
  | dateAndTime => ["DT", "DATE_AND_TIME", "LDT", "LDATE_AND_TIME"]

/-- A date or a time of day without a fraction of a second. -/
def Stamp.value : Stamp → Language Char
  | date => Literals.date
  | timeOfDay => Literals.clock
  | dateAndTime => Literals.date * exactly "-" * Literals.clock

/-- A date or a time of day behind its type name. -/
def Stamp.language (stamp : Stamp) : Language Char :=
  anyCase stamp.names * exactly "#" *
    (stamp.value * if stamp.hasFraction then maybe Literals.secondsFraction else 1)

/-- What stands for a character of a string: the character, an escape, or a code. -/
def Quote.charLanguage (q : Quote) : Language Char :=
  oneOf (fun c => c != '$' && c != q.mark && !isLineEnd c) +
    exactly "$" * oneOf (fun c => c == q.mark || escapeLetters.contains c) +
    exactly "$" * oneOf isHexDigit ^ q.codeDigits

/-- A quoted string. -/
def Quote.language (q : Quote) : Language Char := oneOf (· == q.mark) * (q.charLanguage∗ * oneOf (· == q.mark))

/-- A name. -/
def word : Language Char := oneOf isWordStart * (oneOf isWordPart)∗

/-! ## Kinds -/

namespace TokenKind

/-- The texts a kind of token is meant for. -/
def language : TokenKind → Language Char
  | whitespace => many isBlank
  | lineComment => exactly "//" * (oneOf (!isLineEnd ·))∗
  | blockComment => CommentStyle.round.language + CommentStyle.slashed.language
  | pragma => oneOf (· == '\x7b') * ((oneOf (· != '\x7d'))∗ * oneOf (· == '\x7d'))
  | intLiteral => grouped Char.isDigit
  | nonDecimalLiteral => Literals.based
  | realLiteral => Literals.real
  | timeLiteral => Literals.duration
  | dateLiteral => Stamp.date.language
  | timeOfDayLiteral => Stamp.timeOfDay.language
  | dateAndTimeLiteral => Stamp.dateAndTime.language
  | stringLiteral => Quote.single.language
  | wideStringLiteral => Quote.double.language
  | typedLiteralPrefix => word * exactly "#"
  | ident => word
  | type t => anyCase (t.spelling :: t.shortSpelling?.toList)
  | error | eof => 0
  | kind => anyCase [kind.spelling]

/-- The texts that tokens of a kind are read as although they are none of its language.
* A base without a digit is an integer with the `#`.
* An underscore without a digit belongs to the digits of a base, of a fraction or of an exponent in front of it.
* An exponent mark and its sign without digits belong to the number in front of them, and so does a second one, now
  with digits or without.
* The type name of a duration, a date or a time and its `#` are a name if the value behind them breaks off, and a time
  of day is one if a point without a digit stands behind it. -/
def overrun : TokenKind → Language Char
  | intLiteral => exactly "2#" + exactly "8#" + exactly "16#"
  | nonDecimalLiteral => Literals.based * exactly "_"
  | realLiteral =>
    let exponent := Literals.exponentMark * grouped Char.isDigit
    let spoilt := exponent * exactly "_"
    Literals.fixedPoint *
      (exactly "_" * (1 + Literals.exponentMark + exponent + spoilt) +
        Literals.exponentMark * (1 + Literals.exponentMark + exponent + spoilt) + spoilt)
  | ident =>
    anyCase (Literals.durationNames ++ Stamp.date.names) * exactly "#" +
      anyCase Stamp.timeOfDay.names * exactly "#" * maybe Stamp.timeOfDay.value +
      anyCase Stamp.dateAndTime.names * exactly "#" * maybe Stamp.dateAndTime.value
  | _ => 0

end TokenKind

end StructuredText
