import StructuredText.Settings.Toml
import StructuredText.Text.Quoted

/-!
# Numbers of a settings file

An integer is written in base ten, or without a sign in base two, eight or sixteen. A float has a fraction, an exponent
or both, or is one of the words `inf` and `nan`. Underscores part digits into groups.

A word can have the form of an integer and still be no number: the digits behind a base may be missing, and in base ten
only the first group and the characters beside underscores are looked at. Such a word is a value that no setting takes.
-/

namespace StructuredText.Toml

/-- The text without a sign in front. -/
def withoutSign : List Char → List Char
  | '+' :: cs => cs
  | '-' :: cs => cs
  | cs => cs

/-- Every underscore stands between two digits, or between a sign at the beginning and a digit. -/
def isGrouped (isDigit : Char → Bool) : List Char → Bool
  | [] => true
  | c :: cs => c != '_' && between (c == '+' || c == '-' || isDigit c) cs
where
  /-- The same behind a character that an underscore may follow or not. -/
  between (joins : Bool) : List Char → Bool
    | [] => true
    | c :: cs => (c != '_' || (joins && cs.head?.any isDigit)) && between (isDigit c) cs

/-! ## Integers -/

/-- The number that digits write in a base. -/
def valueIn (base : Nat) (digits : List Char) : Nat := digits.foldl (fun n c => n * base + Text.hexDigitValue c) 0

/-- The value of digits in a base. -/
def inBase? (base : Nat) (isDigit : Char → Bool) (cs : List Char) : Option Toml :=
  let digits := cs.filter (· != '_')
  if digits.all isDigit && isGrouped isDigit cs then
    some (if digits.isEmpty then .other else .int (valueIn base digits))
  else none

/-- The value of an integer in base ten. Only zero begins with a zero. -/
def decimal? (word : List Char) : Option Toml :=
  let body := withoutSign word
  let groups := body.dropWhile Char.isDigit
  if body.isEmpty || (body.head? == some '0' && body.length != 1) then none
  else if !groups.isEmpty && (groups.head? != some '_' || groups.any isFloatMark) then none
  else if isGrouped isHexDigit word then
    let digits := body.filter (· != '_')
    let n : Int := valueIn 10 digits
    some (if !digits.all Char.isDigit then .other else .int (if word.head? == some '-' then -n else n))
  else none
where
  /-- A character that makes a number a float. -/
  isFloatMark (c : Char) : Bool := c == '.' || c == 'e' || c == 'E'

/-- The value of a word that has the form of an integer. -/
def integer? : List Char → Option Toml
  | '0' :: 'x' :: cs => inBase? 16 isHexDigit cs
  | '0' :: 'o' :: cs => inBase? 8 (fun c => '0' ≤ c && c ≤ '7') cs
  | '0' :: 'b' :: cs => inBase? 2 (fun c => c == '0' || c == '1') cs
  | cs => decimal? cs

/-! ## Floats -/

/-- A digit or an underscore. -/
def isNumeral (c : Char) : Bool := c.isDigit || c == '_'

/-- The text is digits and underscores, at least one of them a digit. -/
def isNumerals (cs : List Char) : Bool := cs.all isNumeral && cs.any Char.isDigit

/-- The text is an exponent. -/
def isExponent : List Char → Bool
  | c :: cs => (c == 'e' || c == 'E') && isNumerals (withoutSign cs)
  | [] => false

/-- The text is a fraction, an exponent, or a fraction with an exponent. -/
def isFraction : List Char → Bool
  | '.' :: cs =>
    let rest := cs.dropWhile isNumeral
    isNumerals (cs.takeWhile isNumeral) && (rest.isEmpty || isExponent rest)
  | cs => isExponent cs

/-- The text is a float in digits without its sign. If it begins with a zero, its whole part is zero. -/
def isDecimalFloat (cs : List Char) : Bool :=
  let whole := cs.takeWhile isNumeral
  isNumerals whole && (cs.head? != some '0' || whole.length == 1) && isFraction (cs.dropWhile isNumeral)

/-- The word is a float. -/
def isFloat (word : List Char) : Bool :=
  let cs := withoutSign word
  cs == ['i', 'n', 'f'] || cs == ['n', 'a', 'n'] || (isDecimalFloat cs && isGrouped Char.isDigit word)

end StructuredText.Toml
