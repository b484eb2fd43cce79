import StructuredText.Text.Hex

/-!
# Quoted strings

A string stands between single quotes and a wide string between double quotes. Inside, a `$` begins an escape: a letter
for a control character, a quote or `$` for itself, or the hexadecimal digits of a code, two of them in a string and
four in a wide one.
-/

namespace StructuredText

/-- The two kinds of quotes. -/
inductive Quote where
  | single | double
deriving DecidableEq

namespace Quote

/-- The quotation mark. -/
def mark : Quote → Char
  | single => '\x27'
  | double => '"'

/-- The number of hexadecimal digits of a character's code. -/
def codeDigits : Quote → Nat
  | single => 2
  | double => 4

end Quote

/-- The digits of base sixteen, in either case. -/
def isHexDigit (c : Char) : Bool := c.isDigit || ('a' ≤ c && c ≤ 'f') || ('A' ≤ c && c ≤ 'F')

/-- The characters without a printed form: U+0000 to U+001F and U+007F to U+009F. -/
def isControl (c : Char) : Bool := c.toNat < 0x20 || (0x7F ≤ c.toNat && c.toNat < 0xA0)

/-- The character with this code, or the replacement character where there is none. -/
def charOfCode (code : Nat) : Char := if code.isValidChar then Char.ofNat code else '\uFFFD'

namespace Quote

/-! ## Writing -/

/-- How one character is written between the quotes. -/
def escapeChar (q : Quote) (c : Char) : List Char :=
  if c == '$' then ['$', '$']
  else if c == '\n' then ['$', 'N']
  else if c == '\r' then ['$', 'R']
  else if c == '\t' then ['$', 'T']
  else if c == '\x0C' then ['$', 'P']
  else if c == q.mark then ['$', c]
  else if isControl c then '$' :: Text.fixedHex q.codeDigits c.toNat
  else [c]

/-- How a value is written between the quotes. -/
def escape (q : Quote) (value : List Char) : List Char := value.flatMap q.escapeChar

/-- The value in quotes. -/
def write (q : Quote) (value : List Char) : List Char := q.mark :: q.escape value ++ [q.mark]

/-! ## Reading -/

/-- What the text behind a `$` stands for, and how many of its characters say so. A code may have fewer digits than
usual; a `$` that begins no escape stands for itself. -/
def unescape (q : Quote) : List Char → List Char × Nat
  | [] => (['$'], 0)
  | c :: cs =>
    if c == 'L' || c == 'l' || c == 'N' || c == 'n' then (['\n'], 1)
    else if c == 'P' || c == 'p' then (['\x0C'], 1)
    else if c == 'R' || c == 'r' then (['\r'], 1)
    else if c == 'T' || c == 't' then (['\t'], 1)
    else if c == '$' || c == single.mark || c == double.mark then ([c], 1)
    else if isHexDigit c then
      let digits := (c :: cs).takeWhile isHexDigit |>.take q.codeDigits
      ([charOfCode (Text.hexValue digits)], digits.length)
    else (['$', c], 1)

/-- The value of the text between the quotes, whose first `skip` characters are part of an escape already read. -/
def valueFrom (q : Quote) : Nat → List Char → List Char
  | _, [] => []
  | skip + 1, _ :: cs => valueFrom q skip cs
  | 0, c :: cs =>
    if c == '$' then
      let escape := q.unescape cs
      escape.1 ++ valueFrom q escape.2 cs
    else c :: valueFrom q 0 cs

/-- The text without its first and last character, if both are one byte wide; else nothing. -/
def inner : List Char → List Char
  | [] => []
  | c :: cs =>
    match cs.getLast? with
    | some d => if c.utf8Size == 1 && d.utf8Size == 1 then cs.dropLast else []
    | none => []

/-- The value of a quoted text. -/
def read (q : Quote) (text : List Char) : List Char := q.valueFrom 0 (inner text)

end Quote

end StructuredText
