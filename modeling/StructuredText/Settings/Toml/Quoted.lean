import StructuredText.Settings.Toml.Reader
import StructuredText.Text.Quoted

/-!
# Strings of a settings file

A string stands in single quotes, where every character is its own, or in double quotes, where a backslash begins an
escape. Between three quotes it may have several lines; its line breaks are kept as they are written.
-/

namespace StructuredText.Toml

/-! ## On one line -/

/-- The character that the text behind a backslash stands for, and how many characters say so. -/
def escape? : List Char → Option (Char × Nat)
  | 'b' :: _ => some ('\x08', 1)
  | 't' :: _ => some ('\t', 1)
  | 'n' :: _ => some ('\n', 1)
  | 'f' :: _ => some ('\x0C', 1)
  | 'r' :: _ => some ('\r', 1)
  | 'e' :: _ => some ('\x1B', 1)
  | '"' :: _ => some ('"', 1)
  | '\\' :: _ => some ('\\', 1)
  | 'x' :: cs => byCode? 2 cs
  | 'u' :: cs => byCode? 4 cs
  | 'U' :: cs => byCode? 8 cs
  | _ => none
where
  byCode? (width : Nat) (cs : List Char) : Option (Char × Nat) :=
    let digits := cs.take width
    let code := Text.hexValue digits
    if digits.length = width && digits.all isHexDigit && code.isValidChar then
      some (Char.ofNat code, width + 1)
    else none

/-- The value of a string behind its double quote, with the text behind the string. The first `skip` characters are part
of an escape already read. -/
def basicString? : (skip : Nat) → List Char → Option (List Char × List Char)
  | _, [] => none
  | skip + 1, _ :: cs => basicString? skip cs
  | 0, c :: cs =>
    if c == '"' then some ([], cs)
    else if c == '\\' then
      (escape? cs).bind fun (d, width) => (basicString? width cs).map fun (value, rest) => (d :: value, rest)
    else if isPlain c then (basicString? 0 cs).map fun (value, rest) => (c :: value, rest)
    else none

/-- The value of a string behind its single quote, where every character stands for itself. -/
def literalString? : List Char → Option (List Char × List Char)
  | [] => none
  | c :: cs =>
    if c == '\x27' then some ([], cs)
    else if isPlain c then (literalString? cs).map fun (value, rest) => (c :: value, rest)
    else none

/-! ## On several lines -/

/-- The text behind the line break at its beginning, if there is one. -/
def afterBreak : List Char → List Char
  | '\n' :: cs => cs
  | '\r' :: '\n' :: cs => cs
  | cs => cs

/-- How many blanks and line breaks the text begins with. -/
def blanks : List Char → Nat
  | [] => 0
  | c :: cs => if isSpace c || atBreak (c :: cs) then blanks cs + 1 else 0

/-- How many characters a backslash at the end of a line joins to it: blanks and line breaks up to the next other
character. None of them is joined if another character stands on the same line. -/
def joined (cs : List Char) : Nat := if atBreak (cs.dropWhile isSpace) then blanks cs else 0

/-- The value of a string on several lines behind its three quotes, with the text behind the string. It ends with three
quotes; up to two more in front of them belong to it. Between double quotes a backslash begins an escape or joins lines.
The first `skip` characters are part of an escape already read. -/
def multilineString? (quote : Char) : (skip : Nat) → List Char → Option (List Char × List Char)
  | _, [] => none
  | skip + 1, _ :: cs => multilineString? quote skip cs
  | 0, c :: cs =>
    let quotes := (cs.takeWhile (· == quote)).length
    if c == quote && 2 ≤ quotes then
      let own := min 2 (quotes - 2)
      some (List.replicate own quote, cs.drop (own + 2))
    else if c == '\\' && quote == '"' then
      if 0 < joined cs then multilineString? quote (joined cs) cs
      else (escape? cs).bind fun (d, width) =>
        (multilineString? quote width cs).map fun (value, rest) => (d :: value, rest)
    else if isPlain c || atBreak (c :: cs) then
      (multilineString? quote 0 cs).map fun (value, rest) => (c :: value, rest)
    else none

/-! ## Readers -/

/-- Reads a string on one line at its quote. -/
def quotedString : Reader String
  | '"' :: cs => (basicString? 0 cs).map fun (value, rest) => (String.ofList value, rest)
  | '\x27' :: cs => (literalString? cs).map fun (value, rest) => (String.ofList value, rest)
  | _ => none

/-- Reads a string at its quote or its three quotes. -/
def anyString : Reader String
  | '"' :: '"' :: '"' :: cs => multiline '"' cs
  | '\x27' :: '\x27' :: '\x27' :: cs => multiline '\x27' cs
  | cs => quotedString cs
where
  multiline (quote : Char) (cs : List Char) : Option (String × List Char) :=
    (multilineString? quote 0 (afterBreak cs)).map fun (value, rest) => (String.ofList value, rest)

/-- The text begins with a string. -/
def atString : Reader Bool := do return (← get).head? == some '"' || (← get).head? == some '\x27'

end StructuredText.Toml
