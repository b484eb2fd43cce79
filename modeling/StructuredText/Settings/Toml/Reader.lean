/-!
# Reading a settings file by characters

A reader takes the front of a text, or fails. Blanks separate the parts of a line; a gap also has line breaks and
comments in it.
-/

namespace StructuredText.Toml

/-- Reads the front of a text and gives the text behind it. -/
abbrev Reader := StateT (List Char) Option

/-! ## Characters -/

/-- A blank inside a line. -/
def isSpace (c : Char) : Bool := c == ' ' || c == '\t'

/-- A character that may stand in a string or a comment: anything but control characters, of which only the tab may. -/
def isPlain (c : Char) : Bool := c == '\t' || (0x20 ≤ c.toNat && c.toNat != 0x7F)

/-- A character of a key without quotes. -/
def isKeyChar (c : Char) : Bool := c.isAlphanum || c == '_' || c == '-'

/-- The text begins with a line break. -/
def atBreak : List Char → Bool
  | '\n' :: _ => true
  | '\r' :: '\n' :: _ => true
  | _ => false

/-- The text behind blanks, line breaks and comments, unless a comment holds a control character. -/
def skipGap : (inComment : Bool) → List Char → Option (List Char)
  | _, [] => some []
  | inComment, c :: cs =>
    if c == '\n' then skipGap false cs
    else if c == '\r' && cs.head? == some '\n' then skipGap inComment cs
    else if inComment then if isPlain c then skipGap true cs else none
    else if c == '#' then skipGap true cs
    else if isSpace c then skipGap false cs
    else some (c :: cs)

/-! ## Readers -/

/-- Skips blanks. -/
def spaces : Reader Unit := modify (·.dropWhile isSpace)

/-- Skips blanks, line breaks and comments. -/
def gap : Reader Unit := fun cs => (skipGap false cs).map ((), ·)

/-- Reads this character. -/
def char (c : Char) : Reader Unit
  | d :: cs => if d == c then some ((), cs) else none
  | [] => none

/-- Reads one character of a class if it is there, and says whether it was. -/
def charOf (p : Char → Bool) : Reader Bool
  | c :: cs => if p c then some (true, cs) else some (false, c :: cs)
  | [] => some (false, [])

/-- Reads this character if it is there, and says whether it was. -/
def charIf (c : Char) : Reader Bool := charOf (· == c)

/-- Reads the characters of a class. -/
def run (p : Char → Bool) : Reader (List Char) := fun cs => some (cs.takeWhile p, cs.dropWhile p)

/-- The whole of a text can be read. -/
def reads (reader : Reader Unit) (cs : List Char) : Bool :=
  match reader cs with
  | some ((), []) => true
  | _ => false

end StructuredText.Toml
