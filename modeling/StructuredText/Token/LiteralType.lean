import StructuredText.Token.Elementary
import StructuredText.Text.Case

/-!
# Types named before a `#`

A name and a `#` in front of a literal announce its type, as in `INT#5` or `T#1h`. The name is that of an elementary
type or one of the short names of durations and dates; what it announces is the form of the value after it.
-/

namespace StructuredText

/-- The form of literal that a type name announces. -/
inductive LiteralType where
  | bool | integer | real | string | wideString | duration | date | timeOfDay | dateAndTime
deriving DecidableEq

namespace LiteralType

/-- The form of the literals of an elementary type. -/
def ofType : ElementaryType → LiteralType
  | .bool => bool
  | .sInt | .int | .dInt | .lInt | .usInt | .uInt | .udInt | .ulInt | .byte | .word | .dWord | .lWord => integer
  | .real | .lReal => real
  | .string | .char => string
  | .wString | .wChar => wideString
  | .time | .lTime => duration
  | .date | .lDate => date
  | .timeOfDay | .lTimeOfDay => timeOfDay
  | .dateAndTime | .lDateAndTime => dateAndTime

/-- The names that announce a literal and are no reserved word. -/
def shortNames : List (String × LiteralType) := [("T", duration), ("LT", duration), ("D", date), ("LD", date)]

/-- What the name announces, in either case of its letters. -/
def ofName? (name : String) : Option LiteralType :=
  let name := Text.upperString name
  ((ElementaryType.ofSpelling? name).map ofType).or (shortNames.lookup name)

end LiteralType

end StructuredText
