import StructuredText.Text.Quoted
import StructuredText.Tree.Name

/-!
# Literals

A literal keeps its form and its value as text: digit separators are removed, a sign is kept, escapes of strings are
resolved, and the name of its type, where one is written before a `#`, is kept apart.
-/

namespace StructuredText

/-- The form of a literal. -/
inductive LiteralKind where
  | bool | integer | nonDecimal | real | string | wideString | duration | date | timeOfDay | dateAndTime
deriving DecidableEq, Inhabited

/-- The name of the form in listings. -/
def LiteralKind.label : LiteralKind → String
  | bool => "Bool" | integer => "Integer" | nonDecimal => "NonDecimal" | real => "Real"
  | string => "String" | wideString => "WideString"
  | duration => "Duration" | date => "Date" | timeOfDay => "TimeOfDay" | dateAndTime => "DateAndTime"

/-- A literal with its value and the span of the whole, type name included. -/
structure Literal where
  kind : LiteralKind
  typeName : Option Name
  value : String
  span : Span
deriving DecidableEq, Inhabited

namespace Literal

/-- The text without the signs in front. -/
def withoutSigns (cs : List Char) : List Char := cs.dropWhile fun c => c == '+' || c == '-'

/-- The number that decimal digits write. Numbers of more than 32 bits count as none. -/
def decimal? (cs : List Char) : Option Nat :=
  if cs.isEmpty || !cs.all Char.isDigit then none
  else
    let n := cs.foldl (fun n c => n * 10 + (c.toNat - 48)) 0
    if n < UInt32.size then some n else none

/-- The base of an integer: ten, or the number in front of the `#`. -/
def radix? (l : Literal) : Option Nat :=
  match l.kind with
  | .integer => some 10
  | .nonDecimal =>
    let digits := withoutSigns l.value.toList
    if digits.contains '#' then decimal? (digits.takeWhile (· != '#')) else none
  | _ => none

/-- The value in source form. -/
def renderValue (l : Literal) : String :=
  match l.kind with
  | .string => String.ofList (Quote.single.write l.value.toList)
  | .wideString => String.ofList (Quote.double.write l.value.toList)
  | _ => l.value

/-- The literal in source form. -/
def render (l : Literal) : String :=
  match l.typeName with
  | some name => name.text ++ "#" ++ l.renderValue
  | none => l.renderValue

end Literal

end StructuredText
