import StructuredText.Span
import StructuredText.Text.Case
import StructuredText.Token.Elementary

/-!
# Names and types

A name is kept as it is written, possibly qualified (`pkg::Name`), and is not looked up. A type is an elementary type,
a name, or a reference to a type.
-/

namespace StructuredText

/-- A name as written, with its span. -/
structure Name where
  text : String
  span : Span
deriving DecidableEq, Inhabited

/-- The name means the same as `other`: they differ at most in the case of ASCII letters. -/
def Name.means (n : Name) (other : String) : Bool := Text.sameLetters n.text other

/-- A type as it is referred to. -/
inductive TypeRef where
  | elementary (type : ElementaryType) (span : Span)
  | named (name : Name)
  /-- `REF_TO target` -/
  | reference (target : TypeRef) (span : Span)
deriving DecidableEq, Inhabited

namespace TypeRef

/-- The span of the whole type. -/
def span : TypeRef → Span
  | elementary _ s => s
  | named name => name.span
  | reference _ s => s

/-- The type in source form. -/
def render : TypeRef → String
  | elementary type _ => type.spelling
  | named name => name.text
  | reference target _ => "REF_TO " ++ target.render

end TypeRef

end StructuredText
