import StructuredText.Tree.Encoding
import StructuredText.Tree.Outline

/-!
# Trees

What a text can be read as: a source file, a single unit, statements, an expression or an initial value.
-/

namespace StructuredText

/-- A tree of any of the six constructs. -/
inductive Tree where
  | source (file : SourceFile)
  | algorithm (algorithm : Algorithm)
  | method (method : Method)
  | statements (list : StatementList)
  | expression (expr : Expr)
  | initializer (source : InitializerSource)

namespace Tree

/-- The tree as JSON. -/
def toJson : Tree → Json
  | source file => file.toJson
  | algorithm a => a.toJson
  | method m => m.toJson
  | statements list => list.toJson
  | expression e => e.toJson
  | initializer i => i.toJson

/-- The lines of the tree's outline. -/
def outline (query : String) : Tree → List String
  | source file => file.outline query
  | algorithm a => a.outline query
  | method m => m.outline query
  | statements list => list.outline query
  | expression e => e.outline query
  | initializer i => i.outline query

end Tree

end StructuredText
