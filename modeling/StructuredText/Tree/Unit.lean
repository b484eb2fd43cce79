import StructuredText.Tree.Decl
import StructuredText.Tree.Stmt

/-!
# Units

A source file is a row of algorithms and methods. Statements and initial values also stand alone, as the roots of trees
of their own.
-/

namespace StructuredText

/-- Variable blocks and statements. -/
structure Body where
  blocks : List VarBlock
  statements : List Stmt
deriving Inhabited

/-- `ALGORITHM name … END_ALGORITHM` -/
structure Algorithm where
  name : Name
  body : Body
  span : Span
deriving Inhabited

/-- `METHOD name [: type] … END_METHOD` -/
structure Method where
  name : Name
  returnType : Option TypeRef
  body : Body
  span : Span
deriving Inhabited

/-- An algorithm or a method. -/
inductive ProgramUnit where
  | algorithm (algorithm : Algorithm)
  | method (method : Method)
deriving Inhabited

namespace ProgramUnit

/-- The name of the unit. -/
def name : ProgramUnit → Name
  | algorithm a => a.name
  | method m => m.name

/-- The body of the unit. -/
def body : ProgramUnit → Body
  | algorithm a => a.body
  | method m => m.body

/-- The span of the unit. -/
def span : ProgramUnit → Span
  | algorithm a => a.span
  | method m => m.span

end ProgramUnit

/-- The units of a file. -/
structure SourceFile where
  units : List ProgramUnit
  span : Span
deriving Inhabited

/-- A list of statements that stands alone. -/
structure StatementList where
  statements : List Stmt
  span : Span
deriving Inhabited

/-- `[name :=] value` that stands alone. -/
structure InitializerSource where
  target : Option Name
  value : Initializer
  span : Span
deriving Inhabited

end StructuredText
