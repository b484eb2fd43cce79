import StructuredText.Tree.Expr

/-!
# Statements

A statement's span takes in its `;`, if it has one.
-/

namespace StructuredText

mutual

/-- A statement. -/
inductive Stmt where
  /-- `IF condition THEN … ELSIF … ELSE … END_IF` -/
  | ifThen (condition : Expr) (thenBody : List Stmt) (elsifs : List ElsifBranch) (elseBody : Option (List Stmt))
      (span : Span)
  /-- `CASE selector OF … ELSE … END_CASE` -/
  | select (selector : Expr) (arms : List CaseArm) (elseBody : Option (List Stmt)) (span : Span)
  /-- `FOR var := first TO last BY step DO … END_FOR` -/
  | forLoop (var : Name) (first last : Expr) (step : Option Expr) (body : List Stmt) (span : Span)
  /-- `WHILE condition DO … END_WHILE` -/
  | whileLoop (condition : Expr) (body : List Stmt) (span : Span)
  /-- `REPEAT … UNTIL condition END_REPEAT` -/
  | repeatLoop (body : List Stmt) (condition : Expr) (span : Span)
  /-- `target := value;` -/
  | assign (target value : Expr) (span : Span)
  /-- `callee;` -/
  | call (callee : Expr) (span : Span)
  /-- `RETURN;` -/
  | leave (span : Span)
  /-- `CONTINUE;` -/
  | next (span : Span)
  /-- `EXIT;` -/
  | exit (span : Span)
  /-- `;` -/
  | nop (span : Span)

/-- `ELSIF condition THEN …` -/
inductive ElsifBranch where
  | mk (condition : Expr) (body : List Stmt) (span : Span)

/-- `label, label: …` -/
inductive CaseArm where
  | mk (labels : List Expr) (body : List Stmt) (span : Span)

end

instance : Inhabited Stmt := ⟨.nop default⟩

/-- The span of the whole statement. -/
def Stmt.span : Stmt → Span
  | ifThen _ _ _ _ s | select _ _ _ s | forLoop _ _ _ _ _ s | whileLoop _ _ s | repeatLoop _ _ s
  | assign _ _ s | call _ s | leave s | next s | exit s | nop s => s

/-- The span of the whole branch. -/
def ElsifBranch.span : ElsifBranch → Span
  | mk _ _ s => s

/-- The span of the whole arm. -/
def CaseArm.span : CaseArm → Span
  | mk _ _ s => s

end StructuredText
