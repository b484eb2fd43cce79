import StructuredText.Tree.Unit

/-!
# The statements and declarations of a tree

`SourceFile.placed` lists the statements of a file, those inside of other statements too, each with the place where it
stands. `SourceFile.decls` lists the declarations.
-/

namespace StructuredText

/-- Where a statement stands. -/
inductive Place where
  /-- In a list that is not the body of an arm. -/
  | list
  /-- In an arm of a `CASE`. -/
  | arm
  /-- At the end of an arm, with another arm behind it. -/
  | armEnd
deriving DecidableEq

namespace Place

/-- The statement is an element of an arm. -/
def inArm : Place → Bool
  | list => false
  | arm | armEnd => true

/-- The place of the statements in front of one. -/
def before : Place → Place
  | list => list
  | arm | armEnd => arm

end Place

namespace Stmt

/-- An assignment, a call, or a word and its `;`. -/
def isSimple : Stmt → Bool
  | assign _ _ _ | call _ _ | leave _ | next _ | exit _ => true
  | _ => false

/-- The statement is a call. -/
def isCall : Stmt → Bool
  | call _ _ => true
  | _ => false

end Stmt

mutual

/-- The statements inside of the statement. -/
def Stmt.inner : Stmt → List (Place × Stmt)
  | .ifThen _ thenBody elsifs elseBody _ =>
    Stmt.placed .list thenBody ++ (ElsifBranch.placed elsifs ++ Stmt.placedElse elseBody)
  | .select _ arms elseBody _ => CaseArm.placed arms ++ Stmt.placedElse elseBody
  | .forLoop _ _ _ _ body _ => Stmt.placed .list body
  | .whileLoop _ body _ => Stmt.placed .list body
  | .repeatLoop body _ _ => Stmt.placed .list body
  | .assign _ _ _ => []
  | .call _ _ => []
  | .leave _ => []
  | .next _ => []
  | .exit _ => []
  | .nop _ => []

/-- The statements of a list and those inside of them, where the last one of the list stands at the given place. -/
def Stmt.placed (last : Place) : List Stmt → List (Place × Stmt)
  | [] => []
  | st :: sts => (if sts.isEmpty then last else last.before, st) :: (st.inner ++ Stmt.placed last sts)

/-- The statements behind an `ELSE` and those inside of them. -/
def Stmt.placedElse : Option (List Stmt) → List (Place × Stmt)
  | none => []
  | some body => Stmt.placed .list body

/-- The statements of the branches. -/
def ElsifBranch.placed : List ElsifBranch → List (Place × Stmt)
  | [] => []
  | b :: bs => b.inner ++ ElsifBranch.placed bs

/-- The statements of the branch. -/
def ElsifBranch.inner : ElsifBranch → List (Place × Stmt)
  | .mk _ body _ => Stmt.placed .list body

/-- The statements of the arm, with or without another arm behind it. -/
def CaseArm.inner (followed : Bool) : CaseArm → List (Place × Stmt)
  | .mk _ body _ => Stmt.placed (if followed then .armEnd else .arm) body

/-- The statements of the arms. -/
def CaseArm.placed : List CaseArm → List (Place × Stmt)
  | [] => []
  | a :: as => a.inner (!as.isEmpty) ++ CaseArm.placed as

end

/-- The statements of the file. -/
def SourceFile.placed (file : SourceFile) : List (Place × Stmt) :=
  file.units.flatMap fun u => Stmt.placed .list u.body.statements

/-- The declarations of the file. -/
def SourceFile.decls (file : SourceFile) : List VarDecl :=
  file.units.flatMap fun u => u.body.blocks.flatMap VarBlock.decls

/-- The statements of the list. -/
def StatementList.placed (root : StatementList) : List (Place × Stmt) := Stmt.placed .list root.statements

end StructuredText
