import StructuredText.Proofs.Printing.Plain
import StructuredText.Tree.Unit

/-!
# Trees without their spans

Two trees are the same up to spans if they are equal once all spans are taken out, as for expressions (`Expr.plain`).
-/

namespace StructuredText

/-! ## Types and initial values -/

/-- The type without spans. -/
def TypeRef.plain : TypeRef → TypeRef
  | elementary type _ => .elementary type default
  | named name => .named name.plain
  | reference target _ => .reference target.plain default

mutual

/-- The initial value without spans. -/
def Initializer.plain : Initializer → Initializer
  | .value e => .value e.plain
  | .array elements _ => .array (ArrayElement.plainAll elements) default
  | .record fields _ => .record (FieldInit.plainAll fields) default

/-- The initial values without spans. -/
def Initializer.plainAll : List Initializer → List Initializer
  | [] => []
  | v :: vs => v.plain :: Initializer.plainAll vs

/-- The element without spans. -/
def ArrayElement.plain : ArrayElement → ArrayElement
  | .single value => .single value.plain
  | .repeated count values _ => .repeated count.plain (Initializer.plainAll values) default

/-- The elements without spans. -/
def ArrayElement.plainAll : List ArrayElement → List ArrayElement
  | [] => []
  | e :: es => e.plain :: ArrayElement.plainAll es

/-- The field without spans. -/
def FieldInit.plain : FieldInit → FieldInit
  | .mk field value _ => .mk field.plain value.plain default

/-- The fields without spans. -/
def FieldInit.plainAll : List FieldInit → List FieldInit
  | [] => []
  | f :: fs => f.plain :: FieldInit.plainAll fs

end

/-! ## Variables -/

/-- The bounds without spans. -/
def ArrayBounds.plain (b : ArrayBounds) : ArrayBounds := ⟨b.lower.plain, b.upper.plain, default⟩

/-- The dimensions without spans. -/
def ArrayShape.plain : ArrayShape → ArrayShape
  | bounded bounds => .bounded (bounds.map ArrayBounds.plain)
  | unbounded count => .unbounded count

/-- The declaration without spans. -/
def VarDecl.plain (d : VarDecl) : VarDecl :=
  ⟨d.name.plain, d.location.map Name.plain, d.shape.map ArrayShape.plain, d.type.plain, d.maxLength.map Expr.plain,
    d.initial.map Initializer.plain, default⟩

/-- The block without spans. -/
def VarBlock.plain (b : VarBlock) : VarBlock := ⟨b.kind, b.isConstant, b.decls.map VarDecl.plain, default⟩

/-! ## Statements -/

mutual

/-- The statement without spans. -/
def Stmt.plain : Stmt → Stmt
  | .ifThen condition thenBody elsifs elseBody _ =>
    .ifThen condition.plain (Stmt.plainAll thenBody) (ElsifBranch.plainAll elsifs) (Stmt.plainElse elseBody) default
  | .select selector arms elseBody _ =>
    .select selector.plain (CaseArm.plainAll arms) (Stmt.plainElse elseBody) default
  | .forLoop var first last step body _ =>
    .forLoop var.plain first.plain last.plain (step.map Expr.plain) (Stmt.plainAll body) default
  | .whileLoop condition body _ => .whileLoop condition.plain (Stmt.plainAll body) default
  | .repeatLoop body condition _ => .repeatLoop (Stmt.plainAll body) condition.plain default
  | .assign target value _ => .assign target.plain value.plain default
  | .call callee _ => .call callee.plain default
  | .leave _ => .leave default
  | .next _ => .next default
  | .exit _ => .exit default
  | .nop _ => .nop default

/-- The statements without spans. -/
def Stmt.plainAll : List Stmt → List Stmt
  | [] => []
  | st :: sts => st.plain :: Stmt.plainAll sts

/-- The statements behind an `ELSE` without spans. -/
def Stmt.plainElse : Option (List Stmt) → Option (List Stmt)
  | none => none
  | some sts => some (Stmt.plainAll sts)

/-- The branch without spans. -/
def ElsifBranch.plain : ElsifBranch → ElsifBranch
  | .mk condition body _ => .mk condition.plain (Stmt.plainAll body) default

/-- The branches without spans. -/
def ElsifBranch.plainAll : List ElsifBranch → List ElsifBranch
  | [] => []
  | b :: bs => b.plain :: ElsifBranch.plainAll bs

/-- The arm without spans. -/
def CaseArm.plain : CaseArm → CaseArm
  | .mk labels body _ => .mk (labels.map Expr.plain) (Stmt.plainAll body) default

/-- The arms without spans. -/
def CaseArm.plainAll : List CaseArm → List CaseArm
  | [] => []
  | a :: as => a.plain :: CaseArm.plainAll as

end

theorem Stmt.plainAll_eq_map (sts : List Stmt) : Stmt.plainAll sts = sts.map Stmt.plain := by
  induction sts with
  | nil => rfl
  | cons st sts ih => rw [plainAll, ih, List.map_cons]

theorem Stmt.plainAll_append (sts sts' : List Stmt) :
    Stmt.plainAll (sts ++ sts') = Stmt.plainAll sts ++ Stmt.plainAll sts' := by
  rw [plainAll_eq_map, plainAll_eq_map, plainAll_eq_map, List.map_append]

/-! ## Units -/

/-- The body without spans. -/
def Body.plain (b : Body) : Body := ⟨b.blocks.map VarBlock.plain, Stmt.plainAll b.statements⟩

/-- The unit without spans. -/
def ProgramUnit.plain : ProgramUnit → ProgramUnit
  | algorithm a => .algorithm ⟨a.name.plain, a.body.plain, default⟩
  | method m => .method ⟨m.name.plain, m.returnType.map TypeRef.plain, m.body.plain, default⟩

/-- The file without spans. -/
def SourceFile.plain (f : SourceFile) : SourceFile := ⟨f.units.map ProgramUnit.plain, default⟩

/-- The statements without spans. -/
def StatementList.plain (l : StatementList) : StatementList := ⟨Stmt.plainAll l.statements, default⟩

end StructuredText
