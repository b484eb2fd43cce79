import StructuredText.Tree.Unit

/-!
# Outlines

An outline lists the nodes of a tree from the outside in and from left to right, one line for a node. A line begins
with a word for the node and its span; names that mean the same as a given one are marked.
-/

namespace StructuredText

/-- The line of a node: its words with blanks between them. -/
def outlineLine (words : List String) : String := " ".intercalate words

/-- A word that stands on a line only where it applies. -/
def outlineFlag (word : String) (applies : Bool) : List String := if applies then [word] else []

/-- The number of items as a word. -/
def outlineCount (items : List α) : String := toString items.length

variable (query : String)

/-- The line of a name. -/
def Name.outline (n : Name) : List String :=
  [outlineLine (["name", n.span.render, n.text] ++ outlineFlag "match" (n.means query))]

/-- The lines of a name that may be missing. -/
def Name.optionOutline : Option Name → List String
  | some n => n.outline query
  | none => []

/-- The lines of a type. -/
def TypeRef.outline (t : TypeRef) : List String :=
  outlineLine ["type", t.span.render, t.render] ::
    match t with
    | elementary type _ => [outlineLine ["builtin", type.label, type.spelling]]
    | named name => name.outline query
    | reference target _ => target.outline

/-- The lines of a literal. -/
def Literal.outline (l : Literal) : List String :=
  outlineLine ["literal", l.span.render, l.kind.label, (l.radix?.map toString).getD "-", l.render] ::
    Name.optionOutline query l.typeName

/-! ## Expressions -/

/-- The line of an expression itself. -/
def Expr.outlineHead (e : Expr) : String :=
  outlineLine (["expr", e.span.render] ++ outlineFlag "callable" e.isCallable ++ [e.render])

/-- The line of an argument itself. -/
def Arg.outlineHead (a : Arg) : String := outlineLine ["arg", a.span.render, a.render]

/-- The word for the width of a partial access. -/
def AccessWidth.optionSpelling (w : Option AccessWidth) : String := (w.map spelling).getD "-"

mutual

/-- The lines of an expression. -/
def Expr.outline : Expr → List String
  | .binary op left right span =>
    (Expr.binary op left right span).outlineHead ::
      outlineLine ["binary", op.label, op.spelling, op.tier.label] :: (left.outline ++ right.outline)
  | .unary op operand span =>
    (Expr.unary op operand span).outlineHead :: outlineLine ["unary", op.label, op.spelling] :: operand.outline
  | .member receiver name span =>
    (Expr.member receiver name span).outlineHead :: (receiver.outline ++ name.outline query)
  | .part receiver width selector span =>
    (Expr.part receiver width selector span).outlineHead ::
      (receiver.outline ++
        [outlineLine ["partial", AccessWidth.optionSpelling width, selector.span.render, selector.digits]])
  | .partAt receiver width index span =>
    (Expr.partAt receiver width index span).outlineHead ::
      (receiver.outline ++ outlineLine ["partial", width.spelling] :: index.outline)
  | .index receiver indices span =>
    (Expr.index receiver indices span).outlineHead ::
      (receiver.outline ++ outlineLine ["index", outlineCount indices] :: Expr.allOutline indices)
  | .call callee args span =>
    (Expr.call callee args span).outlineHead ::
      (callee.outline ++ outlineLine ["call", outlineCount args] :: Arg.allOutline args)
  | .name name => (Expr.name name).outlineHead :: name.outline query
  | .this span => [(Expr.this span).outlineHead]
  | .super span => [(Expr.super span).outlineHead]
  | .paren inner span => (Expr.paren inner span).outlineHead :: inner.outline
  | .literal literal => (Expr.literal literal).outlineHead :: literal.outline query

/-- The lines of each expression. -/
def Expr.allOutline : List Expr → List String
  | [] => []
  | e :: es => e.outline ++ Expr.allOutline es

/-- The lines of an argument. -/
def Arg.outline : Arg → List String
  | .positional value => (Arg.positional value).outlineHead :: value.outline
  | .input param value span => (Arg.input param value span).outlineHead :: (param.outline query ++ value.outline)
  | .output param negated value span =>
    (Arg.output param negated value span).outlineHead :: (param.outline query ++ value.outline)

/-- The lines of each argument. -/
def Arg.allOutline : List Arg → List String
  | [] => []
  | a :: as => a.outline ++ Arg.allOutline as

end

/-- The lines of an expression that may be missing. -/
def Expr.optionOutline : Option Expr → List String
  | some e => e.outline query
  | none => []

/-! ## Statements -/

mutual

/-- The lines of a statement. -/
def Stmt.outline : Stmt → List String
  | .ifThen condition thenBody elsifs elseBody span =>
    outlineLine ["if", span.render, outlineCount thenBody, outlineCount elsifs] ::
      (condition.outline query ++ Stmt.allOutline thenBody ++ ElsifBranch.allOutline elsifs ++
        Stmt.elseOutline elseBody)
  | .select selector arms elseBody span =>
    outlineLine ["case", span.render, outlineCount arms] ::
      (selector.outline query ++ CaseArm.allOutline arms ++ Stmt.elseOutline elseBody)
  | .forLoop var first last step body span =>
    outlineLine ["for", span.render, outlineCount body] ::
      (var.outline query ++ first.outline query ++ last.outline query ++ Expr.optionOutline query step ++
        Stmt.allOutline body)
  | .whileLoop condition body span =>
    outlineLine ["while", span.render, outlineCount body] :: (condition.outline query ++ Stmt.allOutline body)
  | .repeatLoop body condition span =>
    outlineLine ["repeat", span.render, outlineCount body] :: (Stmt.allOutline body ++ condition.outline query)
  | .assign target value span =>
    outlineLine ["assign", span.render] :: (target.outline query ++ value.outline query)
  | .call callee span => outlineLine ["callstmt", span.render] :: callee.outline query
  | .leave span => [outlineLine ["return", span.render]]
  | .next span => [outlineLine ["continue", span.render]]
  | .exit span => [outlineLine ["exit", span.render]]
  | .nop span => [outlineLine ["nop", span.render]]

/-- The lines of each statement. -/
def Stmt.allOutline : List Stmt → List String
  | [] => []
  | s :: ss => s.outline ++ Stmt.allOutline ss

/-- The lines of an `ELSE` branch that may be missing. -/
def Stmt.elseOutline : Option (List Stmt) → List String
  | none => []
  | some ss => outlineLine ["else", outlineCount ss] :: Stmt.allOutline ss

/-- The lines of an `ELSIF` branch. -/
def ElsifBranch.outline : ElsifBranch → List String
  | .mk condition body span =>
    outlineLine ["elsif", span.render, outlineCount body] :: (condition.outline query ++ Stmt.allOutline body)

/-- The lines of each `ELSIF` branch. -/
def ElsifBranch.allOutline : List ElsifBranch → List String
  | [] => []
  | b :: bs => b.outline ++ ElsifBranch.allOutline bs

/-- The lines of an arm of a `CASE`. -/
def CaseArm.outline : CaseArm → List String
  | .mk labels body span =>
    outlineLine ["arm", span.render, outlineCount labels, outlineCount body] ::
      (Expr.allOutline query labels ++ Stmt.allOutline body)

/-- The lines of each arm of a `CASE`. -/
def CaseArm.allOutline : List CaseArm → List String
  | [] => []
  | a :: as => a.outline ++ CaseArm.allOutline as

end

/-! ## Declarations -/

mutual

/-- The lines of an initial value. -/
def Initializer.outline : Initializer → List String
  | .value e => outlineLine ["init", e.span.render, "elementary"] :: e.outline query
  | .array elements span =>
    outlineLine ["init", span.render, "array", outlineCount elements] :: ArrayElement.allOutline elements
  | .record fields span =>
    outlineLine ["init", span.render, "struct", outlineCount fields] :: FieldInit.allOutline fields

/-- The lines of each initial value. -/
def Initializer.allOutline : List Initializer → List String
  | [] => []
  | v :: vs => v.outline ++ Initializer.allOutline vs

/-- The lines of an element of an array. -/
def ArrayElement.outline : ArrayElement → List String
  | .single v => outlineLine ["element", v.span.render, "value"] :: v.outline
  | .repeated count values span =>
    outlineLine ["element", span.render, "repeat", outlineCount values] ::
      (count.outline query ++ Initializer.allOutline values)

/-- The lines of each element of an array. -/
def ArrayElement.allOutline : List ArrayElement → List String
  | [] => []
  | e :: es => e.outline ++ ArrayElement.allOutline es

/-- The lines of a field of a record. -/
def FieldInit.outline : FieldInit → List String
  | .mk field value span => outlineLine ["field", span.render] :: (field.outline query ++ value.outline)

/-- The lines of each field of a record. -/
def FieldInit.allOutline : List FieldInit → List String
  | [] => []
  | f :: fs => f.outline ++ FieldInit.allOutline fs

end

/-- The lines of one dimension of an array. -/
def ArrayBounds.outline (b : ArrayBounds) : List String :=
  outlineLine ["dim", b.span.render] :: (b.lower.outline query ++ b.upper.outline query)

/-- The lines of the dimensions of an array. -/
def ArrayShape.outline (a : ArrayShape) : List String :=
  outlineLine ["array", toString a.dimensions] ::
    match a with
    | bounded bounds => bounds.flatMap (ArrayBounds.outline query)
    | unbounded _ => []

/-- The lines of a part under a line of its own, where the part is not missing. -/
def optionOutline (head : String) (lines : α → List String) : Option α → List String
  | some a => head :: lines a
  | none => []

/-- The lines of a variable. -/
def VarDecl.outline (v : VarDecl) : List String :=
  outlineLine ["var", v.span.render] ::
    (v.name.outline query ++ optionOutline "at" (Name.outline query) v.location ++
      (v.shape.map (ArrayShape.outline query)).getD [] ++ v.type.outline query ++
      optionOutline "length" (Expr.outline query) v.maxLength ++
      (v.initial.map (Initializer.outline query)).getD [])

/-- The lines of a variable block. -/
def VarBlock.outline (b : VarBlock) : List String :=
  outlineLine (["block", b.span.render, b.kind.spelling, outlineCount b.decls] ++
    outlineFlag "constant" b.isConstant) :: b.decls.flatMap (VarDecl.outline query)

/-! ## Units -/

/-- The lines of a body. -/
def Body.outline (b : Body) : List String :=
  outlineLine ["body", outlineCount b.blocks, outlineCount b.statements] ::
    (b.blocks.flatMap (VarBlock.outline query) ++ Stmt.allOutline query b.statements)

/-- The lines of an algorithm. -/
def Algorithm.outline (a : Algorithm) : List String :=
  outlineLine ["algorithm", a.span.render] :: (a.name.outline query ++ a.body.outline query)

/-- The lines of a method. -/
def Method.outline (m : Method) : List String :=
  outlineLine ["method", m.span.render] ::
    (m.name.outline query ++ (m.returnType.map (TypeRef.outline query)).getD [] ++ m.body.outline query)

/-- The lines of a unit. -/
def ProgramUnit.outline (u : ProgramUnit) : List String :=
  outlineLine ["unit", u.span.render, u.name.text, outlineCount u.body.statements] ::
    match u with
    | algorithm a => a.outline query
    | method m => m.outline query

/-- The lines of a source file. -/
def SourceFile.outline (f : SourceFile) : List String :=
  outlineLine ["source", f.span.render, outlineCount f.units] :: f.units.flatMap (ProgramUnit.outline query)

/-- The lines of statements that stand alone. -/
def StatementList.outline (l : StatementList) : List String :=
  outlineLine ["statements", l.span.render, outlineCount l.statements] :: Stmt.allOutline query l.statements

/-- The lines of an initial value that stands alone. -/
def InitializerSource.outline (i : InitializerSource) : List String :=
  outlineLine ["initializer", i.span.render] :: (Name.optionOutline query i.target ++ i.value.outline query)

end StructuredText
