import StructuredText.Json.Value
import StructuredText.Tree.Unit

/-!
# Trees as JSON

A node is an object with its parts under their names. A node that comes in several kinds is an object with one field,
named for the kind, or just the name where the kind has no parts. A span is a list of its two offsets.
-/

namespace StructuredText

/-- A span as its two offsets. -/
def Span.toJson (s : Span) : Json := .arr [.num s.start, .num s.stop]

/-- A kind of node with its span beside it. -/
def Json.node (kind : Json) (span : Span) : Json := .obj [("kind", kind), ("range", span.toJson)]

/-- A name. -/
def Name.toJson (n : Name) : Json := .obj [("text", .str n.text), ("range", n.span.toJson)]

/-- A type. -/
def TypeRef.toJson : TypeRef → Json
  | elementary type span => .tagged "Builtin" <| .obj [("ty", .str type.label), ("range", span.toJson)]
  | named name => .tagged "Named" name.toJson
  | reference target span => .tagged "Reference" <| .obj [("target", target.toJson), ("range", span.toJson)]

/-- A literal. -/
def Literal.toJson (l : Literal) : Json :=
  .obj [("kind", .str l.kind.label), ("type_prefix", .ofOption Name.toJson l.typeName), ("value", .str l.value),
    ("range", l.span.toJson)]

/-- The number of a partial access. -/
def Selector.toJson (s : Selector) : Json := .obj [("value", .str s.digits), ("range", s.span.toJson)]

/-! ## Expressions -/

mutual

/-- An expression. -/
def Expr.toJson : Expr → Json
  | .binary op left right span =>
    .node (.tagged "Binary" <| .obj [("op", .str op.label), ("left", left.toJson), ("right", right.toJson)]) span
  | .unary op operand span =>
    .node (.tagged "Unary" <| .obj [("op", .str op.label), ("operand", operand.toJson)]) span
  | .member receiver name span =>
    .node (.tagged "Member" <| .obj [("receiver", receiver.toJson), ("member", name.toJson)]) span
  | .part receiver width selector span =>
    .node (.tagged "Partial" <| .obj [("receiver", receiver.toJson),
      ("specifier", .ofOption (fun w => .str w.label) width), ("index", .tagged "Constant" selector.toJson)]) span
  | .partAt receiver width index span =>
    .node (.tagged "Partial" <| .obj [("receiver", receiver.toJson), ("specifier", .str width.label),
      ("index", .tagged "Dynamic" index.toJson)]) span
  | .index receiver indices span =>
    .node (.tagged "Index" <| .obj [("receiver", receiver.toJson), ("indices", .arr (Expr.allToJson indices))]) span
  | .call callee args span =>
    .node (.tagged "Call" <| .obj [("callee", callee.toJson), ("args", .arr (Arg.allToJson args))]) span
  | .name name => .node (.tagged "Name" name.toJson) name.span
  | .this span => .node (.str "This") span
  | .super span => .node (.str "Super") span
  | .paren inner span => .node (.tagged "Paren" inner.toJson) span
  | .literal literal => .node (.tagged "Literal" literal.toJson) literal.span

/-- Each expression. -/
def Expr.allToJson : List Expr → List Json
  | [] => []
  | e :: es => e.toJson :: Expr.allToJson es

/-- An argument. -/
def Arg.toJson : Arg → Json
  | .positional value => .tagged "Positional" value.toJson
  | .input param value span =>
    .tagged "NamedInput" <| .obj [("param", param.toJson), ("value", value.toJson), ("range", span.toJson)]
  | .output param negated value span =>
    .tagged "NamedOutput" <| .obj [("param", param.toJson), ("negated", .bool negated), ("value", value.toJson),
      ("range", span.toJson)]

/-- Each argument. -/
def Arg.allToJson : List Arg → List Json
  | [] => []
  | a :: as => a.toJson :: Arg.allToJson as

end

/-! ## Statements -/

mutual

/-- A statement. -/
def Stmt.toJson : Stmt → Json
  | .ifThen condition thenBody elsifs elseBody span =>
    .node (.tagged "If" <| .obj [("condition", condition.toJson), ("then_branch", .arr (Stmt.allToJson thenBody)),
      ("elsif_branches", .arr (ElsifBranch.allToJson elsifs)), ("else_branch", Stmt.optionToJson elseBody)]) span
  | .select selector arms elseBody span =>
    .node (.tagged "Case" <| .obj [("selector", selector.toJson), ("arms", .arr (CaseArm.allToJson arms)),
      ("else_branch", Stmt.optionToJson elseBody)]) span
  | .forLoop var first last step body span =>
    .node (.tagged "For" <| .obj [("var", var.toJson), ("from", first.toJson), ("to", last.toJson),
      ("by", .ofOption Expr.toJson step), ("body", .arr (Stmt.allToJson body))]) span
  | .whileLoop condition body span =>
    .node (.tagged "While" <| .obj [("condition", condition.toJson), ("body", .arr (Stmt.allToJson body))]) span
  | .repeatLoop body condition span =>
    .node (.tagged "Repeat" <| .obj [("body", .arr (Stmt.allToJson body)), ("until", condition.toJson)]) span
  | .assign target value span =>
    .node (.tagged "Assignment" <| .obj [("left", target.toJson), ("right", value.toJson)]) span
  | .call callee span => .node (.tagged "Call" callee.toJson) span
  | .leave span => .node (.str "Return") span
  | .next span => .node (.str "Continue") span
  | .exit span => .node (.str "Exit") span
  | .nop span => .node (.str "Nop") span

/-- Each statement. -/
def Stmt.allToJson : List Stmt → List Json
  | [] => []
  | s :: ss => s.toJson :: Stmt.allToJson ss

/-- The statements of a branch that may be missing. -/
def Stmt.optionToJson : Option (List Stmt) → Json
  | none => .null
  | some ss => .arr (Stmt.allToJson ss)

/-- An `ELSIF` branch. -/
def ElsifBranch.toJson : ElsifBranch → Json
  | .mk condition body span =>
    .obj [("condition", condition.toJson), ("body", .arr (Stmt.allToJson body)), ("range", span.toJson)]

/-- Each `ELSIF` branch. -/
def ElsifBranch.allToJson : List ElsifBranch → List Json
  | [] => []
  | b :: bs => b.toJson :: ElsifBranch.allToJson bs

/-- An arm of a `CASE`. -/
def CaseArm.toJson : CaseArm → Json
  | .mk labels body span =>
    .obj [("labels", .arr (Expr.allToJson labels)), ("body", .arr (Stmt.allToJson body)), ("range", span.toJson)]

/-- Each arm of a `CASE`. -/
def CaseArm.allToJson : List CaseArm → List Json
  | [] => []
  | a :: as => a.toJson :: CaseArm.allToJson as

end

/-! ## Declarations -/

mutual

/-- An initial value. -/
def Initializer.toJson : Initializer → Json
  | .value e => .tagged "Elementary" e.toJson
  | .array elements span =>
    .tagged "Array" <| .obj [("elements", .arr (ArrayElement.allToJson elements)), ("range", span.toJson)]
  | .record fields span =>
    .tagged "Struct" <| .obj [("fields", .arr (FieldInit.allToJson fields)), ("range", span.toJson)]

/-- Each initial value. -/
def Initializer.allToJson : List Initializer → List Json
  | [] => []
  | v :: vs => v.toJson :: Initializer.allToJson vs

/-- An element of an array. -/
def ArrayElement.toJson : ArrayElement → Json
  | .single v => .tagged "Value" v.toJson
  | .repeated count values span =>
    .tagged "Repeat" <| .obj [("count", count.toJson), ("values", .arr (Initializer.allToJson values)),
      ("range", span.toJson)]

/-- Each element of an array. -/
def ArrayElement.allToJson : List ArrayElement → List Json
  | [] => []
  | e :: es => e.toJson :: ArrayElement.allToJson es

/-- A field of a record. -/
def FieldInit.toJson : FieldInit → Json
  | .mk field value span => .obj [("field", field.toJson), ("value", value.toJson), ("range", span.toJson)]

/-- Each field of a record. -/
def FieldInit.allToJson : List FieldInit → List Json
  | [] => []
  | f :: fs => f.toJson :: FieldInit.allToJson fs

end

/-- The bounds of one dimension. -/
def ArrayBounds.toJson (b : ArrayBounds) : Json :=
  .obj [("lower", b.lower.toJson), ("upper", b.upper.toJson), ("range", b.span.toJson)]

/-- The dimensions of an array. -/
def ArrayShape.toJson : ArrayShape → Json
  | bounded bounds => .tagged "Ranges" <| .arr (bounds.map ArrayBounds.toJson)
  | unbounded count => .tagged "Count" <| .num count

/-- A variable. -/
def VarDecl.toJson (v : VarDecl) : Json :=
  .obj [("name", v.name.toJson), ("located_at", .ofOption Name.toJson v.location),
    ("array_spec", .ofOption ArrayShape.toJson v.shape), ("type_ref", v.type.toJson),
    ("max_length", .ofOption Expr.toJson v.maxLength), ("default_value", .ofOption Initializer.toJson v.initial),
    ("range", v.span.toJson)]

/-- A variable block. -/
def VarBlock.toJson (b : VarBlock) : Json :=
  .obj [("kind", .str b.kind.label), ("is_constant", .bool b.isConstant),
    ("declarations", .arr (b.decls.map VarDecl.toJson)), ("range", b.span.toJson)]

/-! ## Units -/

/-- A body. -/
def Body.toJson (b : Body) : Json :=
  .obj [("declarations", .arr (b.blocks.map VarBlock.toJson)), ("statements", .arr (Stmt.allToJson b.statements))]

/-- An algorithm. -/
def Algorithm.toJson (a : Algorithm) : Json :=
  .obj [("name", a.name.toJson), ("body", a.body.toJson), ("range", a.span.toJson)]

/-- A method. -/
def Method.toJson (m : Method) : Json :=
  .obj [("name", m.name.toJson), ("return_type", .ofOption TypeRef.toJson m.returnType), ("body", m.body.toJson),
    ("range", m.span.toJson)]

/-- A unit. -/
def ProgramUnit.toJson : ProgramUnit → Json
  | algorithm a => .tagged "Algorithm" a.toJson
  | method m => .tagged "Method" m.toJson

/-- A source file. -/
def SourceFile.toJson (f : SourceFile) : Json :=
  .obj [("units", .arr (f.units.map ProgramUnit.toJson)), ("range", f.span.toJson)]

/-- A list of statements that stands alone. -/
def StatementList.toJson (l : StatementList) : Json :=
  .obj [("statements", .arr (Stmt.allToJson l.statements)), ("range", l.span.toJson)]

/-- An initial value that stands alone. -/
def InitializerSource.toJson (i : InitializerSource) : Json :=
  .obj [("target", .ofOption Name.toJson i.target), ("value", i.value.toJson), ("range", i.span.toJson)]

end StructuredText
