import StructuredText.Parse
import StructuredText.Proofs.Spared

/-!
# The nodes of a tree

A node is any part of a tree that carries a span, with the names and numbers in it. Its children are the nodes directly
below it, in the order in which they are written (`Node.children`), and what lies inside it are its children, their
children and so on, with the node itself (`Node.Inside`). A property holds of all nodes inside a node just if it holds
of the node and of all nodes inside its children (`Node.every_iff`).

Two properties of a node say how trees look: `Node.WellShaped` is about the nodes directly below it, and `Node.Nested`
about its span and theirs. A unit that another one cuts off behind its first word is not nested
(`ProgramUnit.CutOff`): it ends with that word, and its missing name stands behind it.
-/

namespace StructuredText

/-- A part of a tree with a span. -/
inductive Node where
  | name (name : Name)
  /-- The type name in front of the `#` of a literal. -/
  | typeName (name : Name)
  | literal (literal : Literal)
  | selector (selector : Selector)
  | expr (expr : Expr)
  | arg (arg : Arg)
  | type (type : TypeRef)
  | stmt (stmt : Stmt)
  | branch (branch : ElsifBranch)
  | arm (arm : CaseArm)
  | initial (value : Initializer)
  | element (element : ArrayElement)
  | field (field : FieldInit)
  | bounds (bounds : ArrayBounds)
  | decl (decl : VarDecl)
  | block (block : VarBlock)
  | unit (unit : ProgramUnit)
  | source (file : SourceFile)
  | statements (list : StatementList)
  | initializer (source : InitializerSource)

namespace Node

/-- The span of the node. -/
def span : Node → Span
  | name n | typeName n => n.span
  | literal l => l.span
  | selector s => s.span
  | expr e => e.span
  | arg a => a.span
  | type t => t.span
  | stmt st => st.span
  | branch b => b.span
  | arm a => a.span
  | initial v => v.span
  | element e => e.span
  | field f => f.span
  | bounds b => b.span
  | decl d => d.span
  | block b => b.span
  | unit u => u.span
  | source f => f.span
  | statements l => l.span
  | initializer i => i.span

end Node

/-! ## Children -/

/-- The nodes directly below an expression. -/
def Expr.children : Expr → List Node
  | binary _ left right _ => [.expr left, .expr right]
  | unary _ operand _ => [.expr operand]
  | member receiver n _ => [.expr receiver, .name n]
  | part receiver _ selector _ => [.expr receiver, .selector selector]
  | partAt receiver _ i _ => [.expr receiver, .expr i]
  | index receiver indices _ => .expr receiver :: indices.map .expr
  | call callee args _ => .expr callee :: args.map .arg
  | name n => [.name n]
  | this _ | super _ => []
  | paren inner _ => [.expr inner]
  | literal l => [.literal l]

/-- The nodes directly below an argument. -/
def Arg.children : Arg → List Node
  | positional value => [.expr value]
  | input param value _ | output param _ value _ => [.name param, .expr value]

/-- The node directly below a type. -/
def TypeRef.children : TypeRef → List Node
  | elementary _ _ => []
  | named n => [.name n]
  | reference target _ => [.type target]

/-- The nodes directly below a statement. -/
def Stmt.children : Stmt → List Node
  | ifThen condition thenBody elsifs elseBody _ =>
    .expr condition :: (thenBody.map .stmt ++ elsifs.map .branch ++ (elseBody.getD []).map .stmt)
  | select selector arms elseBody _ => .expr selector :: (arms.map .arm ++ (elseBody.getD []).map .stmt)
  | forLoop var first last step body _ =>
    .name var :: .expr first :: .expr last :: (step.toList.map .expr ++ body.map .stmt)
  | whileLoop condition body _ => .expr condition :: body.map .stmt
  | repeatLoop body condition _ => body.map .stmt ++ [.expr condition]
  | assign target value _ => [.expr target, .expr value]
  | call callee _ => [.expr callee]
  | leave _ | next _ | exit _ | nop _ => []

/-- The nodes directly below an `ELSIF` branch. -/
def ElsifBranch.children : ElsifBranch → List Node
  | mk condition body _ => .expr condition :: body.map .stmt

/-- The nodes directly below an arm of a `CASE`. -/
def CaseArm.children : CaseArm → List Node
  | mk labels body _ => labels.map .expr ++ body.map .stmt

/-- The nodes directly below an initial value. -/
def Initializer.children : Initializer → List Node
  | value e => [.expr e]
  | array elements _ => elements.map .element
  | record fields _ => fields.map .field

/-- The nodes directly below an element of an array. -/
def ArrayElement.children : ArrayElement → List Node
  | single v => [.initial v]
  | repeated count values _ => .literal count :: values.map .initial

/-- The nodes directly below a field of a record. -/
def FieldInit.children : FieldInit → List Node
  | mk field v _ => [.name field, .initial v]

/-- The bounds of an array. -/
def ArrayShape.nodes : ArrayShape → List Node
  | bounded bounds => bounds.map .bounds
  | unbounded _ => []

/-- The nodes directly below a variable. -/
def VarDecl.children (d : VarDecl) : List Node :=
  .name d.name :: (d.location.toList.map .name ++ d.shape.toList.flatMap ArrayShape.nodes ++ [.type d.type] ++
    d.maxLength.toList.map .expr ++ d.initial.toList.map .initial)

/-- The name of a unit, and the type of a method. -/
def ProgramUnit.header : ProgramUnit → List Node
  | algorithm a => [.name a.name]
  | method m => .name m.name :: m.returnType.toList.map .type

namespace Node

/-- The nodes directly below a node, in the order in which they are written. In a unit these are its header, its blocks
and its statements; only a unit with errors has blocks behind statements. -/
def children : Node → List Node
  | name _ | typeName _ | selector _ => []
  | literal l => l.typeName.toList.map .typeName
  | expr e => e.children
  | arg a => a.children
  | type t => t.children
  | stmt st => st.children
  | branch b => b.children
  | arm a => a.children
  | initial v => v.children
  | element e => e.children
  | field f => f.children
  | bounds b => [.expr b.lower, .expr b.upper]
  | decl d => d.children
  | block b => b.decls.map .decl
  | unit u => u.header ++ u.body.blocks.map .block ++ u.body.statements.map .stmt
  | source f => f.units.map .unit
  | statements l => l.statements.map .stmt
  | initializer i => i.target.toList.map .name ++ [.initial i.value]

/-- The first node lies inside the second one, or is the second one. -/
inductive Inside (m : Node) : Node → Prop
  | refl : Inside m m
  | child {c n : Node} : c ∈ n.children → Inside m c → Inside m n

/-- The property holds of all nodes inside a node. -/
def Every (P : Node → Prop) (n : Node) : Prop := ∀ m, Inside m n → P m

theorem every_iff {P : Node → Prop} {n : Node} : n.Every P ↔ P n ∧ ∀ c ∈ n.children, c.Every P := by
  constructor
  · exact fun h => ⟨h n .refl, fun c hc m hm => h m (.child hc hm)⟩
  · rintro ⟨hn, hc⟩ m hm
    cases hm with
    | refl => exact hn
    | child hmem hm => exact hc _ hmem m hm

theorem Every.mono {P Q : Node → Prop} {n : Node} (h : n.Every P) (hPQ : ∀ m, P m → Q m) : n.Every Q :=
  fun m hm => hPQ m (h m hm)

end Node

/-- The node at the root of a tree. -/
def Tree.root : Tree → Node
  | source file => .source file
  | algorithm a => .unit (.algorithm a)
  | method m => .unit (.method m)
  | statements list => .statements list
  | expression e => .expr e
  | initializer i => .initializer i

/-! ## Shapes -/

namespace Expr

/-- No binary operator of a tier below the level stands at the top. -/
def AtLeast (level : Nat) : Expr → Prop
  | binary op _ _ _ => level ≤ op.tier.level
  | _ => True

/-- Unary, or a primary with its suffixes. -/
def IsOperand : Expr → Prop
  | binary _ _ _ _ => False
  | _ => True

/-- A primary with its suffixes. -/
def IsAccess : Expr → Prop
  | binary _ _ _ _ | unary _ _ _ => False
  | _ => True

/-- A range, such as `1..2`. -/
def IsRange : Expr → Prop
  | binary .range _ _ _ => True
  | _ => False

/-- The primary that the suffixes stand behind. -/
def base : Expr → Expr
  | member receiver _ _ => receiver.base
  | part receiver _ _ _ => receiver.base
  | partAt receiver _ _ _ => receiver.base
  | index receiver _ _ => receiver.base
  | call callee _ _ => callee.base
  | e => e

/-- A name, `THIS` or `SUPER`. -/
def IsRoot : Expr → Prop
  | name _ | this _ | super _ => True
  | _ => False

/-- A primary with its suffixes that begins with a name, `THIS` or `SUPER`. -/
def IsTarget (e : Expr) : Prop := e.IsAccess ∧ e.base.IsRoot

/-- Operators bind by their tiers and group from the left, and suffixes follow an access. -/
def WellShaped : Expr → Prop
  | binary op left right _ => left.AtLeast op.tier.level ∧ right.AtLeast (op.tier.level + 1)
  | unary _ operand _ => operand.IsOperand
  | member receiver _ _ => receiver.IsAccess
  | part receiver _ _ _ => receiver.IsAccess
  | partAt receiver _ _ _ => receiver.IsAccess
  | index receiver indices _ => receiver.IsAccess ∧ indices ≠ []
  | call callee _ _ => callee.isCallable = true
  | _ => True

theorem IsOperand.atLeast {e : Expr} (h : e.IsOperand) (level : Nat) : e.AtLeast level := by
  cases e <;> first | exact trivial | exact h.elim

theorem IsAccess.isOperand {e : Expr} (h : e.IsAccess) : e.IsOperand := by
  cases e <;> first | exact trivial | exact h.elim

theorem AtLeast.mono {e : Expr} {m n : Nat} (h : e.AtLeast m) (hle : n ≤ m) : e.AtLeast n := by
  cases e with
  | binary op left right span => exact Nat.le_trans hle h
  | _ => trivial

/-- A range stands in the loosest tier. -/
theorem AtLeast.not_isRange {e : Expr} (h : e.AtLeast 1) : ¬e.IsRange := by
  intro hrange
  cases e with
  | binary op left right span =>
    cases op with
    | range => exact Nat.not_succ_le_zero 0 h
    | _ => exact hrange
  | _ => exact hrange

end Expr

namespace Node

/-- What the grammar says of the nodes directly below a node: operators bind by their tiers, suffixes stand behind an
access, targets begin with a name, `THIS` or `SUPER`, bounds are no ranges, and lists that need an item have one. -/
def WellShaped : Node → Prop
  | expr e => e.WellShaped
  | stmt (.assign target _ _) => target.IsTarget
  | stmt (.call callee _) => callee.IsTarget
  | arm (.mk labels _ _) => labels ≠ []
  | initial (.array elements _) => elements ≠ []
  | initial (.record fields _) => fields ≠ []
  | bounds b => ¬b.lower.IsRange ∧ ¬b.upper.IsRange
  | decl d => ∀ shape ∈ d.shape, 0 < shape.dimensions
  | _ => True

/-! ## Spans -/

/-- The first node ends where the second one begins, or before. -/
def Before (m n : Node) : Prop := m.span.stop ≤ n.span.start

/-- The first node does not stick out of the second one. -/
def Within (m n : Node) : Prop := n.span.start ≤ m.span.start ∧ m.span.stop ≤ n.span.stop

/-- The rows of nodes directly below a node that stand in order. Blocks may stand between the statements of a unit. -/
def rows : Node → List (List Node)
  | unit u => [u.header ++ u.body.blocks.map .block, u.header ++ u.body.statements.map .stmt]
  | n => [n.children]

/-- The nodes directly below the node lie inside it, and those in a row stand in order. -/
structure Nested (n : Node) : Prop where
  within : ∀ c ∈ n.children, c.Within n
  before : ∀ row ∈ n.rows, row.Pairwise Before

end Node

/-- The unit is the word `w`, and `k` behind it opens another unit. Its missing name stands there. -/
inductive ProgramUnit.CutOff (tokens : List Lexeme) (u : ProgramUnit) : Prop
  | mk {w k : Lexeme} : [w, k] <:+: tokens → w.kind.opensUnit = true → k.kind.opensUnit = true → u.span = w.span →
      Node.children (.unit u) = [.name ⟨"", .empty k.span.start⟩] → CutOff tokens u

/-- The node is nested, or a unit that is cut off. -/
def Node.Fits (tokens : List Lexeme) (n : Node) : Prop := n.Nested ∨ ∃ u, n = .unit u ∧ u.CutOff tokens

theorem Node.Fits.mono {n : Node} {x y : List Lexeme} (h : n.Fits y) (hsub : y <:+ x) : n.Fits x := by
  rcases h with h | ⟨u, rfl, ⟨hadjacent, hw, hk, hspan, hchildren⟩⟩
  · exact .inl h
  · exact .inr ⟨u, rfl, hadjacent.trans hsub.isInfix, hw, hk, hspan, hchildren⟩

end StructuredText
