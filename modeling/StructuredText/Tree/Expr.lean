import StructuredText.Tree.Literal
import StructuredText.Tree.Operator

/-!
# Expressions

Every expression carries its span. Parentheses are kept as nodes of their own, so that an expression in source form
needs no others.
-/

namespace StructuredText

/-- A number that selects a bit or a part of a bit string, without separators. -/
structure Selector where
  digits : String
  span : Span
deriving DecidableEq, Inhabited

mutual

/-- An expression. -/
inductive Expr where
  /-- `left op right` -/
  | binary (op : BinaryOp) (left right : Expr) (span : Span)
  /-- `op operand` -/
  | unary (op : UnaryOp) (operand : Expr) (span : Span)
  /-- `receiver.name` -/
  | member (receiver : Expr) (name : Name) (span : Span)
  /-- `receiver.%X3`, or `receiver.3` without a width -/
  | part (receiver : Expr) (width : Option AccessWidth) (selector : Selector) (span : Span)
  /-- `receiver.%X(index)` -/
  | partAt (receiver : Expr) (width : AccessWidth) (index : Expr) (span : Span)
  /-- `receiver[i, j]` -/
  | index (receiver : Expr) (indices : List Expr) (span : Span)
  /-- `callee(args)` -/
  | call (callee : Expr) (args : List Arg) (span : Span)
  /-- A variable, a constant or a function. -/
  | name (name : Name)
  /-- `THIS` -/
  | this (span : Span)
  /-- `SUPER` -/
  | super (span : Span)
  /-- `(inner)` -/
  | paren (inner : Expr) (span : Span)
  /-- A literal. -/
  | literal (literal : Literal)

/-- An argument of a call. -/
inductive Arg where
  /-- `value` -/
  | positional (value : Expr)
  /-- `param := value` -/
  | input (param : Name) (value : Expr) (span : Span)
  /-- `param => value`, or `NOT param => value` -/
  | output (param : Name) (negated : Bool) (value : Expr) (span : Span)

end

instance : Inhabited Expr := ⟨.this default⟩
instance : Inhabited Arg := ⟨.positional default⟩

namespace Expr

/-- The span of the whole expression. -/
def span : Expr → Span
  | binary _ _ _ s | unary _ _ s | member _ _ s | part _ _ _ s | partAt _ _ _ s | index _ _ s | call _ _ s => s
  | name n => n.span
  | this s | super s | paren _ s => s
  | literal l => l.span

/-- Arguments in parentheses may follow. -/
def isCallable : Expr → Bool
  | name _ | member _ _ _ | this _ | super _ => true
  | _ => false

end Expr

namespace Arg

/-- The value of the argument. -/
def value : Arg → Expr
  | positional v | input _ v _ | output _ _ v _ => v

/-- The span of the whole argument. -/
def span : Arg → Span
  | positional v => v.span
  | input _ _ s | output _ _ _ s => s

end Arg

/-! ## Source form -/

/-- What stands between a binary operator and its operands. -/
def BinaryOp.renderInfix (op : BinaryOp) : String :=
  if op = .range then op.spelling else " " ++ op.spelling ++ " "

/-- What stands in front of the operand of a unary operator. -/
def UnaryOp.renderFront (op : UnaryOp) : String := if op = .not then "NOT " else op.spelling

mutual

/-- The expression in source form. -/
def Expr.render : Expr → String
  | .binary op left right _ => left.render ++ op.renderInfix ++ right.render
  | .unary op operand _ => op.renderFront ++ operand.render
  | .member receiver name _ => receiver.render ++ "." ++ name.text
  | .part receiver width selector _ =>
    receiver.render ++ "." ++ (width.map AccessWidth.spelling).getD "" ++ selector.digits
  | .partAt receiver width index _ => receiver.render ++ "." ++ width.spelling ++ "(" ++ index.render ++ ")"
  | .index receiver indices _ => receiver.render ++ "[" ++ ", ".intercalate (Expr.renderAll indices) ++ "]"
  | .call callee args _ => callee.render ++ "(" ++ ", ".intercalate (Arg.renderAll args) ++ ")"
  | .name name => name.text
  | .this _ => "THIS"
  | .super _ => "SUPER"
  | .paren inner _ => "(" ++ inner.render ++ ")"
  | .literal literal => literal.render

/-- Each expression in source form. -/
def Expr.renderAll : List Expr → List String
  | [] => []
  | e :: es => e.render :: Expr.renderAll es

/-- The argument in source form. -/
def Arg.render : Arg → String
  | .positional value => value.render
  | .input param value _ => param.text ++ " := " ++ value.render
  | .output param negated value _ => (if negated then "NOT " else "") ++ param.text ++ " => " ++ value.render

/-- Each argument in source form. -/
def Arg.renderAll : List Arg → List String
  | [] => []
  | a :: as => a.render :: Arg.renderAll as

end

end StructuredText
