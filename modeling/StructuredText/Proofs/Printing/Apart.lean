import StructuredText.Proofs.Lexing.Endings
import StructuredText.Tree.Expr

/-!
# Expressions whose source form keeps its tokens apart

The source form of an expression puts the parts of an access directly one behind the other, and `..` directly between
its bounds. `Expr.apart` says that no token of the source form goes on with the point behind it: it fails just where a
part without a width follows something that ends with an integer (`x.1` and `.2`), where a point follows a time of day
that it spoils (`TOD#12:30:00` and `.x`), and where a name ends with `#`.
-/

namespace StructuredText

/-- The end of a name. -/
def Name.ending (n : Name) : Ending := nameEnding n.text.toList

/-- The end of the number that selects a part. -/
def Selector.ending (s : Selector) : Ending := numberEnding s.digits.toList

/-- The end of a literal. -/
def Literal.ending (l : Literal) : Ending :=
  match l.kind, l.typeName with
  | .integer, _ => numberEnding l.value.toList
  | .timeOfDay, none => if l.value.toList.contains '.' then .closed else numberEnding l.value.toList
  | .timeOfDay, some _ | .dateAndTime, _ => secondsEnding l.value.toList
  | _, _ => .closed

mutual

/-- In the source form, no token goes on with the point that stands behind it; `b` stands behind the expression. -/
def Expr.apart : Expr → (b : Behind) → Bool
  | .binary op left right _, b => left.apart (if op = .range then .point else .other) && right.apart b
  | .unary _ operand _, b => operand.apart b
  | .member receiver name _, b => receiver.apart .point && name.ending.allows b
  | .part receiver width selector _, b =>
    receiver.apart (if width.isNone then .fraction else .point) && selector.ending.allows b
  | .partAt receiver _ index _, _ => receiver.apart .point && index.apart .other
  | .index receiver indices _, _ => receiver.apart .other && Expr.apartAll indices
  | .call callee args _, _ => callee.apart .other && Arg.apartAll args
  | .name name, b => name.ending.allows b
  | .this _, _ => true
  | .super _, _ => true
  | .paren inner _, _ => inner.apart .other
  | .literal literal, b => literal.ending.allows b

/-- The same of expressions with commas between them. -/
def Expr.apartAll : List Expr → Bool
  | [] => true
  | e :: es => e.apart .other && Expr.apartAll es

/-- The same of an argument of a call. -/
def Arg.apart : Arg → Bool
  | .positional value => value.apart .other
  | .input param value _ => param.ending.allows .other && value.apart .other
  | .output param _ value _ => param.ending.allows .other && value.apart .other

/-- The same of arguments with commas between them. -/
def Arg.apartAll : List Arg → Bool
  | [] => true
  | a :: as => a.apart && Arg.apartAll as

end

end StructuredText
