import StructuredText.Proofs.Grammar.Expr

/-!
# Expressions without their spans

Two expressions are the same up to spans if they are equal once all spans are taken out (`Expr.plain`). Then they have
the same source form (`Expr.render_eq_of_plain`) and are nested equally deep (`Expr.nesting_eq_of_plain`).
-/

namespace StructuredText

/-- The name without its span. -/
def Name.plain (n : Name) : Name := { n with span := default }

/-- The number without its span. -/
def Selector.plain (s : Selector) : Selector := { s with span := default }

/-- The literal without its spans. -/
def Literal.plain (l : Literal) : Literal := { l with typeName := l.typeName.map Name.plain, span := default }

mutual

/-- The expression without spans. -/
def Expr.plain : Expr → Expr
  | .binary op left right _ => .binary op left.plain right.plain default
  | .unary op operand _ => .unary op operand.plain default
  | .member receiver name _ => .member receiver.plain name.plain default
  | .part receiver width selector _ => .part receiver.plain width selector.plain default
  | .partAt receiver width index _ => .partAt receiver.plain width index.plain default
  | .index receiver indices _ => .index receiver.plain (Expr.plainAll indices) default
  | .call callee args _ => .call callee.plain (Arg.plainAll args) default
  | .name name => .name name.plain
  | .this _ => .this default
  | .super _ => .super default
  | .paren inner _ => .paren inner.plain default
  | .literal literal => .literal literal.plain

/-- The expressions without spans. -/
def Expr.plainAll : List Expr → List Expr
  | [] => []
  | e :: es => e.plain :: Expr.plainAll es

/-- The argument without spans. -/
def Arg.plain : Arg → Arg
  | .positional value => .positional value.plain
  | .input param value _ => .input param.plain value.plain default
  | .output param negated value _ => .output param.plain negated value.plain default

/-- The arguments without spans. -/
def Arg.plainAll : List Arg → List Arg
  | [] => []
  | a :: as => a.plain :: Arg.plainAll as

end

theorem Literal.render_plain (l : Literal) : l.plain.render = l.render := by
  obtain ⟨kind, typeName, value, span⟩ := l
  cases typeName <;> rfl

mutual

theorem Expr.render_plain : (e : Expr) → e.plain.render = e.render
  | .binary op left right _ => by rw [Expr.plain, Expr.render, Expr.render, left.render_plain, right.render_plain]
  | .unary op operand _ => by rw [Expr.plain, Expr.render, Expr.render, operand.render_plain]
  | .member receiver name _ => by rw [Expr.plain, Expr.render, Expr.render, receiver.render_plain, Name.plain]
  | .part receiver width selector _ => by
    rw [Expr.plain, Expr.render, Expr.render, receiver.render_plain, Selector.plain]
  | .partAt receiver width index _ => by
    rw [Expr.plain, Expr.render, Expr.render, receiver.render_plain, index.render_plain]
  | .index receiver indices _ => by
    rw [Expr.plain, Expr.render, Expr.render, receiver.render_plain, Expr.renderAll_plain]
  | .call callee args _ => by rw [Expr.plain, Expr.render, Expr.render, callee.render_plain, Arg.renderAll_plain]
  | .name name => by rw [Expr.plain, Expr.render, Expr.render, Name.plain]
  | .this _ => by rw [Expr.plain, Expr.render, Expr.render]
  | .super _ => by rw [Expr.plain, Expr.render, Expr.render]
  | .paren inner _ => by rw [Expr.plain, Expr.render, Expr.render, inner.render_plain]
  | .literal literal => by rw [Expr.plain, Expr.render, Expr.render, literal.render_plain]

theorem Expr.renderAll_plain : (es : List Expr) → Expr.renderAll (Expr.plainAll es) = Expr.renderAll es
  | [] => rfl
  | e :: es => by rw [Expr.plainAll, Expr.renderAll, Expr.renderAll, e.render_plain, Expr.renderAll_plain es]

theorem Arg.render_plain : (a : Arg) → a.plain.render = a.render
  | .positional value => by rw [Arg.plain, Arg.render, Arg.render, value.render_plain]
  | .input param value _ => by rw [Arg.plain, Arg.render, Arg.render, value.render_plain, Name.plain]
  | .output param negated value _ => by rw [Arg.plain, Arg.render, Arg.render, value.render_plain, Name.plain]

theorem Arg.renderAll_plain : (as : List Arg) → Arg.renderAll (Arg.plainAll as) = Arg.renderAll as
  | [] => rfl
  | a :: as => by rw [Arg.plainAll, Arg.renderAll, Arg.renderAll, a.render_plain, Arg.renderAll_plain as]

end

mutual

theorem Expr.nesting_plain : (e : Expr) → e.plain.nesting = e.nesting
  | .binary op left right _ => by rw [Expr.plain, Expr.nesting, Expr.nesting, left.nesting_plain, right.nesting_plain]
  | .unary op operand _ => by rw [Expr.plain, Expr.nesting, Expr.nesting, operand.nesting_plain]
  | .member receiver name _ => by rw [Expr.plain, Expr.nesting, Expr.nesting, receiver.nesting_plain]
  | .part receiver width selector _ => by rw [Expr.plain, Expr.nesting, Expr.nesting, receiver.nesting_plain]
  | .partAt receiver width index _ => by
    rw [Expr.plain, Expr.nesting, Expr.nesting, receiver.nesting_plain, index.nesting_plain]
  | .index receiver indices _ => by
    rw [Expr.plain, Expr.nesting, Expr.nesting, receiver.nesting_plain, Expr.nestingAll_plain]
  | .call callee args _ => by rw [Expr.plain, Expr.nesting, Expr.nesting, callee.nesting_plain, Arg.nestingAll_plain]
  | .name name => by rw [Expr.plain, Expr.nesting, Expr.nesting]
  | .this _ => by rw [Expr.plain, Expr.nesting, Expr.nesting]
  | .super _ => by rw [Expr.plain, Expr.nesting, Expr.nesting]
  | .paren inner _ => by rw [Expr.plain, Expr.nesting, Expr.nesting, inner.nesting_plain]
  | .literal literal => by rw [Expr.plain, Expr.nesting, Expr.nesting]

theorem Expr.nestingAll_plain : (es : List Expr) → Expr.nestingAll (Expr.plainAll es) = Expr.nestingAll es
  | [] => rfl
  | e :: es => by rw [Expr.plainAll, Expr.nestingAll, Expr.nestingAll, e.nesting_plain, Expr.nestingAll_plain es]

theorem Arg.nesting_plain : (a : Arg) → a.plain.nesting = a.nesting
  | .positional value => by rw [Arg.plain, Arg.nesting, Arg.nesting, value.nesting_plain]
  | .input param value _ => by rw [Arg.plain, Arg.nesting, Arg.nesting, value.nesting_plain]
  | .output param negated value _ => by rw [Arg.plain, Arg.nesting, Arg.nesting, value.nesting_plain]

theorem Arg.nestingAll_plain : (as : List Arg) → Arg.nestingAll (Arg.plainAll as) = Arg.nestingAll as
  | [] => rfl
  | a :: as => by rw [Arg.plainAll, Arg.nestingAll, Arg.nestingAll, a.nesting_plain, Arg.nestingAll_plain as]

end

namespace Expr

variable {e e' : Expr}

theorem isCallable_plain (e : Expr) : e.plain.isCallable = e.isCallable := by cases e <;> rfl

theorem render_eq_of_plain (h : e'.plain = e.plain) : e'.render = e.render := by
  rw [← e'.render_plain, h, e.render_plain]

theorem nesting_eq_of_plain (h : e'.plain = e.plain) : e'.nesting = e.nesting := by
  rw [← e'.nesting_plain, h, e.nesting_plain]

theorem isCallable_eq_of_plain (h : e'.plain = e.plain) : e'.isCallable = e.isCallable := by
  rw [← e'.isCallable_plain, h, e.isCallable_plain]

end Expr

end StructuredText
