import StructuredText.Proofs.Reads

/-!
# The grammar of expressions

`ExprPhrase.Spelled` says how expressions are written, apart from any way to read them: `φ.Spelled x y` means that the
tokens `x` begin with a spelling of the phrase `φ`, and that the tokens `y` stand behind it. Binary operators group
from the left and bind by their tiers; what stands behind a spelling matters only to the numbers that could be the
beginning of a time of day.

The spans in a tree are those of the tokens that spell its parts, and so belong to the phrases.
-/

namespace StructuredText

/-! ## Names -/

/-- `a`, `a::b` and so on, up to `y`. -/
inductive QualifiedName : Name → List Lexeme → List Lexeme → Prop
  | one {t : Lexeme} {y : List Lexeme} : t.kind = .ident → QualifiedName t.name (t :: y) y
  | more {name : Name} {c t : Lexeme} {x y : List Lexeme} :
      QualifiedName name x (c :: t :: y) → c.kind = .colonColon → t.kind = .ident →
      QualifiedName ⟨name.text ++ "::" ++ t.text, name.span.cover t.span⟩ x y

/-! ## Literals -/

/-- Five tokens without a gap that make a time of day: two numbers and a third one, with colons between them. -/
structure TimeOfDay (h c m d s : Lexeme) : Prop where
  hours : h.kind = .intLiteral
  colon : c.kind = .colon
  minutes : m.kind = .intLiteral
  colon' : d.kind = .colon
  seconds : s.kind = .intLiteral ∨ s.kind = .realLiteral
  touching : h.span.stop = c.span.start ∧ c.span.stop = m.span.start ∧ m.span.stop = d.span.start ∧
    d.span.stop = s.span.start

/-- The first five tokens make a time of day. -/
def StartsTimeOfDay (x : List Lexeme) : Prop := ∃ h c m d s y, x = h :: c :: m :: d :: s :: y ∧ TimeOfDay h c m d s

/-- The literal behind a type name, with its sign if there is one. -/
def Literal.typed (kind : LiteralKind) (prefix_ : Lexeme) (sign : String) (value : Lexeme) : Literal :=
  let typeName := withoutHash prefix_.text
  let nameSpan := ⟨prefix_.span.start, prefix_.span.start + Text.byteLength typeName.toList⟩
  ⟨kind, some ⟨typeName, nameSpan⟩, (Literal.ofToken kind value.name).signedValue sign, prefix_.span.cover value.span⟩

/-- A literal, up to `y`. Five tokens that make a time of day are always one literal. -/
inductive LiteralSpelled : Literal → List Lexeme → List Lexeme → Prop
  | token {kind : LiteralKind} {t : Lexeme} {y : List Lexeme} :
      LiteralKind.ofToken? t.kind = some kind → ¬StartsTimeOfDay (t :: y) →
      LiteralSpelled (.ofToken kind t.name) (t :: y) y
  | timeOfDay {h c m d s : Lexeme} {y : List Lexeme} : TimeOfDay h c m d s →
      LiteralSpelled ⟨.timeOfDay, none, h.text ++ c.text ++ m.text ++ d.text ++ s.text,
        spanBetween (h :: c :: m :: d :: s :: y) y⟩ (h :: c :: m :: d :: s :: y) y
  | typed {kind : LiteralKind} {p v : Lexeme} {y : List Lexeme} :
      p.kind = .typedLiteralPrefix → LiteralKind.ofToken? v.kind = some kind →
      LiteralFault.of? (withoutHash p.text) kind false = none →
      LiteralSpelled (.typed kind p "" v) (p :: v :: y) y
  | typedSigned {kind : LiteralKind} {p sign v : Lexeme} {y : List Lexeme} :
      p.kind = .typedLiteralPrefix → sign.kind = .minus ∨ sign.kind = .plus →
      LiteralKind.ofToken? v.kind = some kind → LiteralFault.of? (withoutHash p.text) kind true = none →
      LiteralSpelled (.typed kind p sign.text v) (p :: sign :: v :: y) y

/-! ## Expressions -/

/-- A phrase of an expression. -/
inductive ExprPhrase where
  /-- An expression without binary operators of the tiers below `level` outside of brackets. -/
  | expr (level : Nat) (e : Expr)
  /-- An expression without binary operators outside of brackets. -/
  | unary (e : Expr)
  /-- A primary and its suffixes. -/
  | access (e : Expr)
  /-- A primary. -/
  | primary (e : Expr)
  /-- Expressions with commas between them. -/
  | exprs (es : List Expr)
  /-- An argument of a call. -/
  | arg (a : Arg)
  /-- Arguments with commas between them. -/
  | args (as : List Arg)

/-- The phrase is spelled by the tokens of the first row in front of the second one. -/
inductive ExprPhrase.Spelled : ExprPhrase → List Lexeme → List Lexeme → Prop
  -- Binary operators
  | operand {level : Nat} {e : Expr} {x y : List Lexeme} : (unary e).Spelled x y → (expr level e).Spelled x y
  | binary {level : Nat} {op : BinaryOp} {left right : Expr} {o : Lexeme} {x y z : List Lexeme} :
      level ≤ op.tier.level → BinaryOp.ofToken? o.kind = some op →
      (expr op.tier.level left).Spelled x (o :: y) → (expr (op.tier.level + 1) right).Spelled y z →
      (expr level (.binary op left right (left.span.cover right.span))).Spelled x z
  -- Unary operators
  | access {e : Expr} {x y : List Lexeme} : (access e).Spelled x y → (unary e).Spelled x y
  | unary {op : UnaryOp} {e : Expr} {o : Lexeme} {x y : List Lexeme} :
      UnaryOp.ofToken? o.kind = some op → (unary e).Spelled x y →
      (unary (.unary op e (spanBetween (o :: x) y))).Spelled (o :: x) y
  -- Suffixes
  | primary {e : Expr} {x y : List Lexeme} : (primary e).Spelled x y → (ExprPhrase.access e).Spelled x y
  | member {e : Expr} {d n : Lexeme} {x y : List Lexeme} :
      (ExprPhrase.access e).Spelled x (d :: n :: y) → d.kind = .dot → n.kind = .ident →
      (ExprPhrase.access (.member e n.name (spanBetween x y))).Spelled x y
  | part {e : Expr} {d n : Lexeme} {x y : List Lexeme} :
      (ExprPhrase.access e).Spelled x (d :: n :: y) → d.kind = .dot → n.kind = .intLiteral →
      (ExprPhrase.access (.part e none (.ofToken n.name) (spanBetween x y))).Spelled x y
  | widePart {e : Expr} {width : AccessWidth} {d w n : Lexeme} {x y : List Lexeme} :
      (ExprPhrase.access e).Spelled x (d :: w :: n :: y) → d.kind = .dot → w.kind = .access width →
      n.kind = .intLiteral →
      (ExprPhrase.access (.part e (some width) (.ofToken n.name) (spanBetween x y))).Spelled x y
  | partAt {e index : Expr} {width : AccessWidth} {d w l r : Lexeme} {x y z : List Lexeme} :
      (ExprPhrase.access e).Spelled x (d :: w :: l :: y) → d.kind = .dot → w.kind = .access width →
      l.kind = .lParen → (expr 0 index).Spelled y (r :: z) → r.kind = .rParen →
      (ExprPhrase.access (.partAt e width index (spanBetween x z))).Spelled x z
  | index {e : Expr} {es : List Expr} {l r : Lexeme} {x y z : List Lexeme} :
      (ExprPhrase.access e).Spelled x (l :: y) → l.kind = .lBracket → (exprs es).Spelled y (r :: z) →
      r.kind = .rBracket → (ExprPhrase.access (.index e es (spanBetween x z))).Spelled x z
  | callEmpty {e : Expr} {l r : Lexeme} {x y : List Lexeme} :
      (ExprPhrase.access e).Spelled x (l :: r :: y) → e.isCallable = true → l.kind = .lParen → r.kind = .rParen →
      (ExprPhrase.access (.call e [] (spanBetween x y))).Spelled x y
  | call {e : Expr} {as : List Arg} {l r : Lexeme} {x y z : List Lexeme} :
      (ExprPhrase.access e).Spelled x (l :: y) → e.isCallable = true → l.kind = .lParen →
      (args as).Spelled y (r :: z) → r.kind = .rParen →
      (ExprPhrase.access (.call e as (spanBetween x z))).Spelled x z
  -- Primaries
  | name {name : Name} {x y : List Lexeme} : QualifiedName name x y → (ExprPhrase.primary (.name name)).Spelled x y
  | this {t : Lexeme} {y : List Lexeme} : t.kind = .kwThis → (ExprPhrase.primary (.this t.span)).Spelled (t :: y) y
  | super {t : Lexeme} {y : List Lexeme} : t.kind = .kwSuper → (ExprPhrase.primary (.super t.span)).Spelled (t :: y) y
  | paren {e : Expr} {l r : Lexeme} {x y : List Lexeme} :
      l.kind = .lParen → (expr 0 e).Spelled x (r :: y) → r.kind = .rParen →
      (ExprPhrase.primary (.paren e (spanBetween (l :: x) y))).Spelled (l :: x) y
  | enumerated {p n : Lexeme} {y : List Lexeme} :
      p.kind = .typedLiteralPrefix → LiteralType.ofName? (withoutHash p.text) = none → n.kind = .ident →
      (ExprPhrase.primary (.name ⟨p.text ++ n.text, p.span.cover n.span⟩)).Spelled (p :: n :: y) y
  | literal {l : Literal} {x y : List Lexeme} :
      LiteralSpelled l x y → (ExprPhrase.primary (.literal l)).Spelled x y
  -- Lists
  | lastExpr {e : Expr} {x y : List Lexeme} : (expr 0 e).Spelled x y → (exprs [e]).Spelled x y
  | moreExprs {e : Expr} {es : List Expr} {c : Lexeme} {x y z : List Lexeme} :
      (expr 0 e).Spelled x (c :: y) → c.kind = .comma → (exprs es).Spelled y z → (exprs (e :: es)).Spelled x z
  -- Arguments
  | positional {e : Expr} {x y : List Lexeme} : (expr 0 e).Spelled x y → (arg (.positional e)).Spelled x y
  | input {e : Expr} {p a : Lexeme} {x y : List Lexeme} :
      p.kind = .ident → a.kind = .assign → (expr 0 e).Spelled x y →
      (arg (.input p.name e (spanBetween (p :: a :: x) y))).Spelled (p :: a :: x) y
  | output {e : Expr} {p a : Lexeme} {x y : List Lexeme} :
      p.kind = .ident → a.kind = .arrow → (expr 0 e).Spelled x y →
      (arg (.output p.name false e (spanBetween (p :: a :: x) y))).Spelled (p :: a :: x) y
  | negatedOutput {e : Expr} {n p a : Lexeme} {x y : List Lexeme} :
      n.kind = .kwNot → p.kind = .ident → a.kind = .arrow → (expr 0 e).Spelled x y →
      (arg (.output p.name true e (spanBetween (n :: p :: a :: x) y))).Spelled (n :: p :: a :: x) y
  | lastArg {a : Arg} {x y : List Lexeme} : (arg a).Spelled x y → (args [a]).Spelled x y
  | moreArgs {a : Arg} {as : List Arg} {c : Lexeme} {x y z : List Lexeme} :
      (arg a).Spelled x (c :: y) → c.kind = .comma → (args as).Spelled y z → (args (a :: as)).Spelled x z

/-- An expression of a tier is one of every looser tier. -/
theorem ExprPhrase.Spelled.loosen {m n : Nat} {e : Expr} {x y : List Lexeme} (h : (expr m e).Spelled x y)
    (hle : n ≤ m) : (expr n e).Spelled x y := by
  cases h with
  | operand h => exact .operand h
  | binary hop ho hl hr => exact .binary (Nat.le_trans hle hop) ho hl hr

/-! ## Nesting -/

mutual

/-- How deep parentheses, unary operators, indices, arguments and indexed parts stand inside each other. -/
def Expr.nesting : Expr → Nat
  | .binary _ left right _ => max left.nesting right.nesting
  | .unary _ operand _ => operand.nesting + 1
  | .member receiver _ _ => receiver.nesting
  | .part receiver _ _ _ => receiver.nesting
  | .partAt receiver _ index _ => max receiver.nesting (index.nesting + 1)
  | .index receiver indices _ => max receiver.nesting (Expr.nestingAll indices + 1)
  | .call callee args _ => max callee.nesting (Arg.nestingAll args + 1)
  | .name _ => 0
  | .this _ => 0
  | .super _ => 0
  | .paren inner _ => inner.nesting + 1
  | .literal _ => 0

/-- The deepest nesting of the expressions. -/
def Expr.nestingAll : List Expr → Nat
  | [] => 0
  | e :: es => max e.nesting (Expr.nestingAll es)

/-- The nesting of the argument's value. -/
def Arg.nesting : Arg → Nat
  | .positional value => value.nesting
  | .input _ value _ => value.nesting
  | .output _ _ value _ => value.nesting

/-- The deepest nesting of the arguments. -/
def Arg.nestingAll : List Arg → Nat
  | [] => 0
  | a :: as => max a.nesting (Arg.nestingAll as)

end

/-! ## Lengths -/

theorem QualifiedName.length_lt {name : Name} {x y : List Lexeme} (h : QualifiedName name x y) :
    y.length < x.length := by
  induction h with
  | one _ => simp
  | more _ _ _ ih => simp at ih; omega

theorem LiteralSpelled.length_lt {l : Literal} {x y : List Lexeme} (h : LiteralSpelled l x y) :
    y.length < x.length := by
  cases h <;> simp <;> omega

/-- No phrase is spelled by nothing. -/
theorem ExprPhrase.Spelled.length_lt {φ : ExprPhrase} {x y : List Lexeme} (h : φ.Spelled x y) :
    y.length < x.length := by
  induction h with
  | name h => exact h.length_lt
  | literal h => exact h.length_lt
  | _ => simp_all <;> omega

/-! ## First tokens -/

theorem QualifiedName.headKind_eq {name : Name} {x y : List Lexeme} (h : QualifiedName name x y) :
    headKind x = .ident := by
  induction h with
  | one h => exact h
  | more _ _ _ ih => exact ih

theorem LiteralSpelled.headKind_cases {l : Literal} {x y : List Lexeme} (h : LiteralSpelled l x y) :
    (headKind x).isLiteral = true ∨ headKind x = .typedLiteralPrefix := by
  cases h with
  | token hk _ =>
    refine .inl ?_
    revert hk
    rw [headKind_cons]
    generalize Lexeme.kind _ = k
    cases k <;> simp [LiteralKind.ofToken?, TokenKind.isLiteral]
  | timeOfDay h => exact .inl (by rw [headKind_cons, h.hours]; rfl)
  | typed hp _ _ => exact .inr hp
  | typedSigned hp _ _ _ => exact .inr hp

theorem canStartExpr_of_ofToken? {k : TokenKind} {op : UnaryOp} (h : UnaryOp.ofToken? k = some op) :
    k.canStartExpr = true := by
  cases k <;> simp [UnaryOp.ofToken?] at h <;> rfl

/-- What a phrase is spelled by begins like an expression. -/
theorem ExprPhrase.Spelled.canStartExpr {φ : ExprPhrase} {x y : List Lexeme} (h : φ.Spelled x y) :
    (headKind x).canStartExpr = true := by
  induction h with
  | unary ho _ _ => exact canStartExpr_of_ofToken? ho
  | name h => rw [h.headKind_eq]; rfl
  | literal h =>
    rcases h.headKind_cases with hk | hk
    · simp [TokenKind.canStartExpr, hk]
    · rw [hk]; rfl
  | this hk | super hk | paren hk _ _ _ | enumerated hk _ _ | input hk _ _ _ | output hk _ _ _
  | negatedOutput hk _ _ _ _ => rw [headKind_cons, hk]; rfl
  | _ => assumption

/-- Neither a unary operator nor a parenthesis. -/
def TokenKind.opensNothing (k : TokenKind) : Bool := k != .lParen && (UnaryOp.ofToken? k).isNone

theorem TokenKind.opensNothing_of_isLiteral {k : TokenKind} (h : k.isLiteral = true) : k.opensNothing = true := by
  cases k <;> simp [isLiteral] at h <;> rfl

/-- A primary with its suffixes is no phrase that a unary operator begins. -/
def ExprPhrase.isAccess : ExprPhrase → Bool
  | access _ | primary _ => true
  | _ => false

theorem ExprPhrase.Spelled.ofToken?_eq_none {φ : ExprPhrase} {x y : List Lexeme} (h : φ.Spelled x y)
    (hφ : φ.isAccess = true) : UnaryOp.ofToken? (headKind x) = none := by
  induction h with
  | name h => rw [h.headKind_eq]; rfl
  | literal h =>
    rcases h.headKind_cases with hk | hk
    · have := TokenKind.opensNothing_of_isLiteral hk
      simp only [TokenKind.opensNothing, Bool.and_eq_true, Option.isNone_iff_eq_none] at this
      exact this.2
    · rw [hk]; rfl
  | this hk | super hk | paren hk _ _ _ | enumerated hk _ _ => rw [headKind_cons, hk]; rfl
  | primary _ ih => exact ih rfl
  | member _ _ _ ih | part _ _ _ ih | widePart _ _ _ _ ih | callEmpty _ _ _ _ ih => exact ih rfl
  | partAt _ _ _ _ _ _ ih _ | index _ _ _ _ ih _ | call _ _ _ _ _ ih _ => exact ih rfl
  | _ => cases hφ

/-- The kinds behind a name that tell it from the beginning of an expression. -/
def TokenKind.namesParam (k : TokenKind) : Bool := k == .assign || k == .arrow

/-- The tokens behind the unary operators and parentheses at the beginning. -/
def behindOpening (x : List Lexeme) : List Lexeme := x.dropWhile fun t => !t.kind.opensNothing

theorem behindOpening_of_opens {t : Lexeme} {x : List Lexeme} (h : t.kind.opensNothing = false) :
    behindOpening (t :: x) = behindOpening x := by
  simp [behindOpening, h]

theorem behindOpening_of_opensNothing {t : Lexeme} {x : List Lexeme} (h : t.kind.opensNothing = true) :
    behindOpening (t :: x) = t :: x := by
  simp [behindOpening, h]

/-- One expression. -/
def ExprPhrase.isExpr : ExprPhrase → Bool
  | expr _ _ | unary _ | access _ | primary _ => true
  | _ => false

theorem QualifiedName.behindOpening {name : Name} {x y : List Lexeme} (h : QualifiedName name x y) :
    ∃ t x', x = t :: x' ∧ t.kind = .ident ∧ (x' = y ∨ headKind x' = .colonColon) := by
  induction h with
  | one h => exact ⟨_, _, rfl, h, .inl rfl⟩
  | more _ hc _ ih =>
    obtain ⟨t, x', rfl, ht, rfl | h⟩ := ih
    · exact ⟨t, _, rfl, ht, .inr hc⟩
    · exact ⟨t, x', rfl, ht, .inr h⟩

theorem namesParam_of_ofToken? {k : TokenKind} {op : BinaryOp} (h : BinaryOp.ofToken? k = some op) :
    k.namesParam = false := by
  cases k <;> simp [BinaryOp.ofToken?] at h <;> rfl

/-- A name that an expression opens with is not followed by `:=` or `=>`, unless the expression is over there. -/
theorem ExprPhrase.Spelled.not_namesParam {φ : ExprPhrase} {x y : List Lexeme} (h : φ.Spelled x y)
    (hφ : φ.isExpr = true) {t : Lexeme} {x' : List Lexeme} (hx : behindOpening x = t :: x') (ht : t.kind = .ident) :
    x' = y ∨ (headKind x').namesParam = false := by
  induction h generalizing t x' with
  | operand _ ih | access _ ih | primary _ ih => exact ih rfl hx ht
  | binary _ ho _ _ ihl _ =>
    rcases ihl rfl hx ht with rfl | h
    · exact .inr (namesParam_of_ofToken? ho)
    · exact .inr h
  | unary ho _ ih =>
    rw [behindOpening_of_opens (by simp [TokenKind.opensNothing, ho])] at hx
    exact ih rfl hx ht
  | member _ hk _ ih | part _ hk _ ih | widePart _ hk _ _ ih | callEmpty _ _ hk _ ih =>
    rcases ih rfl hx ht with rfl | h
    · exact .inr (by rw [headKind_cons, hk]; rfl)
    · exact .inr h
  | partAt _ hk _ _ _ _ ih _ | index _ hk _ _ ih _ | call _ _ hk _ _ ih _ =>
    rcases ih rfl hx ht with rfl | h
    · exact .inr (by rw [headKind_cons, hk]; rfl)
    · exact .inr h
  | name hname =>
    obtain ⟨u, z, rfl, hu, hz⟩ := hname.behindOpening
    rw [behindOpening_of_opensNothing (by rw [hu]; rfl)] at hx
    cases hx
    exact hz.imp id fun h => by rw [h]; rfl
  | paren hl _ hr ih =>
    rw [behindOpening_of_opens (by rw [hl]; rfl)] at hx
    rcases ih rfl hx ht with rfl | h
    · exact .inr (by rw [headKind_cons, hr]; rfl)
    · exact .inr h
  | this hk | super hk | enumerated hk _ _ =>
    rw [behindOpening_of_opensNothing (by rw [hk]; rfl)] at hx
    cases hx
    simp [hk] at ht
  | @literal _ x _ h =>
    cases x with
    | nil => simp [StructuredText.behindOpening] at hx
    | cons u z =>
      rcases h.headKind_cases with hk | hk
      · rw [behindOpening_of_opensNothing (TokenKind.opensNothing_of_isLiteral hk)] at hx
        cases hx
        rw [headKind_cons, ht] at hk
        cases hk
      · rw [behindOpening_of_opensNothing (by rw [headKind_cons] at hk; rw [hk]; rfl)] at hx
        cases hx
        rw [headKind_cons, ht] at hk
        cases hk
  | _ => cases hφ

end StructuredText
