import StructuredText.Parser.Decl
import StructuredText.Proofs.Grammar.Expr
import StructuredText.Proofs.Grammar.Parts

/-!
# The grammar of declarations

Types, initial values, declarations and blocks of variables. As with expressions, `R a x y` means that the tokens `x`
begin with a spelling of `a`, and that the tokens `y` stand behind it.

What tells an initial value of a record from an expression in parentheses is the name and the `:=` behind the `(`, and
what tells a count with the values to repeat from an expression is the `(` behind the number: no expression is written
like that (`ExprPhrase.Spelled.not_namesParam`, `ExprPhrase.Spelled.not_called`).
-/

namespace StructuredText

/-! ## Types -/

/-- An elementary type, a name, or `REF_TO` and a type. -/
inductive TypeSpelled : TypeRef → List Lexeme → List Lexeme → Prop
  | elementary {type : ElementaryType} {t : Lexeme} {y : List Lexeme} :
      t.kind = .type type → TypeSpelled (.elementary type t.span) (t :: y) y
  | named {name : Name} {x y : List Lexeme} : QualifiedName name x y → TypeSpelled (.named name) x y
  | reference {target : TypeRef} {w : Lexeme} {x y : List Lexeme} :
      w.kind = .kwRefTo → TypeSpelled target x y →
      TypeSpelled (.reference target (spanBetween (w :: x) y)) (w :: x) y

/-- How many references stand in front of the type. -/
def TypeRef.nesting : TypeRef → Nat
  | .elementary _ _ => 0
  | .named _ => 0
  | .reference target _ => target.nesting + 1

/-! ## Initial values -/

/-- A phrase of an initial value. -/
inductive InitPhrase where
  | value (v : Initializer)
  /-- Values with commas between them. -/
  | values (vs : List Initializer)
  /-- An element of an array. -/
  | element (e : ArrayElement)
  /-- Elements with commas between them. -/
  | elements (es : List ArrayElement)
  /-- A field of a record. -/
  | field (f : FieldInit)
  /-- Fields with commas between them. -/
  | fields (fs : List FieldInit)

/-- The phrase is spelled by the tokens of the first row in front of the second one. -/
inductive InitPhrase.Spelled : InitPhrase → List Lexeme → List Lexeme → Prop
  -- Values
  | expr {e : Expr} {x y : List Lexeme} : (ExprPhrase.expr 0 e).Spelled x y → (value (.value e)).Spelled x y
  | array {es : List ArrayElement} {l r : Lexeme} {x y : List Lexeme} :
      l.kind = .lBracket → (elements es).Spelled x (r :: y) → r.kind = .rBracket →
      (value (.array es (spanBetween (l :: x) y))).Spelled (l :: x) y
  | record {fs : List FieldInit} {l r : Lexeme} {x y : List Lexeme} :
      l.kind = .lParen → (fields fs).Spelled x (r :: y) → r.kind = .rParen →
      (value (.record fs (spanBetween (l :: x) y))).Spelled (l :: x) y
  | lastValue {v : Initializer} {x y : List Lexeme} : (value v).Spelled x y → (values [v]).Spelled x y
  | moreValues {v : Initializer} {vs : List Initializer} {c : Lexeme} {x y z : List Lexeme} :
      (value v).Spelled x (c :: y) → c.kind = .comma → (values vs).Spelled y z → (values (v :: vs)).Spelled x z
  -- Elements
  | single {v : Initializer} {x y : List Lexeme} : (value v).Spelled x y → (element (.single v)).Spelled x y
  | repeatedNone {c l r : Lexeme} {y : List Lexeme} :
      c.kind = .intLiteral → l.kind = .lParen → r.kind = .rParen →
      (element (.repeated (.ofToken .integer c.name) [] (spanBetween (c :: l :: r :: y) y))).Spelled
        (c :: l :: r :: y) y
  | repeated {vs : List Initializer} {c l r : Lexeme} {x y : List Lexeme} :
      c.kind = .intLiteral → l.kind = .lParen → (values vs).Spelled x (r :: y) → r.kind = .rParen →
      (element (.repeated (.ofToken .integer c.name) vs (spanBetween (c :: l :: x) y))).Spelled (c :: l :: x) y
  | lastElement {e : ArrayElement} {x y : List Lexeme} : (element e).Spelled x y → (elements [e]).Spelled x y
  | moreElements {e : ArrayElement} {es : List ArrayElement} {c : Lexeme} {x y z : List Lexeme} :
      (element e).Spelled x (c :: y) → c.kind = .comma → (elements es).Spelled y z →
      (elements (e :: es)).Spelled x z
  -- Fields
  | field {v : Initializer} {n a : Lexeme} {x y : List Lexeme} :
      n.kind = .ident → a.kind = .assign → (value v).Spelled x y →
      (field (.mk n.name v (spanBetween (n :: a :: x) y))).Spelled (n :: a :: x) y
  | lastField {f : FieldInit} {x y : List Lexeme} : (InitPhrase.field f).Spelled x y → (fields [f]).Spelled x y
  | moreFields {f : FieldInit} {fs : List FieldInit} {c : Lexeme} {x y z : List Lexeme} :
      (InitPhrase.field f).Spelled x (c :: y) → c.kind = .comma → (fields fs).Spelled y z →
      (fields (f :: fs)).Spelled x z

mutual

/-- How deep arrays, records and the brackets of their expressions stand inside each other. -/
def Initializer.nesting : Initializer → Nat
  | .value e => e.nesting
  | .array elements _ => ArrayElement.nestingAll elements + 1
  | .record fields _ => FieldInit.nestingAll fields + 1

/-- The deepest nesting of the values. -/
def Initializer.nestingAll : List Initializer → Nat
  | [] => 0
  | v :: vs => max v.nesting (Initializer.nestingAll vs)

/-- The nesting of the element's values. -/
def ArrayElement.nesting : ArrayElement → Nat
  | .single v => v.nesting
  | .repeated _ vs _ => Initializer.nestingAll vs

/-- The deepest nesting of the elements. -/
def ArrayElement.nestingAll : List ArrayElement → Nat
  | [] => 0
  | e :: es => max e.nesting (ArrayElement.nestingAll es)

/-- The nesting of the field's value. -/
def FieldInit.nesting : FieldInit → Nat
  | .mk _ v _ => v.nesting

/-- The deepest nesting of the fields. -/
def FieldInit.nestingAll : List FieldInit → Nat
  | [] => 0
  | f :: fs => max f.nesting (FieldInit.nestingAll fs)

end

/-! ## Variables -/

/-- `lower..upper`, with no other `..` outside of brackets. -/
inductive BoundsSpelled : ArrayBounds → List Lexeme → List Lexeme → Prop
  | mk {lower upper : Expr} {d : Lexeme} {x x₁ y : List Lexeme} :
      (ExprPhrase.expr 1 lower).Spelled x (d :: x₁) → d.kind = .dotDot → (ExprPhrase.expr 1 upper).Spelled x₁ y →
      BoundsSpelled ⟨lower, upper, spanBetween x y⟩ x y

/-- One token of the kind `k`. -/
inductive OneToken (k : TokenKind) : Unit → List Lexeme → List Lexeme → Prop
  | mk {t : Lexeme} {y : List Lexeme} : t.kind = k → OneToken k ⟨⟩ (t :: y) y

/-- The dimensions of an array: bounds, or as many stars as dimensions. -/
inductive DimensionsSpelled : ArrayShape → List Lexeme → List Lexeme → Prop
  | bounded {bounds : List ArrayBounds} {x y : List Lexeme} :
      CommaList BoundsSpelled bounds x y → DimensionsSpelled (.bounded bounds) x y
  | unbounded {stars : List Unit} {x y : List Lexeme} :
      CommaList (OneToken .star) stars x y → DimensionsSpelled (.unbounded stars.length) x y

/-- `[dimensions] OF` -/
inductive ShapeSpelled : ArrayShape → List Lexeme → List Lexeme → Prop
  | mk {shape : ArrayShape} {l r o : Lexeme} {x y : List Lexeme} :
      l.kind = .lBracket → DimensionsSpelled shape x (r :: o :: y) → r.kind = .rBracket → o.kind = .kwOf →
      ShapeSpelled shape (l :: x) y

/-- An expression and the `]` behind it. -/
inductive LengthSpelled : Expr → List Lexeme → List Lexeme → Prop
  | mk {e : Expr} {r : Lexeme} {x y : List Lexeme} :
      (ExprPhrase.expr 0 e).Spelled x (r :: y) → r.kind = .rBracket → LengthSpelled e x y

/-- `name [AT location] : [ARRAY [..] OF] type [[length]] [:= value];` -/
inductive DeclSpelled : VarDecl → List Lexeme → List Lexeme → Prop
  | mk {location : Option Name} {shape : Option ArrayShape} {type : TypeRef} {maxLength : Option Expr}
      {initial : Option Initializer} {n c e : Lexeme} {x x₁ x₂ x₃ x₄ y : List Lexeme} :
      n.kind = .ident → Optionally QualifiedName .kwAt location x (c :: x₁) → c.kind = .colon →
      Optionally ShapeSpelled .kwArray shape x₁ x₂ → TypeSpelled type x₂ x₃ →
      Optionally LengthSpelled .lBracket maxLength x₃ x₄ →
      Optionally (fun v => (InitPhrase.value v).Spelled) .assign initial x₄ (e :: y) → e.kind = .semicolon →
      DeclSpelled ⟨n.name, location, shape, type, maxLength, initial, spanBetween (n :: x) y⟩ (n :: x) y

/-- `name [AT location] : [ARRAY [..] OF] type [[length]] [:= value]`, a declaration up to its `;`. -/
inductive DeclHeadSpelled (d : VarDecl) : List Lexeme → List Lexeme → Prop
  | mk {n c : Lexeme} {x x₁ x₂ x₃ x₄ y : List Lexeme} :
      n.kind = .ident → n.name = d.name → Optionally QualifiedName .kwAt d.location x (c :: x₁) → c.kind = .colon →
      Optionally ShapeSpelled .kwArray d.shape x₁ x₂ → TypeSpelled d.type x₂ x₃ →
      Optionally LengthSpelled .lBracket d.maxLength x₃ x₄ →
      Optionally (fun v => (InitPhrase.value v).Spelled) .assign d.initial x₄ y →
      DeclHeadSpelled d (n :: x) y

theorem DeclSpelled.exists_head {d : VarDecl} {x y : List Lexeme} (h : DeclSpelled d x y) :
    ∃ e, e.kind = .semicolon ∧ DeclHeadSpelled d x (e :: y) ∧ d.span = spanBetween x y := by
  cases h with
  | mk hn hlocation hc hshape htype hlength hinitial he =>
    exact ⟨_, he, .mk hn rfl hlocation hc hshape htype hlength hinitial, rfl⟩

theorem DeclHeadSpelled.spelled {d : VarDecl} {t : Lexeme} {x y : List Lexeme} (h : DeclHeadSpelled d x (t :: y))
    (ht : t.kind = .semicolon) (hspan : d.span = spanBetween x y) : DeclSpelled d x y := by
  obtain ⟨name, location, shape, type, length, initial, span⟩ := d
  obtain rfl : span = spanBetween x y := hspan
  cases h with
  | mk hn hname hlocation hc hshape htype hlength hinitial =>
    obtain rfl : _ = name := hname
    exact .mk hn hlocation hc hshape htype hlength hinitial ht

/-- The nesting of the bounds. -/
def ArrayBounds.nesting (b : ArrayBounds) : Nat := max b.lower.nesting b.upper.nesting

/-- The deepest nesting of the bounds. -/
def ArrayShape.nesting : ArrayShape → Nat
  | .bounded bounds => deepest ArrayBounds.nesting bounds
  | .unbounded _ => 0

/-- The deepest nesting of the parts. -/
def VarDecl.nesting (d : VarDecl) : Nat :=
  max (max (depthOf ArrayShape.nesting d.shape) d.type.nesting)
    (max (depthOf Expr.nesting d.maxLength) (depthOf Initializer.nesting d.initial))

/-! ## Blocks -/

/-- The word that opens a block of the kind. -/
def BlockKind.keyword : BlockKind → TokenKind
  | temp => .kwVarTemp
  | input => .kwVarInput
  | output => .kwVarOutput
  | inOut => .kwVarInOut

/-- `CONSTANT`, or nothing. -/
inductive ConstantSpelled : Bool → List Lexeme → List Lexeme → Prop
  | no {x : List Lexeme} : ConstantSpelled false x x
  | yes {w : Lexeme} {x : List Lexeme} : w.kind = .kwConstant → ConstantSpelled true (w :: x) x

/-- `VAR_… [CONSTANT] … END_VAR`, and only `VAR_TEMP` in an algorithm. -/
inductive BlockSpelled (unit : UnitKind) : VarBlock → List Lexeme → List Lexeme → Prop
  | mk {kind : BlockKind} {isConstant : Bool} {decls : List VarDecl} {w e : Lexeme} {x x₁ y : List Lexeme} :
      w.kind = kind.keyword → (unit = .algorithm → kind = .temp) → ConstantSpelled isConstant x x₁ →
      Row DeclSpelled decls x₁ (e :: y) → e.kind = .kwEndVar →
      BlockSpelled unit ⟨kind, isConstant, decls, spanBetween (w :: x) y⟩ (w :: x) y

/-- The deepest nesting of the declarations. -/
def VarBlock.nesting (b : VarBlock) : Nat := deepest VarDecl.nesting b.decls

/-! ## Lengths -/

section

variable {x y : List Lexeme}

theorem TypeSpelled.length_lt {type : TypeRef} (h : TypeSpelled type x y) : y.length < x.length := by
  induction h with
  | elementary _ => exact Nat.lt_succ_self _
  | named h => exact h.length_lt
  | reference _ _ ih => exact Nat.lt_succ_of_lt ih

/-- No initial value is spelled by nothing. -/
theorem InitPhrase.Spelled.length_lt {φ : InitPhrase} (h : φ.Spelled x y) : y.length < x.length := by
  induction h with
  | expr h => exact h.length_lt
  | lastValue _ ih | single _ ih | lastElement _ ih | lastField _ ih => exact ih
  | _ =>
    simp only [List.length_cons] at *
    omega

theorem BoundsSpelled.length_lt {b : ArrayBounds} (h : BoundsSpelled b x y) : y.length < x.length := by
  cases h with
  | mk hl _ hu =>
    have := hl.length_lt
    have := hu.length_lt
    simp only [List.length_cons] at *
    omega

theorem OneToken.length_lt {k : TokenKind} {u : Unit} (h : OneToken k u x y) : y.length < x.length := by
  cases h
  exact Nat.lt_succ_self _

theorem DimensionsSpelled.length_lt {shape : ArrayShape} (h : DimensionsSpelled shape x y) : y.length < x.length := by
  cases h with
  | bounded h => exact h.length_lt BoundsSpelled.length_lt
  | unbounded h => exact h.length_lt OneToken.length_lt

theorem ShapeSpelled.length_lt {shape : ArrayShape} (h : ShapeSpelled shape x y) : y.length < x.length := by
  cases h with
  | mk _ h _ _ =>
    have := h.length_lt
    simp only [List.length_cons] at *
    omega

theorem LengthSpelled.length_lt {e : Expr} (h : LengthSpelled e x y) : y.length < x.length := by
  cases h with
  | mk h _ =>
    have := h.length_lt
    rw [List.length_cons] at this
    omega

theorem DeclSpelled.length_lt {d : VarDecl} (h : DeclSpelled d x y) : y.length < x.length := by
  cases h with
  | mk _ h₁ _ h₂ h₃ h₄ h₅ _ =>
    have := h₁.length_le fun h => Nat.le_of_lt h.length_lt
    have := h₂.length_le fun h => Nat.le_of_lt h.length_lt
    have := h₃.length_lt
    have := h₄.length_le fun h => Nat.le_of_lt h.length_lt
    have := h₅.length_le fun h => Nat.le_of_lt h.length_lt
    simp only [List.length_cons] at *
    omega

theorem DeclHeadSpelled.length_lt {d : VarDecl} (h : DeclHeadSpelled d x y) : y.length < x.length := by
  cases h with
  | mk _ _ hlocation _ hshape htype hlength hinitial =>
    have := hlocation.length_le fun h => Nat.le_of_lt h.length_lt
    have := hshape.length_le fun h => Nat.le_of_lt h.length_lt
    have := htype.length_lt
    have := hlength.length_le fun h => Nat.le_of_lt h.length_lt
    have := hinitial.length_le fun h => Nat.le_of_lt h.length_lt
    simp only [List.length_cons] at *
    omega

theorem ConstantSpelled.length_le {isConstant : Bool} (h : ConstantSpelled isConstant x y) : y.length ≤ x.length := by
  cases h with
  | no => exact Nat.le_refl _
  | yes _ => exact Nat.le_succ _

theorem BlockSpelled.length_lt {unit : UnitKind} {b : VarBlock} (h : BlockSpelled unit b x y) :
    y.length < x.length := by
  cases h with
  | mk _ _ h₁ h₂ _ =>
    have := h₁.length_le
    have := h₂.length_le fun h => Nat.le_of_lt h.length_lt
    simp only [List.length_cons] at *
    omega

end

/-! ## First tokens -/

theorem BlockKind.isVarKeyword_keyword (kind : BlockKind) : kind.keyword.isVarKeyword = true := by cases kind <;> rfl

theorem BoundsSpelled.canStartExpr {b : ArrayBounds} {x y : List Lexeme} (h : BoundsSpelled b x y) :
    (headKind x).canStartExpr = true := by
  cases h with
  | mk h _ _ => exact h.canStartExpr

theorem TypeSpelled.headKind_ne {type : TypeRef} {x y : List Lexeme} (h : TypeSpelled type x y) :
    headKind x ≠ .kwArray := by
  cases h with
  | elementary h | reference h _ => rw [headKind_cons, h]; simp
  | named h => rw [h.headKind_eq]; decide

/-- A declaration begins with its name, and with `:` or `AT`. -/
theorem DeclHeadSpelled.cons_cons {d : VarDecl} {x y : List Lexeme} (h : DeclHeadSpelled d x y) :
    ∃ n c z, x = n :: c :: z ∧ n.kind = .ident ∧ (c.kind = .colon ∨ c.kind = .kwAt) := by
  cases h with
  | mk hn _ hlocation hc _ _ _ _ =>
    rcases hlocation.headKind_cases with rfl | hw
    · exact ⟨_, _, _, rfl, hn, .inl hc⟩
    · obtain ⟨w, z, rfl, hw⟩ := exists_of_headKind hw (by decide)
      exact ⟨_, _, _, rfl, hn, .inr hw⟩

theorem DeclSpelled.cons_cons {d : VarDecl} {x y : List Lexeme} (h : DeclSpelled d x y) :
    ∃ n c z, x = n :: c :: z ∧ n.kind = .ident ∧ (c.kind = .colon ∨ c.kind = .kwAt) := by
  obtain ⟨e, -, hhead, -⟩ := h.exists_head
  exact hhead.cons_cons

/-- Declarations up to the end of their block do not begin with `CONSTANT`. -/
theorem Row.headKind_ne {decls : List VarDecl} {e : Lexeme} {x y : List Lexeme}
    (h : Row DeclSpelled decls x (e :: y)) (he : e.kind = .kwEndVar) : headKind x ≠ .kwConstant := by
  cases h with
  | nil => rw [headKind_cons, he]; decide
  | cons h _ =>
    obtain ⟨n, c, z, rfl, hn, -⟩ := h.cons_cons
    rw [headKind_cons, hn]
    decide

theorem ne_lParen_of_op {k : TokenKind} {op : BinaryOp} (h : BinaryOp.ofToken? k = some op) : k ≠ .lParen := by
  rintro rfl
  cases h

/-- One expression, and one that can be called. -/
def ExprPhrase.isCallable : ExprPhrase → Bool
  | expr _ e | unary e | access e | primary e => e.isCallable
  | _ => false

/-- An integer that an expression begins with is not followed by `(`, unless the expression is over there, and then it
cannot be called. -/
theorem ExprPhrase.Spelled.not_called {φ : ExprPhrase} {x y z : List Lexeme} {t : Lexeme} (h : φ.Spelled z y)
    (hφ : φ.isExpr = true) (hz : z = t :: x) (ht : t.kind = .intLiteral) :
    x = y ∧ φ.isCallable = false ∨ headKind x ≠ .lParen := by
  induction h with
  | operand _ ih | access _ ih | primary _ ih => exact ih rfl hz
  | binary _ ho _ _ ihl _ =>
    rcases ihl rfl hz with ⟨rfl, -⟩ | h
    · exact .inr (ne_lParen_of_op ho)
    · exact .inr h
  | member _ hk _ ih | part _ hk _ ih | widePart _ hk _ _ ih | partAt _ hk _ _ _ _ ih _ | index _ hk _ _ ih _ =>
    rcases ih rfl hz with ⟨rfl, -⟩ | h
    · exact .inr (by rw [headKind_cons, hk]; decide)
    · exact .inr h
  | callEmpty _ hc _ _ ih | call _ hc _ _ _ ih _ =>
    rcases ih rfl hz with ⟨-, h⟩ | h
    · rw [isCallable, hc] at h
      cases h
    · exact .inr h
  | literal h =>
    subst hz
    cases h with
    | token _ _ => exact .inl ⟨rfl, rfl⟩
    | timeOfDay h => exact .inr (by rw [headKind_cons, h.colon]; decide)
    | typed hp _ _ | typedSigned hp _ _ _ =>
      rw [ht] at hp
      cases hp
  | name h =>
    have := h.headKind_eq
    rw [hz, headKind_cons, ht] at this
    cases this
  | unary ho _ _ =>
    cases hz
    rw [ht] at ho
    cases ho
  | this hk | super hk | paren hk _ _ _ | enumerated hk _ _ =>
    cases hz
    rw [ht] at hk
    cases hk
  | _ => cases hφ

end StructuredText
