import StructuredText.Proofs.Complete.Decl
import StructuredText.Proofs.Nesting.Expr
import StructuredText.Proofs.Nesting.Parts

/-!
# Declarations that nest too deeply

Types, initial values, declarations and blocks that go deeper than `n`, with their first construct inside `n` others. As
with expressions, there is such a construct where the nesting is greater than `n`, and the rules with `n` levels give up
there and report just that.
-/

namespace StructuredText

/-! ## Types -/

/-- Of the references of a type, the one inside `n` others. A reference begins at the type that it leads to. -/
inductive TypeExceeds : TypeRef → Nat → List Lexeme → Excess → Prop
  | reference {target : TypeRef} {span : Span} {w t : Lexeme} {x : List Lexeme} :
      w.kind = .kwRefTo → TypeExceeds (.reference target span) 0 (w :: t :: x) ⟨"type", t⟩
  | inReference {n : Nat} {target : TypeRef} {span : Span} {w : Lexeme} {x : List Lexeme} {f : Excess} :
      w.kind = .kwRefTo → TypeExceeds target n x f → TypeExceeds (.reference target span) (n + 1) (w :: x) f

section

variable {type : TypeRef} {n : Nat} {x y : List Lexeme} {f : Excess}

theorem TypeSpelled.exists_exceeds (h : TypeSpelled type x y) (hn : n < type.nesting) :
    ∃ f, TypeExceeds type n x f := by
  induction h generalizing n with
  | elementary _ | named _ => exact absurd hn (Nat.not_lt_zero n)
  | reference hw htarget ih =>
    cases n with
    | zero =>
      obtain ⟨t, z, rfl⟩ := List.exists_cons_of_length_pos (Nat.zero_lt_of_lt htarget.length_lt)
      exact ⟨_, .reference hw⟩
    | succ n =>
      obtain ⟨f, h⟩ := ih (Nat.lt_of_succ_lt_succ hn)
      exact ⟨f, .inReference hw h⟩

theorem TypeExceeds.headKind_eq (h : TypeExceeds type n x f) : headKind x = .kwRefTo := by
  cases h <;> assumption

/-- Where a type goes too deep, the rule gives up. -/
theorem TypeExceeds.fails (h : TypeExceeds type n x f) : Parser.Fails (Parser.typeRef n) x f := by
  induction h with
  | reference hw =>
    refine .kind ?_
    simp only [headKind_cons, hw]
    exact .offset fun _ => .skip Parser.Fails.here.bind
  | inReference hw _ ih =>
    refine .kind ?_
    simp only [headKind_cons, hw]
    exact .offset fun _ => .skip (.bind (.nested ih))

end

/-! ## Initial values -/

namespace InitPhrase

/-- The nesting of the phrase. -/
def nesting : InitPhrase → Nat
  | value v => v.nesting
  | values vs => Initializer.nestingAll vs
  | element e => e.nesting
  | elements es => ArrayElement.nestingAll es
  | field f => f.nesting
  | fields fs => FieldInit.nestingAll fs

/-- Of the constructs in the phrase that begins the tokens, the first one inside `n` others. -/
inductive Exceeds : InitPhrase → Nat → List Lexeme → Excess → Prop
  -- Values
  | expr {n : Nat} {e : Expr} {x y : List Lexeme} {f : Excess} :
      (ExprPhrase.expr 0 e).Spelled x y → (headKind y).endsValue = true → (ExprPhrase.expr 0 e).Exceeds n x f →
      (value (.value e)).Exceeds n x f
  | array {es : List ArrayElement} {span : Span} {l : Lexeme} {x : List Lexeme} :
      l.kind = .lBracket → (value (.array es span)).Exceeds 0 (l :: x) ⟨"initializer", l⟩
  | inArray {n : Nat} {es : List ArrayElement} {span : Span} {l : Lexeme} {x : List Lexeme} {f : Excess} :
      l.kind = .lBracket → (elements es).Exceeds n x f → (value (.array es span)).Exceeds (n + 1) (l :: x) f
  | record {fs : List FieldInit} {span : Span} {l p a : Lexeme} {x : List Lexeme} :
      l.kind = .lParen → p.kind = .ident → a.kind = .assign →
      (value (.record fs span)).Exceeds 0 (l :: p :: a :: x) ⟨"initializer", l⟩
  | inRecord {n : Nat} {fs : List FieldInit} {span : Span} {l : Lexeme} {x : List Lexeme} {f : Excess} :
      l.kind = .lParen → (fields fs).Exceeds n x f → (value (.record fs span)).Exceeds (n + 1) (l :: x) f
  | firstValue {n : Nat} {v : Initializer} {vs : List Initializer} {x : List Lexeme} {f : Excess} :
      (value v).Exceeds n x f → (values (v :: vs)).Exceeds n x f
  | laterValue {n : Nat} {v : Initializer} {vs : List Initializer} {c : Lexeme} {x y : List Lexeme} {f : Excess} :
      (value v).Spelled x (c :: y) → v.nesting ≤ n → c.kind = .comma → (values vs).Exceeds n y f →
      (values (v :: vs)).Exceeds n x f
  -- Elements
  | single {n : Nat} {v : Initializer} {x y : List Lexeme} {f : Excess} :
      (value v).Spelled x y → (headKind y).endsValue = true → (value v).Exceeds n x f →
      (element (.single v)).Exceeds n x f
  | repeated {n : Nat} {count : Literal} {vs : List Initializer} {span : Span} {c l : Lexeme} {x : List Lexeme}
      {f : Excess} :
      c.kind = .intLiteral → l.kind = .lParen → (values vs).Exceeds n x f →
      (element (.repeated count vs span)).Exceeds n (c :: l :: x) f
  | firstElement {n : Nat} {e : ArrayElement} {es : List ArrayElement} {x : List Lexeme} {f : Excess} :
      (element e).Exceeds n x f → (elements (e :: es)).Exceeds n x f
  | laterElement {n : Nat} {e : ArrayElement} {es : List ArrayElement} {c : Lexeme} {x y : List Lexeme} {f : Excess} :
      (element e).Spelled x (c :: y) → e.nesting ≤ n → c.kind = .comma → (elements es).Exceeds n y f →
      (elements (e :: es)).Exceeds n x f
  -- Fields
  | field {n : Nat} {name : Name} {v : Initializer} {span : Span} {p a : Lexeme} {x : List Lexeme} {f : Excess} :
      p.kind = .ident → a.kind = .assign → (value v).Exceeds n x f →
      (field (.mk name v span)).Exceeds n (p :: a :: x) f
  | firstField {n : Nat} {g : FieldInit} {gs : List FieldInit} {x : List Lexeme} {f : Excess} :
      (InitPhrase.field g).Exceeds n x f → (fields (g :: gs)).Exceeds n x f
  | laterField {n : Nat} {g : FieldInit} {gs : List FieldInit} {c : Lexeme} {x y : List Lexeme} {f : Excess} :
      (InitPhrase.field g).Spelled x (c :: y) → g.nesting ≤ n → c.kind = .comma → (fields gs).Exceeds n y f →
      (fields (g :: gs)).Exceeds n x f

variable {φ : InitPhrase} {n : Nat} {x y : List Lexeme} {f : Excess}

theorem Spelled.exists_exceeds (h : φ.Spelled x y) (hy : (headKind y).endsValue = true) (hn : n < φ.nesting) :
    ∃ f, φ.Exceeds n x f := by
  have hcomma {c : Lexeme} {z : List Lexeme} (hc : c.kind = .comma) : (headKind (c :: z)).endsValue = true := by
    rw [headKind_cons, hc]
    rfl
  induction h generalizing n with
  | expr he =>
    obtain ⟨f, h⟩ := he.exists_exceeds trivial hn
    exact ⟨f, .expr he hy h⟩
  | array hl _ hr ih =>
    cases n with
    | zero => exact ⟨_, .array hl⟩
    | succ n =>
      obtain ⟨f, h⟩ := ih (by rw [headKind_cons, hr]; rfl) (Nat.lt_of_succ_lt_succ hn)
      exact ⟨f, .inArray hl h⟩
  | record hl hfs hr ih =>
    cases n with
    | zero =>
      obtain ⟨p, a, z, rfl, hp, ha⟩ := hfs.fields_cons
      exact ⟨_, .record hl hp ha⟩
    | succ n =>
      obtain ⟨f, h⟩ := ih (by rw [headKind_cons, hr]; rfl) (Nat.lt_of_succ_lt_succ hn)
      exact ⟨f, .inRecord hl h⟩
  | lastValue _ ih =>
    obtain ⟨f, h⟩ := ih hy ((lt_max_iff.1 hn).resolve_right (Nat.not_lt_zero n))
    exact ⟨f, .firstValue h⟩
  | @moreValues v _ _ _ _ _ hv hc _ ih ihs =>
    rcases Nat.lt_or_ge n v.nesting with hlt | hle
    · obtain ⟨f, h⟩ := ih (hcomma hc) hlt
      exact ⟨f, .firstValue h⟩
    · obtain ⟨f, h⟩ := ihs hy ((lt_max_iff.1 hn).resolve_left (Nat.not_lt.2 hle))
      exact ⟨f, .laterValue hv hle hc h⟩
  | single hv ih =>
    obtain ⟨f, h⟩ := ih hy hn
    exact ⟨f, .single hv hy h⟩
  | repeatedNone _ _ _ => exact absurd hn (Nat.not_lt_zero n)
  | repeated hc hl _ hr ih =>
    obtain ⟨f, h⟩ := ih (by rw [headKind_cons, hr]; rfl) hn
    exact ⟨f, .repeated hc hl h⟩
  | lastElement _ ih =>
    obtain ⟨f, h⟩ := ih hy ((lt_max_iff.1 hn).resolve_right (Nat.not_lt_zero n))
    exact ⟨f, .firstElement h⟩
  | @moreElements e _ _ _ _ _ he hc _ ih ihs =>
    rcases Nat.lt_or_ge n e.nesting with hlt | hle
    · obtain ⟨f, h⟩ := ih (hcomma hc) hlt
      exact ⟨f, .firstElement h⟩
    · obtain ⟨f, h⟩ := ihs hy ((lt_max_iff.1 hn).resolve_left (Nat.not_lt.2 hle))
      exact ⟨f, .laterElement he hle hc h⟩
  | field hp ha _ ih =>
    obtain ⟨f, h⟩ := ih hy hn
    exact ⟨f, .field hp ha h⟩
  | lastField _ ih =>
    obtain ⟨f, h⟩ := ih hy ((lt_max_iff.1 hn).resolve_right (Nat.not_lt_zero n))
    exact ⟨f, .firstField h⟩
  | @moreFields g _ _ _ _ _ hg hc _ ih ihs =>
    rcases Nat.lt_or_ge n g.nesting with hlt | hle
    · obtain ⟨f, h⟩ := ih (hcomma hc) hlt
      exact ⟨f, .firstField h⟩
    · obtain ⟨f, h⟩ := ihs hy ((lt_max_iff.1 hn).resolve_left (Nat.not_lt.2 hle))
      exact ⟨f, .laterField hg hle hc h⟩

namespace Exceeds

/-- A record that goes too deep begins with a field. -/
theorem fields_cons {fs : List FieldInit} (h : (fields fs).Exceeds n x f) :
    ∃ p a z, x = p :: a :: z ∧ p.kind = .ident ∧ a.kind = .assign := by
  cases h with
  | firstField h =>
    cases h with
    | field hp ha _ => exact ⟨_, _, _, rfl, hp, ha⟩
  | laterField hg _ _ _ => exact hg.field_cons

theorem headKind_values {vs : List Initializer} (h : (values vs).Exceeds n x f) : headKind x ≠ .rParen := by
  have hne {k : TokenKind} (hk : k.canStartExpr = true ∨ k = .lBracket) : k ≠ .rParen := by
    rintro rfl
    rcases hk with hk | hk <;> cases hk
  cases h with
  | firstValue h =>
    cases h with
    | expr he _ _ => exact hne (.inl he.canStartExpr)
    | array hl | inArray hl _ | record hl _ _ | inRecord hl _ => rw [headKind_cons, hl]; decide
  | laterValue hv _ _ _ => exact hne hv.headKind_value

end Exceeds

open StructuredText.Parser

/-- In front of the phrase, the rules with `n` levels give up and report `f` only. -/
def FailsBy (n : Nat) : InitPhrase → List Lexeme → Excess → Prop
  | .value _, x, f => Fails (initializer n) x f
  | .values _, x, f => ListFails (initializer n) x f
  | .element _, x, f => Fails (arrayElement (initializer n)) x f
  | .elements _, x, f => ListFails (arrayElement (initializer n)) x f
  | .field _, x, f => Fails (fieldInit (initializer n)) x f
  | .fields _, x, f => ListFails (fieldInit (initializer n)) x f

/-- Where a phrase goes too deep, the rules give up. -/
theorem Exceeds.failsBy (h : φ.Exceeds n x f) : φ.FailsBy n x f := by
  have hcomma {c : Lexeme} {z : List Lexeme} (hc : c.kind = .comma) : (headKind (c :: z)).endsInitializer = true := by
    rw [headKind_cons, hc]
    rfl
  induction h with
  | @expr n _ _ _ _ he hy h =>
    obtain ⟨deeper, hlevels⟩ := exists_initializerOf n
    intro s hs
    rw [hlevels, initializerOf_apply_of_spelled he (TokenKind.endsInitializer_of_endsValue hy) hs]
    exact h.failsBy.read.bind s hs
  | array hl =>
    refine .get fun s hs => ?_
    simp only [(ParserState.kind_of_cons hs).trans hl]
    exact .here
  | inArray hl _ ih =>
    refine .get fun s hs => ?_
    simp only [(ParserState.kind_of_cons hs).trans hl]
    exact .nested (.offset fun _ => .skip (.bind ih.sepByComma.bind))
  | record hl hp ha =>
    refine .get fun s hs => ?_
    simp only [(ParserState.kind_of_cons hs).trans hl, (ParserState.kindAt_one_of_cons hs).trans hp,
      (ParserState.kindAt_two_of_cons hs).trans ha]
    exact .here
  | inRecord hl h ih =>
    obtain ⟨p, a, z, rfl, hp, ha⟩ := h.fields_cons
    refine .get fun s hs => ?_
    simp only [(ParserState.kind_of_cons hs).trans hl, (ParserState.kindAt_one_of_cons hs).trans hp,
      (ParserState.kindAt_two_of_cons hs).trans ha]
    exact .nested (.offset fun _ => .skip (.bind ih.sepByComma.bind))
  | firstValue _ ih => exact .here ih
  | laterValue hv hn hc _ ih => exact .later (hv.readBy _ hn (hcomma hc)) hc ih
  | single hv hy _ ih =>
    refine .get fun s hs => ?_
    rw [if_neg (hv.not_count (TokenKind.ne_lParen_of_endsInitializer (TokenKind.endsInitializer_of_endsValue hy)) hs)]
    exact .bind ih
  | repeated hc hl h ih =>
    refine .get fun s hs => ?_
    rw [if_pos ⟨(ParserState.kind_of_cons hs).trans hc, (ParserState.kindAt_one_of_cons hs).trans hl⟩]
    refine .after (count_complete hc hl) (.skip (.eat_none h.headKind_values ?_))
    exact .bind ih.sepByComma.bind
  | firstElement _ ih => exact .here ih
  | laterElement he hn hc _ ih => exact .later (he.readBy _ hn (hcomma hc)) hc ih
  | field hp ha _ ih => exact .offset fun _ => .after (ident_complete hp) (.expect ha (.bind ih))
  | firstField _ ih => exact .here ih
  | laterField hg hn hc _ ih => exact .later (hg.readBy _ hn (hcomma hc)) hc ih

end InitPhrase

/-! ## Variables -/

/-- Of the constructs in the bounds, the first one inside `n` others. -/
inductive BoundsExceed : ArrayBounds → Nat → List Lexeme → Excess → Prop
  | lower {n : Nat} {b : ArrayBounds} {x : List Lexeme} {f : Excess} :
      (ExprPhrase.expr 1 b.lower).Exceeds n x f → BoundsExceed b n x f
  | upper {n : Nat} {b : ArrayBounds} {d : Lexeme} {x y : List Lexeme} {f : Excess} :
      (ExprPhrase.expr 1 b.lower).Spelled x (d :: y) → b.lower.nesting ≤ n → d.kind = .dotDot →
      (ExprPhrase.expr 1 b.upper).Exceeds n y f → BoundsExceed b n x f

/-- Of the constructs in the dimensions, the first one inside `n` others. -/
inductive ShapeExceeds : ArrayShape → Nat → List Lexeme → Excess → Prop
  | bounded {n : Nat} {bounds : List ArrayBounds} {l : Lexeme} {x : List Lexeme} {f : Excess} :
      l.kind = .lBracket → CommaExceeds BoundsSpelled BoundsExceed ArrayBounds.nesting n bounds x f →
      ShapeExceeds (.bounded bounds) n (l :: x) f

/-- The name of a variable, its location and the colon, up to `y`. -/
inductive DeclHead (d : VarDecl) : List Lexeme → List Lexeme → Prop
  | mk {w c : Lexeme} {x y : List Lexeme} :
      w.kind = .ident → Optionally QualifiedName .kwAt d.location x (c :: y) → c.kind = .colon → DeclHead d (w :: x) y

/-- Of the constructs in the declaration, the first one inside `n` others. -/
inductive DeclExceeds : VarDecl → Nat → List Lexeme → Excess → Prop
  | shape {n : Nat} {d : VarDecl} {x x₁ : List Lexeme} {f : Excess} :
      DeclHead d x x₁ → OptionExceeds ShapeExceeds n .kwArray d.shape x₁ f → DeclExceeds d n x f
  | type {n : Nat} {d : VarDecl} {x x₁ x₂ : List Lexeme} {f : Excess} :
      DeclHead d x x₁ → Optionally ShapeSpelled .kwArray d.shape x₁ x₂ → depthOf ArrayShape.nesting d.shape ≤ n →
      TypeExceeds d.type n x₂ f → DeclExceeds d n x f
  | maxLength {n : Nat} {d : VarDecl} {x x₁ x₂ x₃ : List Lexeme} {f : Excess} :
      DeclHead d x x₁ → Optionally ShapeSpelled .kwArray d.shape x₁ x₂ → depthOf ArrayShape.nesting d.shape ≤ n →
      TypeSpelled d.type x₂ x₃ → d.type.nesting ≤ n →
      OptionExceeds (fun e => (ExprPhrase.expr 0 e).Exceeds) n .lBracket d.maxLength x₃ f → DeclExceeds d n x f
  | initial {n : Nat} {d : VarDecl} {x x₁ x₂ x₃ x₄ : List Lexeme} {f : Excess} :
      DeclHead d x x₁ → Optionally ShapeSpelled .kwArray d.shape x₁ x₂ → depthOf ArrayShape.nesting d.shape ≤ n →
      TypeSpelled d.type x₂ x₃ → d.type.nesting ≤ n →
      Optionally LengthSpelled .lBracket d.maxLength x₃ x₄ → depthOf Expr.nesting d.maxLength ≤ n →
      OptionExceeds (fun v => (InitPhrase.value v).Exceeds) n .assign d.initial x₄ f → DeclExceeds d n x f

/-- Of the constructs in the block, the first one inside `n` others. -/
inductive BlockExceeds (unit : UnitKind) : VarBlock → Nat → List Lexeme → Excess → Prop
  | mk {n : Nat} {b : VarBlock} {w : Lexeme} {x x₁ : List Lexeme} {f : Excess} :
      w.kind = b.kind.keyword → (unit = .algorithm → b.kind = .temp) → ConstantSpelled b.isConstant x x₁ →
      RowExceeds DeclSpelled DeclExceeds VarDecl.nesting n b.decls x₁ f → BlockExceeds unit b n (w :: x) f

section

variable {n : Nat} {x y : List Lexeme} {f : Excess}

/-! ### There is such a construct -/

theorem BoundsSpelled.exists_exceeds {b : ArrayBounds} (h : BoundsSpelled b x y) (hn : n < b.nesting) :
    ∃ f, BoundsExceed b n x f := by
  cases h with
  | @mk lower upper d x x₁ y hlower hd hupper =>
    rcases Nat.lt_or_ge n lower.nesting with hlt | hle
    · obtain ⟨f, h⟩ := hlower.exists_exceeds trivial hlt
      exact ⟨f, .lower h⟩
    · obtain ⟨f, h⟩ := hupper.exists_exceeds trivial ((lt_max_iff.1 hn).resolve_left (Nat.not_lt.2 hle))
      exact ⟨f, .upper hlower hle hd h⟩

theorem ShapeSpelled.exists_exceeds {shape : ArrayShape} (h : ShapeSpelled shape x y) (hn : n < shape.nesting) :
    ∃ f, ShapeExceeds shape n x f := by
  cases h with
  | mk hl h _ _ =>
    cases h with
    | bounded h =>
      obtain ⟨f, h⟩ := h.exists_exceeds (fun _ _ _ => BoundsSpelled.exists_exceeds) hn
      exact ⟨f, .bounded hl h⟩
    | unbounded _ => exact absurd hn (Nat.not_lt_zero n)

theorem DeclSpelled.exists_exceeds {d : VarDecl} (h : DeclSpelled d x y) (hn : n < d.nesting) :
    ∃ f, DeclExceeds d n x f := by
  cases h with
  | @mk location shape type length initial w c e x x₁ x₂ x₃ x₄ y hw hlocation hc hshape htype hlength hinitial he =>
    have hhead {span : Span} : DeclHead ⟨w.name, location, shape, type, length, initial, span⟩ (w :: x) x₁ :=
      .mk hw hlocation hc
    rcases Nat.lt_or_ge n (depthOf ArrayShape.nesting shape) with hlt | hle₁
    · obtain ⟨f, h⟩ := hshape.exists_exceeds (fun _ _ => ShapeSpelled.exists_exceeds) hlt
      exact ⟨f, .shape hhead h⟩
    rcases Nat.lt_or_ge n type.nesting with hlt | hle₂
    · obtain ⟨f, h⟩ := htype.exists_exceeds hlt
      exact ⟨f, .type hhead hshape hle₁ h⟩
    rcases Nat.lt_or_ge n (depthOf Expr.nesting length) with hlt | hle₃
    · obtain ⟨f, h⟩ := hlength.exists_exceeds (E := fun e => (ExprPhrase.expr 0 e).Exceeds) (fun e x he hlt => by
        cases he with
        | mk he _ => exact he.exists_exceeds trivial hlt) hlt
      exact ⟨f, .maxLength hhead hshape hle₁ htype hle₂ h⟩
    · have hlt : n < depthOf Initializer.nesting initial := by
        simp only [VarDecl.nesting, lt_max_iff] at hn
        omega
      obtain ⟨f, h⟩ := hinitial.exists_exceeds (E := fun v => (InitPhrase.value v).Exceeds)
        (fun v x hv hlt => hv.exists_exceeds (by rw [headKind_cons, he]; rfl) hlt) hlt
      exact ⟨f, .initial hhead hshape hle₁ htype hle₂ hlength hle₃ h⟩

theorem BlockSpelled.exists_exceeds {unit : UnitKind} {b : VarBlock} (h : BlockSpelled unit b x y)
    (hn : n < b.nesting) : ∃ f, BlockExceeds unit b n x f := by
  cases h with
  | mk hw hunit hconstant hdecls _ =>
    obtain ⟨f, h⟩ := hdecls.exists_exceeds (fun _ _ _ => DeclSpelled.exists_exceeds) hn
    exact ⟨f, .mk hw hunit hconstant h⟩

/-! ### The rules give up -/

open StructuredText.Parser

theorem BoundsExceed.canStartExpr {b : ArrayBounds} (h : BoundsExceed b n x f) : (headKind x).canStartExpr = true := by
  cases h with
  | lower h => exact h.canStartExpr
  | upper h _ _ _ => exact h.canStartExpr

theorem BoundsExceed.fails {b : ArrayBounds} (h : BoundsExceed b n x f) : Fails (arrayBounds n) x f := by
  refine .offset fun _ => ?_
  cases h with
  | lower h => exact .bind (h.failsBy 1 (Nat.le_refl 1))
  | upper hl hn hd h =>
    refine .after (bound_complete hn hl (by rw [headKind_cons, hd]; rfl)) (.expect hd (.bind ?_))
    exact h.failsBy 1 (Nat.le_refl 1)

theorem ShapeExceeds.fails {shape : ArrayShape} (h : ShapeExceeds shape n x f) : Fails (arrayShape n) x f := by
  cases h with
  | @bounded _ _ _ z _ hl h =>
    have hstart : (headKind z).canStartExpr = true := by
      cases h with
      | here h => exact h.canStartExpr
      | later h _ _ _ => exact h.canStartExpr
    have hstar : headKind z ≠ .star := by
      intro hk
      rw [hk] at hstart
      cases hstart
    have hbounds : ListFails (arrayBounds n) z f :=
      commaList_fails h (fun _ _ _ _ hb hle hc => arrayBounds_complete hb hle (by rw [headKind_cons, hc]; rfl))
        fun _ _ _ => BoundsExceed.fails
    refine .expect hl (.bind (.sees ?_))
    rw [if_neg (by simpa using hstar)]
    exact hbounds.sepByComma.bind

/-- Behind the head of a declaration, the rest of it fails. -/
theorem DeclHead.fails {d : VarDecl} (h : DeclHead d x y) {q : Name → Option Name → PUnit → Parser α}
    (hq : ∀ name, Fails (q name d.location ⟨⟩) y f) :
    Fails (do
      let name ← ident "variable name"
      let location ← location?
      let u ← expect .colon
      q name location u) x f := by
  cases h with
  | mk hw hlocation hc =>
    exact .after (ident_complete hw) (.after (location?_complete hlocation hc) (.expect hc (hq _)))

theorem DeclExceeds.fails {d : VarDecl} (h : DeclExceeds d n x f) : Fails (varDecl n) x f := by
  refine .offset fun start => ?_
  cases h with
  | shape hhead h =>
    refine hhead.fails fun name => .bind ?_
    rw [arrayShape?_eq]
    exact optional_fails h fun _ _ _ => ShapeExceeds.fails
  | type hhead hshape hle h =>
    have hshape' := arrayShape?_complete hshape hle (by rw [h.headKind_eq]; decide)
    exact hhead.fails fun name => .after hshape' (.bind h.fails)
  | maxLength hhead hshape hle₁ htype hle₂ h =>
    have hshape' := arrayShape?_complete hshape hle₁ htype.headKind_ne
    have htype' := typeRef_complete htype hle₂ (by rw [h.headKind_eq]; decide)
    refine hhead.fails fun name => .after hshape' (.after htype' (.bind ?_))
    rw [maxLength?_eq]
    exact optional_fails h fun _ _ _ h => .bind h.failsBy.read
  | initial hhead hshape hle₁ htype hle₂ hlength hle₃ h =>
    have hx₄ := h.headKind_eq
    have hshape' := arrayShape?_complete hshape hle₁ htype.headKind_ne
    have htype' := typeRef_complete htype hle₂ (by
      rcases hlength.headKind_cases with rfl | hk
      · rw [hx₄]; decide
      · rw [hk]; decide)
    have hlength' := maxLength?_complete hlength hle₃ (by rw [hx₄]; decide)
    refine hhead.fails fun name => .after hshape' (.after htype' (.after hlength' (.bind ?_)))
    exact optional_fails h fun _ _ _ h => h.failsBy

theorem varDeclTurn_fails {d : VarDecl} (h : DeclSpelled d x y) (hd : DeclExceeds d n x f) :
    Fails (varDeclTurn n) x f := by
  obtain ⟨w, c, z, rfl, hw, hc⟩ := h.cons_cons
  refine .get fun s hs => ?_
  have hk₀ : s.kind = .ident := (ParserState.kind_of_cons hs).trans hw
  have hstart : s.atStatementStart = false := by
    rw [ParserState.atStatementStart, hk₀, ParserState.kindAt_one_of_cons hs]
    rcases hc with hc | hc <;> rw [hc] <;> rfl
  rw [hs]
  simp only [hk₀, hstart]
  exact .orRecover hd.fails.bind

theorem blockKind_keyword (span : Span) (kind : BlockKind) : blockKind span kind.keyword = pure kind := by
  cases kind <;> rfl

theorem headKind_of_decls {decls : List VarDecl}
    (h : RowExceeds DeclSpelled DeclExceeds VarDecl.nesting n decls x f) : headKind x = .ident := by
  cases h with
  | here hd _ | later hd _ _ =>
    obtain ⟨w, c, z, rfl, hw, -⟩ := hd.cons_cons
    exact hw

theorem BlockExceeds.fails {unit : UnitKind} {b : VarBlock} (h : BlockExceeds unit b n x f) :
    Fails (varBlock n unit) x f := by
  cases h with
  | @mk _ _ _ _ x₁ _ hw hunit hconstant hdecls =>
    have hloop : Fails (collect (varDeclTurn n)) x₁ f :=
      (row_fails hdecls DeclSpelled.length_lt (fun _ _ _ hd hle => ⟨_, varDeclTurn_more hd hle⟩)
        fun _ _ _ _ => varDeclTurn_fails).collect
    rw [varBlock_eq]
    refine .get fun s hs => .skip ?_
    rw [(ParserState.kind_of_cons hs).trans hw, blockKind_keyword, pure_bind, if_neg fun hc => hc.2 (hunit hc.1)]
    unfold blockRest
    generalize b.isConstant = isConstant at hconstant
    cases hconstant with
    | no => exact .eat_none (by rw [headKind_of_decls hdecls]; decide) hloop.bind
    | yes hc => exact .eat hc hloop.bind

end

end StructuredText
