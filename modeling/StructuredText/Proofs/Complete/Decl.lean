import StructuredText.Proofs.Complete.Expr
import StructuredText.Proofs.Sound.Decl

/-!
# What is spelled as a declaration is read as one

Where the tokens to come begin with a spelling of a type, an initial value, a declaration or a block, the rules read it
and stop behind it, if their levels are enough. For initial values the proof goes by the derivation of the spelling
(`InitPhrase.ReadBy`).
-/

namespace StructuredText

namespace TokenKind

/-- What stands behind an initial value. -/
def endsValue : TokenKind → Bool
  | comma | rBracket | rParen | semicolon | eof => true
  | _ => false

variable {k : TokenKind}

/-- The tokens that do not go on with an initial value. -/
def endsInitializer (k : TokenKind) : Bool := k.endsTier 0 && !k.namesParam

theorem endsInitializer_of_endsValue (h : k.endsValue = true) : k.endsInitializer = true := by
  cases k <;> first | rfl | cases h

theorem endsTier_of_endsInitializer (h : k.endsInitializer = true) : k.endsTier 0 = true :=
  (Bool.and_eq_true_iff.1 h).1

theorem ne_lParen_of_endsInitializer (h : k.endsInitializer = true) : k ≠ .lParen := by
  rintro rfl
  cases h

theorem ne_assign_of_endsInitializer (h : k.endsInitializer = true) : k ≠ .assign := by
  rintro rfl
  cases h

end TokenKind

namespace InitPhrase.Spelled

variable {x y : List Lexeme}

/-- A field begins with its name and `:=`. -/
theorem field_cons {f : FieldInit} (h : (InitPhrase.field f).Spelled x y) :
    ∃ n a z, x = n :: a :: z ∧ n.kind = .ident ∧ a.kind = .assign := by
  cases h with
  | field hn ha _ => exact ⟨_, _, _, rfl, hn, ha⟩

theorem fields_cons {fs : List FieldInit} (h : (fields fs).Spelled x y) :
    ∃ n a z, x = n :: a :: z ∧ n.kind = .ident ∧ a.kind = .assign := by
  cases h with
  | lastField h => exact h.field_cons
  | moreFields h _ _ => exact h.field_cons

theorem headKind_value {v : Initializer} (h : (value v).Spelled x y) :
    (headKind x).canStartExpr = true ∨ headKind x = .lBracket := by
  cases h with
  | expr h => exact .inl h.canStartExpr
  | array hl _ _ => exact .inr hl
  | record hl _ _ => exact .inl (by rw [headKind_cons, hl]; rfl)

theorem headKind_values {vs : List Initializer} (h : (values vs).Spelled x y) :
    (headKind x).canStartExpr = true ∨ headKind x = .lBracket := by
  cases h with
  | lastValue h => exact h.headKind_value
  | moreValues h _ _ => exact h.headKind_value

/-- A value is not taken for a count and the values to repeat. -/
theorem not_count {v : Initializer} (h : (value v).Spelled x y) (hy : headKind y ≠ .lParen) {s : ParserState}
    (hs : s.rest = x) : ¬(s.kind = .intLiteral ∧ s.kindAt 1 = .lParen) := by
  rintro ⟨hk₀, hk₁⟩
  rw [ParserState.kindAt_one, ParserState.kind_eq_headKind] at hk₁
  obtain ⟨t, ht, htk⟩ := ParserState.exists_of_kind hk₀ (by decide)
  rw [hs] at ht
  cases h with
  | expr h =>
    rcases h.not_called rfl ht htk with ⟨h, -⟩ | h
    · exact hy (h ▸ hk₁)
    · exact h hk₁
  | array hl _ _ | record hl _ _ =>
    cases ht
    rw [hl] at htk
    cases htk

end InitPhrase.Spelled

namespace Parser

variable {levels : Nat} {x₀ x y z : List Lexeme} {t : Lexeme}

/-! ## Types -/

theorem exists_typeRefOf (levels : Nat) : ∃ deeper, typeRef levels = typeRefOf deeper := by
  cases levels with
  | zero => exact ⟨none, rfl⟩
  | succ levels => exact ⟨some (typeRef levels), rfl⟩

/-- Where nothing goes on with a name, a type is read. -/
theorem typeRef_complete {type : TypeRef} (h : TypeSpelled type x y) (hn : type.nesting ≤ levels)
    (hy : headKind y ≠ .colonColon) : Gives (typeRef levels) x type y := by
  induction h generalizing levels with
  | elementary ht =>
    obtain ⟨deeper, hlevels⟩ := exists_typeRefOf levels
    rw [hlevels]
    refine GivesFrom.gives (.kind ?_)
    simp only [headKind_cons, ht]
    exact .take .pure
  | named h =>
    obtain ⟨deeper, hlevels⟩ := exists_typeRefOf levels
    rw [hlevels]
    refine GivesFrom.gives (.kind ?_)
    simp only [h.headKind_eq]
    exact (qualifiedName_complete h hy).from.bind .pure
  | @reference target w x y hw h ih =>
    obtain ⟨m, rfl⟩ : ∃ m, levels = m + 1 := by
      rw [TypeRef.nesting] at hn
      exact ⟨levels - 1, by omega⟩
    have hlt := h.length_lt
    have htarget : Gives (nested "type" (some (typeRef m)) id) x target y :=
      Gives.nested (show Gives (id (typeRef m)) x target y from ih (Nat.le_of_succ_le_succ hn) hy)
    refine GivesFrom.gives (.kind ?_)
    simp only [headKind_cons, hw]
    refine (Gives.offset (.skip (htarget.from.bind ?_))).from
    exact .spanFrom (by rw [List.length_cons]; omega) .pure

/-! ## Initial values -/

theorem exists_initializerOf (levels : Nat) : ∃ deeper, initializer levels = initializerOf (expr levels) deeper := by
  cases levels with
  | zero => exact ⟨none, rfl⟩
  | succ levels => exact ⟨some (initializer levels), rfl⟩

/-- An expression is not taken for an array or a record. -/
theorem initializerOf_apply_of_spelled {expr : Parser Expr} {deeper : Option (Parser Initializer)} {e : Expr}
    (h : (ExprPhrase.expr 0 e).Spelled x y) (hy : (headKind y).endsInitializer = true) {s : ParserState}
    (hs : s.rest = x) :
    initializerOf expr deeper s = (do return Initializer.value (← expr)) s := by
  rw [initializerOf, bind_of_ok (get_apply s)]
  refine congrFun ?_ s
  split
  · next hk =>
    have := h.canStartExpr
    rw [← hs, ← s.kind_eq_headKind, hk] at this
    cases this
  · next hk₀ hk₁ hk₂ =>
    rw [ParserState.kindAt_one] at hk₁
    rw [ParserState.kindAt_two, ParserState.kind_eq_headKind] at hk₂
    obtain ⟨l, hl, hlk⟩ := ParserState.exists_of_kind hk₀ (by decide)
    obtain ⟨n, hn, hnk⟩ := ParserState.exists_of_kind hk₁ (by decide)
    have hbehind : behindOpening x = n :: s.advance.advance.rest := by
      rw [← hs, hl, hn, behindOpening_of_opens (by rw [hlk]; rfl), behindOpening_of_opensNothing (by rw [hnk]; rfl)]
    rcases h.not_namesParam rfl hbehind hnk with heq | h
    · rw [heq] at hk₂
      exact absurd hk₂ (TokenKind.ne_assign_of_endsInitializer hy)
    · rw [hk₂] at h
      cases h
  · rfl

theorem initializer_value {e : Expr} (h : (ExprPhrase.expr 0 e).Spelled x y) (hn : e.nesting ≤ levels)
    (hy : (headKind y).endsInitializer = true) : Gives (initializer levels) x (.value e) y := by
  obtain ⟨deeper, hlevels⟩ := exists_initializerOf levels
  intro s hs
  obtain ⟨s', h', hr⟩ := expr_complete hn h (TokenKind.endsTier_of_endsInitializer hy) s hs
  refine ⟨s', ⟨?_, h'.2⟩, hr⟩
  rw [hlevels, initializerOf_apply_of_spelled h hy hs, bind_of_ok h'.1]
  rfl

theorem listUpTo_complete {close : TokenKind} {item : Parser α} [Lawful item] {as : List α} {r : Lexeme}
    (hr : r.kind = close) (h : Gives (sepByComma item) x as (r :: y)) : Gives (listUpTo close item) x as y :=
  h.bind ((Gives.expect hr).bind (GivesFrom.gives .pure))

section

variable {initializer : Parser Initializer} [Lawful initializer]

theorem arrayInitializer_complete {es : List ArrayElement} {l r : Lexeme} (hr : r.kind = .rBracket)
    (h : Gives (sepByComma (arrayElement initializer)) x es (r :: y)) (hlt : y.length < x.length) :
    Gives (arrayInitializer initializer) (l :: x) (.array es (spanBetween (l :: x) y)) y := by
  refine Gives.offset (.skip ((listUpTo_complete hr h).from.bind ?_))
  exact .spanFrom (by rw [List.length_cons]; omega) .pure

theorem recordInitializer_complete {fs : List FieldInit} {l r : Lexeme} (hr : r.kind = .rParen)
    (h : Gives (sepByComma (fieldInit initializer)) x fs (r :: y)) (hlt : y.length < x.length) :
    Gives (recordInitializer initializer) (l :: x) (.record fs (spanBetween (l :: x) y)) y := by
  refine Gives.offset (.skip ((listUpTo_complete hr h).from.bind ?_))
  exact .spanFrom (by rw [List.length_cons]; omega) .pure

theorem fieldInit_complete {v : Initializer} {n a : Lexeme} (hn : n.kind = .ident) (ha : a.kind = .assign)
    (h : Gives initializer x v y) (hlt : y.length < x.length) :
    Gives (fieldInit initializer) (n :: a :: x) (.mk n.name v (spanBetween (n :: a :: x) y)) y := by
  refine Gives.offset ((ident_complete hn).from.bind ((Gives.expect ha).from.bind (h.from.bind ?_)))
  exact .spanFrom (by simp only [List.length_cons]; omega) .pure

theorem arrayElement_single {v : Initializer} (h : (InitPhrase.value v).Spelled x y) (hy : headKind y ≠ .lParen)
    (hg : Gives initializer x v y) : Gives (arrayElement initializer) x (.single v) y := by
  refine GivesFrom.gives (.get fun s hs => ?_)
  rw [if_neg (h.not_count hy hs)]
  exact hg.from.bind .pure

/-- In front of a `(`, an integer is a literal of its own. -/
theorem count_complete {c l : Lexeme} (hc : c.kind = .intLiteral) (hl : l.kind = .lParen) :
    Gives literal (c :: l :: x) (.ofToken .integer c.name) (l :: x) := by
  refine literal_complete (.token (by rw [hc]; rfl) ?_)
  rintro ⟨h, c', m, d, u, z, heq, htod⟩
  cases heq
  have := htod.colon
  rw [hl] at this
  cases this

variable {c l r : Lexeme} (hc : c.kind = .intLiteral) (hl : l.kind = .lParen)

include hc hl

omit [Lawful initializer] in
/-- An element begins with a count. -/
theorem arrayElement_count {e : ArrayElement}
    (h : GivesFrom (c :: l :: x) (do
      if ← eat .rParen then return .repeated (.ofToken .integer c.name) [] (← spanFrom c.span.start)
      else
        let values ← listUpTo .rParen initializer
        return .repeated (.ofToken .integer c.name) values (← spanFrom c.span.start)) x e y) :
    Gives (arrayElement initializer) (c :: l :: x) e y := by
  refine GivesFrom.gives (.get fun s hs => ?_)
  have hk₀ : s.kind = .intLiteral := (ParserState.kind_of_cons hs).trans hc
  have hk₁ : s.kindAt 1 = .lParen := by
    rw [ParserState.kindAt_one, ParserState.kind_of_cons (ParserState.advance_rest_of_cons hs), hl]
  rw [if_pos ⟨hk₀, hk₁⟩, ParserState.span_of_cons hs]
  exact (count_complete hc hl).from.bind (.skip h)

omit [Lawful initializer] in
theorem arrayElement_repeatedNone (hr : r.kind = .rParen) :
    Gives (arrayElement initializer) (c :: l :: r :: y)
      (.repeated (.ofToken .integer c.name) [] (spanBetween (c :: l :: r :: y) y)) y :=
  arrayElement_count hc hl (.eat hr (.spanFrom (by simp only [List.length_cons]; omega) .pure))

theorem arrayElement_repeated {vs : List Initializer} (hr : r.kind = .rParen) (hx : headKind x ≠ .rParen)
    (h : Gives (sepByComma initializer) x vs (r :: y)) (hlt : y.length < x.length) :
    Gives (arrayElement initializer) (c :: l :: x)
      (.repeated (.ofToken .integer c.name) vs (spanBetween (c :: l :: x) y)) y := by
  refine arrayElement_count hc hl (.eat_none hx ((listUpTo_complete hr h).from.bind ?_))
  exact .spanFrom (by simp only [List.length_cons]; omega) .pure

end

end Parser

namespace InitPhrase

open StructuredText.Parser

/-- A phrase is read where it is spelled, by the rules with these levels. -/
def ReadBy (levels : Nat) : InitPhrase → List Lexeme → List Lexeme → Prop
  | .value v, x, y => v.nesting ≤ levels → (headKind y).endsInitializer = true → Gives (initializer levels) x v y
  | .values vs, x, y => Initializer.nestingAll vs ≤ levels → headKind y = .rParen →
    Gives (sepByComma (initializer levels)) x vs y
  | .element e, x, y => e.nesting ≤ levels → (headKind y).endsInitializer = true →
    Gives (arrayElement (initializer levels)) x e y
  | .elements es, x, y => ArrayElement.nestingAll es ≤ levels → headKind y = .rBracket →
    Gives (sepByComma (arrayElement (initializer levels))) x es y
  | .field f, x, y => f.nesting ≤ levels → (headKind y).endsInitializer = true →
    Gives (fieldInit (initializer levels)) x f y
  | .fields fs, x, y => FieldInit.nestingAll fs ≤ levels → headKind y = .rParen →
    Gives (sepByComma (fieldInit (initializer levels))) x fs y

namespace ReadBy

variable {levels : Nat} {x y z : List Lexeme} {l r c : Lexeme}

theorem array {es : List ArrayElement} (hl : l.kind = .lBracket) (hr : r.kind = .rBracket) (hlt : y.length < x.length)
    (h : ∀ levels, (elements es).ReadBy levels x (r :: y)) :
    (value (.array es (spanBetween (l :: x) y))).ReadBy levels (l :: x) y := by
  intro hn _
  obtain ⟨m, rfl⟩ : ∃ m, levels = m + 1 := by
    rw [Initializer.nesting] at hn
    exact ⟨levels - 1, by omega⟩
  rw [initializer]
  refine GivesFrom.gives (.get fun s hs => ?_)
  simp only [(ParserState.kind_of_cons hs).trans hl]
  exact (arrayInitializer_complete hr (h m (Nat.le_of_succ_le_succ hn) hr) hlt).nested.from

/-- A record is told from an expression in parentheses by its first field. -/
theorem record {fs : List FieldInit} (hl : l.kind = .lParen) (hr : r.kind = .rParen) (hlt : y.length < x.length)
    (hx : ∃ n a z, x = n :: a :: z ∧ n.kind = .ident ∧ a.kind = .assign)
    (h : ∀ levels, (fields fs).ReadBy levels x (r :: y)) :
    (value (.record fs (spanBetween (l :: x) y))).ReadBy levels (l :: x) y := by
  intro hn _
  obtain ⟨m, rfl⟩ : ∃ m, levels = m + 1 := by
    rw [Initializer.nesting] at hn
    exact ⟨levels - 1, by omega⟩
  obtain ⟨n, a, z, rfl, hnk, hak⟩ := hx
  rw [initializer]
  refine GivesFrom.gives (.get fun s hs => ?_)
  have hs₁ := ParserState.advance_rest_of_cons hs
  have hk₁ : s.kindAt 1 = .ident := by rw [ParserState.kindAt_one, ParserState.kind_of_cons hs₁, hnk]
  have hk₂ : s.kindAt 2 = .assign := by
    rw [ParserState.kindAt_two, ParserState.kind_of_cons (ParserState.advance_rest_of_cons hs₁), hak]
  simp only [(ParserState.kind_of_cons hs).trans hl, hk₁, hk₂]
  exact (recordInitializer_complete hr (h m (Nat.le_of_succ_le_succ hn) hr) hlt).nested.from

end ReadBy

/-- Every phrase is read where it is spelled. -/
theorem Spelled.readBy {φ : InitPhrase} {x y : List Lexeme} (h : φ.Spelled x y) (levels : Nat) :
    φ.ReadBy levels x y := by
  -- What stands behind an item of a list is a comma, or closes the list.
  have hcomma {c : Lexeme} {z : List Lexeme} (hc : c.kind = .comma) : (headKind (c :: z)).endsInitializer = true := by
    rw [headKind_cons, hc]
    rfl
  have hparen {z : List Lexeme} (hz : headKind z = .rParen) :
      (headKind z).endsInitializer = true ∧ headKind z ≠ .comma := by
    rw [hz]
    exact ⟨rfl, by decide⟩
  have hbracket {z : List Lexeme} (hz : headKind z = .rBracket) :
      (headKind z).endsInitializer = true ∧ headKind z ≠ .comma := by
    rw [hz]
    exact ⟨rfl, by decide⟩
  induction h generalizing levels with
  | expr h => exact fun hn hy => initializer_value h hn hy
  | array hl h hr ih =>
    have hlt := h.length_lt
    exact .array hl hr (by rw [List.length_cons] at hlt; omega) ih
  | record hl h hr ih =>
    have hlt := h.length_lt
    exact .record hl hr (by rw [List.length_cons] at hlt; omega) h.fields_cons ih
  | lastValue _ ih =>
    exact fun hn hy => .sepByComma_one (ih levels (Nat.max_le.1 hn).1 (hparen hy).1) (hparen hy).2
  | moreValues _ hc _ ih ihs =>
    intro hn hy
    obtain ⟨hn, hns⟩ := Nat.max_le.1 hn
    exact .sepByComma_more (ih levels hn (hcomma hc)) hc (ihs levels hns hy)
  | single h ih =>
    exact fun hn hy => arrayElement_single h (TokenKind.ne_lParen_of_endsInitializer hy) (ih levels hn hy)
  | repeatedNone hc hl hr => exact fun _ _ => arrayElement_repeatedNone hc hl hr
  | repeated hc hl h hr ih =>
    intro hn _
    have hlt := h.length_lt
    refine arrayElement_repeated hc hl hr ?_ (ih levels hn hr) (by rw [List.length_cons] at hlt; omega)
    intro hx
    rcases h.headKind_values with h | h <;> rw [hx] at h <;> cases h
  | lastElement _ ih =>
    exact fun hn hy => .sepByComma_one (ih levels (Nat.max_le.1 hn).1 (hbracket hy).1) (hbracket hy).2
  | moreElements _ hc _ ih ihs =>
    intro hn hy
    obtain ⟨hn, hns⟩ := Nat.max_le.1 hn
    exact .sepByComma_more (ih levels hn (hcomma hc)) hc (ihs levels hns hy)
  | field hn ha h ih => exact fun hnest hy => fieldInit_complete hn ha (ih levels hnest hy) h.length_lt
  | lastField _ ih =>
    exact fun hn hy => .sepByComma_one (ih levels (Nat.max_le.1 hn).1 (hparen hy).1) (hparen hy).2
  | moreFields _ hc _ ih ihs =>
    intro hn hy
    obtain ⟨hn, hns⟩ := Nat.max_le.1 hn
    exact .sepByComma_more (ih levels hn (hcomma hc)) hc (ihs levels hns hy)

end InitPhrase

namespace Parser

variable {levels : Nat} {x₀ x y z : List Lexeme} {t : Lexeme}

/-- What is spelled as an initial value is read as one, where nothing goes on with it. -/
theorem initializer_complete {v : Initializer} (h : (InitPhrase.value v).Spelled x y) (hn : v.nesting ≤ levels)
    (hy : (headKind y).endsInitializer = true) : Gives (initializer levels) x v y :=
  h.readBy levels hn hy

/-! ## Variables -/

theorem arrayBounds_complete {b : ArrayBounds} (h : BoundsSpelled b x y) (hn : b.nesting ≤ levels)
    (hy : (headKind y).endsTier 1 = true) : Gives (arrayBounds levels) x b y := by
  have hlt := h.length_lt
  obtain ⟨hn₁, hn₂⟩ := Nat.max_le.1 hn
  cases h with
  | mk hlower hd hupper =>
    cases x with
    | nil => simp at hlt
    | cons t x =>
      have h₁ := bound_complete hn₁ hlower (by rw [headKind_cons, hd]; rfl)
      have h₂ := bound_complete hn₂ hupper hy
      exact Gives.offset (h₁.from.bind ((Gives.expect hd).from.bind (h₂.from.bind (.spanFrom hlt .pure))))

theorem arrayDimensions_complete {shape : ArrayShape} (h : DimensionsSpelled shape x y) (hn : shape.nesting ≤ levels)
    (hy : headKind y = .rBracket) : Gives (arrayDimensions levels) x shape y := by
  have hcomma : headKind y ≠ .comma := by rw [hy]; decide
  refine GivesFrom.gives (.sees ?_)
  cases h with
  | bounded h =>
    have hx : headKind x ≠ .star := by
      intro hx
      cases h with
      | last h | more h _ _ =>
        have := h.canStartExpr
        rw [hx] at this
        cases this
    rw [if_neg (by simpa using hx)]
    refine Gives.from (Gives.bind (commaList_complete h hcomma fun b hb x' y' hb' hy' => ?_) (GivesFrom.gives .pure))
    refine arrayBounds_complete hb' (deepest_le_iff.1 hn b hb) ?_
    rcases hy' with hy' | rfl
    · rw [hy']; rfl
    · rw [hy]; rfl
  | unbounded h =>
    have hx : headKind x = .star := by
      cases h with
      | last h | more h _ _ =>
        cases h with
        | mk ht => exact ht
    rw [if_pos (by simpa using hx)]
    refine Gives.from (Gives.bind (commaList_complete h hcomma fun _ _ x' y' h _ => ?_) (GivesFrom.gives .pure))
    cases h with
    | mk ht => exact Gives.expect ht

theorem arrayShape_complete {shape : ArrayShape} (h : ShapeSpelled shape x y) (hn : shape.nesting ≤ levels) :
    Gives (arrayShape levels) x shape y := by
  cases h with
  | mk hl h hr ho =>
    have hshape := arrayDimensions_complete h hn hr
    refine GivesFrom.gives ((Gives.expect hl).from.bind (hshape.from.bind ((Gives.expect hr).from.bind ?_)))
    exact (Gives.expect ho).from.bind .pure

theorem maxLength_complete {e : Expr} (h : LengthSpelled e x y) (hn : e.nesting ≤ levels) :
    Gives (maxLength levels) x e y := by
  cases h with
  | mk h hr =>
    have he := expr_complete hn h (by rw [headKind_cons, hr]; rfl)
    exact GivesFrom.gives (he.from.bind ((Gives.expect hr).from.bind .pure))

theorem expectDeclEnd_complete (ht : t.kind = .semicolon) : Gives expectDeclEnd (t :: x) ⟨⟩ x := by
  refine GivesFrom.gives (.sees ?_)
  rw [headKind_cons, ht, if_pos (by rfl)]
  exact Gives.skip.from

theorem location?_complete {location : Option Name} {c : Lexeme}
    (h : Optionally QualifiedName .kwAt location x (c :: y)) (hc : c.kind = .colon) :
    Gives location? x location (c :: y) :=
  optional_complete h (by rw [headKind_cons, hc]; decide)
    fun _ _ _ h => qualifiedName_complete h (by rw [headKind_cons, hc]; decide)

theorem arrayShape?_complete {shape : Option ArrayShape} (h : Optionally ShapeSpelled .kwArray shape x y)
    (hn : depthOf ArrayShape.nesting shape ≤ levels) (hy : headKind y ≠ .kwArray) :
    Gives (arrayShape? levels) x shape y := by
  rw [arrayShape?_eq]
  refine optional_complete h hy fun shape hshape _ hs => ?_
  cases hshape
  exact arrayShape_complete hs hn

theorem maxLength?_complete {length : Option Expr} (h : Optionally LengthSpelled .lBracket length x y)
    (hn : depthOf Expr.nesting length ≤ levels) (hy : headKind y ≠ .lBracket) :
    Gives (maxLength? levels) x length y := by
  rw [maxLength?_eq]
  refine optional_complete h hy fun e hlength _ he => ?_
  cases hlength
  exact maxLength_complete he hn

/-- What stands behind an optional part that the word `k` announces. -/
theorem headKind_ne_of_optionally {R : α → List Lexeme → List Lexeme → Prop} {o : Option α} {k k' : TokenKind}
    (h : Optionally R k o x y) (hk : k ≠ k') (hy : headKind y ≠ k') : headKind x ≠ k' := by
  rcases h.headKind_cases with rfl | h
  · exact hy
  · rwa [h]

/-- The parts of a declaration are read up to what ends it. -/
theorem declHead_complete {d : VarDecl} (h : DeclHeadSpelled d x y) (hn : d.nesting ≤ levels)
    (hy : (headKind y).endsInitializer = true) :
    ∃ n c x₀ x₁ x₂ x₃ x₄, x = n :: x₀ ∧ n.kind = .ident ∧ n.name = d.name ∧ c.kind = .colon ∧
      Gives location? x₀ d.location (c :: x₁) ∧ Gives (arrayShape? levels) x₁ d.shape x₂ ∧
      Gives (typeRef levels) x₂ d.type x₃ ∧ Gives (maxLength? levels) x₃ d.maxLength x₄ ∧
      Gives (initial? levels) x₄ d.initial y := by
  have htier := TokenKind.endsTier_of_endsInitializer hy
  have hbracket : headKind y ≠ .lBracket := by rintro hk; rw [hk] at htier; cases htier
  have hassign := TokenKind.ne_assign_of_endsInitializer hy
  cases h with
  | @mk n c x₀ x₁ x₂ x₃ x₄ _ hname heq hlocation hc hshape htype hlength hinitial =>
    obtain ⟨hn₁, hn₂⟩ := Nat.max_le.1 hn
    obtain ⟨hn₁, hn₃⟩ := Nat.max_le.1 hn₁
    obtain ⟨hn₂, hn₄⟩ := Nat.max_le.1 hn₂
    have hx₄ := headKind_ne_of_optionally hinitial (by decide) hbracket
    have hx₃ := headKind_ne_of_optionally hlength (by decide)
      (headKind_ne_of_optionally hinitial (by decide) (TokenKind.ne_colonColon_of_endsTier htier))
    refine ⟨n, c, x₀, x₁, x₂, x₃, x₄, rfl, hname, heq, hc, location?_complete hlocation hc,
      arrayShape?_complete hshape hn₁ htype.headKind_ne, typeRef_complete htype hn₃ hx₃,
      maxLength?_complete hlength hn₂ hx₄, ?_⟩
    refine optional_complete hinitial hassign fun v h _ hv => ?_
    rw [h] at hn₄
    exact initializer_complete hv hn₄ hy

/-- What is spelled as a declaration is read as one. -/
theorem varDecl_complete {d : VarDecl} (h : DeclSpelled d x y) (hn : d.nesting ≤ levels) :
    Gives (varDecl levels) x d y := by
  have hlt := h.length_lt
  obtain ⟨e, he, hhead, hspan⟩ := h.exists_head
  obtain ⟨n, c, x₀, x₁, x₂, x₃, x₄, rfl, hname, heq, hc, h₁, h₂, h₃, h₄, h₅⟩ :=
    declHead_complete hhead hn (by rw [headKind_cons, he]; rfl)
  have hd : d = ⟨n.name, d.location, d.shape, d.type, d.maxLength, d.initial, spanBetween (n :: x₀) y⟩ := by
    rw [heq, ← hspan]
  rw [hd]
  refine Gives.offset ((ident_complete hname).from.bind (h₁.from.bind ((Gives.expect hc).from.bind ?_)))
  refine h₂.from.bind (h₃.from.bind (h₄.from.bind (h₅.from.bind ?_)))
  exact (expectDeclEnd_complete he).from.bind (.spanFrom hlt .pure)

/-! ## Blocks -/

theorem turning_varDeclTurn (levels : Nat) : Turning (varDeclTurn levels) :=
  varDeclTurn_sound.turning DeclSpelled.length_lt

theorem varDeclTurn_more {d : VarDecl} (h : DeclSpelled d x y) (hn : d.nesting ≤ levels) :
    Gives (varDeclTurn levels) x (.more [d]) y := by
  have hg := varDecl_complete h hn
  obtain ⟨n, c, z, rfl, hnk, hck⟩ := h.cons_cons
  refine GivesFrom.gives (.get fun s hs => ?_)
  have hk₀ : s.kind = .ident := (ParserState.kind_of_cons hs).trans hnk
  have hk₁ : s.kindAt 1 = c.kind := by
    rw [ParserState.kindAt_one, ParserState.kind_of_cons (ParserState.advance_rest_of_cons hs)]
  have hstart : s.atStatementStart = false := by
    rw [ParserState.atStatementStart, hk₀, hk₁]
    rcases hck with hck | hck <;> rw [hck] <;> rfl
  rw [hs]
  simp only [hk₀, hstart]
  exact Gives.from (.orRecover (GivesFrom.gives (hg.from.bind .pure)))

theorem varDeclTurn_last (h : EndsVar x y) : Gives (varDeclTurn levels) x (.last []) y := by
  obtain ⟨e, rfl, he⟩ := h
  refine GivesFrom.gives (.get fun s hs => ?_)
  rw [hs]
  simp only [(ParserState.kind_of_cons hs).trans he]
  exact .skip .pure

theorem decls_complete {decls : List VarDecl} {e : Lexeme} (h : Row DeclSpelled decls x (e :: y))
    (he : e.kind = .kwEndVar) (hn : deepest VarDecl.nesting decls ≤ levels) :
    Gives (collect (varDeclTurn levels)) x decls y :=
  row_complete (turning_varDeclTurn levels) h
    (fun d hd _ _ h => varDeclTurn_more h (deepest_le_iff.1 hn d hd)) (varDeclTurn_last ⟨e, rfl, he⟩)

/-- What is spelled as a block is read as one. -/
theorem varBlock_complete {unit : UnitKind} {b : VarBlock} (h : BlockSpelled unit b x y) (hn : b.nesting ≤ levels) :
    Gives (varBlock levels unit) x b y := by
  have hlt := h.length_lt
  cases h with
  | @mk kind isConstant decls w e x x₁ _ hw hunit hconstant hdecls he =>
    have hrest : GivesFrom (w :: x) (blockRest levels w.span.start kind) x
        ⟨kind, isConstant, decls, spanBetween (w :: x) y⟩ y := by
      have hd : GivesFrom (w :: x) (do
          let decls ← collect (varDeclTurn levels)
          return ⟨kind, isConstant, decls, ← spanFrom w.span.start⟩) x₁
          (⟨kind, isConstant, decls, spanBetween (w :: x) y⟩ : VarBlock) y :=
        (decls_complete hdecls he hn).from.bind (.spanFrom hlt .pure)
      cases hconstant with
      | no => exact .eat_none (hdecls.headKind_ne he) hd
      | yes hc => exact .eat hc hd
    intro s hs
    obtain ⟨s', h', hy⟩ := hrest s s.advance hs (.advance s) (ParserState.advance_rest_of_cons hs)
    refine ⟨s', reads_varBlock.2 ⟨kind, (ParserState.kind_of_cons hs).trans hw, hunit, ?_⟩, hy⟩
    rwa [ParserState.span_of_cons hs]

end Parser

end StructuredText
