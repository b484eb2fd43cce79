import StructuredText.Proofs.Grammar.Decl
import StructuredText.Proofs.Sound.Expr

/-!
# What is read as a declaration is spelled as one

If the rules for types, initial values, declarations and blocks read something without a report, the tokens that they
took are a spelling of it, and it is nested no deeper than the levels of the rule.
-/

namespace StructuredText

theorem Initializer.nestingAll_eq (vs : List Initializer) : nestingAll vs = deepest nesting vs := by
  induction vs with
  | nil => rfl
  | cons v vs ih => rw [nestingAll, deepest, ih]

theorem ArrayElement.nestingAll_eq (es : List ArrayElement) : nestingAll es = deepest nesting es := by
  induction es with
  | nil => rfl
  | cons e es ih => rw [nestingAll, deepest, ih]

theorem FieldInit.nestingAll_eq (fs : List FieldInit) : nestingAll fs = deepest nesting fs := by
  induction fs with
  | nil => rfl
  | cons f fs ih => rw [nestingAll, deepest, ih]

namespace InitPhrase.Spelled

variable {x y : List Lexeme}

theorem ofValues {vs : List Initializer} (h : CommaList (fun v => (value v).Spelled) vs x y) :
    (values vs).Spelled x y := by
  induction h with
  | last h => exact .lastValue h
  | more h hc _ ih => exact .moreValues h hc ih

theorem ofElements {es : List ArrayElement} (h : CommaList (fun e => (element e).Spelled) es x y) :
    (elements es).Spelled x y := by
  induction h with
  | last h => exact .lastElement h
  | more h hc _ ih => exact .moreElements h hc ih

theorem ofFields {fs : List FieldInit} (h : CommaList (fun f => (InitPhrase.field f).Spelled) fs x y) :
    (fields fs).Spelled x y := by
  induction h with
  | last h => exact .lastField h
  | more h hc _ ih => exact .moreFields h hc ih

end InitPhrase.Spelled

namespace Parser

variable {s s' : ParserState}

/-! ## Types -/

/-- What the rule reads is spelled as a type, with at most `n` references in front. -/
def ReadsType (p : Parser TypeRef) (n : Nat) : Prop :=
  ∀ ⦃s t s'⦄, Reads p s t s' → TypeSpelled t s.rest s'.rest ∧ t.nesting ≤ n

theorem typeRefOf_sound {deeper : Option (Parser TypeRef)} {n : Nat} [LawfulDeeper deeper]
    (hd : ∀ p, deeper = some p → ∃ m, n = m + 1 ∧ Lawful p ∧ ReadsType p m) : ReadsType (typeRefOf deeper) n := by
  intro s t s' h
  have hp := h.passed
  rw [typeRefOf, reads_kind_bind] at h
  split at h
  · next hk =>
    obtain ⟨t, hr, htk⟩ := ParserState.exists_of_kind hk (by simp)
    rw [reads_take_bind_of_cons hr] at h
    obtain ⟨rfl, rfl⟩ := reads_pure.1 h
    rw [hr]
    exact ⟨.elementary htk, Nat.zero_le n⟩
  · next hk =>
    obtain ⟨w, hw, hwk⟩ := ParserState.exists_of_kind hk (by decide)
    rw [reads_offset_bind, reads_skip_bind] at h
    have hlt := h.length_le
    obtain ⟨target, s₁, h₁, h⟩ := reads_bind_iff.1 h
    rw [reads_spanFrom_bind] at h
    obtain ⟨rfl, rfl⟩ := reads_pure.1 h
    obtain ⟨p, hdeeper, h₁⟩ := reads_nested.1 h₁
    obtain ⟨m, rfl, _, hp'⟩ := hd p hdeeper
    obtain ⟨htarget, hn⟩ := hp' h₁
    rw [hp.spanFrom (by rw [hw, List.length_cons]; omega), hw]
    exact ⟨.reference hwk htarget, Nat.succ_le_succ hn⟩
  · obtain ⟨name, s₁, h₁, h⟩ := reads_bind_iff.1 h
    obtain ⟨rfl, rfl⟩ := reads_pure.1 h
    exact ⟨.named (qualifiedName_sound h₁), Nat.zero_le n⟩
  · exact absurd h not_reads_fail

/-- What the rule for types reads is spelled as one. -/
theorem typeRef_sound (levels : Nat) : ReadsType (typeRef levels) levels := by
  induction levels with
  | zero => exact typeRefOf_sound fun p h => by cases h
  | succ levels ih =>
    refine typeRefOf_sound fun p h => ?_
    cases h
    exact ⟨levels, rfl, inferInstance, ih⟩

/-! ## Initial values -/

theorem listUpTo_sound {close : TokenKind} {item : Parser α} [Lawful item] {R : α → List Lexeme → List Lexeme → Prop}
    {f : α → Nat} {n : Nat} {as : List α} (hclose : close ≠ .eof)
    (hitem : ∀ {s a s'}, Reads item s a s' → R a s.rest s'.rest ∧ f a ≤ n) (h : Reads (listUpTo close item) s as s') :
    ∃ r, CommaList R as s.rest (r :: s'.rest) ∧ r.kind = close ∧ deepest f as ≤ n := by
  rw [listUpTo] at h
  obtain ⟨bs, s₁, h₁, h⟩ := reads_bind_iff.1 h
  obtain ⟨hk, h⟩ := reads_expect_bind.1 h
  obtain ⟨rfl, rfl⟩ := reads_pure.1 h
  obtain ⟨r, hr, hrk⟩ := ParserState.exists_of_kind hk hclose
  obtain ⟨hbs, hn⟩ := commaList_sound hitem h₁
  exact ⟨r, hr ▸ hbs, hrk, hn⟩

/-- What the rule reads is spelled as an initial value, and is nested at most `n` deep. -/
def ReadsInit (p : Parser Initializer) (n : Nat) : Prop :=
  ∀ ⦃s v s'⦄, Reads p s v s' → (InitPhrase.value v).Spelled s.rest s'.rest ∧ v.nesting ≤ n

/-- In front of a `(`, an integer is read as a literal of its own. -/
theorem count_sound {count : Literal} (hc : s.kind = .intLiteral) (hl : s.kindAt 1 = .lParen)
    (h : Reads literal s count s') :
    ∃ c l x, s.rest = c :: l :: x ∧ c.kind = .intLiteral ∧ l.kind = .lParen ∧ s'.rest = l :: x ∧
      count = .ofToken .integer c.name := by
  rw [ParserState.kindAt_one] at hl
  obtain ⟨c, hcr, hck⟩ := ParserState.exists_of_kind hc (by decide)
  obtain ⟨l, hlr, hlk⟩ := ParserState.exists_of_kind hl (by decide)
  have hspelled := literal_sound h
  rw [hcr, hlr] at hspelled
  refine ⟨c, l, s.advance.advance.rest, by rw [hcr, hlr], hck, hlk, ?_⟩
  generalize s.advance.advance.rest = x at hspelled ⊢
  generalize s'.rest = y at hspelled
  cases hspelled with
  | token hk _ =>
    rw [hck] at hk
    cases hk
    exact ⟨rfl, rfl⟩
  | timeOfDay htod =>
    have := htod.colon
    rw [hlk] at this
    cases this
  | typed hp _ _ | typedSigned hp _ _ _ =>
    rw [hck] at hp
    cases hp

section

variable {initializer : Parser Initializer} [Lawful initializer] {n : Nat} (hi : ReadsInit initializer n)

include hi

theorem arrayElement_sound {e : ArrayElement} (h : Reads (arrayElement initializer) s e s') :
    (InitPhrase.element e).Spelled s.rest s'.rest ∧ e.nesting ≤ n := by
  have hp := h.passed
  rw [arrayElement, reads_get_bind] at h
  split at h
  · next hk =>
    obtain ⟨count, s₁, h₁, h⟩ := reads_bind_iff.1 h
    obtain ⟨c, l, x, hr, hck, hlk, hr₁, rfl⟩ := count_sound hk.1 hk.2 h₁
    rw [reads_skip_bind] at h
    have hlt := h.length_le
    rw [ParserState.advance_rest_of_cons hr₁] at hlt
    have hspan := hp.spanFrom (by rw [hr]; simp only [List.length_cons]; omega)
    rw [reads_eat_bind] at h
    split at h
    · next hk =>
      rw [if_pos rfl, reads_spanFrom_bind] at h
      obtain ⟨rfl, rfl⟩ := reads_pure.1 h
      obtain ⟨r, hrr, hrk⟩ := ParserState.exists_of_kind hk (by decide)
      rw [ParserState.advance_rest_of_cons hr₁] at hrr
      rw [hspan, hr, hrr]
      exact ⟨.repeatedNone hck hlk hrk, Nat.zero_le n⟩
    · rw [if_neg (by decide)] at h
      obtain ⟨vs, s₂, h₂, h⟩ := reads_bind_iff.1 h
      rw [reads_spanFrom_bind] at h
      obtain ⟨rfl, rfl⟩ := reads_pure.1 h
      obtain ⟨r, hvs, hrk, hn⟩ := listUpTo_sound (by decide) (fun h => hi h) h₂
      rw [ParserState.advance_rest_of_cons hr₁] at hvs
      rw [hspan, hr]
      exact ⟨.repeated hck hlk (.ofValues hvs) hrk, by rwa [ArrayElement.nesting, Initializer.nestingAll_eq]⟩
  · obtain ⟨v, s₁, h₁, h⟩ := reads_bind_iff.1 h
    obtain ⟨rfl, rfl⟩ := reads_pure.1 h
    obtain ⟨hv, hn⟩ := hi h₁
    exact ⟨.single hv, hn⟩

theorem arrayInitializer_sound {v : Initializer} (hk : s.kind = .lBracket)
    (h : Reads (arrayInitializer initializer) s v s') :
    (InitPhrase.value v).Spelled s.rest s'.rest ∧ v.nesting ≤ n + 1 := by
  have hp := h.passed
  obtain ⟨l, hl, hlk⟩ := ParserState.exists_of_kind hk (by decide)
  rw [arrayInitializer, reads_offset_bind, reads_skip_bind] at h
  have hlt := h.length_le
  obtain ⟨es, s₁, h₁, h⟩ := reads_bind_iff.1 h
  rw [reads_spanFrom_bind] at h
  obtain ⟨rfl, rfl⟩ := reads_pure.1 h
  obtain ⟨r, hes, hrk, hn⟩ := listUpTo_sound (by decide) (fun h => arrayElement_sound hi h) h₁
  rw [hp.spanFrom (by rw [hl, List.length_cons]; omega), hl]
  exact ⟨.array hlk (.ofElements hes) hrk, Nat.succ_le_succ (by rwa [ArrayElement.nestingAll_eq])⟩

theorem fieldInit_sound {f : FieldInit} (h : Reads (fieldInit initializer) s f s') :
    (InitPhrase.field f).Spelled s.rest s'.rest ∧ f.nesting ≤ n := by
  have hp := h.passed
  rw [fieldInit, reads_offset_bind] at h
  obtain ⟨name, s₁, h₁, h⟩ := reads_bind_iff.1 h
  obtain ⟨hk, h⟩ := reads_expect_bind.1 h
  obtain ⟨v, s₂, h₂, h⟩ := reads_bind_iff.1 h
  rw [reads_spanFrom_bind] at h
  obtain ⟨rfl, rfl⟩ := reads_pure.1 h
  obtain ⟨t, ht, htk, rfl⟩ := ident_sound h₁
  obtain ⟨a, ha, hak⟩ := ParserState.exists_of_kind hk (by decide)
  obtain ⟨hv, hn⟩ := hi h₂
  have := hv.length_lt
  rw [hp.spanFrom (by rw [ht, ha]; simp only [List.length_cons]; omega), ht, ha]
  exact ⟨.field htk hak hv, hn⟩

theorem recordInitializer_sound {v : Initializer} (hk : s.kind = .lParen)
    (h : Reads (recordInitializer initializer) s v s') :
    (InitPhrase.value v).Spelled s.rest s'.rest ∧ v.nesting ≤ n + 1 := by
  have hp := h.passed
  obtain ⟨l, hl, hlk⟩ := ParserState.exists_of_kind hk (by decide)
  rw [recordInitializer, reads_offset_bind, reads_skip_bind] at h
  have hlt := h.length_le
  obtain ⟨fs, s₁, h₁, h⟩ := reads_bind_iff.1 h
  rw [reads_spanFrom_bind] at h
  obtain ⟨rfl, rfl⟩ := reads_pure.1 h
  obtain ⟨r, hfs, hrk, hn⟩ := listUpTo_sound (by decide) (fun h => fieldInit_sound hi h) h₁
  rw [hp.spanFrom (by rw [hl, List.length_cons]; omega), hl]
  exact ⟨.record hlk (.ofFields hfs) hrk, Nat.succ_le_succ (by rwa [FieldInit.nestingAll_eq])⟩

end

theorem initializerOf_sound {expr : Parser Expr} {deeper : Option (Parser Initializer)} {n : Nat} [Lawful expr]
    (he : ReadsAs expr (.expr 0) n) (hd : ∀ p, deeper = some p → ∃ m, n = m + 1 ∧ Lawful p ∧ ReadsInit p m) :
    ReadsInit (initializerOf expr deeper) n := by
  intro s v s' h
  rw [initializerOf, reads_get_bind] at h
  split at h
  · next hk =>
    obtain ⟨p, hdeeper, h⟩ := reads_nested.1 h
    obtain ⟨m, rfl, _, hi⟩ := hd p hdeeper
    exact arrayInitializer_sound hi hk h
  · next hk _ _ =>
    obtain ⟨p, hdeeper, h⟩ := reads_nested.1 h
    obtain ⟨m, rfl, _, hi⟩ := hd p hdeeper
    exact recordInitializer_sound hi hk h
  · obtain ⟨e, s₁, h₁, h⟩ := reads_bind_iff.1 h
    obtain ⟨rfl, rfl⟩ := reads_pure.1 h
    obtain ⟨he, hn⟩ := he h₁
    exact ⟨.expr he, hn⟩

/-- What the rule for initial values reads is spelled as one, and is nested no deeper than its levels. -/
theorem initializer_sound (levels : Nat) : ReadsInit (initializer levels) levels := by
  induction levels with
  | zero => exact initializerOf_sound (expr_sound 0) fun p h => by cases h
  | succ levels ih =>
    refine initializerOf_sound (expr_sound (levels + 1)) fun p h => ?_
    cases h
    exact ⟨levels, rfl, inferInstance, ih⟩

/-! ## Variables -/

section

variable {levels : Nat}

theorem arrayBounds_sound {b : ArrayBounds} (h : Reads (arrayBounds levels) s b s') :
    BoundsSpelled b s.rest s'.rest ∧ b.nesting ≤ levels := by
  have hp := h.passed
  rw [arrayBounds, reads_offset_bind] at h
  obtain ⟨lower, s₁, h₁, h⟩ := reads_bind_iff.1 h
  obtain ⟨hk, h⟩ := reads_expect_bind.1 h
  obtain ⟨upper, s₂, h₂, h⟩ := reads_bind_iff.1 h
  rw [reads_spanFrom_bind] at h
  obtain ⟨rfl, rfl⟩ := reads_pure.1 h
  obtain ⟨d, hd, hdk⟩ := ParserState.exists_of_kind hk (by decide)
  obtain ⟨hlower, hn₁⟩ := bound_sound levels h₁
  obtain ⟨hupper, hn₂⟩ := bound_sound levels h₂
  rw [hd] at hlower
  have hb := BoundsSpelled.mk hlower hdk hupper
  rw [hp.spanFrom hb.length_lt]
  exact ⟨hb, Nat.max_le.2 ⟨hn₁, hn₂⟩⟩

theorem oneToken_sound {k : TokenKind} (hk : k ≠ .eof) {u : Unit} (h : Reads (expect k) s u s') :
    OneToken k u s.rest s'.rest := by
  obtain ⟨hkind, rfl⟩ := reads_expect.1 h
  obtain ⟨t, ht, htk⟩ := ParserState.exists_of_kind hkind hk
  rw [ht]
  exact .mk htk

theorem arrayDimensions_sound {shape : ArrayShape} (h : Reads (arrayDimensions levels) s shape s') :
    DimensionsSpelled shape s.rest s'.rest ∧ shape.nesting ≤ levels := by
  rw [arrayDimensions, reads_sees_bind] at h
  split at h
  · obtain ⟨stars, s₁, h₁, h⟩ := reads_bind_iff.1 h
    obtain ⟨rfl, rfl⟩ := reads_pure.1 h
    have hstars : CommaList (OneToken .star) stars s.rest s'.rest ∧ deepest (fun _ => 0) stars ≤ levels :=
      commaList_sound (fun h => ⟨oneToken_sound (by decide) h, Nat.zero_le levels⟩) h₁
    exact ⟨.unbounded hstars.1, Nat.zero_le levels⟩
  · obtain ⟨bounds, s₁, h₁, h⟩ := reads_bind_iff.1 h
    obtain ⟨rfl, rfl⟩ := reads_pure.1 h
    obtain ⟨hbounds, hn⟩ := commaList_sound arrayBounds_sound h₁
    exact ⟨.bounded hbounds, hn⟩

/-- `[dimensions] OF`, behind the `ARRAY` -/
def arrayShape (levels : Nat) : Parser ArrayShape := do
  expect .lBracket
  let shape ← arrayDimensions levels
  expect .rBracket
  expect .kwOf
  return shape

/-- The length and the bracket behind it. -/
def maxLength (levels : Nat) : Parser Expr := do
  let length ← expr levels
  expect .rBracket
  return length

instance lawful_arrayShape (levels : Nat) : Lawful (arrayShape levels) := by
  unfold arrayShape
  infer_instance

instance lawful_maxLength (levels : Nat) : Lawful (maxLength levels) := by
  unfold maxLength
  infer_instance

theorem arrayShape?_eq (levels : Nat) : arrayShape? levels = optional .kwArray (arrayShape levels) := by
  simp only [arrayShape?, optional, arrayShape, bind_assoc, pure_bind]

theorem maxLength?_eq (levels : Nat) : maxLength? levels = optional .lBracket (maxLength levels) := by
  simp only [maxLength?, optional, maxLength, bind_assoc, pure_bind]

theorem arrayShape_sound {shape : ArrayShape} (h : Reads (arrayShape levels) s shape s') :
    ShapeSpelled shape s.rest s'.rest ∧ shape.nesting ≤ levels := by
  obtain ⟨hk₁, h⟩ := reads_expect_bind.1 h
  obtain ⟨shape, s₁, h₁, h⟩ := reads_bind_iff.1 h
  obtain ⟨hk₂, h⟩ := reads_expect_bind.1 h
  obtain ⟨hk₃, h⟩ := reads_expect_bind.1 h
  obtain ⟨rfl, rfl⟩ := reads_pure.1 h
  obtain ⟨l, hl, hlk⟩ := ParserState.exists_of_kind hk₁ (by decide)
  obtain ⟨r, hr, hrk⟩ := ParserState.exists_of_kind hk₂ (by decide)
  obtain ⟨o, ho, hok⟩ := ParserState.exists_of_kind hk₃ (by decide)
  obtain ⟨hshape, hn⟩ := arrayDimensions_sound h₁
  rw [hr, ho] at hshape
  rw [hl]
  exact ⟨.mk hlk hshape hrk hok, hn⟩

theorem maxLength_sound {e : Expr} (h : Reads (maxLength levels) s e s') :
    LengthSpelled e s.rest s'.rest ∧ e.nesting ≤ levels := by
  obtain ⟨e, s₁, h₁, h⟩ := reads_bind_iff.1 h
  obtain ⟨hk, h⟩ := reads_expect_bind.1 h
  obtain ⟨rfl, rfl⟩ := reads_pure.1 h
  obtain ⟨r, hr, hrk⟩ := ParserState.exists_of_kind hk (by decide)
  obtain ⟨he, hn⟩ := expr_sound levels h₁
  rw [hr] at he
  exact ⟨.mk he hrk, hn⟩

theorem expectDeclEnd_sound {u : PUnit} (h : Reads expectDeclEnd s u s') :
    ∃ t, s.rest = t :: s'.rest ∧ t.kind = .semicolon := by
  rw [expectDeclEnd, reads_sees_bind] at h
  split at h
  · next hk =>
    have := h.1
    cases this
    exact ParserState.exists_of_kind (eq_of_beq hk) (by decide)
  · rw [reads_get_bind] at h
    split at h
    · exact absurd h not_reads_missing
    · exact absurd h not_reads_fail

set_option synthInstance.maxSize 512 in
/-- What the rule for declarations reads is spelled as one. -/
theorem varDecl_sound {d : VarDecl} (h : Reads (varDecl levels) s d s') :
    DeclSpelled d s.rest s'.rest ∧ d.nesting ≤ levels := by
  have hp := h.passed
  rw [varDecl, reads_offset_bind] at h
  obtain ⟨name, s₁, h₁, h⟩ := reads_bind_iff.1 h
  have hlt := h.length_le
  obtain ⟨location, s₂, h₂, h⟩ := reads_bind_iff.1 h
  obtain ⟨hk, h⟩ := reads_expect_bind.1 h
  obtain ⟨shape, s₃, h₃, h⟩ := reads_bind_iff.1 h
  obtain ⟨type, s₄, h₄, h⟩ := reads_bind_iff.1 h
  obtain ⟨length, s₅, h₅, h⟩ := reads_bind_iff.1 h
  obtain ⟨initial, s₆, h₆, h⟩ := reads_bind_iff.1 h
  obtain ⟨_, s₇, h₇, h⟩ := reads_bind_iff.1 h
  rw [reads_spanFrom_bind] at h
  obtain ⟨rfl, rfl⟩ := reads_pure.1 h
  rw [arrayShape?_eq] at h₃
  rw [maxLength?_eq] at h₅
  obtain ⟨t, ht, htk, rfl⟩ := ident_sound h₁
  obtain ⟨c, hc, hck⟩ := ParserState.exists_of_kind hk (by decide)
  obtain ⟨e, he, hek⟩ := expectDeclEnd_sound h₇
  have hlocation : Optionally QualifiedName .kwAt location s₁.rest s₂.rest ∧ depthOf (fun _ => 0) location ≤ levels :=
    optional_sound (by decide) (fun h => ⟨qualifiedName_sound h, Nat.zero_le levels⟩) h₂
  obtain ⟨hshape, hn₁⟩ := optional_sound (by decide) arrayShape_sound h₃
  obtain ⟨htype, hn₂⟩ := typeRef_sound levels h₄
  obtain ⟨hlength, hn₃⟩ := optional_sound (by decide) maxLength_sound h₅
  have hinitial : Optionally (fun v => (InitPhrase.value v).Spelled) .assign initial s₅.rest s₆.rest ∧
      depthOf Initializer.nesting initial ≤ levels :=
    optional_sound (by decide) (fun h => initializer_sound levels h) h₆
  rw [hc] at hlocation
  rw [he] at hinitial
  rw [hp.spanFrom (by rw [ht, List.length_cons]; omega), ht]
  refine ⟨.mk htk hlocation.1 hck hshape htype hlength hinitial.1 hek, ?_⟩
  exact Nat.max_le.2 ⟨Nat.max_le.2 ⟨hn₁, hn₂⟩, Nat.max_le.2 ⟨hn₃, hinitial.2⟩⟩

/-! ## Blocks -/

/-- The word that ends a block. -/
def EndsVar (x y : List Lexeme) : Prop := ∃ e, x = e :: y ∧ e.kind = .kwEndVar

theorem varDeclTurn_sound : TurnsRow (varDeclTurn levels) DeclSpelled VarDecl.nesting levels EndsVar := by
  intro s t s' h
  rw [varDeclTurn, reads_get_bind] at h
  split at h
  · exact absurd h not_reads_fail
  · split at h
    · next hk =>
      rw [reads_skip_bind] at h
      obtain ⟨rfl, rfl⟩ := reads_pure.1 h
      exact .inr ⟨rfl, ParserState.exists_of_kind hk (by decide)⟩
    · split at h
      · split at h
        · exact absurd h not_reads_missing_bind
        · obtain ⟨d, s₁, h₁, h⟩ := reads_bind_iff.1 (reads_orRecover.1 h)
          obtain ⟨rfl, rfl⟩ := reads_pure.1 h
          exact .inl ⟨d, rfl, varDecl_sound h₁⟩
      · split at h <;> exact absurd h not_reads_missing_bind

theorem BlockKind.keyword_injective {a b : BlockKind} (h : a.keyword = b.keyword) : a = b := by
  cases a <;> cases b <;> first | rfl | cases h

/-- Without a report, a block opens with a word that has a kind, and with the one for temporary variables in an
algorithm. -/
theorem reads_varBlock {unit : UnitKind} {b : VarBlock} : Reads (varBlock levels unit) s b s' ↔
    ∃ kind : BlockKind, s.kind = kind.keyword ∧ (unit = .algorithm → kind = .temp) ∧
      Reads (blockRest levels s.span.start kind) s.advance b s' := by
  rw [varBlock_eq, reads_get_bind, reads_skip_bind]
  by_cases hk : ∃ kind : BlockKind, s.kind = kind.keyword
  · obtain ⟨kind, hk⟩ := hk
    have hok : blockKind s.span s.kind s.advance = .ok kind s.advance := by
      rw [hk]
      cases kind <;> rfl
    rw [reads_bind_of_ok hok rfl]
    split
    · next hc =>
      refine ⟨fun h => absurd h not_reads_reportAt_bind, ?_⟩
      rintro ⟨kind', hk', hunit, -⟩
      cases BlockKind.keyword_injective (hk.symm.trans hk')
      exact absurd (hunit hc.1) hc.2
    · next hc =>
      constructor
      · intro h
        refine ⟨kind, hk, fun hunit => ?_, h⟩
        by_cases hkind : kind = .temp
        · exact hkind
        · exact absurd ⟨hunit, hkind⟩ hc
      · rintro ⟨kind', hk', -, h⟩
        cases BlockKind.keyword_injective (hk.symm.trans hk')
        exact h
  · -- Any other word is reported.
    have hok : blockKind s.span s.kind s.advance = .ok .temp (s.advance.report .plainBlock s.span) := by
      unfold blockKind
      generalize s.kind = k at hk
      split
      · exact absurd ⟨.input, rfl⟩ hk
      · exact absurd ⟨.output, rfl⟩ hk
      · exact absurd ⟨.inOut, rfl⟩ hk
      · exact absurd ⟨.temp, rfl⟩ hk
      · rfl
    constructor
    · rintro ⟨h, hr⟩
      rw [bind_of_ok hok, if_neg (by simp)] at h
      have := (Lawful.reports_suffix h).length_le
      rw [hr, ParserState.report_reports, List.length_cons] at this
      omega
    · rintro ⟨kind, h, -⟩
      exact absurd ⟨kind, h⟩ hk

theorem varBlock_sound {unit : UnitKind} {b : VarBlock} (h : Reads (varBlock levels unit) s b s') :
    BlockSpelled unit b s.rest s'.rest ∧ b.nesting ≤ levels := by
  have hp := h.passed
  obtain ⟨kind, hk, hunit, h⟩ := reads_varBlock.1 h
  have hlt := h.length_le
  obtain ⟨w, hw, hwk⟩ := ParserState.exists_of_kind hk (by cases kind <;> decide)
  have hspan := hp.spanFrom (by rw [hw, List.length_cons]; omega)
  -- With the `CONSTANT` out of the way, the declarations follow.
  have hdecls {s₁ : ParserState} {isConstant : Bool} (hconstant : ConstantSpelled isConstant s.advance.rest s₁.rest)
      (h : Reads (do
        let decls ← collect (varDeclTurn levels)
        return ⟨kind, isConstant, decls, ← spanFrom s.span.start⟩) s₁ b s') :
      BlockSpelled unit b s.rest s'.rest ∧ b.nesting ≤ levels := by
    obtain ⟨decls, s₂, h₂, h⟩ := reads_bind_iff.1 h
    rw [reads_spanFrom_bind] at h
    obtain ⟨rfl, rfl⟩ := reads_pure.1 h
    obtain ⟨y, hrow, ⟨e, rfl, hek⟩, hn⟩ := varDeclTurn_sound.row DeclSpelled.length_lt h₂
    rw [hspan, hw]
    exact ⟨.mk hwk hunit hconstant hrow hek, hn⟩
  rw [blockRest, reads_eat_bind] at h
  split at h
  · next hk =>
    obtain ⟨c, hc, hck⟩ := ParserState.exists_of_kind hk (by decide)
    exact hdecls (by rw [hc]; exact .yes hck) h
  · exact hdecls .no h

end

end Parser

end StructuredText
