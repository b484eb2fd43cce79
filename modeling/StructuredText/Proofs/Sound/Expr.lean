import StructuredText.Proofs.Grammar.Expr

/-!
# What is read as an expression is spelled as one

If the rule for expressions reads `e` without a report, the tokens that it took are a spelling of `e`, and `e` is nested
no deeper than the levels of the rule (`expr_sound`). The proof goes by the levels; on one level every loop keeps the
spelling of what was read so far.
-/

namespace StructuredText

variable {s s' : ParserState}

namespace Parser

/-! ## Names -/

theorem ident_sound {what : String} {name : Name} (h : Reads (ident what) s name s') :
    ∃ t, s.rest = t :: s'.rest ∧ t.kind = .ident ∧ name = t.name := by
  rw [ident, reads_sees_bind] at h
  split at h
  · next hk =>
    obtain ⟨rfl, rfl⟩ := reads_take.1 h
    obtain ⟨t, hr, ht⟩ := ParserState.exists_of_kind (eq_of_beq hk) (by decide)
    exact ⟨t, hr, ht, ParserState.name_of_cons hr⟩
  · exact absurd h not_reads_fail

/-- One more part of a name, if there is one. -/
def nameTurn (name : Name) : Parser (Option Name) := do
  if ← eat .colonColon then
    let part ← ident "name"
    return some ⟨name.text ++ "::" ++ part.text, name.span.cover part.span⟩
  else return none

theorem qualifiedName_eq (what : String) : qualifiedName what = ident what >>= fold nameTurn := rfl

instance lawful_nameTurn (name : Name) : Lawful (nameTurn name) := by
  unfold nameTurn
  infer_instance

theorem nameTurn_sound {name : Name} {o : Option Name} (h : Reads (nameTurn name) s o s') :
    (∃ c t, s.rest = c :: t :: s'.rest ∧ c.kind = .colonColon ∧ t.kind = .ident ∧
        o = some ⟨name.text ++ "::" ++ t.text, name.span.cover t.span⟩) ∨ o = none ∧ s' = s := by
  rw [nameTurn, reads_eat_bind] at h
  split at h
  · next hk =>
    obtain ⟨c, hc, hck⟩ := ParserState.exists_of_kind hk (by decide)
    obtain ⟨part, s₁, h₁, h₂⟩ := reads_bind_iff.1 h
    obtain ⟨t, hr, ht, rfl⟩ := ident_sound h₁
    obtain ⟨rfl, rfl⟩ := reads_pure.1 h₂
    exact .inl ⟨c, t, by rw [hc, hr], hck, ht, rfl⟩
  · exact .inr (reads_pure.1 h)

theorem stepwise_nameTurn : Stepwise nameTurn := by
  intro name s name' s' h
  rcases nameTurn_sound h with ⟨c, t, hr, -⟩ | ⟨h, -⟩
  · rw [hr]
    simp only [List.length_cons]
    omega
  · cases h

theorem qualifiedName_sound {what : String} {name : Name} (h : Reads (qualifiedName what) s name s') :
    QualifiedName name s.rest s'.rest := by
  rw [qualifiedName_eq] at h
  obtain ⟨first, s₁, h₁, h₂⟩ := reads_bind_iff.1 h
  refine h₂.fold_invariant (I := fun name s₁ => QualifiedName name s.rest s₁.rest) stepwise_nameTurn ?_ ?_ ?_
  · obtain ⟨t, hr, ht, rfl⟩ := ident_sound h₁
    rw [hr]
    exact .one ht
  · intro name s₁ name' s₂ hI h
    rcases nameTurn_sound h with ⟨c, t, hr, hc, ht, ho⟩ | ⟨ho, -⟩ <;> cases ho
    rw [hr] at hI
    exact hI.more hc ht
  · intro name s₁ s₂ hI h
    rcases nameTurn_sound h with ⟨c, t, -, -, -, ho⟩ | ⟨-, rfl⟩
    · cases ho
    · exact hI

/-! ## Literals -/

theorem atTimeOfDay_iff : s.atTimeOfDay = true ↔ StartsTimeOfDay s.rest := by
  unfold ParserState.atTimeOfDay
  constructor
  · intro h
    split at h
    · next t c m d x y hr =>
      simp only [Bool.and_eq_true, Bool.or_eq_true, beq_iff_eq, ParserState.touching] at h
      obtain ⟨⟨⟨⟨⟨ht, hc⟩, hm⟩, hd⟩, hx⟩, h₁, h₂, h₃, h₄, -⟩ := h
      exact ⟨t, c, m, d, x, y, hr, ht, hc, hm, hd, hx, h₁, h₂, h₃, h₄⟩
    · cases h
  · rintro ⟨t, c, m, d, x, y, hr, ht, hc, hm, hd, hx, h₁, h₂, h₃, h₄⟩
    simp [hr, ht, hc, hm, hd, hx, ParserState.touching, h₁, h₂, h₃, h₄]

theorem tokenLiteral_sound {kind : LiteralKind} {l : Literal} {t : Lexeme} {x : List Lexeme} (hr : s.rest = t :: x)
    (h : Reads (tokenLiteral kind) s l s') : l = .ofToken kind t.name ∧ s' = s.advance := by
  rw [tokenLiteral, reads_take_bind_of_cons hr] at h
  exact reads_pure.1 h

theorem timeOfDay_sound {l : Literal} {h c m d x : Lexeme} {y : List Lexeme}
    (hr : s.rest = h :: c :: m :: d :: x :: y) (hl : Reads timeOfDay s l s') :
    l = ⟨.timeOfDay, none, h.text ++ c.text ++ m.text ++ d.text ++ x.text,
      spanBetween (h :: c :: m :: d :: x :: y) y⟩ ∧ s'.rest = y := by
  have hp := hl.passed
  rw [timeOfDay, reads_take_bind_of_cons hr, reads_take_bind_of_cons (t := c) (by simp [hr]; rfl),
    reads_take_bind_of_cons (t := m) (by simp [hr]; rfl), reads_take_bind_of_cons (t := d) (by simp [hr]; rfl),
    reads_take_bind_of_cons (t := x) (x := y) (by simp [hr]), reads_spanFrom_bind] at hl
  obtain ⟨rfl, rfl⟩ := reads_pure.1 hl
  have hy : s.advance.advance.advance.advance.advance.rest = y := by simp [hr]
  have hspan := hp.spanFrom (by simp [hr]; omega)
  rw [hy, hr, ParserState.span_of_cons hr] at hspan
  exact ⟨by rw [show h.name.span.start = h.span.start from rfl, hspan]; rfl, hy⟩

theorem sign_sound (s : ParserState) : ∃ sign s', Reads Parser.sign s sign s' ∧
    ((∃ t, s.rest = t :: s'.rest ∧ (t.kind = .minus ∨ t.kind = .plus) ∧ sign = some t.text) ∨
      sign = none ∧ s' = s) := by
  unfold Reads
  rw [sign_apply]
  split
  · next hk =>
    rcases hr : s.rest with _ | ⟨t, x⟩
    · simp [ParserState.kind_of_nil hr] at hk
    · rw [ParserState.kind_of_cons hr] at hk
      exact ⟨_, _, ⟨rfl, by simp⟩, .inl ⟨t, by simp [hr], hk, by rw [ParserState.text_of_cons hr]⟩⟩
  · exact ⟨_, _, ⟨rfl, rfl⟩, .inr ⟨rfl, rfl⟩⟩

theorem exists_of_ofToken? {kind : LiteralKind} (h : LiteralKind.ofToken? s.kind = some kind) :
    ∃ t, s.rest = t :: s.advance.rest ∧ LiteralKind.ofToken? t.kind = some kind := by
  rcases hr : s.rest with _ | ⟨t, x⟩
  · simp [ParserState.kind_of_nil hr, LiteralKind.ofToken?] at h
  · exact ⟨t, by simp [hr], by rwa [← ParserState.kind_of_cons hr]⟩

theorem typedLiteral_sound {l : Literal} (hk : s.kind = .typedLiteralPrefix) (h : Reads typedLiteral s l s') :
    LiteralSpelled l s.rest s'.rest := by
  obtain ⟨p, hp, hpk⟩ := ParserState.exists_of_kind hk (by decide)
  obtain ⟨sign, s₁, h₁, hsign⟩ := sign_sound s.advance
  rw [typedLiteral, reads_take_bind_of_cons hp] at h
  dsimp only at h
  rw [reads_bind_of_ok h₁.1 h₁.2, reads_kind_bind] at h
  split at h
  · exact absurd h not_reads_fail
  · next kind hkind =>
    obtain ⟨v, hv, hvk⟩ := exists_of_ofToken? hkind
    rw [reads_bind_of_ok (tokenLiteral_apply kind s₁) (by simp), ParserState.name_of_cons hv] at h
    simp only [Literal.ofToken_span] at h
    split at h
    · rw [reads_get_bind] at h
      exact absurd h not_reads_reportAt_bind
    · next hfault =>
      obtain ⟨rfl, rfl⟩ := reads_pure.1 h
      rcases hsign with ⟨t, ht, htk, rfl⟩ | ⟨rfl, rfl⟩
      · rw [hp, ht, hv]
        exact .typedSigned hpk htk hvk hfault
      · rw [hp, hv]
        exact .typed hpk hvk hfault

theorem literal_sound {l : Literal} (h : Reads literal s l s') : LiteralSpelled l s.rest s'.rest := by
  rw [literal, reads_get_bind] at h
  split at h
  · next hk => exact typedLiteral_sound hk h
  · split at h
    · next htod =>
      obtain ⟨t, c, m, d, x, y, hr, hx⟩ := atTimeOfDay_iff.1 htod
      obtain ⟨rfl, hy⟩ := timeOfDay_sound hr h
      rw [hr, hy]
      exact .timeOfDay hx
    · next htod =>
      split at h
      · next kind hkind =>
        obtain ⟨t, hr, htk⟩ := exists_of_ofToken? hkind
        obtain ⟨rfl, rfl⟩ := tokenLiteral_sound hr h
        rw [atTimeOfDay_iff, hr] at htod
        rw [hr]
        exact .token htk htod
      · exact absurd h not_reads_fail

/-! ## Binary operators -/

/-- What the rule reads is spelled as a phrase of the form `φ`, and is nested at most `n` deep. -/
def ReadsAs (p : Parser Expr) (φ : Expr → ExprPhrase) (n : Nat) : Prop :=
  ∀ ⦃s e s'⦄, Reads p s e s' → (φ e).Spelled s.rest s'.rest ∧ e.nesting ≤ n

section

variable {tier : BinaryTier} {operand : Parser Expr} [Lawful operand] {n : Nat}

theorem tierTurn_sound {left : Expr} {o : Option Expr} (h : Reads (tierTurn tier operand left) s o s') :
    (∃ t op right, s.rest = t :: s.advance.rest ∧ BinaryOp.ofToken? t.kind = some op ∧ op.tier = tier ∧
        Reads operand s.advance right s' ∧ o = some (.binary op left right (left.span.cover right.span))) ∨
      o = none ∧ s' = s := by
  rw [tierTurn, reads_kind_bind] at h
  split at h
  · next op hop =>
    obtain ⟨hop, htier⟩ := BinaryTier.op?_eq_some_iff.1 hop
    rw [reads_skip_bind] at h
    obtain ⟨right, s₁, h₁, h₂⟩ := reads_bind_iff.1 h
    obtain ⟨rfl, rfl⟩ := reads_pure.1 h₂
    rcases hr : s.rest with _ | ⟨t, x⟩
    · simp [ParserState.kind_of_nil hr, BinaryOp.ofToken?] at hop
    · rw [ParserState.kind_of_cons hr] at hop
      exact .inl ⟨t, op, right, by simp [hr], hop, htier, h₁, rfl⟩
  · exact .inr (reads_pure.1 h)

theorem stepwise_tierTurn : Stepwise (tierTurn tier operand) := by
  intro left s e s' h
  rcases tierTurn_sound h with ⟨t, op, right, hr, -, -, h, -⟩ | ⟨h, -⟩
  · have := h.length_le
    rw [hr, List.length_cons]
    omega
  · cases h

theorem binaryTier_sound (tier : BinaryTier) (hop : ReadsAs operand (.expr (tier.level + 1)) n) :
    ReadsAs (binaryTier tier operand) (.expr tier.level) n := by
  intro s e s' h
  rw [binaryTier_eq] at h
  obtain ⟨left, s₁, h₁, h₂⟩ := reads_bind_iff.1 h
  obtain ⟨hl, hn⟩ := hop h₁
  refine h₂.fold_invariant
    (I := fun e s₁ => (ExprPhrase.expr tier.level e).Spelled s.rest s₁.rest ∧ e.nesting ≤ n) stepwise_tierTurn
    ⟨hl.loosen (Nat.le_succ _), hn⟩ ?_ ?_
  · rintro left s₁ e s₂ ⟨hl, hn⟩ h
    rcases tierTurn_sound h with ⟨t, op, right, hr, ht, rfl, hright, ho⟩ | ⟨ho, -⟩ <;> cases ho
    obtain ⟨hright, hn'⟩ := hop hright
    rw [hr] at hl
    exact ⟨.binary (Nat.le_refl _) ht hl hright, Nat.max_le.2 ⟨hn, hn'⟩⟩
  · rintro left s₁ s₂ hI h
    rcases tierTurn_sound h with ⟨t, op, right, -, -, -, -, ho⟩ | ⟨-, rfl⟩
    · cases ho
    · exact hI

end

section

variable {unary : Parser Expr} [Lawful unary] {n : Nat} (hu : ReadsAs unary .unary n)

include hu

theorem boundOf_sound : ReadsAs (boundOf unary) (.expr 1) n := by
  have hop : ReadsAs unary (.expr 9) n := fun s e s' h => ⟨.operand (hu h).1, (hu h).2⟩
  exact binaryTier_sound .or <| binaryTier_sound .xor <| binaryTier_sound .and <|
    binaryTier_sound .equality <| binaryTier_sound .comparison <|
    binaryTier_sound .addSub <| binaryTier_sound .mulDivMod <| binaryTier_sound .power hop

theorem exprOf_sound : ReadsAs (exprOf unary) (.expr 0) n :=
  binaryTier_sound .subrange (boundOf_sound hu)

/-! ## Brackets -/

theorem exprs_sound {es : List Expr} (h : Reads (sepByComma (exprOf unary)) s es s') :
    (ExprPhrase.exprs es).Spelled s.rest s'.rest ∧ Expr.nestingAll es ≤ n := by
  refine h.sepByComma_sound (R := fun e x y => (ExprPhrase.expr 0 e).Spelled x y ∧ e.nesting ≤ n)
    (L := fun es x y => (ExprPhrase.exprs es).Spelled x y ∧ Expr.nestingAll es ≤ n) (fun h => exprOf_sound hu h) ?_ ?_
  · rintro e x y ⟨he, hn⟩
    exact ⟨.lastExpr he, Nat.max_le.2 ⟨hn, Nat.zero_le n⟩⟩
  · rintro e es c x y z ⟨he, hn⟩ hc ⟨hes, hns⟩
    exact ⟨.moreExprs he hc hes, Nat.max_le.2 ⟨hn, hns⟩⟩

theorem indices_sound {es : List Expr} (h : Reads (indices unary) s es s') :
    ∃ r, (ExprPhrase.exprs es).Spelled s.advance.rest (r :: s'.rest) ∧ r.kind = .rBracket ∧ Expr.nestingAll es ≤ n := by
  rw [indices, reads_skip_bind] at h
  obtain ⟨es', s₁, h₁, h⟩ := reads_bind_iff.1 h
  obtain ⟨hk, h⟩ := reads_expect_bind.1 h
  obtain ⟨rfl, rfl⟩ := reads_pure.1 h
  obtain ⟨hes, hn⟩ := exprs_sound hu h₁
  obtain ⟨r, hr, hrk⟩ := ParserState.exists_of_kind hk (by decide)
  exact ⟨r, hr ▸ hes, hrk, hn⟩

theorem parenthesized_sound {e : Expr} (h : Reads (parenthesized unary) s e s') :
    ∃ r, (ExprPhrase.expr 0 e).Spelled s.advance.rest (r :: s'.rest) ∧ r.kind = .rParen ∧ e.nesting ≤ n := by
  rw [parenthesized, reads_skip_bind] at h
  obtain ⟨e', s₁, h₁, h⟩ := reads_bind_iff.1 h
  obtain ⟨hk, h⟩ := reads_expect_bind.1 h
  obtain ⟨rfl, rfl⟩ := reads_pure.1 h
  obtain ⟨he, hn⟩ := exprOf_sound hu h₁
  obtain ⟨r, hr, hrk⟩ := ParserState.exists_of_kind hk (by decide)
  exact ⟨r, hr ▸ he, hrk, hn⟩

/-- The value of a parameter is an expression, and the argument ends with it. -/
theorem paramValue_sound {f : Expr → Span → Arg} {start : Nat} {a : Arg}
    (h : Reads (do let value ← exprOf unary; return f value (← spanFrom start)) s a s') :
    ∃ e, a = f e (s'.spanFrom start) ∧ (ExprPhrase.expr 0 e).Spelled s.rest s'.rest ∧ e.nesting ≤ n := by
  obtain ⟨e, s₁, h₁, h⟩ := reads_bind_iff.1 h
  rw [reads_spanFrom_bind] at h
  obtain ⟨rfl, rfl⟩ := reads_pure.1 h
  exact ⟨e, rfl, exprOf_sound hu h₁⟩

theorem arg_sound {a : Arg} (h : Reads (arg unary) s a s') :
    (ExprPhrase.arg a).Spelled s.rest s'.rest ∧ a.nesting ≤ n := by
  have hp := h.passed
  rw [arg, reads_get_bind] at h
  dsimp only at h
  split at h
  · next hk₀ hk₁ hk₂ =>
    rw [ParserState.kindAt_one] at hk₁
    rw [ParserState.kindAt_two] at hk₂
    obtain ⟨t, ht, htk⟩ := ParserState.exists_of_kind hk₀ (by decide)
    obtain ⟨p, hpr, hpk⟩ := ParserState.exists_of_kind hk₁ (by decide)
    obtain ⟨a, ha, hak⟩ := ParserState.exists_of_kind hk₂ (by decide)
    rw [reads_skip_bind, arg.output, reads_take_bind_of_cons hpr, reads_skip_bind] at h
    obtain ⟨e, rfl, he, hn⟩ := paramValue_sound hu h
    have := he.length_lt
    rw [hp.spanFrom (by rw [ht, hpr, ha]; simp only [List.length_cons]; omega), ht, hpr, ha]
    exact ⟨.negatedOutput htk hpk hak he, hn⟩
  · next _ hk₀ hk₁ =>
    rw [ParserState.kindAt_one] at hk₁
    obtain ⟨p, hpr, hpk⟩ := ParserState.exists_of_kind hk₀ (by decide)
    obtain ⟨a, ha, hak⟩ := ParserState.exists_of_kind hk₁ (by decide)
    rw [arg.output, reads_take_bind_of_cons hpr, reads_skip_bind] at h
    obtain ⟨e, rfl, he, hn⟩ := paramValue_sound hu h
    have := he.length_lt
    rw [hp.spanFrom (by rw [hpr, ha]; simp only [List.length_cons]; omega), hpr, ha]
    exact ⟨.output hpk hak he, hn⟩
  · next _ hk₀ hk₁ =>
    rw [ParserState.kindAt_one] at hk₁
    obtain ⟨p, hpr, hpk⟩ := ParserState.exists_of_kind hk₀ (by decide)
    obtain ⟨a, ha, hak⟩ := ParserState.exists_of_kind hk₁ (by decide)
    rw [reads_take_bind_of_cons hpr, reads_skip_bind] at h
    obtain ⟨e, rfl, he, hn⟩ := paramValue_sound hu h
    have := he.length_lt
    rw [hp.spanFrom (by rw [hpr, ha]; simp only [List.length_cons]; omega), hpr, ha]
    exact ⟨.input hpk hak he, hn⟩
  · obtain ⟨e, s₁, h₁, h⟩ := reads_bind_iff.1 h
    obtain ⟨rfl, rfl⟩ := reads_pure.1 h
    obtain ⟨he, hn⟩ := exprOf_sound hu h₁
    exact ⟨.positional he, hn⟩

theorem sepByComma_arg_sound {as : List Arg} (h : Reads (sepByComma (arg unary)) s as s') :
    (ExprPhrase.args as).Spelled s.rest s'.rest ∧ Arg.nestingAll as ≤ n := by
  refine h.sepByComma_sound (R := fun a x y => (ExprPhrase.arg a).Spelled x y ∧ a.nesting ≤ n)
    (L := fun as x y => (ExprPhrase.args as).Spelled x y ∧ Arg.nestingAll as ≤ n) (fun h => arg_sound hu h) ?_ ?_
  · rintro a x y ⟨ha, hn⟩
    exact ⟨.lastArg ha, Nat.max_le.2 ⟨hn, Nat.zero_le n⟩⟩
  · rintro a as c x y z ⟨ha, hn⟩ hc ⟨has, hns⟩
    exact ⟨.moreArgs ha hc has, Nat.max_le.2 ⟨hn, hns⟩⟩

theorem args_sound {as : List Arg} (h : Reads (args unary) s as s') :
    ∃ r, ((as = [] ∧ s.advance.rest = r :: s'.rest) ∨ (ExprPhrase.args as).Spelled s.advance.rest (r :: s'.rest)) ∧
      r.kind = .rParen ∧ Arg.nestingAll as ≤ n := by
  rw [args, reads_skip_bind, reads_eat_bind] at h
  split at h
  · next hk =>
    obtain ⟨rfl, rfl⟩ := reads_pure.1 h
    obtain ⟨r, hr, hrk⟩ := ParserState.exists_of_kind hk (by decide)
    exact ⟨r, .inl ⟨rfl, hr⟩, hrk, Nat.zero_le n⟩
  · obtain ⟨as', s₁, h₁, h⟩ := reads_bind_iff.1 h
    obtain ⟨hk, h⟩ := reads_expect_bind.1 h
    obtain ⟨rfl, rfl⟩ := reads_pure.1 h
    obtain ⟨has, hn⟩ := sepByComma_arg_sound hu h₁
    obtain ⟨r, hr, hrk⟩ := ParserState.exists_of_kind hk (by decide)
    exact ⟨r, .inr (hr ▸ has), hrk, hn⟩

end

/-! ## Primaries and suffixes -/

section

variable {deeper : Option (Parser Expr)} [LawfulDeeper deeper] {n : Nat}

/-- The rule one level deeper, if there is one, reads unary expressions of a smaller nesting. -/
def ReadsDeeper (deeper : Option (Parser Expr)) (n : Nat) : Prop :=
  ∀ unary, deeper = some unary → ∃ m, n = m + 1 ∧ Lawful unary ∧ ReadsAs unary .unary m

variable (hd : ReadsDeeper deeper n)

include hd

theorem primary_sound : ReadsAs (primary deeper) .primary n := by
  intro s e s' h
  have hp := h.passed
  rw [primary, reads_get_bind] at h
  dsimp only at h
  split at h
  · next hk =>
    obtain ⟨unary, hdeeper, h⟩ := reads_nested.1 h
    obtain ⟨m, rfl, _, hu⟩ := hd unary hdeeper
    obtain ⟨e, s₁, h₁, h⟩ := reads_bind_iff.1 h
    rw [reads_spanFrom_bind] at h
    obtain ⟨rfl, rfl⟩ := reads_pure.1 h
    obtain ⟨l, hl, hlk⟩ := ParserState.exists_of_kind hk (by decide)
    obtain ⟨r, he, hr, hn⟩ := parenthesized_sound hu h₁
    have hlt := he.length_lt
    rw [List.length_cons] at hlt
    rw [hp.spanFrom (by rw [hl, List.length_cons]; omega), hl]
    exact ⟨.paren hlk he hr, Nat.succ_le_succ hn⟩
  · obtain ⟨name, s₁, h₁, h⟩ := reads_bind_iff.1 h
    obtain ⟨rfl, rfl⟩ := reads_pure.1 h
    exact ⟨.name (qualifiedName_sound h₁), Nat.zero_le n⟩
  · next hk =>
    obtain ⟨t, hr, htk⟩ := ParserState.exists_of_kind hk (by decide)
    rw [reads_take_bind_of_cons hr] at h
    obtain ⟨rfl, rfl⟩ := reads_pure.1 h
    rw [hr]
    exact ⟨.this htk, Nat.zero_le n⟩
  · next hk =>
    obtain ⟨t, hr, htk⟩ := ParserState.exists_of_kind hk (by decide)
    rw [reads_take_bind_of_cons hr] at h
    obtain ⟨rfl, rfl⟩ := reads_pure.1 h
    rw [hr]
    exact ⟨.super htk, Nat.zero_le n⟩
  · next hk =>
    split at h
    · next hc =>
      obtain ⟨hk₁, htype⟩ := hc
      rw [ParserState.kindAt_one] at hk₁
      obtain ⟨p, hr, hpk⟩ := ParserState.exists_of_kind hk (by decide)
      obtain ⟨t, ht, htk⟩ := ParserState.exists_of_kind hk₁ (by decide)
      rw [reads_take_bind_of_cons hr, reads_take_bind_of_cons ht] at h
      obtain ⟨rfl, rfl⟩ := reads_pure.1 h
      have hname : LiteralType.ofName? (withoutHash p.text) = none := by
        simpa [ParserState.atLiteralType, hk, ParserState.text_of_cons hr] using htype
      rw [hr, ht]
      exact ⟨.enumerated hpk hname htk, Nat.zero_le n⟩
    · obtain ⟨l, s₁, h₁, h⟩ := reads_bind_iff.1 h
      obtain ⟨rfl, rfl⟩ := reads_pure.1 h
      exact ⟨.literal (literal_sound h₁), Nat.zero_le n⟩
  · split at h
    · obtain ⟨l, s₁, h₁, h⟩ := reads_bind_iff.1 h
      obtain ⟨rfl, rfl⟩ := reads_pure.1 h
      exact ⟨.literal (literal_sound h₁), Nat.zero_le n⟩
    · exact absurd h not_reads_fail

theorem selection_sound {e e' : Expr} {s₀ : ParserState} {d : Lexeme} (hp : Passed s₀ s) (hd₀ : d.kind = .dot)
    (he : (ExprPhrase.access e).Spelled s₀.rest (d :: s.rest)) (hn : e.nesting ≤ n)
    (h : Reads (selection deeper e s₀.span.start) s e' s') :
    (ExprPhrase.access e').Spelled s₀.rest s'.rest ∧ e'.nesting ≤ n := by
  have hspan : s'.spanFrom s₀.span.start = spanBetween s₀.rest s'.rest := by
    have := he.length_lt
    have := h.length_le
    exact (hp.trans h.passed).spanFrom (by simp only [List.length_cons] at *; omega)
  rw [selection, reads_kind_bind] at h
  split at h
  · next hk =>
    obtain ⟨t, hr, htk⟩ := ParserState.exists_of_kind hk (by decide)
    rw [reads_take_bind_of_cons hr, reads_spanFrom_bind] at h
    obtain ⟨rfl, rfl⟩ := reads_pure.1 h
    rw [hspan]
    rw [hr] at he
    exact ⟨.member he hd₀ htk, hn⟩
  · next hk =>
    obtain ⟨t, hr, htk⟩ := ParserState.exists_of_kind hk (by decide)
    rw [reads_take_bind_of_cons hr, reads_spanFrom_bind] at h
    obtain ⟨rfl, rfl⟩ := reads_pure.1 h
    rw [hspan]
    rw [hr] at he
    exact ⟨.part he hd₀ htk, hn⟩
  · next width hk =>
    obtain ⟨w, hw, hwk⟩ := ParserState.exists_of_kind hk (by simp)
    rw [reads_skip_bind, reads_kind_bind] at h
    split at h
    · next hk =>
      obtain ⟨t, hr, htk⟩ := ParserState.exists_of_kind hk (by decide)
      rw [reads_take_bind_of_cons hr, reads_spanFrom_bind] at h
      obtain ⟨rfl, rfl⟩ := reads_pure.1 h
      rw [hspan]
      rw [hw, hr] at he
      exact ⟨.widePart he hd₀ hwk htk, hn⟩
    · next hk =>
      obtain ⟨l, hl, hlk⟩ := ParserState.exists_of_kind hk (by decide)
      obtain ⟨i, s₁, h₁, h⟩ := reads_bind_iff.1 h
      obtain ⟨unary, hdeeper, h₁⟩ := reads_nested.1 h₁
      obtain ⟨m, rfl, _, hu⟩ := hd unary hdeeper
      rw [reads_spanFrom_bind] at h
      obtain ⟨rfl, rfl⟩ := reads_pure.1 h
      obtain ⟨r, hi, hr, hm⟩ := parenthesized_sound hu h₁
      rw [hspan]
      rw [hw, hl] at he
      exact ⟨.partAt he hd₀ hwk hlk hi hr, Nat.max_le.2 ⟨hn, Nat.succ_le_succ hm⟩⟩
    · exact absurd h not_reads_fail
  · exact absurd h not_reads_fail

theorem suffix?_sound {e : Expr} {o : Option Expr} {s₀ : ParserState} (hp : Passed s₀ s)
    (he : (ExprPhrase.access e).Spelled s₀.rest s.rest) (hn : e.nesting ≤ n)
    (h : Reads (suffix? deeper s₀.span.start e) s o s') :
    (∃ e', o = some e' ∧ (ExprPhrase.access e').Spelled s₀.rest s'.rest ∧ e'.nesting ≤ n) ∨ o = none ∧ s' = s := by
  have hspan : s'.spanFrom s₀.span.start = spanBetween s₀.rest s'.rest := by
    have := he.length_lt
    have := h.length_le
    exact (hp.trans h.passed).spanFrom (by omega)
  rw [suffix?, reads_kind_bind] at h
  split at h
  · next hk =>
    obtain ⟨d, hr, hdk⟩ := ParserState.exists_of_kind hk (by decide)
    rw [reads_skip_bind] at h
    obtain ⟨e', s₁, h₁, h⟩ := reads_bind_iff.1 h
    obtain ⟨rfl, rfl⟩ := reads_pure.1 h
    rw [hr] at he
    exact .inl ⟨e', rfl, selection_sound hd (hp.trans (.advance s)) hdk he hn h₁⟩
  · next hk =>
    obtain ⟨l, hr, hlk⟩ := ParserState.exists_of_kind hk (by decide)
    obtain ⟨es, s₁, h₁, h⟩ := reads_bind_iff.1 h
    obtain ⟨unary, hdeeper, h₁⟩ := reads_nested.1 h₁
    obtain ⟨m, rfl, _, hu⟩ := hd unary hdeeper
    rw [reads_spanFrom_bind] at h
    obtain ⟨rfl, rfl⟩ := reads_pure.1 h
    obtain ⟨r, hes, hrk, hm⟩ := indices_sound hu h₁
    rw [hspan]
    rw [hr] at he
    exact .inl ⟨_, rfl, .index he hlk hes hrk, Nat.max_le.2 ⟨hn, Nat.succ_le_succ hm⟩⟩
  · next hk =>
    split at h
    · next hcall =>
      obtain ⟨l, hr, hlk⟩ := ParserState.exists_of_kind hk (by decide)
      obtain ⟨as, s₁, h₁, h⟩ := reads_bind_iff.1 h
      obtain ⟨unary, hdeeper, h₁⟩ := reads_nested.1 h₁
      obtain ⟨m, rfl, _, hu⟩ := hd unary hdeeper
      rw [reads_spanFrom_bind] at h
      obtain ⟨rfl, rfl⟩ := reads_pure.1 h
      obtain ⟨r, has, hrk, hm⟩ := args_sound hu h₁
      rw [hspan]
      rw [hr] at he
      refine .inl ⟨_, rfl, ?_, Nat.max_le.2 ⟨hn, Nat.succ_le_succ hm⟩⟩
      rcases has with ⟨rfl, has⟩ | has
      · rw [has] at he
        exact .callEmpty he hcall hlk hrk
      · exact .call he hcall hlk has hrk
    · exact .inr (reads_pure.1 h)
  · exact .inr (reads_pure.1 h)

end

section

variable {deeper : Option (Parser Expr)} [LawfulDeeper deeper]

theorem stepwise_suffix? (start : Nat) : Stepwise (suffix? deeper start) := by
  intro e s e' s' h
  rw [suffix?, reads_kind_bind] at h
  split at h
  · next hk => exact length_lt_of_skip hk (by decide) h
  · next hk =>
    obtain ⟨es, s₁, h₁, h⟩ := reads_bind_iff.1 h
    obtain ⟨unary, hu, h₁⟩ := reads_nested.1 h₁
    have := LawfulDeeper.of_mem unary hu
    rw [indices] at h₁
    exact Nat.lt_of_le_of_lt h.length_le (length_lt_of_skip hk (by decide) h₁)
  · next hk =>
    split at h
    · obtain ⟨as, s₁, h₁, h⟩ := reads_bind_iff.1 h
      obtain ⟨unary, hu, h₁⟩ := reads_nested.1 h₁
      have := LawfulDeeper.of_mem unary hu
      rw [args] at h₁
      exact Nat.lt_of_le_of_lt h.length_le (length_lt_of_skip hk (by decide) h₁)
    · cases (reads_pure.1 h).1
  · cases (reads_pure.1 h).1

theorem accessOf_sound {n : Nat} (hd : ReadsDeeper deeper n) : ReadsAs (accessOf deeper) .access n := by
  intro s e s' h
  rw [accessOf, reads_offset_bind] at h
  obtain ⟨first, s₁, h₁, h₂⟩ := reads_bind_iff.1 h
  obtain ⟨hfirst, hn⟩ := primary_sound hd h₁
  have hI := h₂.fold_invariant
    (I := fun e s₁ => Passed s s₁ ∧ (ExprPhrase.access e).Spelled s.rest s₁.rest ∧ e.nesting ≤ n)
    (stepwise_suffix? _) ⟨h₁.passed, .primary hfirst, hn⟩ ?_ ?_
  · exact hI.2
  · rintro e s₁ e' s₂ ⟨hp, he, hn⟩ h
    rcases suffix?_sound hd hp he hn h with ⟨_, ho, hI⟩ | ⟨ho, -⟩ <;> cases ho
    exact ⟨hp.trans h.passed, hI⟩
  · rintro e s₁ s₂ ⟨hp, he, hn⟩ h
    rcases suffix?_sound hd hp he hn h with ⟨_, ho, -⟩ | ⟨-, rfl⟩
    · cases ho
    · exact ⟨hp, he, hn⟩

theorem unaryOf_sound {n : Nat} (hd : ReadsDeeper deeper n) : ReadsAs (unaryOf deeper) .unary n := by
  intro s e s' h
  have hp := h.passed
  rw [unaryOf, reads_kind_bind] at h
  split at h
  · next op hop =>
    rw [reads_offset_bind, reads_skip_bind] at h
    obtain ⟨e, s₁, h₁, h⟩ := reads_bind_iff.1 h
    obtain ⟨unary, hdeeper, h₁⟩ := reads_nested.1 h₁
    obtain ⟨m, rfl, _, hu⟩ := hd unary hdeeper
    rw [reads_spanFrom_bind] at h
    obtain ⟨rfl, rfl⟩ := reads_pure.1 h
    obtain ⟨he, hn⟩ := hu h₁
    rcases hr : s.rest with _ | ⟨o, x⟩
    · simp [ParserState.kind_of_nil hr, UnaryOp.ofToken?] at hop
    · rw [ParserState.kind_of_cons hr] at hop
      rw [ParserState.advance_rest_of_cons hr] at he
      have := he.length_lt
      rw [hp.spanFrom (by rw [hr, List.length_cons]; omega), hr]
      exact ⟨.unary hop he, Nat.succ_le_succ hn⟩
  · obtain ⟨he, hn⟩ := accessOf_sound hd h
    exact ⟨.access he, hn⟩

end

/-! ## All levels -/

/-- What the rule for unary expressions reads is spelled as one, and is nested no deeper than its levels. -/
theorem unary_sound (levels : Nat) : ReadsAs (unary levels) .unary levels := by
  induction levels with
  | zero => exact unaryOf_sound fun p hp => by cases hp
  | succ levels ih =>
    refine unaryOf_sound fun p hp => ?_
    cases hp
    exact ⟨levels, rfl, inferInstance, ih⟩

/-- What the rule for expressions reads is spelled as one, and is nested no deeper than its levels. -/
theorem expr_sound (levels : Nat) : ReadsAs (expr levels) (.expr 0) levels := exprOf_sound (unary_sound levels)

theorem bound_sound (levels : Nat) : ReadsAs (bound levels) (.expr 1) levels := boundOf_sound (unary_sound levels)

end Parser

end StructuredText
