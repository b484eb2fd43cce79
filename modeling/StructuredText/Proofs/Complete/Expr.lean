import StructuredText.Proofs.Gives
import StructuredText.Proofs.Sound.Expr

/-!
# What is spelled as an expression is read as one

Where the tokens to come begin with a spelling of `e`, and the token behind it does not go on with the expression, the
rule for expressions reads `e` and stops there, if its levels are enough for the nesting of `e` (`expr_complete`). The
proof goes by the derivation of the spelling. A chain of operators or suffixes is derived from its last link on and
read from its first one on; what is kept along the chain is that the rest of the loop goes on from the tree so far
(`ReadBy`).
-/

namespace StructuredText

namespace TokenKind

/-- A suffix or another part of a name begins here. -/
def startsSuffix : TokenKind → Bool
  | dot | lBracket | lParen | colonColon => true
  | _ => false

/-- A token of this kind does not go on with an expression of the tiers from `level` on. -/
def endsTier (level : Nat) (k : TokenKind) : Bool :=
  !k.startsSuffix && (BinaryOp.ofToken? k).all fun op => op.tier.level < level

variable {k : TokenKind} {op : BinaryOp} {m n : Nat}

theorem endsTier_iff : k.endsTier n = true ↔
    k.startsSuffix = false ∧ ∀ op, BinaryOp.ofToken? k = some op → op.tier.level < n := by
  simp [endsTier, Option.all_eq_true]

theorem startsSuffix_of_op (h : BinaryOp.ofToken? k = some op) : k.startsSuffix = false := by
  cases k <;> simp [BinaryOp.ofToken?] at h <;> rfl

theorem endsTier_of_op (h : BinaryOp.ofToken? k = some op) (hlt : op.tier.level < n) : k.endsTier n = true :=
  endsTier_iff.2 ⟨startsSuffix_of_op h, fun op' hop => by rw [h] at hop; cases hop; exact hlt⟩

theorem endsTier_mono (h : k.endsTier m = true) (hle : m ≤ n) : k.endsTier n = true := by
  obtain ⟨hk, hlt⟩ := endsTier_iff.1 h
  exact endsTier_iff.2 ⟨hk, fun op hop => Nat.lt_of_lt_of_le (hlt op hop) hle⟩

theorem ne_colonColon_of_endsTier (h : k.endsTier n = true) : k ≠ .colonColon := by
  rintro rfl
  cases h

end TokenKind

namespace Parser

variable {x₀ x y z : List Lexeme}

/-! ## Names and literals -/

theorem ident_complete {what : String} {t : Lexeme} (ht : t.kind = .ident) : Gives (ident what) (t :: x) t.name x := by
  refine GivesFrom.gives (.sees ?_)
  simp only [headKind_cons, ht, beq_self_eq_true, if_true]
  exact Gives.take.from

theorem qualifiedName_complete {what : String} {name : Name} (h : QualifiedName name x y)
    (hy : headKind y ≠ .colonColon) : Gives (qualifiedName what) x name y := by
  suffices hsuff : ∀ b z, Gives (fold nameTurn name) y b z → Gives (ident what >>= fold nameTurn) x b z by
    rw [qualifiedName_eq]
    exact hsuff name y (.fold_none stepwise_nameTurn (GivesFrom.gives (.eat_none hy .pure)))
  clear hy
  induction h with
  | one ht => exact fun b z h => (ident_complete ht).bind h
  | more _ hc ht ih =>
    intro b z h
    refine ih b z (.fold_some stepwise_nameTurn (GivesFrom.gives (.eat hc ?_)) h)
    exact (ident_complete ht).from.bind .pure

theorem tokenLiteral_complete {kind : LiteralKind} {t : Lexeme} :
    Gives (tokenLiteral kind) (t :: x) (.ofToken kind t.name) x :=
  GivesFrom.gives (.take .pure)

theorem timeOfDay_complete {h c m d s : Lexeme} :
    Gives timeOfDay (h :: c :: m :: d :: s :: y) ⟨.timeOfDay, none, h.text ++ c.text ++ m.text ++ d.text ++ s.text,
      spanBetween (h :: c :: m :: d :: s :: y) y⟩ y :=
  GivesFrom.gives <| .take <| .take <| .take <| .take <| .take <|
    .spanFrom (by simp only [List.length_cons]; omega) .pure

theorem sign_complete {t : Lexeme} (ht : t.kind = .minus ∨ t.kind = .plus) :
    Gives Parser.sign (t :: x) (some t.text) x := by
  refine GivesFrom.gives (.kind ?_)
  rcases ht with ht | ht <;> simp only [headKind_cons, ht] <;> exact .take .pure

theorem sign_complete_none {kind : LiteralKind} (h : LiteralKind.ofToken? (headKind x) = some kind) :
    Gives Parser.sign x none x := by
  refine GivesFrom.gives (.kind ?_)
  split
  · next hk => simp [hk, LiteralKind.ofToken?] at h
  · next hk => simp [hk, LiteralKind.ofToken?] at h
  · exact .pure

theorem typedLiteral_complete {kind : LiteralKind} {sign : Option String} {p v : Lexeme} {z : List Lexeme}
    (hsign : Gives Parser.sign z sign (v :: y)) (hv : LiteralKind.ofToken? v.kind = some kind)
    (hfault : LiteralFault.of? (withoutHash p.text) kind sign.isSome = none) :
    Gives typedLiteral (p :: z) (.typed kind p (sign.getD "") v) y := by
  refine GivesFrom.gives (.take (hsign.from.bind (.kind ?_)))
  simp only [headKind_cons, hv]
  refine tokenLiteral_complete.from.bind ?_
  simp only [Lexeme.name, hfault, Literal.ofToken_span]
  exact .pure

theorem headKind_cons_of_ofToken? {kind : LiteralKind} {k : TokenKind} (h : LiteralKind.ofToken? k = some kind) :
    k ≠ .typedLiteralPrefix := by
  rintro rfl
  cases h

theorem literal_complete {l : Literal} (h : LiteralSpelled l x y) : Gives literal x l y := by
  refine GivesFrom.gives (.get fun s hs => ?_)
  have hkind : s.kind = headKind x := by rw [s.kind_eq_headKind, hs]
  cases h with
  | @token kind t _ hk htod =>
    have htod : ¬s.atTimeOfDay = true := by rwa [atTimeOfDay_iff, hs]
    rw [headKind_cons] at hkind
    split
    · next heq => exact absurd (hkind.symm.trans heq) (headKind_cons_of_ofToken? hk)
    · rw [if_neg htod]
      simp only [hkind, hk]
      exact tokenLiteral_complete.from
  | @timeOfDay t c m d u _ h =>
    have htod : s.atTimeOfDay = true := atTimeOfDay_iff.2 ⟨_, _, _, _, _, _, hs, h⟩
    rw [headKind_cons, h.hours] at hkind
    split
    · next heq => rw [hkind] at heq; cases heq
    · rw [if_pos htod]
      exact timeOfDay_complete.from
  | typed hp hv hfault =>
    rw [headKind_cons, hp] at hkind
    simp only [hkind]
    exact (typedLiteral_complete (sign_complete_none (by simpa using hv)) hv hfault).from
  | typedSigned hp hsign hv hfault =>
    rw [headKind_cons, hp] at hkind
    simp only [hkind]
    exact (typedLiteral_complete (sign_complete hsign) hv hfault).from

/-! ## Binary operators -/

/-- The tiers from a level on over a rule for their operands. -/
def tiersFrom (level : Nat) (unary : Parser Expr) : Parser Expr :=
  ([.subrange, .or, .xor, .and, .equality, .comparison, .addSub, .mulDivMod, .power].drop level).foldr binaryTier unary

theorem exprOf_eq (unary : Parser Expr) : exprOf unary = tiersFrom 0 unary := rfl

theorem boundOf_eq (unary : Parser Expr) : boundOf unary = tiersFrom 1 unary := rfl

theorem tiersFrom_level (tier : BinaryTier) (unary : Parser Expr) :
    tiersFrom tier.level unary =
      tiersFrom (tier.level + 1) unary >>= fold (tierTurn tier (tiersFrom (tier.level + 1) unary)) := by
  cases tier <;> rfl

theorem tiersFrom_of_le {level : Nat} (h : 9 ≤ level) (unary : Parser Expr) : tiersFrom level unary = unary := by
  rw [tiersFrom, List.drop_of_length_le (by simpa using h)]
  rfl

theorem exists_tier {level : Nat} (h : level < 9) : ∃ tier : BinaryTier, tier.level = level := by
  match level, h with
  | 0, _ => exact ⟨.subrange, rfl⟩
  | 1, _ => exact ⟨.or, rfl⟩
  | 2, _ => exact ⟨.xor, rfl⟩
  | 3, _ => exact ⟨.and, rfl⟩
  | 4, _ => exact ⟨.equality, rfl⟩
  | 5, _ => exact ⟨.comparison, rfl⟩
  | 6, _ => exact ⟨.addSub, rfl⟩
  | 7, _ => exact ⟨.mulDivMod, rfl⟩
  | 8, _ => exact ⟨.power, rfl⟩

theorem BinaryTier.level_injective {a b : BinaryTier} (h : a.level = b.level) : a = b := by
  cases a <;> cases b <;> first | rfl | cases h

instance lawful_tiersFrom (level : Nat) {unary : Parser Expr} [Lawful unary] : Lawful (tiersFrom level unary) := by
  unfold tiersFrom
  induction List.drop level _ with
  | nil => assumption
  | cons tier tiers ih => exact lawful_binaryTier tier

section

variable {unary : Parser Expr} [Lawful unary] {e : Expr} {tier : BinaryTier}

/-- No operator of the tier is to come. -/
theorem tierTurn_none {operand : Parser Expr} (hy : (headKind y).endsTier tier.level = true) :
    Gives (tierTurn tier operand e) y none y := by
  refine GivesFrom.gives (.kind ?_)
  have hnone : tier.op? (headKind y) = none := by
    rw [Option.eq_none_iff_forall_ne_some]
    intro op h
    obtain ⟨hop, rfl⟩ := BinaryTier.op?_eq_some_iff.1 h
    exact Nat.lt_irrefl _ ((TokenKind.endsTier_iff.1 hy).2 op hop)
  simp only [hnone]
  exact .pure

omit [Lawful unary] in
/-- An operator of the tier and its right operand. -/
theorem tierTurn_some {operand : Parser Expr} [Lawful operand] {op : BinaryOp} {right : Expr} {o : Lexeme}
    (ho : BinaryOp.ofToken? o.kind = some op) (h : Gives operand y right z) :
    Gives (tierTurn op.tier operand e) (o :: y) (some (.binary op e right (e.span.cover right.span))) z := by
  refine GivesFrom.gives (.kind ?_)
  simp only [headKind_cons, BinaryTier.op?_eq_some_iff.2 ⟨ho, rfl⟩]
  exact .skip (h.from.bind .pure)

theorem tiersFrom_stop (h : ∀ b z, Gives (fold (tierTurn tier (tiersFrom (tier.level + 1) unary)) e) y b z →
      Gives (tiersFrom tier.level unary) x b z) (hy : (headKind y).endsTier tier.level = true) :
    Gives (tiersFrom tier.level unary) x e y :=
  h e y (.fold_none stepwise_tierTurn (tierTurn_none hy))

/-- What a tier reads, the looser tiers read as well, where nothing goes on with them. -/
theorem tiersFrom_loosen {m n : Nat} (h : Gives (tiersFrom n unary) x e y) (hle : m ≤ n)
    (hy : (headKind y).endsTier m = true) : Gives (tiersFrom m unary) x e y := by
  induction hle with
  | refl => exact h
  | @step n hle ih =>
    refine ih ?_
    by_cases hn : n < 9
    · obtain ⟨tier, rfl⟩ := exists_tier hn
      refine tiersFrom_stop (fun b z hb => ?_) (TokenKind.endsTier_mono hy hle)
      rw [tiersFrom_level]
      exact h.bind hb
    · rwa [tiersFrom_of_le (by omega)] at h ⊢

end

/-! ## Suffixes -/

section

variable {deeper : Option (Parser Expr)} {t : Lexeme} {e : Expr}

theorem selection_member {n : Lexeme} (hn : n.kind = .ident) (hlt : y.length < (t :: x₀).length) :
    GivesFrom (t :: x₀) (selection deeper e t.span.start) (n :: y) (.member e n.name (spanBetween (t :: x₀) y)) y := by
  refine .kind ?_
  simp only [headKind_cons, hn]
  exact .take (.spanFrom hlt .pure)

theorem selection_part {n : Lexeme} (hn : n.kind = .intLiteral) (hlt : y.length < (t :: x₀).length) :
    GivesFrom (t :: x₀) (selection deeper e t.span.start) (n :: y)
      (.part e none (.ofToken n.name) (spanBetween (t :: x₀) y)) y := by
  refine .kind ?_
  simp only [headKind_cons, hn]
  exact .take (.spanFrom hlt .pure)

theorem selection_widePart {width : AccessWidth} {w n : Lexeme} (hw : w.kind = .access width)
    (hn : n.kind = .intLiteral) (hlt : y.length < (t :: x₀).length) :
    GivesFrom (t :: x₀) (selection deeper e t.span.start) (w :: n :: y)
      (.part e (some width) (.ofToken n.name) (spanBetween (t :: x₀) y)) y := by
  refine .kind ?_
  simp only [headKind_cons, hw]
  refine .skip (.kind ?_)
  simp only [headKind_cons, hn]
  exact .take (.spanFrom hlt .pure)

theorem parenthesized_complete {unary : Parser Expr} [Lawful unary] {l r : Lexeme} (hr : r.kind = .rParen)
    (h : Gives (exprOf unary) x e (r :: y)) : Gives (parenthesized unary) (l :: x) e y :=
  GivesFrom.gives (.skip (h.from.bind ((Gives.expect hr).from.bind .pure)))

theorem selection_partAt {unary : Parser Expr} [Lawful unary] {index : Expr} {width : AccessWidth} {w l r : Lexeme}
    (hw : w.kind = .access width) (hl : l.kind = .lParen) (hr : r.kind = .rParen)
    (h : Gives (exprOf unary) x index (r :: y)) (hlt : y.length < (t :: x₀).length) :
    GivesFrom (t :: x₀) (selection (some unary) e t.span.start) (w :: l :: x)
      (.partAt e width index (spanBetween (t :: x₀) y)) y := by
  refine .kind ?_
  simp only [headKind_cons, hw]
  refine .skip (.kind ?_)
  simp only [headKind_cons, hl]
  exact (parenthesized_complete hr h).nested.from.bind (.spanFrom hlt .pure)

theorem suffix?_dot [LawfulDeeper deeper] {e' : Expr} {d : Lexeme} (hd : d.kind = .dot)
    (h : GivesFrom (t :: x₀) (selection deeper e t.span.start) x e' y) :
    GivesFrom (t :: x₀) (suffix? deeper t.span.start e) (d :: x) (some e') y := by
  refine .kind ?_
  simp only [headKind_cons, hd]
  exact .skip (h.bind .pure)

theorem suffix?_index {unary : Parser Expr} [Lawful unary] {es : List Expr} {l r : Lexeme} (hl : l.kind = .lBracket)
    (hr : r.kind = .rBracket) (h : Gives (sepByComma (exprOf unary)) x es (r :: y))
    (hlt : y.length < (t :: x₀).length) :
    GivesFrom (t :: x₀) (suffix? (some unary) t.span.start e) (l :: x)
      (some (.index e es (spanBetween (t :: x₀) y))) y := by
  refine .kind ?_
  simp only [headKind_cons, hl]
  have : Gives (indices unary) (l :: x) es y :=
    GivesFrom.gives (.skip (h.from.bind ((Gives.expect hr).from.bind .pure)))
  exact this.nested.from.bind (.spanFrom hlt .pure)

theorem suffix?_call {unary : Parser Expr} [Lawful unary] {as : List Arg} {l : Lexeme} (hl : l.kind = .lParen)
    (he : e.isCallable = true) (h : Gives (args unary) (l :: x) as y) (hlt : y.length < (t :: x₀).length) :
    GivesFrom (t :: x₀) (suffix? (some unary) t.span.start e) (l :: x)
      (some (.call e as (spanBetween (t :: x₀) y))) y := by
  refine .kind ?_
  simp only [headKind_cons, hl, he, if_true]
  exact h.nested.from.bind (.spanFrom hlt .pure)

theorem args_complete_nil {unary : Parser Expr} {l r : Lexeme} (hr : r.kind = .rParen) :
    Gives (args unary) (l :: r :: y) [] y :=
  GivesFrom.gives (.skip (.eat hr .pure))

theorem args_complete {unary : Parser Expr} [Lawful unary] {as : List Arg} {l r : Lexeme} (hr : r.kind = .rParen)
    (hx : headKind x ≠ .rParen) (h : Gives (sepByComma (arg unary)) x as (r :: y)) :
    Gives (args unary) (l :: x) as y :=
  GivesFrom.gives (.skip (.eat_none hx (h.from.bind ((Gives.expect hr).from.bind .pure))))

theorem suffix?_none {start : Nat} (hy : (headKind y).endsTier 9 = true) :
    GivesFrom x₀ (suffix? deeper start e) y none y := by
  refine .kind ?_
  split
  · next hk => rw [hk] at hy; cases hy
  · next hk => rw [hk] at hy; cases hy
  · next hk => rw [hk] at hy; cases hy
  · exact .pure

end

/-! ## Arguments -/

section

variable {unary : Parser Expr} [Lawful unary] {e : Expr}

omit [Lawful unary] in
/-- An expression is not taken for a parameter with its value. -/
theorem arg_apply_of_spelled (h : (ExprPhrase.expr 0 e).Spelled x y) (hy : (headKind y).namesParam = false)
    {s : ParserState} (hs : s.rest = x) : arg unary s = (do return Arg.positional (← exprOf unary)) s := by
  -- A name behind what opens the expression would have to be followed by `:=` or `=>`.
  have hfree (s : ParserState) (hx : behindOpening x = s.rest) (hk : s.kind = .ident) :
      s.advance.kind.namesParam = false := by
    obtain ⟨t, ht, htk⟩ := ParserState.exists_of_kind hk (by decide)
    rw [s.advance.kind_eq_headKind]
    rcases h.not_namesParam rfl (hx.trans ht) htk with h | h
    · rwa [h]
    · exact h
  have hnamed : s.kind = .ident → (s.kindAt 1).namesParam = false := by
    intro hk
    obtain ⟨t, ht, htk⟩ := ParserState.exists_of_kind hk (by decide)
    rw [ParserState.kindAt_one]
    exact hfree s (by rw [← hs, ht, behindOpening_of_opensNothing (by rw [htk]; rfl)]) hk
  rw [arg, bind_of_ok (get_apply s)]
  refine congrFun ?_ s
  split
  · next hk₀ hk₁ hk₂ =>
    rw [ParserState.kindAt_one] at hk₁
    rw [ParserState.kindAt_two] at hk₂
    obtain ⟨n, hn, hnk⟩ := ParserState.exists_of_kind hk₀ (by decide)
    obtain ⟨t, ht, htk⟩ := ParserState.exists_of_kind hk₁ (by decide)
    have := hfree s.advance (by rw [← hs, hn, behindOpening_of_opens (by rw [hnk]; rfl), ht,
      behindOpening_of_opensNothing (by rw [htk]; rfl)]) hk₁
    rw [hk₂] at this
    cases this
  iterate 2
    next _ hk₀ hk₁ =>
    have := hnamed hk₀
    rw [hk₁] at this
    cases this
  · rfl

omit [Lawful unary] in
theorem arg_positional (h : (ExprPhrase.expr 0 e).Spelled x y) (hy : (headKind y).namesParam = false)
    (hg : Gives (exprOf unary) x e y) : Gives (arg unary) x (.positional e) y := by
  intro s hs
  obtain ⟨s', h', hr⟩ := hg s hs
  refine ⟨s', ⟨?_, h'.2⟩, hr⟩
  rw [arg_apply_of_spelled h hy hs, bind_of_ok h'.1]
  rfl

variable {p a : Lexeme} (hlt : y.length < x.length) (hp : p.kind = .ident) (hg : Gives (exprOf unary) x e y)

include hlt hp hg

theorem arg_input (ha : a.kind = .assign) :
    Gives (arg unary) (p :: a :: x) (.input p.name e (spanBetween (p :: a :: x) y)) y := by
  refine GivesFrom.gives (.get fun s hs => ?_)
  have hk₀ : s.kind = .ident := (ParserState.kind_of_cons hs).trans hp
  have hk₁ : s.kindAt 1 = .assign := (ParserState.kindAt_one_of_cons hs).trans ha
  simp only [hk₀, hk₁, ParserState.span_of_cons hs]
  exact .take (.skip (hg.from.bind (.spanFrom (by simp only [List.length_cons]; omega) .pure)))

theorem arg_output (ha : a.kind = .arrow) :
    Gives (arg unary) (p :: a :: x) (.output p.name false e (spanBetween (p :: a :: x) y)) y := by
  refine GivesFrom.gives (.get fun s hs => ?_)
  have hk₀ : s.kind = .ident := (ParserState.kind_of_cons hs).trans hp
  have hk₁ : s.kindAt 1 = .arrow := (ParserState.kindAt_one_of_cons hs).trans ha
  simp only [hk₀, hk₁, ParserState.span_of_cons hs, arg.output]
  exact .take (.skip (hg.from.bind (.spanFrom (by simp only [List.length_cons]; omega) .pure)))

theorem arg_negatedOutput {n : Lexeme} (hn : n.kind = .kwNot) (ha : a.kind = .arrow) :
    Gives (arg unary) (n :: p :: a :: x) (.output p.name true e (spanBetween (n :: p :: a :: x) y)) y := by
  refine GivesFrom.gives (.get fun s hs => ?_)
  have hk₀ : s.kind = .kwNot := (ParserState.kind_of_cons hs).trans hn
  have hk₁ : s.kindAt 1 = .ident := (ParserState.kindAt_one_of_cons hs).trans hp
  have hk₂ : s.kindAt 2 = .arrow := (ParserState.kindAt_two_of_cons hs).trans ha
  simp only [hk₀, hk₁, hk₂, ParserState.span_of_cons hs, arg.output]
  exact .skip (.take (.skip (hg.from.bind (.spanFrom (by simp only [List.length_cons]; omega) .pure))))

end

/-! ## Primaries -/

section

variable {deeper : Option (Parser Expr)} {t : Lexeme}

theorem primary_paren {unary : Parser Expr} [Lawful unary] {e : Expr} {l r : Lexeme} (hl : l.kind = .lParen)
    (hr : r.kind = .rParen) (hlt : y.length < x.length) (h : Gives (exprOf unary) x e (r :: y)) :
    Gives (primary (some unary)) (l :: x) (.paren e (spanBetween (l :: x) y)) y := by
  refine GivesFrom.gives (.get fun s hs => ?_)
  have hk : s.kind = .lParen := (ParserState.kind_of_cons hs).trans hl
  simp only [hk, ParserState.span_of_cons hs, nested]
  exact (parenthesized_complete hr h).from.bind (.spanFrom (by rw [List.length_cons]; omega) .pure)

theorem primary_name {name : Name} (h : QualifiedName name x y) (hy : headKind y ≠ .colonColon) :
    Gives (primary deeper) x (.name name) y := by
  refine GivesFrom.gives (.get fun s hs => ?_)
  have hk : s.kind = .ident := by rw [s.kind_eq_headKind, hs, h.headKind_eq]
  simp only [hk]
  exact (qualifiedName_complete h hy).from.bind .pure

theorem primary_this (ht : t.kind = .kwThis) : Gives (primary deeper) (t :: y) (.this t.span) y := by
  refine GivesFrom.gives (.get fun s hs => ?_)
  simp only [(ParserState.kind_of_cons hs).trans ht]
  exact .take .pure

theorem primary_super (ht : t.kind = .kwSuper) : Gives (primary deeper) (t :: y) (.super t.span) y := by
  refine GivesFrom.gives (.get fun s hs => ?_)
  simp only [(ParserState.kind_of_cons hs).trans ht]
  exact .take .pure

theorem primary_enumerated {p n : Lexeme} (hp : p.kind = .typedLiteralPrefix)
    (htype : LiteralType.ofName? (withoutHash p.text) = none) (hn : n.kind = .ident) :
    Gives (primary deeper) (p :: n :: y) (.name ⟨p.text ++ n.text, p.span.cover n.span⟩) y := by
  refine GivesFrom.gives (.get fun s hs => ?_)
  have hk : s.kind = .typedLiteralPrefix := (ParserState.kind_of_cons hs).trans hp
  have hc : s.kindAt 1 = .ident ∧ !s.atLiteralType := by
    rw [ParserState.kindAt_one, ParserState.kind_of_cons (ParserState.advance_rest_of_cons hs)]
    simp [hn, ParserState.atLiteralType, ParserState.text_of_cons hs, htype]
  simp only [hk]
  rw [if_pos hc]
  exact .take (.take .pure)

/-- No name stands behind the type name of a literal. -/
theorem not_ident_of_literalSpelled {l : Literal} {p : Lexeme} (h : LiteralSpelled l (p :: x) y)
    (hp : p.kind = .typedLiteralPrefix) : headKind x ≠ .ident := by
  intro hx
  cases h with
  | token hk _ => rw [hp] at hk; cases hk
  | timeOfDay htod => rw [htod.hours] at hp; cases hp
  | typed _ hv _ =>
    rw [headKind_cons] at hx
    rw [hx] at hv
    cases hv
  | typedSigned _ hsign _ _ =>
    rw [headKind_cons] at hx
    rw [hx] at hsign
    rcases hsign with hsign | hsign <;> cases hsign

theorem primary_literal {l : Literal} (h : LiteralSpelled l x y) : Gives (primary deeper) x (.literal l) y := by
  refine GivesFrom.gives (.get fun s hs => ?_)
  have hkind : s.kind = headKind x := by rw [s.kind_eq_headKind, hs]
  have hl : GivesFrom x (do return Expr.literal (← literal)) x (.literal l) y :=
    (literal_complete h).from.bind .pure
  rcases h.headKind_cases with hlit | hpre
  · rw [← hkind] at hlit
    dsimp only
    split
    iterate 5 next hk => rw [hk] at hlit; cases hlit
    rwa [if_pos hlit]
  · obtain ⟨p, x', rfl, hp⟩ := exists_of_headKind hpre (by decide)
    have hc : ¬(s.kindAt 1 = .ident ∧ !s.atLiteralType) := by
      rw [ParserState.kindAt_one, s.advance.kind_eq_headKind, ParserState.advance_rest_of_cons hs]
      exact fun hc => not_ident_of_literalSpelled h hp hc.1
    rw [headKind_cons, hp] at hkind
    simp only [hkind]
    rwa [if_neg hc]

end

theorem unary_eq (levels : Nat) : unary levels = unaryOf (deeperUnary levels) := by
  cases levels <;> rfl

/-- One level is needed for what is nested in a construct. -/
theorem exists_deeperUnary {levels n : Nat} (h : n + 1 ≤ levels) :
    ∃ m, n ≤ m ∧ deeperUnary levels = some (unary m) := by
  obtain ⟨m, rfl⟩ : ∃ m, levels = m + 1 := ⟨levels - 1, by omega⟩
  exact ⟨m, by omega, rfl⟩

end Parser

/-! ## Derivations -/

namespace ExprPhrase

open StructuredText.Parser

/-- A phrase is read where it is spelled, by the rules with these levels. Along a chain of operators or of suffixes,
the rest of the loop goes on from the tree so far. -/
def ReadBy (levels : Nat) : ExprPhrase → List Lexeme → List Lexeme → Prop
  | .expr n e, x, y => e.nesting ≤ levels →
    (∀ m ≤ n, (headKind y).endsTier m = true → Gives (tiersFrom m (Parser.unary levels)) x e y) ∧
    ∀ tier : BinaryTier, tier.level ≤ n → (headKind y).endsTier (tier.level + 1) = true → ∀ b z,
      Gives (fold (tierTurn tier (tiersFrom (tier.level + 1) (Parser.unary levels))) e) y b z →
      Gives (tiersFrom tier.level (Parser.unary levels)) x b z
  | .unary e, x, y => e.nesting ≤ levels → (headKind y).endsTier 9 = true → Gives (Parser.unary levels) x e y
  | .access e, x, y => e.nesting ≤ levels → headKind y ≠ .colonColon → ∀ t x', x = t :: x' → ∀ b z,
    GivesFrom x (fold (suffix? (deeperUnary levels) t.span.start) e) y b z →
    GivesFrom x (Parser.primary (deeperUnary levels) >>= fold (suffix? (deeperUnary levels) t.span.start)) x b z
  | .primary e, x, y => e.nesting ≤ levels → headKind y ≠ .colonColon →
    Gives (Parser.primary (deeperUnary levels)) x e y
  | .exprs es, x, y => Expr.nestingAll es ≤ levels → headKind y ≠ .comma → (headKind y).endsTier 0 = true →
    Gives (sepByComma (exprOf (Parser.unary levels))) x es y
  | .arg a, x, y => a.nesting ≤ levels → (headKind y).namesParam = false → (headKind y).endsTier 0 = true →
    Gives (Parser.arg (Parser.unary levels)) x a y
  | .args as, x, y => Arg.nestingAll as ≤ levels → headKind y = .rParen →
    Gives (sepByComma (Parser.arg (Parser.unary levels))) x as y

namespace ReadBy

variable {levels n : Nat} {e left right : Expr} {x y z : List Lexeme}

/-- An expression that a tier reads is read by the looser ones, and begins their chains. -/
theorem of_tiersFrom (h : ∀ m ≤ n, (headKind y).endsTier m = true → Gives (tiersFrom m (Parser.unary levels)) x e y)
    {tier : BinaryTier} (htier : tier.level + 1 ≤ n) (hy : (headKind y).endsTier (tier.level + 1) = true)
    {b : Expr} (hb : Gives (fold (tierTurn tier (tiersFrom (tier.level + 1) (Parser.unary levels))) e) y b z) :
    Gives (tiersFrom tier.level (Parser.unary levels)) x b z := by
  rw [tiersFrom_level]
  exact (h _ htier hy).bind hb

theorem operand (h : (unary e).ReadBy levels x y) : (expr n e).ReadBy levels x y := by
  intro hn
  have hall : ∀ m, (headKind y).endsTier m = true → Gives (tiersFrom m (Parser.unary levels)) x e y := by
    intro m hy
    have hmax : Gives (tiersFrom (max m 9) (Parser.unary levels)) x e y := by
      rw [tiersFrom_of_le (Nat.le_max_right m 9)]
      refine h hn (TokenKind.endsTier_iff.2 ⟨(TokenKind.endsTier_iff.1 hy).1, fun op _ => ?_⟩)
      cases op <;> decide
    exact tiersFrom_loosen hmax (Nat.le_max_left m 9) hy
  exact ⟨fun m _ => hall m, fun tier _ hy b z hb => of_tiersFrom (fun m _ => hall m) (Nat.le_refl _) hy hb⟩

theorem binary {op : BinaryOp} {o : Lexeme} (hle : n ≤ op.tier.level) (ho : BinaryOp.ofToken? o.kind = some op)
    (hl : (expr op.tier.level left).ReadBy levels x (o :: y))
    (hr : (expr (op.tier.level + 1) right).ReadBy levels y z) :
    (expr n (.binary op left right (left.span.cover right.span))).ReadBy levels x z := by
  intro hn
  rw [Expr.nesting, Nat.max_le] at hn
  obtain ⟨-, hl⟩ := hl hn.1
  obtain ⟨hr, -⟩ := hr hn.2
  have hchain (hz : (headKind z).endsTier (op.tier.level + 1) = true) (b : Expr) (w : List Lexeme)
      (hb : Gives (fold (tierTurn op.tier (tiersFrom (op.tier.level + 1) (Parser.unary levels)))
        (.binary op left right (left.span.cover right.span))) z b w) :
      Gives (tiersFrom op.tier.level (Parser.unary levels)) x b w := by
    exact hl op.tier (Nat.le_refl _) (TokenKind.endsTier_of_op ho (Nat.lt_succ_self _)) b w
      (.fold_some stepwise_tierTurn (tierTurn_some ho (hr _ (Nat.le_refl _) hz)) hb)
  have hall : ∀ m ≤ op.tier.level, (headKind z).endsTier m = true →
      Gives (tiersFrom m (Parser.unary levels)) x (.binary op left right (left.span.cover right.span)) z := by
    intro m hm hz
    refine tiersFrom_loosen (tiersFrom_stop (hchain (TokenKind.endsTier_mono hz ?_)) (TokenKind.endsTier_mono hz hm))
      hm hz
    omega
  refine ⟨fun m hm => hall m (Nat.le_trans hm hle), fun tier htier hz b w hb => ?_⟩
  rcases Nat.lt_or_eq_of_le (Nat.le_trans htier hle) with hlt | heq
  · exact of_tiersFrom hall hlt hz hb
  · obtain rfl := BinaryTier.level_injective heq
    exact hchain hz b w hb

theorem read (h : (expr 0 e).ReadBy levels x y) (hn : e.nesting ≤ levels) (hy : (headKind y).endsTier 0 = true) :
    Gives (exprOf (Parser.unary levels)) x e y := by
  rw [exprOf_eq]
  exact (h hn).1 0 (Nat.le_refl _) hy

theorem signed {op : UnaryOp} {o : Lexeme} (ho : UnaryOp.ofToken? o.kind = some op) (hlt : y.length < x.length)
    (h : ∀ levels, (unary e).ReadBy levels x y) :
    (unary (.unary op e (spanBetween (o :: x) y))).ReadBy levels (o :: x) y := by
  intro hn hy
  obtain ⟨m, hm, hdeeper⟩ := exists_deeperUnary hn
  rw [unary_eq, hdeeper]
  refine GivesFrom.gives (.kind ?_)
  simp only [headKind_cons, ho]
  have hoperand : Gives (nested "expression" (some (Parser.unary m)) id) x e y :=
    Gives.nested (show Gives (id (Parser.unary m)) x e y from h m hm hy)
  refine (Gives.offset (.skip ?_)).from
  exact hoperand.from.bind (.spanFrom (by rw [List.length_cons]; omega) .pure)

theorem accessed {t : Lexeme} (hx : x = t :: z) (hop : UnaryOp.ofToken? (headKind x) = none)
    (h : (access e).ReadBy levels x y) : (unary e).ReadBy levels x y := by
  intro hn hy
  rw [unary_eq]
  refine GivesFrom.gives (.kind ?_)
  simp only [hop]
  subst hx
  refine (Gives.offset ?_).from
  exact h hn (TokenKind.ne_colonColon_of_endsTier hy) t z rfl e y (.fold_none (stepwise_suffix? _) (suffix?_none hy))

theorem first (h : (primary e).ReadBy levels x y) : (access e).ReadBy levels x y :=
  fun hn hy _ _ _ _ _ hb => (h hn hy).from.bind hb

/-- One more suffix. -/
theorem suffix {e' : Expr} (h : (access e).ReadBy levels x y) (hn : e.nesting ≤ e'.nesting)
    (hy : headKind y ≠ .colonColon) (hlt : z.length < x.length)
    (hturn : ∀ t x', x = t :: x' → e'.nesting ≤ levels → z.length < (t :: x').length →
      GivesFrom (t :: x') (suffix? (deeperUnary levels) t.span.start e) y (some e') z) :
    (access e').ReadBy levels x z := by
  rintro hn' - t x' rfl b w hb
  exact h (Nat.le_trans hn hn') hy t x' rfl b w (.fold_some (stepwise_suffix? _) (hturn t x' rfl hn' hlt) hb)

end ReadBy

/-- Every phrase is read where it is spelled. -/
theorem Spelled.readBy {φ : ExprPhrase} {x y : List Lexeme} (h : φ.Spelled x y) (levels : Nat) :
    φ.ReadBy levels x y := by
  have hdot {k : TokenKind} (hk : k = .dot) : k ≠ .colonColon := by rw [hk]; decide
  have hbracket {k : TokenKind} (hk : k = .lBracket) : k ≠ .colonColon := by rw [hk]; decide
  have hparen {k : TokenKind} (hk : k = .lParen) : k ≠ .colonColon := by rw [hk]; decide
  have hrParen {k : TokenKind} (hk : k = .rParen) : k.endsTier 0 = true := by rw [hk]; rfl
  have hcomma {k : TokenKind} (hk : k = .comma) : k.endsTier 0 = true ∧ k.namesParam = false := by
    rw [hk]
    exact ⟨rfl, rfl⟩
  induction h generalizing levels with
  | operand _ ih => exact (ih levels).operand
  | binary hle ho _ _ ihl ihr => exact (ihl levels).binary hle ho (ihr levels)
  | access h ih =>
    obtain ⟨t, z, hx, -⟩ := exists_of_headKind (x := _) rfl fun heq => by
      have := h.canStartExpr
      rw [heq] at this
      cases this
    exact (ih levels).accessed hx (h.ofToken?_eq_none rfl)
  | unary ho h ih => exact .signed ho h.length_lt ih
  | primary _ ih => exact (ih levels).first
  | member h hd hn ih =>
    have hlt := h.length_lt
    refine (ih levels).suffix (Nat.le_refl _) (hdot hd) (by simp only [List.length_cons] at hlt; omega) ?_
    rintro t x' rfl - hlt
    exact suffix?_dot hd (selection_member hn hlt)
  | part h hd hn ih =>
    have hlt := h.length_lt
    refine (ih levels).suffix (Nat.le_refl _) (hdot hd) (by simp only [List.length_cons] at hlt; omega) ?_
    rintro t x' rfl - hlt
    exact suffix?_dot hd (selection_part hn hlt)
  | widePart h hd hw hn ih =>
    have hlt := h.length_lt
    refine (ih levels).suffix (Nat.le_refl _) (hdot hd) (by simp only [List.length_cons] at hlt; omega) ?_
    rintro t x' rfl - hlt
    exact suffix?_dot hd (selection_widePart hw hn hlt)
  | partAt h hd hw hl hi hr ih ihi =>
    have hlt := h.length_lt
    have hlt' := hi.length_lt
    refine (ih levels).suffix (Nat.le_max_left _ _) (hdot hd) (by simp only [List.length_cons] at hlt hlt'; omega) ?_
    rintro t x' rfl hn hlt
    obtain ⟨m, hm, hdeeper⟩ := exists_deeperUnary (Nat.max_le.1 hn).2
    rw [hdeeper]
    exact suffix?_dot hd (selection_partAt hw hl hr ((ihi m).read hm (hrParen hr)) hlt)
  | index h hl hes hr ih ihes =>
    have hlt := h.length_lt
    have hlt' := hes.length_lt
    refine (ih levels).suffix (Nat.le_max_left _ _) (hbracket hl)
      (by simp only [List.length_cons] at hlt hlt'; omega) ?_
    rintro t x' rfl hn hlt
    obtain ⟨m, hm, hdeeper⟩ := exists_deeperUnary (Nat.max_le.1 hn).2
    rw [hdeeper]
    exact suffix?_index hl hr (ihes m hm (by rw [headKind_cons, hr]; decide) (by rw [headKind_cons, hr]; rfl)) hlt
  | callEmpty h he hl hr ih =>
    have hlt := h.length_lt
    refine (ih levels).suffix (Nat.le_max_left _ _) (hparen hl) (by simp only [List.length_cons] at hlt; omega) ?_
    rintro t x' rfl hn hlt
    obtain ⟨m, hm, hdeeper⟩ := exists_deeperUnary (Nat.max_le.1 hn).2
    rw [hdeeper]
    exact suffix?_call hl he (args_complete_nil hr) hlt
  | call h he hl has hr ih ihas =>
    have hlt := h.length_lt
    have hlt' := has.length_lt
    refine (ih levels).suffix (Nat.le_max_left _ _) (hparen hl) (by simp only [List.length_cons] at hlt hlt'; omega) ?_
    rintro t x' rfl hn hlt
    obtain ⟨m, hm, hdeeper⟩ := exists_deeperUnary (Nat.max_le.1 hn).2
    rw [hdeeper]
    have hne : headKind _ ≠ .rParen := fun heq => by
      have := has.canStartExpr
      rw [heq] at this
      cases this
    exact suffix?_call hl he (args_complete hr hne (ihas m hm hr)) hlt
  | name h => exact fun _ hy => primary_name h hy
  | this ht => exact fun _ _ => primary_this ht
  | super ht => exact fun _ _ => primary_super ht
  | paren hl h hr ih =>
    intro hn _
    obtain ⟨m, hm, hdeeper⟩ := exists_deeperUnary hn
    have hlt := h.length_lt
    rw [hdeeper]
    exact primary_paren hl hr (by simp only [List.length_cons] at hlt; omega)
      ((ih m).read hm (hrParen hr))
  | enumerated hp htype hn => exact fun _ _ => primary_enumerated hp htype hn
  | literal h => exact fun _ _ => primary_literal h
  | lastExpr _ ih =>
    intro hn hc hy
    exact .sepByComma_one ((ih levels).read (Nat.max_le.1 hn).1 hy) hc
  | moreExprs _ hc _ ih ihes =>
    intro hn hc' hy
    obtain ⟨hn, hns⟩ := Nat.max_le.1 hn
    exact .sepByComma_more ((ih levels).read hn (hcomma hc).1) hc (ihes levels hns hc' hy)
  | positional h ih => exact fun hn hp hy => arg_positional h hp ((ih levels).read hn hy)
  | input hp ha h ih => exact fun hn _ hy => arg_input h.length_lt hp ((ih levels).read hn hy) ha
  | output hp ha h ih => exact fun hn _ hy => arg_output h.length_lt hp ((ih levels).read hn hy) ha
  | negatedOutput ht hp ha h ih =>
    exact fun hn _ hy => arg_negatedOutput h.length_lt hp ((ih levels).read hn hy) ht ha
  | lastArg _ ih =>
    intro hn hy
    exact .sepByComma_one (ih levels (Nat.max_le.1 hn).1 (by rw [hy]; rfl) (by rw [hy]; rfl)) (by rw [hy]; decide)
  | moreArgs _ hc _ ih ihas =>
    intro hn hy
    obtain ⟨hn, hns⟩ := Nat.max_le.1 hn
    exact .sepByComma_more (ih levels hn (hcomma hc).2 (hcomma hc).1) hc (ihas levels hns hy)

end ExprPhrase

namespace Parser

variable {levels : Nat} {e : Expr} {x y : List Lexeme} (hn : e.nesting ≤ levels)

include hn

/-- What is spelled as an expression is read as one, where nothing goes on with it. -/
theorem expr_complete (h : (ExprPhrase.expr 0 e).Spelled x y) (hy : (headKind y).endsTier 0 = true) :
    Gives (expr levels) x e y :=
  (h.readBy levels).read hn hy

theorem bound_complete (h : (ExprPhrase.expr 1 e).Spelled x y) (hy : (headKind y).endsTier 1 = true) :
    Gives (bound levels) x e y := by
  rw [bound, boundOf_eq]
  exact (h.readBy levels hn).1 1 (Nat.le_refl _) hy

theorem access_complete (h : (ExprPhrase.access e).Spelled x y) (hy : (headKind y).endsTier 9 = true) :
    Gives (access levels) x e y := by
  rcases x with _ | ⟨t, x⟩
  · have := h.length_lt
    simp at this
  · exact Gives.offset (h.readBy levels hn (TokenKind.ne_colonColon_of_endsTier hy) t x rfl e y
      (.fold_none (stepwise_suffix? _) (suffix?_none hy)))

end Parser

end StructuredText
