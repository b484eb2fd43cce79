import StructuredText.Proofs.Grammar.Stmt
import StructuredText.Parser.Recovery

/-!
# Labels and statements

Where an arm of a `CASE` is spelled, the search for a colon finds one, and where a statement is spelled, it finds none
(`atCaseLabel_of_arm`, `not_atCaseLabel_of_stmt`), whatever stands behind. Inside of brackets the search passes over
every expression (`colonAhead_inside`). Outside of them it passes over the expression as well, or finds a colon in
it, as in a time of day (`colonAhead_outside`); a target is always passed over (`colonAhead_target`).
-/

namespace StructuredText

namespace TokenKind

/-- A token that the search passes over, inside and outside of brackets. -/
def isPassed : TokenKind → Bool
  | lParen | rParen | lBracket | rBracket | colon => false
  | k => !k.endsLabelSearch

/-- A token that counts no bracket. -/
def isFlat : TokenKind → Bool
  | lParen | rParen | lBracket | rBracket => false
  | _ => true

variable {k : TokenKind}

theorem isPassed_of_op {op : BinaryOp} (h : BinaryOp.ofToken? k = some op) : k.isPassed = true := by
  cases k <;> simp [BinaryOp.ofToken?] at h <;> rfl

theorem isPassed_of_unaryOp {op : UnaryOp} (h : UnaryOp.ofToken? k = some op) : k.isPassed = true := by
  cases k <;> simp [UnaryOp.ofToken?] at h <;> rfl

theorem isPassed_of_literal {kind : LiteralKind} (h : LiteralKind.ofToken? k = some kind) : k.isPassed = true := by
  cases k <;> simp [LiteralKind.ofToken?] at h <;> rfl

end TokenKind

namespace ParserState

variable {parens brackets : Nat} {t : Lexeme} {x y : List Lexeme}

theorem colonAhead_lParen (h : t.kind = .lParen) :
    colonAhead parens brackets (t :: x) = colonAhead (parens + 1) brackets x := by
  cases t
  cases h
  rfl

theorem colonAhead_rParen (h : t.kind = .rParen) :
    colonAhead parens brackets (t :: x) = colonAhead (parens - 1) brackets x := by
  cases t
  cases h
  rfl

theorem colonAhead_lBracket (h : t.kind = .lBracket) :
    colonAhead parens brackets (t :: x) = colonAhead parens (brackets + 1) x := by
  cases t
  cases h
  rfl

theorem colonAhead_rBracket (h : t.kind = .rBracket) :
    colonAhead parens brackets (t :: x) = colonAhead parens (brackets - 1) x := by
  cases t
  cases h
  rfl

/-- The search passes over what it passes over in parentheses. -/
theorem colonAhead_parens {l r : Lexeme} (hl : l.kind = .lParen) (hr : r.kind = .rParen)
    (h : colonAhead (parens + 1) brackets x = colonAhead (parens + 1) brackets (r :: y)) :
    colonAhead parens brackets (l :: x) = colonAhead parens brackets y := by
  rw [colonAhead_lParen hl, h, colonAhead_rParen hr, Nat.add_sub_cancel]

theorem colonAhead_brackets {l r : Lexeme} (hl : l.kind = .lBracket) (hr : r.kind = .rBracket)
    (h : colonAhead parens (brackets + 1) x = colonAhead parens (brackets + 1) (r :: y)) :
    colonAhead parens brackets (l :: x) = colonAhead parens brackets y := by
  rw [colonAhead_lBracket hl, h, colonAhead_rBracket hr, Nat.add_sub_cancel]

theorem colonAhead_flat (hd : parens ≠ 0 ∨ brackets ≠ 0) (h : t.kind.isFlat = true) :
    colonAhead parens brackets (t :: x) = colonAhead parens brackets x := by
  have hne : ¬(parens = 0 ∧ brackets = 0) := by omega
  rw [colonAhead]
  split
  iterate 4 next hk => rw [hk] at h; cases h
  rw [if_neg (fun hc => hne ⟨hc.1, hc.2.1⟩), if_neg (fun hc => hne ⟨hc.1, hc.2.1⟩)]

theorem colonAhead_passed (h : t.kind.isPassed = true) :
    colonAhead parens brackets (t :: x) = colonAhead parens brackets x := by
  rw [colonAhead]
  split
  iterate 4 next hk => rw [hk] at h; cases h
  have hcolon : t.kind ≠ .colon := by rintro hk; rw [hk] at h; cases h
  have hend : t.kind.endsLabelSearch = false := by
    revert h
    cases t.kind <;> simp [TokenKind.isPassed, TokenKind.endsLabelSearch]
  simp [hcolon, hend]

theorem colonAhead_colon (h : t.kind = .colon) : colonAhead 0 0 (t :: x) = true := by
  cases t
  cases h
  rfl

theorem colonAhead_end (h : t.kind.endsLabelSearch = true) : colonAhead 0 0 (t :: x) = false := by
  rw [colonAhead]
  split
  iterate 4 next hk => rw [hk] at h; cases h
  have hcolon : t.kind ≠ .colon := by rintro hk; rw [hk] at h; cases h
  simp [hcolon, h]

end ParserState

open ParserState

/-! ## Inside of brackets -/

theorem QualifiedName.colonAhead {name : Name} {x y : List Lexeme} (h : QualifiedName name x y)
    (parens brackets : Nat) : ParserState.colonAhead parens brackets x = ParserState.colonAhead parens brackets y := by
  induction h with
  | one ht => exact colonAhead_passed (by rw [ht]; rfl)
  | more _ hc ht ih => rw [ih, colonAhead_passed (by rw [hc]; rfl), colonAhead_passed (by rw [ht]; rfl)]

/-- The search passes over a literal, unless it is a time of day outside of brackets. -/
theorem LiteralSpelled.colonAhead {l : Literal} {x y : List Lexeme} (h : LiteralSpelled l x y)
    {parens brackets : Nat} : ParserState.colonAhead parens brackets x = ParserState.colonAhead parens brackets y ∨
      parens = 0 ∧ brackets = 0 ∧ ParserState.colonAhead parens brackets x = true := by
  cases h with
  | token hk _ => exact .inl (colonAhead_passed (TokenKind.isPassed_of_literal hk))
  | typed hp hv _ =>
    refine .inl ?_
    rw [colonAhead_passed (by rw [hp]; rfl), colonAhead_passed (TokenKind.isPassed_of_literal hv)]
  | typedSigned hp hsign hv _ =>
    refine .inl ?_
    rw [colonAhead_passed (by rw [hp]; rfl), colonAhead_passed (by rcases hsign with h | h <;> rw [h] <;> rfl),
      colonAhead_passed (TokenKind.isPassed_of_literal hv)]
  | timeOfDay h =>
    have hs : Lexeme.kind _ = .intLiteral ∨ Lexeme.kind _ = .realLiteral := h.seconds
    rw [colonAhead_passed (by rw [h.hours]; rfl)]
    by_cases hd : parens = 0 ∧ brackets = 0
    · obtain ⟨rfl, rfl⟩ := hd
      exact .inr ⟨rfl, rfl, colonAhead_colon h.colon⟩
    · refine .inl ?_
      have hd' : parens ≠ 0 ∨ brackets ≠ 0 := by omega
      rw [colonAhead_flat hd' (by rw [h.colon]; rfl), colonAhead_passed (by rw [h.minutes]; rfl),
        colonAhead_flat hd' (by rw [h.colon']; rfl), colonAhead_passed (by rcases hs with h | h <;> rw [h] <;> rfl)]

/-- A phrase that stands outside of brackets. -/
def ExprPhrase.standsOutside : ExprPhrase → Bool
  | arg _ | args _ => false
  | _ => true

namespace ExprPhrase.Spelled

variable {φ : ExprPhrase} {x y : List Lexeme}

/-- Inside of brackets, the search passes over every phrase. -/
theorem colonAhead_inside (h : φ.Spelled x y) {parens brackets : Nat} (hd : parens ≠ 0 ∨ brackets ≠ 0) :
    colonAhead parens brackets x = colonAhead parens brackets y := by
  have hp {n : Nat} : n + 1 ≠ 0 := Nat.succ_ne_zero n
  induction h generalizing parens brackets with
  | operand _ ih | access _ ih | primary _ ih | lastExpr _ ih | positional _ ih | lastArg _ ih => exact ih hd
  | binary _ ho _ _ ihl ihr => rw [ihl hd, colonAhead_passed (TokenKind.isPassed_of_op ho), ihr hd]
  | unary ho _ ih => rw [colonAhead_passed (TokenKind.isPassed_of_unaryOp ho), ih hd]
  | member _ hk hn ih | part _ hk hn ih =>
    rw [ih hd, colonAhead_passed (by rw [hk]; rfl), colonAhead_passed (by rw [hn]; rfl)]
  | widePart _ hk hw hn ih =>
    rw [ih hd, colonAhead_passed (by rw [hk]; rfl), colonAhead_passed (by rw [hw]; rfl),
      colonAhead_passed (by rw [hn]; rfl)]
  | partAt _ hk hw hl _ hr ih ihi =>
    rw [ih hd, colonAhead_passed (by rw [hk]; rfl), colonAhead_passed (by rw [hw]; rfl),
      colonAhead_parens hl hr (ihi (.inl hp))]
  | index _ hl _ hr ih ihes => rw [ih hd, colonAhead_brackets hl hr (ihes (.inr hp))]
  | callEmpty _ _ hl hr ih => rw [ih hd, colonAhead_parens hl hr rfl]
  | call _ _ hl _ hr ih ihas => rw [ih hd, colonAhead_parens hl hr (ihas (.inl hp))]
  | name h => exact h.colonAhead parens brackets
  | this ht | super ht => exact colonAhead_passed (by rw [ht]; rfl)
  | paren hl _ hr ih => exact colonAhead_parens hl hr (ih (.inl hp))
  | enumerated hp _ hn => rw [colonAhead_passed (by rw [hp]; rfl), colonAhead_passed (by rw [hn]; rfl)]
  | literal h =>
    rcases h.colonAhead with h | ⟨h₁, h₂, -⟩
    · exact h
    · omega
  | moreExprs _ hc _ ih ihes => rw [ih hd, colonAhead_passed (by rw [hc]; rfl), ihes hd]
  | input hp ha _ ih | output hp ha _ ih =>
    rw [colonAhead_passed (by rw [hp]; rfl), colonAhead_flat hd (by rw [ha]; rfl), ih hd]
  | negatedOutput hn hp ha _ ih =>
    rw [colonAhead_passed (by rw [hn]; rfl), colonAhead_passed (by rw [hp]; rfl), colonAhead_flat hd (by rw [ha]; rfl),
      ih hd]
  | moreArgs _ hc _ ih ihas => rw [ih hd, colonAhead_passed (by rw [hc]; rfl), ihas hd]

/-! ## Outside of brackets -/

/-- Outside of brackets, the search passes over an expression or finds a colon in it. It passes over every target. -/
theorem colonAhead_outside (h : φ.Spelled x y) (hφ : φ.standsOutside = true) :
    colonAhead 0 0 x = colonAhead 0 0 y ∨
      colonAhead 0 0 x = true ∧ (φ.isAccess = true → (headKind x).startsTarget = false) := by
  have hin {φ : ExprPhrase} {x y : List Lexeme} (h : φ.Spelled x y) :
      colonAhead 1 0 x = colonAhead 1 0 y ∧ colonAhead 0 1 x = colonAhead 0 1 y :=
    ⟨h.colonAhead_inside (.inl Nat.one_ne_zero), h.colonAhead_inside (.inr Nat.one_ne_zero)⟩
  -- What is passed over behind the phrase makes no difference.
  have htrans {x y z : List Lexeme} {p q : Prop} (h : colonAhead 0 0 x = colonAhead 0 0 y ∨ colonAhead 0 0 x = true ∧ p)
      (hyz : colonAhead 0 0 y = colonAhead 0 0 z) (hpq : p → q) :
      colonAhead 0 0 x = colonAhead 0 0 z ∨ colonAhead 0 0 x = true ∧ q := by
    rw [← hyz]
    exact h.imp id (And.imp id hpq)
  induction h with
  | operand _ ih | access _ ih | lastExpr _ ih => exact (ih rfl).imp id fun h => ⟨h.1, fun h => by cases h⟩
  | primary _ ih => exact ih rfl
  | binary _ ho _ _ ihl ihr =>
    rcases ihl rfl with h | ⟨h, -⟩
    · rw [h, colonAhead_passed (TokenKind.isPassed_of_op ho)]
      exact (ihr rfl).imp id fun h => ⟨h.1, fun h => by cases h⟩
    · exact .inr ⟨h, fun h => by cases h⟩
  | unary ho _ ih =>
    rw [colonAhead_passed (TokenKind.isPassed_of_unaryOp ho)]
    exact (ih rfl).imp id fun h => ⟨h.1, fun h => by cases h⟩
  | member _ hk hn ih | part _ hk hn ih =>
    exact htrans (ih rfl) (by rw [colonAhead_passed (by rw [hk]; rfl), colonAhead_passed (by rw [hn]; rfl)]) id
  | widePart _ hk hw hn ih =>
    refine htrans (ih rfl) ?_ id
    rw [colonAhead_passed (by rw [hk]; rfl), colonAhead_passed (by rw [hw]; rfl), colonAhead_passed (by rw [hn]; rfl)]
  | partAt _ hk hw hl hi hr ih _ =>
    refine htrans (ih rfl) ?_ id
    rw [colonAhead_passed (by rw [hk]; rfl), colonAhead_passed (by rw [hw]; rfl), colonAhead_parens hl hr (hin hi).1]
  | index _ hl hes hr ih _ => exact htrans (ih rfl) (colonAhead_brackets hl hr (hin hes).2) id
  | callEmpty _ _ hl hr ih => exact htrans (ih rfl) (colonAhead_parens hl hr rfl) id
  | call _ _ hl has hr ih _ => exact htrans (ih rfl) (colonAhead_parens hl hr (hin has).1) id
  | name h => exact .inl (h.colonAhead 0 0)
  | this ht | super ht => exact .inl (colonAhead_passed (by rw [ht]; rfl))
  | paren hl h hr _ => exact .inl (colonAhead_parens hl hr (hin h).1)
  | enumerated hp _ hn =>
    exact .inl (by rw [colonAhead_passed (by rw [hp]; rfl), colonAhead_passed (by rw [hn]; rfl)])
  | literal h =>
    refine h.colonAhead.imp id fun hc => ⟨hc.2.2, fun _ => ?_⟩
    rcases h.headKind_cases with hk | hk
    · revert hk
      generalize headKind _ = k
      cases k <;> simp [TokenKind.isLiteral, TokenKind.startsTarget]
    · rw [hk]; rfl
  | moreExprs _ hc _ ih ihes =>
    rcases ih rfl with h | ⟨h, -⟩
    · rw [h, colonAhead_passed (by rw [hc]; rfl)]
      exact (ihes rfl).imp id fun h => ⟨h.1, fun h => by cases h⟩
    · exact .inr ⟨h, fun h => by cases h⟩
  | _ => cases hφ

/-- The search passes over a target, or over what is called. -/
theorem colonAhead_target {e : Expr} (h : (ExprPhrase.access e).Spelled x y)
    (hk : (headKind x).startsTarget = true) : colonAhead 0 0 x = colonAhead 0 0 y := by
  rcases h.colonAhead_outside rfl with h | ⟨-, h⟩
  · exact h
  · rw [h rfl] at hk
    cases hk

end ExprPhrase.Spelled

/-! ## Statements inside of brackets -/

section

variable {parens brackets : Nat} {x y : List Lexeme}

theorem BlockEnd.colonAhead_inside {k : TokenKind} (h : BlockEnd k x y) (hk : k.isFlat = true)
    (hd : parens ≠ 0 ∨ brackets ≠ 0) : colonAhead parens brackets x = colonAhead parens brackets y := by
  cases h with
  | plain ht _ => exact colonAhead_flat hd (by rw [ht, hk])
  | semicolon ht hu => rw [colonAhead_flat hd (by rw [ht, hk]), colonAhead_flat hd (by rw [hu]; rfl)]

/-- Inside of brackets, the search passes over statements too. -/
theorem StmtPhrase.Spelled.colonAhead_inside {φ : StmtPhrase} (h : φ.Spelled x y) (hd : parens ≠ 0 ∨ brackets ≠ 0) :
    colonAhead parens brackets x = colonAhead parens brackets y := by
  have hflat {t : Lexeme} {k : TokenKind} {x : List Lexeme} (ht : t.kind = k) (hk : k.isFlat = true) :
      colonAhead parens brackets (t :: x) = colonAhead parens brackets x :=
    colonAhead_flat hd (by rw [ht, hk])
  induction h with
  | ifThen hw hc hth _ _ _ hend ih₁ ih₂ ih₃ =>
    rw [hflat hw rfl, hc.colonAhead_inside hd, hflat hth rfl, ih₁, ih₂, ih₃, hend.colonAhead_inside rfl hd]
  | select hw he ho _ _ _ hend ih₁ ih₂ =>
    rw [hflat hw rfl, he.colonAhead_inside hd, hflat ho rfl, ih₁, ih₂, hend.colonAhead_inside rfl hd]
  | @forLoop _ _ step _ _ _ _ _ d _ _ x₂ x₃ _ _ hw hv ha h₁ ht h₂ h₃ hdo _ hend ih =>
    have hstep : colonAhead parens brackets x₂ = colonAhead parens brackets (d :: x₃) := by
      cases h₃ with
      | none => rfl
      | some hw h => rw [hflat hw rfl, h.colonAhead_inside hd]
    rw [hflat hw rfl, hflat hv rfl, hflat ha rfl, h₁.colonAhead_inside hd, hflat ht rfl, h₂.colonAhead_inside hd, hstep,
      hflat hdo rfl, ih, hend.colonAhead_inside rfl hd]
  | whileLoop hw hc hdo _ hend ih =>
    rw [hflat hw rfl, hc.colonAhead_inside hd, hflat hdo rfl, ih, hend.colonAhead_inside rfl hd]
  | repeatLoop hw _ hu hc hend ih =>
    rw [hflat hw rfl, ih, hflat hu rfl, hc.colonAhead_inside hd, hend.colonAhead_inside rfl hd]
  | assign _ h₁ ha h₂ he =>
    rw [h₁.colonAhead_inside hd, hflat ha rfl, h₂.colonAhead_inside hd, hflat he rfl]
  | call _ h he => rw [h.colonAhead_inside hd, hflat he rfl]
  | leave hw he | exit hw he | next hw he => rw [hflat hw rfl, hflat he rfl]
  | nop ht => exact hflat ht rfl
  | noStmts | noElsifs | noElse | noArms => rfl
  | moreStmts _ _ ih ihs | moreArms _ _ ih ihs => rw [ih, ihs]
  | moreElsifs hw hc hth _ _ ih ihs => rw [hflat hw rfl, hc.colonAhead_inside hd, hflat hth rfl, ih, ihs]
  | someElse hw _ ih => rw [hflat hw rfl, ih]
  | arm hl hc _ ih => rw [hl.colonAhead_inside hd, hflat hc rfl, ih]

end

/-! ## Arms and statements -/

/-- In front of labels, the search finds a colon. -/
theorem colonAhead_labels {labels : List Expr} {c : Lexeme} {x y : List Lexeme}
    (h : (ExprPhrase.exprs labels).Spelled x (c :: y)) (hc : c.kind = .colon) : colonAhead 0 0 x = true := by
  rcases h.colonAhead_outside rfl with h | h
  · rw [h, colonAhead_colon hc]
  · exact h.1

/-- Labels and a colon behind them begin an arm. -/
theorem atCaseLabel_of_labels {labels : List Expr} {c : Lexeme} {x y : List Lexeme}
    (h : (ExprPhrase.exprs labels).Spelled x (c :: y)) (hc : c.kind = .colon) {s : ParserState} (hs : s.rest = x) :
    s.atCaseLabel = true := by
  rw [atCaseLabel, s.kind_eq_headKind, hs, h.canStartExpr, colonAhead_labels h hc, Bool.and_true]

/-- An arm begins with a label. -/
theorem atCaseLabel_of_arm {a : CaseArm} {x y : List Lexeme} (h : (StmtPhrase.arm a).Spelled x y) {s : ParserState}
    (hs : s.rest = x) : s.atCaseLabel = true := by
  cases h with
  | arm hlabels hc _ => exact atCaseLabel_of_labels hlabels hc hs

/-- No statement is taken for a label. -/
theorem not_atCaseLabel_of_stmt {st : Stmt} {x y : List Lexeme} (h : (StmtPhrase.stmt st).Spelled x y)
    {s : ParserState} (hs : s.rest = x) : s.atCaseLabel = false := by
  rw [atCaseLabel, s.kind_eq_headKind, hs]
  cases h with
  | assign hk h ha _ _ => rw [h.colonAhead_target hk, colonAhead_end (by rw [ha]; rfl), Bool.and_false]
  | call hk h he => rw [h.colonAhead_target hk, colonAhead_end (by rw [he]; rfl), Bool.and_false]
  | ifThen hk | select hk | forLoop hk | whileLoop hk | repeatLoop hk | leave hk | exit hk | next hk | nop hk =>
    rw [headKind_cons, hk]
    rfl

end StructuredText
