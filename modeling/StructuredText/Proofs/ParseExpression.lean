import StructuredText.Proofs.Complete.Expr
import StructuredText.Proofs.Roots

/-!
# Expressions that stand alone

Reading an expression succeeds just on the spellings of the grammar: a stream of tokens is read as `e` without a
diagnostic if and only if it spells `e`, with at most a `;` behind it, and `e` is not nested too deeply. No stream
spells two expressions.
-/

namespace StructuredText

/-- The tokens spell the expression, with at most a `;` behind it. -/
def SpellsExpression (x : List Lexeme) (e : Expr) : Prop :=
  ∃ y, (ExprPhrase.expr 0 e).Spelled x y ∧ OptionalSemicolon y

theorem OptionalSemicolon.endsTier {y : List Lexeme} (h : OptionalSemicolon y) : (headKind y).endsTier 0 = true := by
  rcases h.headKind_cases with hy | hy <;> rw [hy] <;> rfl

namespace SpellsExpression

variable {x : List Lexeme} {e e' : Expr}

theorem gives (h : SpellsExpression x e) {levels : Nat} (hn : e.nesting ≤ levels) :
    ∃ y, OptionalSemicolon y ∧ Parser.Gives (Parser.expr levels) x e y := by
  obtain ⟨y, h, hy⟩ := h
  exact ⟨y, hy, Parser.expr_complete hn h hy.endsTier⟩

/-- Enough levels for both expressions read one expression only. -/
theorem unique (h : SpellsExpression x e) (h' : SpellsExpression x e') : e' = e := by
  obtain ⟨y, -, hg⟩ := h.gives (Nat.le_max_left e.nesting e'.nesting)
  obtain ⟨y', -, hg'⟩ := h'.gives (Nat.le_max_right e.nesting e'.nesting)
  exact hg'.eq hg

end SpellsExpression

namespace Parser

theorem exists_reads_expressionRoot_iff {levels : Nat} {s : ParserState} {e : Expr} :
    (∃ s', Reads (expressionRoot levels) s e s') ↔ SpellsExpression s.rest e ∧ e.nesting ≤ levels := by
  have hopen : (∃ s', Reads (expressionRoot levels) s e s') ↔
      ∃ s₁, Reads (expr levels) s e s₁ ∧ OptionalSemicolon s₁.rest := by
    rw [expressionRoot]
    constructor
    · rintro ⟨s', h⟩
      obtain ⟨e', s₁, h₁, h⟩ := reads_bind_iff.1 h
      obtain ⟨hend, rfl⟩ := exists_reads_end_iff.1 ⟨s', h⟩
      exact ⟨s₁, h₁, hend⟩
    · rintro ⟨s₁, h₁, hend⟩
      obtain ⟨s', h⟩ := exists_reads_end_iff.2 ⟨hend, rfl⟩
      exact ⟨s', h₁.bind h⟩
  rw [hopen]
  constructor
  · rintro ⟨s₁, h₁, hend⟩
    obtain ⟨he, hn⟩ := expr_sound levels h₁
    exact ⟨⟨s₁.rest, he, hend⟩, hn⟩
  · rintro ⟨h, hn⟩
    obtain ⟨y, hend, hg⟩ := h.gives hn
    obtain ⟨s₁, h₁, rfl⟩ := hg s rfl
    exact ⟨s₁, h₁, hend⟩

end Parser

/-- The expression parser is its grammar: it gives `e` without a diagnostic just if the tokens spell `e` and `e` is
nested at most as deep as allowed, and the tokens spell no other expression than `e`. -/
theorem parseExpression_clean_iff (s : Stream) (e : Expr) :
    (((parseExpression s).tree = some e ∧ (parseExpression s).diagnostics = []) ↔
      SpellsExpression s.significant e ∧ e.nesting ≤ maxNesting) ∧
    ∀ e', SpellsExpression s.significant e → SpellsExpression s.significant e' → e' = e :=
  ⟨Parser.run_clean_iff.trans Parser.exists_reads_expressionRoot_iff, fun _ => SpellsExpression.unique⟩

end StructuredText
