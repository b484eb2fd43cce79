import StructuredText.Proofs.Complete.Stmt
import StructuredText.Proofs.Lacking.Lacks
import StructuredText.Proofs.Placed
import StructuredText.Proofs.Plain

/-!
# A simple statement without its `;`

A statement without a body is read without its `;` too, with a report of the missing one, where no token that stands
behind goes on with the statement and the parse takes the statement for over (`MarksEnd`). Words that begin or end
statements are such tokens, and so are names and literals that begin a label or a target.
-/

namespace StructuredText

open StructuredText.Parser

variable {x x' y y' z : List Lexeme} {t : Lexeme}

/-! ## What stands behind -/

/-- No token of this kind goes on with a statement without its `;`, or with a declaration. -/
def TokenKind.startsAfresh (k : TokenKind) : Bool :=
  k.endsTier 0 && k != .colon && k != .assign && k != .semicolon && k != .eof

/-- The tokens begin with a word that begins or ends statements, or clearly with an assignment or a call. -/
def ClearlyBegins (z : List Lexeme) : Prop :=
  (headKind z).endsStatements = true ∨ (headKind z).isStatementKeyword = true ∨
    (headKind z).startsTarget = true ∧ (headKind z.tail).followsTarget = true

/-- A name or a literal. -/
def TokenKind.isNameOrLiteral (k : TokenKind) : Bool := k.isLiteral || k == .ident || k == .typedLiteralPrefix

/-- In front of these tokens a missing `;` is reported, and nothing else goes wrong. -/
structure MarksEnd (z : List Lexeme) : Prop where
  startsAfresh : (headKind z).startsAfresh = true
  insertion : ∀ s : ParserState, s.rest = z → s.atSemicolonInsertion = true

namespace TokenKind

variable {k : TokenKind}

theorem startsAfresh_iff :
    k.startsAfresh = true ↔ k.endsTier 0 = true ∧ k ≠ .colon ∧ k ≠ .assign ∧ k ≠ .semicolon ∧ k ≠ .eof := by
  simp [startsAfresh, and_assoc]

theorem startsAfresh_of_endsStatements (h : k.endsStatements = true) : k.startsAfresh = true := by
  cases k <;> first | rfl | cases h

theorem startsAfresh_of_isStatementKeyword (h : k.isStatementKeyword = true) : k.startsAfresh = true := by
  cases k <;> first | rfl | cases h

theorem startsAfresh_of_startsTarget (h : k.startsTarget = true) : k.startsAfresh = true := by
  cases k <;> first | rfl | cases h

theorem startsAfresh_of_isNameOrLiteral (h : k.isNameOrLiteral = true) : k.startsAfresh = true := by
  cases k <;> first | rfl | cases h

end TokenKind

theorem ClearlyBegins.marksEnd (h : ClearlyBegins z) : MarksEnd z := by
  rcases h with hk | hk | ⟨hk, hnext⟩
  · refine ⟨TokenKind.startsAfresh_of_endsStatements hk, fun s hs => ?_⟩
    rw [ParserState.atSemicolonInsertion, TokenKind.isSyncPoint, s.kind_eq_headKind, hs, hk]
    simp
  · refine ⟨TokenKind.startsAfresh_of_isStatementKeyword hk, fun s hs => ?_⟩
    rw [ParserState.atSemicolonInsertion, ParserState.atStatementStart, s.kind_eq_headKind, hs, hk]
    simp
  · refine ⟨TokenKind.startsAfresh_of_startsTarget hk, fun s hs => ?_⟩
    have hnext : (s.kindAt 1).followsTarget = true := by
      rw [ParserState.kindAt_one, ParserState.kind_eq_headKind, ParserState.advance_rest, hs]
      exact hnext
    have hstart : s.atStatementStart = true := by
      rw [ParserState.atStatementStart, s.kind_eq_headKind, hs, hnext]
      rcases TokenKind.startsTarget_iff.1 hk with hk | hk | hk <;> rw [hk] <;> rfl
    rw [ParserState.atSemicolonInsertion, hstart]
    simp

/-- A missing `;` does no harm in front of an arm whose first label begins with a name or a literal. -/
theorem MarksEnd.of_arm {a : CaseArm} (h : (StmtPhrase.arm a).Spelled z y)
    (hk : (headKind z).isNameOrLiteral = true) : MarksEnd z := by
  refine ⟨TokenKind.startsAfresh_of_isNameOrLiteral hk, fun s hs => ?_⟩
  rw [ParserState.atSemicolonInsertion, atCaseLabel_of_arm h hs, Bool.or_true]

/-! ## Statements up to their `;` -/

/-- A statement without a body, up to its `;`. -/
inductive StmtHeadSpelled : Stmt → List Lexeme → List Lexeme → Prop
  | assign {target value : Expr} {a : Lexeme} {x x₁ y : List Lexeme} {span : Span} :
      (headKind x).startsTarget = true → (ExprPhrase.access target).Spelled x (a :: x₁) → a.kind = .assign →
      (ExprPhrase.expr 0 value).Spelled x₁ y → StmtHeadSpelled (.assign target value span) x y
  | call {callee : Expr} {x y : List Lexeme} {span : Span} :
      (headKind x).startsTarget = true → (ExprPhrase.access callee).Spelled x y →
      StmtHeadSpelled (.call callee span) x y
  | leave {w : Lexeme} {y : List Lexeme} {span : Span} : w.kind = .kwReturn → StmtHeadSpelled (.leave span) (w :: y) y
  | exit {w : Lexeme} {y : List Lexeme} {span : Span} : w.kind = .kwExit → StmtHeadSpelled (.exit span) (w :: y) y
  | next {w : Lexeme} {y : List Lexeme} {span : Span} : w.kind = .kwContinue → StmtHeadSpelled (.next span) (w :: y) y

theorem StmtPhrase.Spelled.exists_head {st : Stmt} (h : (stmt st).Spelled x y) (hst : st.isSimple = true) :
    ∃ e, e.kind = .semicolon ∧ StmtHeadSpelled st x (e :: y) ∧ st.span = spanBetween x y := by
  cases h with
  | assign hk htarget ha hvalue he => exact ⟨_, he, .assign hk htarget ha hvalue, rfl⟩
  | call hk hcallee he => exact ⟨_, he, .call hk hcallee, rfl⟩
  | leave hw he => exact ⟨_, he, .leave hw, rfl⟩
  | exit hw he => exact ⟨_, he, .exit hw, rfl⟩
  | next hw he => exact ⟨_, he, .next hw, rfl⟩
  | ifThen | select | forLoop | whileLoop | repeatLoop | nop => cases hst

namespace StmtHeadSpelled

variable {st : Stmt}

theorem length_lt (h : StmtHeadSpelled st x y) : y.length < x.length := by
  cases h with
  | assign _ h₁ _ h₂ =>
    have := h₁.length_lt
    have := h₂.length_lt
    simp only [List.length_cons] at *
    omega
  | call _ h => exact h.length_lt
  | leave | exit | next => exact Nat.lt_succ_self _

theorem inTimeOfDay (h : StmtHeadSpelled st x y) : (headKind x).inTimeOfDay = false := by
  cases h with
  | assign hk _ _ _ | call hk _ => rcases TokenKind.startsTarget_iff.1 hk with hk | hk | hk <;> rw [hk] <;> rfl
  | leave hw | exit hw | next hw =>
    rw [headKind_cons, hw]
    rfl

theorem endsStatements (h : StmtHeadSpelled st x y) :
    (headKind x).endsStatements = false ∧ headKind x ≠ .eof := by
  cases h with
  | assign hk _ _ _ | call hk _ =>
    rcases TokenKind.startsTarget_iff.1 hk with hk | hk | hk <;> rw [hk] <;> exact ⟨rfl, by decide⟩
  | leave hw | exit hw | next hw =>
    rw [headKind_cons, hw]
    exact ⟨rfl, by decide⟩

theorem swapped (h : StmtHeadSpelled st x y) (hy : KeepsNumber y y') :
    ∃ x', Swapped y y' x x' ∧ StmtHeadSpelled st x' y' := by
  cases h with
  | assign hk htarget ha hvalue =>
    obtain ⟨x₁, hx₁, hvalue⟩ := hvalue.swapped hy
    have hlt := htarget.length_lt
    obtain ⟨x', hx, htarget⟩ := htarget.swapped (.of_kind ha (by decide))
    have hhead := hx.headKind_eq hlt
    exact ⟨x', hx.trans hx₁.cons, .assign (by rwa [hhead]) htarget ha hvalue⟩
  | call hk hcallee =>
    have hlt := hcallee.length_lt
    obtain ⟨x', hx, hcallee⟩ := hcallee.swapped hy
    have hhead := hx.headKind_eq hlt
    exact ⟨x', hx, .call (by rwa [hhead]) hcallee⟩
  | leave hw => exact ⟨_, .cons (.refl _ _), .leave hw⟩
  | exit hw => exact ⟨_, .cons (.refl _ _), .exit hw⟩
  | next hw => exact ⟨_, .cons (.refl _ _), .next hw⟩

theorem suffix (h : StmtHeadSpelled st x y) : y <:+ x := by
  obtain ⟨x', hx, -⟩ := h.swapped fun _ => id
  exact hx.suffix

/-- Only a call is taken for a label: the search for a colon ends at `:=`, and it does not begin at a word. -/
theorem not_atCaseLabel (h : StmtHeadSpelled st x y) (hst : st.isCall = false) {s : ParserState} (hs : s.rest = x) :
    s.atCaseLabel = false := by
  rw [ParserState.atCaseLabel, s.kind_eq_headKind, hs]
  cases h with
  | assign hk h ha _ => rw [h.colonAhead_target hk, ParserState.colonAhead_end (by rw [ha]; rfl), Bool.and_false]
  | call => cases hst
  | leave hw | exit hw | next hw =>
    rw [headKind_cons, hw]
    rfl

/-- A call without its `;` is taken for the first label of the arm behind it. -/
theorem atCaseLabel_of_call (h : StmtHeadSpelled st x y) (hst : st.isCall = true) {a : CaseArm}
    (ha : (StmtPhrase.arm a).Spelled y z) {s : ParserState} (hs : s.rest = x) : s.atCaseLabel = true := by
  cases h with
  | call hk h =>
    have hy : ParserState.colonAhead 0 0 y = true := by
      cases ha with
      | arm hlabels hc _ => exact colonAhead_labels hlabels hc
    rw [ParserState.atCaseLabel, s.kind_eq_headKind, hs, h.canStartExpr, h.colonAhead_target hk, hy, Bool.and_true]
  | assign | leave | exit | next => cases hst

end StmtHeadSpelled

/-! ## Reading them -/

namespace Parser

variable {levels : Nat} {st : Stmt} {P : Stmt → Prop} {rs : List Report}

theorem expectSemicolon_leaves (h : MarksEnd (t :: y)) :
    Leaves expectSemicolon (t :: y) (fun _ => True) [missingSemicolon t] (t :: y) := by
  refine .sees ?_
  rw [if_neg (by simpa using (TokenKind.startsAfresh_iff.1 h.startsAfresh).2.2.2.1)]
  refine .before .missing fun _ _ => .get fun s hs => ?_
  rw [if_pos (h.insertion s hs)]
  exact .pure trivial

theorem keywordStatement_leaves {make : Span → Stmt} {w : Lexeme} (h : MarksEnd (t :: y))
    (hP : ∀ span, P (make span)) :
    Leaves (keywordStatement make) (w :: t :: y) P [missingSemicolon t] (t :: y) :=
  .offset fun _ => .skip (.before (expectSemicolon_leaves h) fun _ _ => .spanFrom fun span => .pure (hP span))

theorem statement_target_leaves (hk : (headKind x).startsTarget = true)
    (h : Leaves (assignmentOrCall (deeperLevel levels)) x P rs y) : Leaves (statement levels) x P rs y := by
  rw [statement_eq]
  refine .kind ?_
  rcases TokenKind.startsTarget_iff.1 hk with hk | hk | hk <;> rw [hk] <;> exact h

/-- A statement without a body is read without its `;`. -/
theorem statement_leaves_head (h : StmtHeadSpelled st x (t :: y)) (hy : MarksEnd (t :: y))
    (hn : st.nesting ≤ levels) :
    Leaves (statement levels) x (·.plain = st.plain) [missingSemicolon t] (t :: y) := by
  obtain ⟨htier, -, hassign, -⟩ := TokenKind.startsAfresh_iff.1 hy.startsAfresh
  cases h with
  | assign hk htarget ha hvalue =>
    rw [Stmt.nesting] at hn
    obtain ⟨hn₁, hn₂⟩ := Nat.max_le.1 hn
    have h₁ := access_complete hn₁ htarget (by rw [headKind_cons, ha]; rfl)
    have h₂ := expr_complete hn₂ hvalue htier
    rw [access, ← map_unary_deeperLevel] at h₁
    rw [Parser.expr, unary_eq, ← map_unary_deeperLevel] at h₂
    refine statement_target_leaves hk (.offset fun _ => .after h₁ (.eat ha (.after h₂ ?_)))
    refine .before (expectSemicolon_leaves hy) fun _ _ => .spanFrom fun span => .pure ?_
    rw [Stmt.plain, Stmt.plain]
  | call hk hcallee =>
    have h := access_complete hn hcallee (TokenKind.endsTier_mono htier (Nat.zero_le 9))
    rw [access, ← map_unary_deeperLevel] at h
    refine statement_target_leaves hk (.offset fun _ => .after h (.eat_none hassign ?_))
    refine .before (expectSemicolon_leaves hy) fun _ _ => .spanFrom fun span => .pure ?_
    rw [Stmt.plain, Stmt.plain]
  | leave hw | exit hw | next hw =>
    rw [statement_eq]
    refine .kind ?_
    simp only [headKind_cons, hw]
    exact keywordStatement_leaves hy fun _ => rfl

end Parser

end StructuredText
