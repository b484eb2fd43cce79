import StructuredText.Proofs.Broken
import StructuredText.Proofs.Nodes.Stmt
import StructuredText.Proofs.Placed

/-!
# Where a parse goes on behind a statement

A statement without a body that is read up to some tokens is over in one of three ways (`Closes`): its `;` is there, or
a statement or a label begins and nothing is skipped, or all tokens are skipped to a place where the parse can go on.

`InTurn x sts y` says that the statements `sts`, those inside of others included, are read one behind the other from
the tokens `x` on up to `y`, and that each statement without a body is over in one of these ways. Two rules one after
the other read the statements of both (`InTurn.trans`, `InTurn.bind`), and a part that is given up reads none.
-/

namespace StructuredText

open StructuredText.Parser

/-! ## How a statement is over -/

/-- Nothing is left, a statement list may be over, or a statement begins: a word says so, or a name, `THIS` or `SUPER`
and what it goes on with. -/
def BeginsStatement (y : List Lexeme) : Prop :=
  y = [] ∨ (headKind y).isSyncPoint = true ∨ (headKind y).isStatementKeyword = true ∨
    (headKind y).startsTarget = true ∧ (headKind y.tail).followsTarget = true

/-- An expression may begin, and a colon comes before the end of the statement. -/
def BeginsLabel (y : List Lexeme) : Prop :=
  (headKind y).canStartExpr = true ∧ ParserState.colonAhead 0 0 y = true

/-- What is left behind the rest of a broken statement: it ends with its `;`, or in front of a word that ends a
statement list or begins a statement. -/
def behindBroken (y : List Lexeme) : List Lexeme :=
  let z := y.dropWhile fun t => !(t.kind.isSyncPoint || t.kind.isStatementKeyword)
  if headKind z = .semicolon then z.tail else z

/-- A statement that is read up to the first tokens is over in front of the second ones. -/
inductive Closes : List Lexeme → List Lexeme → Prop
  /-- The statement has its `;`. -/
  | closed {t : Lexeme} {y : List Lexeme} : t.kind = .semicolon → Closes (t :: y) y
  /-- The `;` is missing, and nothing is skipped. -/
  | resumed {y : List Lexeme} : headKind y ≠ .semicolon → BeginsStatement y ∨ BeginsLabel y → Closes y y
  /-- The `;` is missing, and the rest of the statement is skipped. -/
  | skipped {y : List Lexeme} :
      headKind y ≠ .semicolon → ¬BeginsStatement y → ¬BeginsLabel y → Closes y (behindBroken y)

/-- Somewhere the rule gives `a` for the tokens `x` in front of `y`, with or without reports. -/
def Parser.GivesFor (p : Parser α) (x : List Lexeme) (a : α) (y : List Lexeme) : Prop :=
  ∃ s s', s.rest = x ∧ p s = .ok a s' ∧ s'.rest = y

/-- A statement without a body, without its `;`. -/
inductive Stmt.Bare : Stmt → List Lexeme → List Lexeme → Prop
  | assign {levels : Nat} {target value : Expr} {span : Span} {a : Lexeme} {x y z : List Lexeme} :
      (headKind x).startsTarget = true → (access levels).GivesFor x target (a :: y) → a.kind = .assign →
      (Parser.expr levels).GivesFor y value z → Bare (.assign target value span) x z
  | call {levels : Nat} {callee : Expr} {span : Span} {x y : List Lexeme} :
      (headKind x).startsTarget = true → (access levels).GivesFor x callee y → headKind y ≠ .assign →
      Bare (.call callee span) x y
  | leave {w : Lexeme} {span : Span} {y : List Lexeme} : w.kind = .kwReturn → Bare (.leave span) (w :: y) y
  | exit {w : Lexeme} {span : Span} {y : List Lexeme} : w.kind = .kwExit → Bare (.exit span) (w :: y) y
  | next {w : Lexeme} {span : Span} {y : List Lexeme} : w.kind = .kwContinue → Bare (.next span) (w :: y) y

/-- From the first tokens on, the statements are read one behind the other up to the last tokens. A statement without a
body is read up to some tokens and over in front of others, and its span is that of the tokens between its beginning
and its end. A statement with a body stands in front of the statements inside of it. -/
inductive InTurn : List Lexeme → List Stmt → List Lexeme → Prop
  | done {x y : List Lexeme} : y <:+ x → InTurn x [] y
  | simple {st : Stmt} {sts : List Stmt} {x x₁ y z z' : List Lexeme} : x₁ <:+ x → st.Bare x₁ y → Closes y z →
      st.span = spanBetween x₁ z → InTurn z sts z' → InTurn x (st :: sts) z'
  | other {st : Stmt} {sts : List Stmt} {x y : List Lexeme} : st.isSimple = false → InTurn x sts y →
      InTurn x (st :: sts) y

/-! ## The end of a statement -/

theorem ParserState.atSemicolonInsertion_iff {s : ParserState} :
    s.atSemicolonInsertion = true ↔ BeginsStatement s.rest ∨ BeginsLabel s.rest := by
  have hnext : (s.kindAt 1).followsTarget = (headKind s.rest.tail).followsTarget := by
    rw [kindAt_one, kind_eq_headKind, advance_rest]
  have hstart : s.atStatementStart = true ↔ (headKind s.rest).isStatementKeyword = true ∨
      (headKind s.rest).startsTarget = true ∧ (headKind s.rest.tail).followsTarget = true := by
    rw [atStatementStart, hnext, ← kind_eq_headKind, Bool.or_eq_true]
    generalize s.kind = k
    cases k <;> simp [TokenKind.startsTarget]
  rw [atSemicolonInsertion, atCaseLabel, Bool.or_eq_true, Bool.or_eq_true, Bool.or_eq_true, hstart, Bool.and_eq_true,
    List.isEmpty_iff, kind_eq_headKind, BeginsStatement, BeginsLabel]
  simp only [or_assoc]

namespace Parser

variable {s s' : ParserState}

theorem rest_skipWhile_go (p : TokenKind → Bool) (x : List Lexeme) (hs : s.rest = x) :
    (skipWhile.go (fun s => p s.kind) x s).rest = x.dropWhile fun t => p t.kind := by
  induction x generalizing s with
  | nil => exact hs
  | cons t x ih =>
    rw [skipWhile.go, ParserState.kind_of_cons hs, List.dropWhile_cons]
    split
    · exact ih (ParserState.advance_rest_of_cons hs)
    · exact hs

theorem rest_skipWhile {p : TokenKind → Bool} {u : PUnit} (h : skipWhile (fun s => p s.kind) s = .ok u s') :
    s'.rest = s.rest.dropWhile fun t => p t.kind := by
  cases h
  exact rest_skipWhile_go p s.rest rfl

theorem rest_skipStatement {u : PUnit} (h : skipStatement s = .ok u s') : s'.rest = behindBroken s.rest := by
  -- A `;` is one of the tokens at which the parse goes on, so that the skip need not ask for it.
  have hsame (k : TokenKind) : (k != .semicolon && !(k.isSyncPoint || k.isStatementKeyword)) =
      !(k.isSyncPoint || k.isStatementKeyword) := by
    cases k <;> rfl
  rw [skipStatement, skipTo] at h
  simp only [hsame] at h
  obtain ⟨_, s₁, hskip, h⟩ := ok_bind_iff.1 h
  have hrest := rest_skipWhile (p := fun k => !(k.isSyncPoint || k.isStatementKeyword)) hskip
  have hkind : (s₁.kind == .semicolon) = true ↔ headKind s₁.rest = .semicolon := by
    rw [beq_iff_eq, ParserState.kind_eq_headKind]
  rw [bind_of_ok (sees_apply .semicolon s₁)] at h
  rw [behindBroken, ← hrest]
  split at h
  · next hk =>
    cases h
    rw [if_pos (hkind.1 hk), ParserState.advance_rest]
  · next hk =>
    cases h
    rw [if_neg (mt hkind.2 hk)]

/-- A statement is over behind its `;`, or where the parse goes on without one. -/
theorem closes_of_expectSemicolon {u : PUnit} (h : expectSemicolon s = .ok u s') : Closes s.rest s'.rest := by
  rw [expectSemicolon_apply] at h
  split at h
  · next hk =>
    obtain ⟨t, hr, ht⟩ := ParserState.exists_of_kind hk (by decide)
    cases h
    rw [hr]
    exact .closed ht
  · next hk =>
    rw [s.kind_eq_headKind] at hk
    split at h
    · next hi =>
      cases h
      exact .resumed hk (ParserState.atSemicolonInsertion_iff.1 hi)
    · next hi =>
      rw [ParserState.atSemicolonInsertion_iff, not_or] at hi
      rw [rest_skipStatement h]
      exact .skipped hk hi.1 hi.2

end Parser

/-! ## Statements in turn -/

namespace InTurn

variable {x y z : List Lexeme} {sts sts' : List Stmt}

/-- The tokens in front make no difference. -/
theorem of_suffix (h : InTurn y sts z) (hy : y <:+ x) : InTurn x sts z := by
  induction h generalizing x with
  | done hz => exact .done (hz.trans hy)
  | simple hx₁ hbare hcloses hspan h _ => exact .simple (hx₁.trans hy) hbare hcloses hspan h
  | other hst _ ih => exact .other hst (ih hy)

theorem trans (h : InTurn x sts y) (h' : InTurn y sts' z) : InTurn x (sts ++ sts') z := by
  induction h with
  | done hy => exact h'.of_suffix hy
  | simple hx₁ hbare hcloses hspan _ ih => exact .simple hx₁ hbare hcloses hspan (ih h')
  | other hst _ ih => exact .other hst (ih h')

end InTurn

namespace Parser

/-- Where the rule gives something, it has read these statements in turn. -/
def ReadsInTurn (p : Parser α) (sts : α → List Stmt) : Prop :=
  ∀ ⦃s a s'⦄, p s = .ok a s' → InTurn s.rest (sts a) s'.rest

end Parser

namespace InTurn

variable {s s' : ParserState} {x : List Lexeme} {acc : List Stmt} {p : Parser α} {q : α → Parser β} {b : β}

/-- A rule adds its statements. -/
theorem bind {sts : α → List Stmt} (hs : InTurn x acc s.rest) (hp : ReadsInTurn p sts) (h : (p >>= q) s = .ok b s') :
    ∃ a s₁, InTurn x (acc ++ sts a) s₁.rest ∧ q a s₁ = .ok b s' := by
  obtain ⟨a, s₁, ha, h⟩ := ok_bind_iff.1 h
  exact ⟨a, s₁, hs.trans (hp ha), h⟩

/-- A rule that reads no statement. -/
theorem pass [Lawful p] (hs : InTurn x acc s.rest) (h : (p >>= q) s = .ok b s') :
    ∃ a s₁, InTurn x acc s₁.rest ∧ q a s₁ = .ok b s' := by
  obtain ⟨a, s₁, ha, h⟩ := ok_bind_iff.1 h
  exact ⟨a, s₁, List.append_nil acc ▸ hs.trans (.done (Lawful.rest_suffix_of_ok ha)), h⟩

end InTurn

namespace Parser

variable {s s' : ParserState}

namespace ReadsInTurn

theorem pure {a : α} {sts : α → List Stmt} (h : sts a = []) : ReadsInTurn (Pure.pure a) sts := by
  intro s b s' hb
  cases hb
  rw [h]
  exact .done List.suffix_rfl

/-- A rule that reads no statement, and a rule behind it. -/
theorem pass {p : Parser α} [Lawful p] {q : α → Parser β} {sts : β → List Stmt} (h : ∀ a, ReadsInTurn (q a) sts) :
    ReadsInTurn (p >>= q) sts := by
  intro s b s' hb
  obtain ⟨a, s₁, hs, hb⟩ := InTurn.pass (.done List.suffix_rfl) hb
  exact hs.trans (h a hb)

/-- What is made of what a rule gives. -/
theorem map {p : Parser α} {f : α → β} {sts : β → List Stmt} (h : ReadsInTurn p fun a => sts (f a)) :
    ReadsInTurn (do return f (← p)) sts := by
  intro s b s' hb
  obtain ⟨a, s₁, ha, hb⟩ := ok_bind_iff.1 hb
  cases hb
  exact h ha

theorem orRecover {rule recover : Parser α} [Lawful rule] {sts : α → List Stmt} (h : ReadsInTurn rule sts)
    (h' : ReadsInTurn recover sts) : ReadsInTurn (orRecover rule recover) sts := by
  intro s a s' ha
  rw [orRecover_apply] at ha
  split at ha
  · next s₁ heq => exact (h' ha).of_suffix (Lawful.rest_suffix_of_error heq)
  · exact h ha

theorem recovering {part : Parser α} {skipRest : Parser PUnit} [Lawful part] [Lawful skipRest] {sts : α → List Stmt}
    (h : ReadsInTurn part sts) : ReadsInTurn (recovering part skipRest) fun t => t.items.flatMap sts := by
  have hpart : ReadsInTurn (do return Turn.more [← part]) fun t => t.items.flatMap sts :=
    ReadsInTurn.map fun s a s' ha => by simpa [Turn.items] using h ha
  refine .pass fun s => hpart.orRecover (.pass fun _ => .pass fun s' => ?_)
  dsimp only
  split
  · exact .pass fun _ => .pure rfl
  · exact .pure rfl

theorem collect {turn : Parser (Turn α)} {sts : α → List Stmt} (h : ReadsInTurn turn fun t => t.items.flatMap sts) :
    ReadsInTurn (collect turn) (·.flatMap sts) := by
  intro s as s' has
  refine collect_induction (L := fun as s s' => InTurn s.rest (as.flatMap sts) s'.rest) has (fun t s s' ht => h ht) ?_
  intro as bs s s₁ s' has hbs
  rw [List.flatMap_append]
  exact has.trans hbs

theorem nested {what : String} {deeper : Option α} {rule : α → Parser β} {sts : β → List Stmt}
    (h : ∀ level ∈ deeper, ReadsInTurn (rule level) sts) : ReadsInTurn (nested what deeper rule) sts := by
  intro s b s' hb
  obtain ⟨level, hlevel, hb⟩ := ok_nested hb
  exact h level hlevel hb

end ReadsInTurn

end Parser

end StructuredText
