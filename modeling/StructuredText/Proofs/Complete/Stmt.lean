import StructuredText.Proofs.Complete.Expr
import StructuredText.Proofs.Labels
import StructuredText.Proofs.Sound.Stmt

/-!
# What is spelled as a statement is read as one

Where the tokens to come begin with a spelling of a statement, the rule for statements reads it and stops behind it, if
its levels are enough (`statement_complete`). A list of statements is read up to where it has to stop
(`statementsUntil_complete`); that the statements of an arm stop in front of the labels of the next one, and not before,
rests on the search for a colon.
-/

namespace StructuredText

namespace Parser

variable {x₀ x y z : List Lexeme} {t : Lexeme}

/-! ## Ends of statements -/

theorem blockEnd_complete {k : TokenKind} {f : Span → α} (h : BlockEnd k x y) (hlt : x.length ≤ x₀.length) :
    GivesFrom (t :: x₀) (do expectEnd k; return f (← blockSpan t.span.start)) x (f (spanBetween (t :: x₀) y)) y := by
  have hy := h.length_lt
  have hlt' : y.length < (t :: x₀).length := by rw [List.length_cons]; omega
  cases h with
  | plain ht hsemi => exact (Gives.expectEnd ht).from.bind (GivesFrom.bind (.eat_none hsemi (.span hlt')) .pure)
  | semicolon ht hu => exact (Gives.expectEnd ht).from.bind (GivesFrom.bind (.eat hu (.span hlt')) .pure)

theorem semicolon_complete (ht : t.kind = .semicolon) : Gives expectSemicolon (t :: x) ⟨⟩ x := by
  refine GivesFrom.gives (.sees ?_)
  rw [headKind_cons, ht, if_pos (by rfl)]
  exact Gives.skip.from

/-! ## Lists of statements -/

/-- In front of these tokens a list of statements is over. -/
def Halts (stops : ParserState → Bool) (y : List Lexeme) : Prop :=
  ∀ s, s.rest = y → (s.rest.isEmpty || s.kind.endsStatements || stops s) = true

theorem Halts.of_ends {stops : ParserState → Bool} (h : (headKind y).endsStatements = true) : Halts stops y := by
  rintro s rfl
  rw [s.kind_eq_headKind, h, Bool.or_true, Bool.true_or]

/-- No statement is taken for the end of its list. -/
def PassesStatements (stops : ParserState → Bool) : Prop :=
  ∀ st x y s, (StmtPhrase.stmt st).Spelled x y → s.rest = x → stops s = false

theorem passesStatements_false : PassesStatements fun _ => false := fun _ _ _ _ _ _ => rfl

theorem passesStatements_atCaseLabel : PassesStatements ParserState.atCaseLabel :=
  fun _ _ _ _ h hs => not_atCaseLabel_of_stmt h hs

section

variable {statement : Parser Stmt} {stops : ParserState → Bool}

theorem statementTurn_last (hy : Halts stops y) : Gives (statementTurn statement stops) y (.last []) y := by
  refine GivesFrom.gives (.get fun s hs => ?_)
  rw [if_pos (hy s hs)]
  exact .pure

/-- In front of a statement, a list of statements goes on. -/
theorem not_over_of_stmt {st : Stmt} (hstops : PassesStatements stops) (h : (StmtPhrase.stmt st).Spelled x y)
    {s : ParserState} (hs : s.rest = x) : (s.rest.isEmpty || s.kind.endsStatements || stops s) = false := by
  rw [hstops st x y s h hs, s.kind_eq_headKind, hs, h.headKind_stmt.1]
  obtain ⟨u, z, rfl, -⟩ := exists_of_headKind rfl h.headKind_stmt.2
  rfl

theorem statementTurn_more [Lawful statement] {st : Stmt} (hstops : PassesStatements stops)
    (h : (StmtPhrase.stmt st).Spelled x y) (hg : Gives statement x st y) :
    Gives (statementTurn statement stops) x (.more [st]) y := by
  refine GivesFrom.gives (.get fun s hs => ?_)
  rw [not_over_of_stmt hstops h hs]
  exact hg.recovering.from

end

/-! ## Branches -/

section

variable {level : Level} [level.Lawful] {w : Lexeme}

omit [level.Lawful] in
theorem elseBody_none (hy : headKind y ≠ .kwElse) : Gives (elseBody level) y none y :=
  GivesFrom.gives (.eat_none hy .pure)

theorem elseBody_some {body : List Stmt} (hw : w.kind = .kwElse) (h : Gives (statementList level.statement) x body y) :
    Gives (elseBody level) (w :: x) (some body) y :=
  GivesFrom.gives (.eat hw (h.from.bind .pure))

omit [level.Lawful] in
theorem elsifTurn_last (hy : headKind y ≠ .kwElsif) : Gives (elsifTurn level) y (.last []) y := by
  refine GivesFrom.gives (.sees ?_)
  rw [if_neg (by simpa using hy)]
  exact .pure

theorem elsifTurn_more {c : Expr} {body : List Stmt} {th : Lexeme} (hw : w.kind = .kwElsif) (hth : th.kind = .kwThen)
    (hc : Gives (exprOf level.unary) x c (th :: y)) (hbody : Gives (statementList level.statement) y body z)
    (hlt : z.length ≤ x.length) :
    Gives (elsifTurn level) (w :: x) (.more [.mk c body (spanBetween (w :: x) z)]) z := by
  refine GivesFrom.gives (.sees ?_)
  rw [if_pos (by simpa using hw)]
  refine (Gives.offset (.skip (hc.from.bind ((Gives.expect hth).from.bind (hbody.from.bind ?_))))).from
  exact .spanFrom (by rw [List.length_cons]; omega) .pure

theorem caseArm_complete {labels : List Expr} {body : List Stmt} {c : Lexeme} (hx : (headKind x).canStartExpr = true)
    (hlabels : Gives (sepByComma (exprOf level.unary)) x labels (c :: y)) (hc : c.kind = .colon)
    (hbody : Gives (statementsUntil level.statement ParserState.atCaseLabel) y body z) (hlt : z.length < x.length) :
    Gives (caseArm level) x (.mk labels body (spanBetween x z)) z := by
  obtain ⟨u, x, rfl, -⟩ := exists_of_headKind rfl (show headKind x ≠ .eof by rintro hk; rw [hk] at hx; cases hx)
  refine Gives.offset (.kind ?_)
  rw [if_pos hx]
  exact hlabels.from.bind ((Gives.expect hc).from.bind (hbody.from.bind (.spanFrom hlt .pure)))

omit [level.Lawful] in
theorem caseArmTurn_last (hy : (headKind y).endsStatements = true) : Gives (caseArmTurn level) y (.last []) y := by
  refine GivesFrom.gives (.get fun s hs => ?_)
  rw [if_pos (by rw [s.kind_eq_headKind, hs, hy, Bool.or_true])]
  exact .pure

theorem endsStatements_of_canStartExpr {k : TokenKind} (h : k.canStartExpr = true) : k.endsStatements = false := by
  cases k <;> first | rfl | cases h

/-- In front of a label, the arms go on. -/
theorem not_over_of_canStartExpr (hx : (headKind x).canStartExpr = true) {s : ParserState} (hs : s.rest = x) :
    (s.rest.isEmpty || s.kind.endsStatements) = false := by
  rw [s.kind_eq_headKind, hs, endsStatements_of_canStartExpr hx]
  obtain ⟨u, z, rfl, -⟩ := exists_of_headKind rfl (show headKind x ≠ .eof by rintro hk; rw [hk] at hx; cases hx)
  rfl

theorem caseArmTurn_more {a : CaseArm} (hx : (headKind x).canStartExpr = true) (h : Gives (caseArm level) x a y) :
    Gives (caseArmTurn level) x (.more [a]) y := by
  refine GivesFrom.gives (.get fun s hs => ?_)
  rw [not_over_of_canStartExpr hx hs]
  exact h.recovering.from

/-! ## Statements with a body -/

variable {x₁ x₂ x₃ x₄ : List Lexeme}

theorem ifStatement_complete {c : Expr} {body : List Stmt} {branches : List ElsifBranch} {last : Option (List Stmt)}
    {th : Lexeme} (hc : Gives (exprOf level.unary) x c (th :: x₁)) (hth : th.kind = .kwThen)
    (hbody : Gives (statementList level.statement) x₁ body x₂)
    (hbranches : Gives (collect (elsifTurn level)) x₂ branches x₃) (hlast : Gives (elseBody level) x₃ last x₄)
    (hend : BlockEnd .kwEndIf x₄ y) (hlt : x₄.length ≤ x.length) :
    Gives (ifStatement level) (w :: x) (.ifThen c body branches last (spanBetween (w :: x) y)) y := by
  refine Gives.offset (.skip (hc.from.bind ((Gives.expect hth).from.bind (hbody.from.bind ?_))))
  exact hbranches.from.bind (hlast.from.bind (blockEnd_complete hend hlt))

theorem caseStatement_complete {e : Expr} {as : List CaseArm} {last : Option (List Stmt)} {o : Lexeme}
    (he : Gives (exprOf level.unary) x e (o :: x₁)) (ho : o.kind = .kwOf) (hx₁ : (headKind x₁).canStartExpr = true)
    (has : Gives (collect (caseArmTurn level)) x₁ as x₂) (hlast : Gives (elseBody level) x₂ last x₃)
    (hend : BlockEnd .kwEndCase x₃ y) (hlt : x₃.length ≤ x.length) :
    Gives (caseStatement level) (w :: x) (.select e as last (spanBetween (w :: x) y)) y := by
  rw [caseStatement_eq]
  refine Gives.offset (.skip (he.from.bind ((Gives.expect ho).from.bind (.kind ?_))))
  have harms : GivesFrom (w :: x) (caseArms level w.span.start e) x₁
      (.select e as last (spanBetween (w :: x) y)) y :=
    has.from.bind (hlast.from.bind (blockEnd_complete hend hlt))
  dsimp only
  split
  · next hk => rw [hk] at hx₁; cases hx₁
  · next hk => rw [hk] at hx₁; cases hx₁
  · exact harms

theorem forStatement_complete {first last : Expr} {step : Option Expr} {body : List Stmt} {v a t d : Lexeme}
    (hv : v.kind = .ident) (ha : a.kind = .assign) (hfirst : Gives (exprOf level.unary) x first (t :: x₁))
    (ht : t.kind = .kwTo) (hlast : Gives (exprOf level.unary) x₁ last x₂)
    (hstep : Gives (forStatement.step level) x₂ step (d :: x₃)) (hd : d.kind = .kwDo)
    (hbody : Gives (statementList level.statement) x₃ body x₄) (hend : BlockEnd .kwEndFor x₄ y)
    (hlt : x₄.length ≤ x.length) :
    Gives (forStatement level) (w :: v :: a :: x)
      (.forLoop v.name first last step body (spanBetween (w :: v :: a :: x) y)) y := by
  refine Gives.offset (.skip ((ident_complete hv).from.bind ((Gives.expect ha).from.bind (hfirst.from.bind ?_))))
  refine (Gives.expect ht).from.bind (hlast.from.bind (hstep.from.bind ((Gives.expect hd).from.bind ?_)))
  exact hbody.from.bind (blockEnd_complete hend (by simp only [List.length_cons]; omega))

theorem whileStatement_complete {c : Expr} {body : List Stmt} {d : Lexeme}
    (hc : Gives (exprOf level.unary) x c (d :: x₁)) (hd : d.kind = .kwDo)
    (hbody : Gives (statementList level.statement) x₁ body x₂) (hend : BlockEnd .kwEndWhile x₂ y)
    (hlt : x₂.length ≤ x.length) :
    Gives (whileStatement level) (w :: x) (.whileLoop c body (spanBetween (w :: x) y)) y :=
  Gives.offset <| .skip <| hc.from.bind <| (Gives.expect hd).from.bind <| hbody.from.bind (blockEnd_complete hend hlt)

theorem repeatStatement_complete {c : Expr} {body : List Stmt} {u : Lexeme}
    (hbody : Gives (statementList level.statement) x body (u :: x₁)) (hu : u.kind = .kwUntil)
    (hc : Gives (exprOf level.unary) x₁ c x₂) (hend : BlockEnd .kwEndRepeat x₂ y) (hlt : x₂.length ≤ x.length) :
    Gives (repeatStatement level) (w :: x) (.repeatLoop body c (spanBetween (w :: x) y)) y :=
  Gives.offset <| .skip <| hbody.from.bind <| (Gives.expect hu).from.bind <| hc.from.bind (blockEnd_complete hend hlt)

end

/-! ## Statements without a body -/

theorem keywordStatement_complete {make : Span → Stmt} {w e : Lexeme} (he : e.kind = .semicolon) :
    Gives (keywordStatement make) (w :: e :: y) (make (spanBetween (w :: e :: y) y)) y :=
  Gives.offset <| .skip <| (semicolon_complete he).from.bind <|
    .spanFrom (by simp only [List.length_cons]; omega) .pure

section

variable {deeper : Option Level} [LawfulLevel deeper] {e : Lexeme} {target : Expr}

theorem assignmentOrCall_assign {value : Expr} {a : Lexeme}
    (htarget : Gives (accessOf (deeper.map Level.unary)) x target (a :: z)) (ha : a.kind = .assign)
    (hvalue : Gives (exprOf (unaryOf (deeper.map Level.unary))) z value (e :: y)) (he : e.kind = .semicolon)
    (hlt : y.length < x.length) :
    Gives (assignmentOrCall deeper) x (.assign target value (spanBetween x y)) y := by
  cases x with
  | nil => simp at hlt
  | cons t x =>
    refine Gives.offset (htarget.from.bind (.eat ha ?_))
    exact hvalue.from.bind ((semicolon_complete he).from.bind (.spanFrom hlt .pure))

theorem assignmentOrCall_call (htarget : Gives (accessOf (deeper.map Level.unary)) x target (e :: y))
    (he : e.kind = .semicolon) (hlt : y.length < x.length) :
    Gives (assignmentOrCall deeper) x (.call target (spanBetween x y)) y := by
  cases x with
  | nil => simp at hlt
  | cons t x =>
    refine Gives.offset (htarget.from.bind (.eat_none (by rw [headKind_cons, he]; decide) ?_))
    exact (semicolon_complete he).from.bind (.spanFrom hlt .pure)

end

theorem statement_target {levels : Nat} {st : Stmt} (hk : (headKind x).startsTarget = true)
    (h : Gives (assignmentOrCall (deeperLevel levels)) x st y) : Gives (statement levels) x st y := by
  rw [statement_eq]
  refine GivesFrom.gives (.kind ?_)
  generalize headKind x = k at hk
  cases k <;> first | exact h.from | cases hk

end Parser

/-! ## Derivations -/

namespace StmtPhrase

open StructuredText.Parser

/-- A phrase is read where it is spelled, by the rules with these levels. -/
def ReadBy (levels : Nat) : StmtPhrase → List Lexeme → List Lexeme → Prop
  | .stmt st, x, y => st.nesting ≤ levels → Gives (statement levels) x st y
  | .stmts sts, x, y => Stmt.nestingAll sts ≤ levels → ∀ stops, PassesStatements stops → Halts stops y →
    Gives (statementsUntil (statement levels) stops) x sts y
  | .elsifs branches, x, y => ElsifBranch.nestingAll branches ≤ levels → (headKind y).endsStatements = true →
    headKind y ≠ .kwElsif → Gives (collect (elsifTurn (levelAt levels))) x branches y
  | .elsePart body, x, y => Stmt.nestingElse body ≤ levels → (headKind y).endsStatements = true →
    headKind y ≠ .kwElse → Gives (elseBody (levelAt levels)) x body y
  | .arm a, x, y => a.nesting ≤ levels → Halts ParserState.atCaseLabel y → Gives (caseArm (levelAt levels)) x a y
  | .arms as, x, y => CaseArm.nestingAll as ≤ levels → (headKind y).endsStatements = true →
    Gives (collect (caseArmTurn (levelAt levels))) x as y

namespace ReadBy

variable {levels : Nat} {x y z : List Lexeme}

/-- The list of statements up to a word that ends it. -/
theorem list {sts : List Stmt} (h : (stmts sts).ReadBy levels x y) (hn : Stmt.nestingAll sts ≤ levels)
    (hy : (headKind y).endsStatements = true) : Gives (statementList (levelAt levels).statement) x sts y :=
  h hn _ passesStatements_false (.of_ends hy)

theorem noStmts : (stmts []).ReadBy levels x x :=
  fun _ _ _ hy => .collect_last (turning_statementTurn (statement_sound levels) _) (statementTurn_last hy)

theorem moreStmts {st : Stmt} {sts : List Stmt} (hst : (stmt st).Spelled x y) (h : (stmt st).ReadBy levels x y)
    (hs : (stmts sts).ReadBy levels y z) : (stmts (st :: sts)).ReadBy levels x z := by
  intro hn stops hstops hz
  rw [Stmt.nestingAll] at hn
  obtain ⟨hn, hns⟩ := Nat.max_le.1 hn
  exact .collect_more (turning_statementTurn (statement_sound levels) _) (statementTurn_more hstops hst (h hn))
    (hs hns stops hstops hz)

/-- A statement with a body is read by the rules of one level less. -/
theorem exists_levelAt {n : Nat} (h : n + 1 ≤ levels) :
    ∃ m, n ≤ m ∧ statement levels = statementOf (some (levelAt m)) := by
  obtain ⟨m, rfl⟩ : ∃ m, levels = m + 1 := ⟨levels - 1, by omega⟩
  exact ⟨m, by omega, rfl⟩

/-- The expression of a statement with a body. -/
theorem expression {e : Expr} (he : (ExprPhrase.expr 0 e).Spelled x y) (hn : e.nesting ≤ levels)
    (hy : (headKind y).endsTier 0 = true) : Gives (exprOf (levelAt levels).unary) x e y :=
  expr_complete hn he hy

/-! ### Statements with a body -/

section

variable {w : Lexeme} {x₁ x₂ x₃ x₄ : List Lexeme}

theorem ifThen {c : Expr} {body : List Stmt} {branches : List ElsifBranch} {last : Option (List Stmt)} {th : Lexeme}
    (hw : w.kind = .kwIf) (hc : (ExprPhrase.expr 0 c).Spelled x (th :: x₁)) (hth : th.kind = .kwThen)
    (hbody : (stmts body).Spelled x₁ x₂) (hbranches : (elsifs branches).Spelled x₂ x₃)
    (hlast : (elsePart last).Spelled x₃ x₄) (hend : BlockEnd .kwEndIf x₄ y)
    (ihbody : ∀ levels, (stmts body).ReadBy levels x₁ x₂) (ihbranches : ∀ levels, (elsifs branches).ReadBy levels x₂ x₃)
    (ihlast : ∀ levels, (elsePart last).ReadBy levels x₃ x₄) :
    (stmt (.ifThen c body branches last (spanBetween (w :: x) y))).ReadBy levels (w :: x) y := by
  have hlt : x₄.length ≤ x.length := by
    have h := hc.length_lt
    have h₁ := hbody.length_le.1
    have h₂ := hbranches.length_le.1
    have h₃ := hlast.length_le.1
    rw [List.length_cons] at h
    omega
  intro hn
  obtain ⟨m, hn, hlevel⟩ := exists_levelAt hn
  obtain ⟨hn₁, hn₂⟩ := Nat.max_le.1 hn
  obtain ⟨hn₁, hn₃⟩ := Nat.max_le.1 hn₁
  obtain ⟨hn₂, hn₄⟩ := Nat.max_le.1 hn₂
  -- Each part stops in front of the word that begins the next one.
  have hx₄ : headKind x₄ = .kwEndIf := hend.headKind_eq
  have hx₃ := hlast.endsStatements_elsePart (by rw [hx₄]; rfl)
  have hne := hlast.ne_kwElsif_elsePart (by rw [hx₄]; decide)
  have hx₂ := hbranches.endsStatements_elsifs hx₃
  rw [hlevel]
  refine GivesFrom.gives (.kind ?_)
  simp only [headKind_cons, hw]
  exact (ifStatement_complete (expression hc hn₁ (by rw [headKind_cons, hth]; rfl)) hth
    ((ihbody m).list hn₃ hx₂) (ihbranches m hn₂ hx₃ hne)
    (ihlast m hn₄ (by rw [hx₄]; rfl) (by rw [hx₄]; decide)) hend hlt).nested.from

theorem select {e : Expr} {branches : List CaseArm} {last : Option (List Stmt)} {o : Lexeme} (hw : w.kind = .kwCase)
    (he : (ExprPhrase.expr 0 e).Spelled x (o :: x₁)) (ho : o.kind = .kwOf) (hne : branches ≠ [])
    (has : (arms branches).Spelled x₁ x₂) (hlast : (elsePart last).Spelled x₂ x₃) (hend : BlockEnd .kwEndCase x₃ y)
    (ihas : ∀ levels, (arms branches).ReadBy levels x₁ x₂) (ihlast : ∀ levels, (elsePart last).ReadBy levels x₂ x₃) :
    (stmt (.select e branches last (spanBetween (w :: x) y))).ReadBy levels (w :: x) y := by
  have hlt : x₃.length ≤ x.length := by
    have h := he.length_lt
    have h₁ := has.length_le.1
    have h₂ := hlast.length_le.1
    rw [List.length_cons] at h
    omega
  intro hn
  obtain ⟨m, hn, hlevel⟩ := exists_levelAt hn
  obtain ⟨hn₁, hn₂⟩ := Nat.max_le.1 hn
  obtain ⟨hn₂, hn₃⟩ := Nat.max_le.1 hn₂
  have hx₃ : headKind x₃ = .kwEndCase := hend.headKind_eq
  have hx₂ := hlast.endsStatements_elsePart (by rw [hx₃]; rfl)
  have hx₁ := has.canStartExpr_arms hne
  rw [hlevel]
  refine GivesFrom.gives (.kind ?_)
  simp only [headKind_cons, hw]
  exact (caseStatement_complete (expression he hn₁ (by rw [headKind_cons, ho]; rfl)) ho hx₁ (ihas m hn₂ hx₂)
    (ihlast m hn₃ (by rw [hx₃]; rfl) (by rw [hx₃]; decide)) hend hlt).nested.from

theorem step {step : Option Expr} (h : Optionally (fun e => (ExprPhrase.expr 0 e).Spelled) .kwBy step x y)
    (hn : depthOf Expr.nesting step ≤ levels) (hy : headKind y = .kwDo) :
    Gives (forStatement.step (levelAt levels)) x step y := by
  show Gives (optional .kwBy (exprOf (levelAt levels).unary)) x step y
  refine optional_complete h (by rw [hy]; decide) fun e he x' hx => ?_
  cases he
  exact expression hx hn (by rw [hy]; rfl)

theorem forLoop {first last : Expr} {step : Option Expr} {body : List Stmt} {v a t d : Lexeme} (hw : w.kind = .kwFor)
    (hv : v.kind = .ident) (ha : a.kind = .assign) (hfirst : (ExprPhrase.expr 0 first).Spelled x (t :: x₁))
    (ht : t.kind = .kwTo) (hlast : (ExprPhrase.expr 0 last).Spelled x₁ x₂)
    (hstep : Optionally (fun e => (ExprPhrase.expr 0 e).Spelled) .kwBy step x₂ (d :: x₃))
    (hd : d.kind = .kwDo) (hbody : (stmts body).Spelled x₃ x₄) (hend : BlockEnd .kwEndFor x₄ y)
    (ihbody : ∀ levels, (stmts body).ReadBy levels x₃ x₄) :
    (stmt (.forLoop v.name first last step body (spanBetween (w :: v :: a :: x) y))).ReadBy levels
      (w :: v :: a :: x) y := by
  have hlt : x₄.length ≤ x.length := by
    have h := hfirst.length_lt
    have h₁ := hlast.length_lt
    have h₂ := hstep.length_le fun h => Nat.le_of_lt h.length_lt
    have h₃ := hbody.length_le.1
    rw [List.length_cons] at h h₂
    omega
  intro hn
  obtain ⟨m, hn, hlevel⟩ := exists_levelAt hn
  obtain ⟨hn₁, hn₂⟩ := Nat.max_le.1 hn
  obtain ⟨hn₁, hn₃⟩ := Nat.max_le.1 hn₁
  obtain ⟨hn₂, hn₄⟩ := Nat.max_le.1 hn₂
  have hx₄ : headKind x₄ = .kwEndFor := hend.headKind_eq
  have hx₂ : (headKind x₂).endsTier 0 = true := by
    cases hstep with
    | none => rw [headKind_cons, hd]; rfl
    | some hb _ => rw [headKind_cons, hb]; rfl
  rw [hlevel]
  refine GivesFrom.gives (.kind ?_)
  simp only [headKind_cons, hw]
  exact (forStatement_complete hv ha (expression hfirst hn₁ (by rw [headKind_cons, ht]; rfl)) ht
    (expression hlast hn₃ hx₂) (ReadBy.step hstep hn₂ hd) hd ((ihbody m).list hn₄ (by rw [hx₄]; rfl)) hend
    hlt).nested.from

theorem whileLoop {c : Expr} {body : List Stmt} {d : Lexeme} (hw : w.kind = .kwWhile)
    (hc : (ExprPhrase.expr 0 c).Spelled x (d :: x₁)) (hd : d.kind = .kwDo) (hbody : (stmts body).Spelled x₁ x₂)
    (hend : BlockEnd .kwEndWhile x₂ y) (ihbody : ∀ levels, (stmts body).ReadBy levels x₁ x₂) :
    (stmt (.whileLoop c body (spanBetween (w :: x) y))).ReadBy levels (w :: x) y := by
  have hlt : x₂.length ≤ x.length := by
    have h := hc.length_lt
    have h₁ := hbody.length_le.1
    rw [List.length_cons] at h
    omega
  intro hn
  obtain ⟨m, hn, hlevel⟩ := exists_levelAt hn
  obtain ⟨hn₁, hn₂⟩ := Nat.max_le.1 hn
  have hx₂ : headKind x₂ = .kwEndWhile := hend.headKind_eq
  rw [hlevel]
  refine GivesFrom.gives (.kind ?_)
  simp only [headKind_cons, hw]
  exact (whileStatement_complete (expression hc hn₁ (by rw [headKind_cons, hd]; rfl)) hd
    ((ihbody m).list hn₂ (by rw [hx₂]; rfl)) hend hlt).nested.from

theorem repeatLoop {c : Expr} {body : List Stmt} {u : Lexeme} (hw : w.kind = .kwRepeat)
    (hbody : (stmts body).Spelled x (u :: x₁)) (hu : u.kind = .kwUntil) (hc : (ExprPhrase.expr 0 c).Spelled x₁ x₂)
    (hend : BlockEnd .kwEndRepeat x₂ y) (ihbody : ∀ levels, (stmts body).ReadBy levels x (u :: x₁)) :
    (stmt (.repeatLoop body c (spanBetween (w :: x) y))).ReadBy levels (w :: x) y := by
  have hlt : x₂.length ≤ x.length := by
    have h := hbody.length_le.1
    have h₁ := hc.length_lt
    rw [List.length_cons] at h
    omega
  intro hn
  obtain ⟨m, hn, hlevel⟩ := exists_levelAt hn
  obtain ⟨hn₁, hn₂⟩ := Nat.max_le.1 hn
  have hx₂ : headKind x₂ = .kwEndRepeat := hend.headKind_eq
  rw [hlevel]
  refine GivesFrom.gives (.kind ?_)
  simp only [headKind_cons, hw]
  exact (repeatStatement_complete ((ihbody m).list hn₂ (by rw [headKind_cons, hu]; rfl)) hu
    (expression hc hn₁ (by rw [hx₂]; rfl)) hend hlt).nested.from

/-! ### Statements without a body -/

theorem assign {target value : Expr} {a e : Lexeme} (hk : (headKind x).startsTarget = true)
    (htarget : (ExprPhrase.access target).Spelled x (a :: x₁)) (ha : a.kind = .assign)
    (hvalue : (ExprPhrase.expr 0 value).Spelled x₁ (e :: y)) (he : e.kind = .semicolon) :
    (stmt (.assign target value (spanBetween x y))).ReadBy levels x y := by
  have hlt : y.length < x.length := by
    have h := htarget.length_lt
    have h₁ := hvalue.length_lt
    rw [List.length_cons] at h h₁
    omega
  intro hn
  obtain ⟨hn₁, hn₂⟩ := Nat.max_le.1 hn
  have h₁ := access_complete hn₁ htarget (by rw [headKind_cons, ha]; rfl)
  have h₂ := expr_complete hn₂ hvalue (by rw [headKind_cons, he]; rfl)
  rw [access, ← map_unary_deeperLevel] at h₁
  rw [Parser.expr, unary_eq, ← map_unary_deeperLevel] at h₂
  exact statement_target hk (assignmentOrCall_assign h₁ ha h₂ he hlt)

theorem call {callee : Expr} {e : Lexeme} (hk : (headKind x).startsTarget = true)
    (hcallee : (ExprPhrase.access callee).Spelled x (e :: y)) (he : e.kind = .semicolon) :
    (stmt (.call callee (spanBetween x y))).ReadBy levels x y := by
  have hlt : y.length < x.length := by
    have h := hcallee.length_lt
    rw [List.length_cons] at h
    omega
  intro hn
  have h := access_complete hn hcallee (by rw [headKind_cons, he]; rfl)
  rw [access, ← map_unary_deeperLevel] at h
  exact statement_target hk (assignmentOrCall_call h he hlt)

/-! ### Branches -/

theorem noElsifs : (elsifs []).ReadBy levels x x :=
  fun _ _ hy => .collect_last (turning_elsifTurn (unary_sound levels) (statement_sound levels)) (elsifTurn_last hy)

theorem moreElsifs {c : Expr} {body : List Stmt} {branches : List ElsifBranch} {th : Lexeme} (hw : w.kind = .kwElsif)
    (hc : (ExprPhrase.expr 0 c).Spelled x (th :: x₁)) (hth : th.kind = .kwThen) (hbody : (stmts body).Spelled x₁ x₂)
    (hbranches : (elsifs branches).Spelled x₂ y) (ihbody : (stmts body).ReadBy levels x₁ x₂)
    (ihbranches : (elsifs branches).ReadBy levels x₂ y) :
    (elsifs (.mk c body (spanBetween (w :: x) x₂) :: branches)).ReadBy levels (w :: x) y := by
  have hlt : x₂.length ≤ x.length := by
    have h := hc.length_lt
    have h₁ := hbody.length_le.1
    rw [List.length_cons] at h
    omega
  intro hn hy hne
  rw [ElsifBranch.nestingAll, ElsifBranch.nesting] at hn
  obtain ⟨hn, hns⟩ := Nat.max_le.1 hn
  obtain ⟨hn₁, hn₂⟩ := Nat.max_le.1 hn
  have hx₂ := hbranches.endsStatements_elsifs hy
  exact .collect_more (turning_elsifTurn (unary_sound levels) (statement_sound levels))
    (elsifTurn_more hw hth (expression hc hn₁ (by rw [headKind_cons, hth]; rfl)) (ihbody.list hn₂ hx₂) hlt)
    (ihbranches hns hy hne)

theorem arm {labels : List Expr} {body : List Stmt} {c : Lexeme}
    (hlabels : (ExprPhrase.exprs labels).Spelled x (c :: x₁)) (hc : c.kind = .colon)
    (hbody : (stmts body).Spelled x₁ y) (ihbody : (stmts body).ReadBy levels x₁ y) :
    (StmtPhrase.arm (.mk labels body (spanBetween x y))).ReadBy levels x y := by
  have hlt : y.length < x.length := by
    have h := hlabels.length_lt
    have h₁ := hbody.length_le.1
    rw [List.length_cons] at h
    omega
  intro hn hy
  rw [CaseArm.nesting] at hn
  obtain ⟨hn₁, hn₂⟩ := Nat.max_le.1 hn
  exact caseArm_complete hlabels.canStartExpr
    (hlabels.readBy levels hn₁ (by rw [headKind_cons, hc]; decide) (by rw [headKind_cons, hc]; rfl)) hc
    (ihbody hn₂ _ passesStatements_atCaseLabel hy) hlt

theorem noArms : (arms []).ReadBy levels x x :=
  fun _ hy => .collect_last (turning_caseArmTurn (unary_sound levels) (statement_sound levels)) (caseArmTurn_last hy)

/-- The body of an arm ends with the arms, or in front of the labels of the next one. -/
theorem moreArms {a : CaseArm} {as : List CaseArm} (ha : (StmtPhrase.arm a).Spelled x y) (has : (arms as).Spelled y z)
    (ih : (StmtPhrase.arm a).ReadBy levels x y) (ihas : (arms as).ReadBy levels y z) :
    (arms (a :: as)).ReadBy levels x z := by
  intro hn hz
  rw [CaseArm.nestingAll] at hn
  obtain ⟨hn, hns⟩ := Nat.max_le.1 hn
  have hy : Halts ParserState.atCaseLabel y := by
    cases has with
    | noArms => exact .of_ends hz
    | moreArms hnext _ => exact fun s hs => by rw [atCaseLabel_of_arm hnext hs, Bool.or_true]
  exact .collect_more (turning_caseArmTurn (unary_sound levels) (statement_sound levels))
    (caseArmTurn_more ha.headKind_arm (ih hn hy)) (ihas hns hz)

end

end ReadBy

/-- Every phrase is read where it is spelled. -/
theorem Spelled.readBy {φ : StmtPhrase} {x y : List Lexeme} (h : φ.Spelled x y) (levels : Nat) :
    φ.ReadBy levels x y := by
  induction h generalizing levels with
  | ifThen hw hc hth hbody hbranches hlast hend ihbody ihbranches ihlast =>
    exact .ifThen hw hc hth hbody hbranches hlast hend ihbody ihbranches ihlast
  | select hw he ho hne has hlast hend ihas ihlast => exact .select hw he ho hne has hlast hend ihas ihlast
  | forLoop hw hv ha hfirst ht hlast hstep hd hbody hend ihbody =>
    exact .forLoop hw hv ha hfirst ht hlast hstep hd hbody hend ihbody
  | whileLoop hw hc hd hbody hend ihbody => exact .whileLoop hw hc hd hbody hend ihbody
  | repeatLoop hw hbody hu hc hend ihbody => exact .repeatLoop hw hbody hu hc hend ihbody
  | assign hk htarget ha hvalue he => exact .assign hk htarget ha hvalue he
  | call hk hcallee he => exact .call hk hcallee he
  | leave hw he | exit hw he | next hw he =>
    intro _
    rw [statement_eq]
    refine GivesFrom.gives (.kind ?_)
    simp only [headKind_cons, hw]
    exact (keywordStatement_complete he).from
  | nop ht =>
    intro _
    rw [statement_eq]
    refine GivesFrom.gives (.kind ?_)
    simp only [headKind_cons, ht]
    exact .take .pure
  | noStmts => exact .noStmts
  | moreStmts hst _ ih ihs => exact .moreStmts hst (ih levels) (ihs levels)
  | noElsifs => exact .noElsifs
  | moreElsifs hw hc hth hbody hbranches ihbody ihbranches =>
    exact .moreElsifs hw hc hth hbody hbranches (ihbody levels) (ihbranches levels)
  | noElse => exact fun _ _ hy => elseBody_none hy
  | someElse hw _ ih => exact fun hn hy _ => elseBody_some hw ((ih levels).list hn hy)
  | arm hlabels hc hbody ihbody => exact .arm hlabels hc hbody (ihbody levels)
  | noArms => exact .noArms
  | moreArms ha has ih ihas => exact .moreArms ha has (ih levels) (ihas levels)

end StmtPhrase

namespace Parser

variable {levels : Nat} {x y : List Lexeme}

/-- What is spelled as a statement is read as one. -/
theorem statement_complete {st : Stmt} (h : (StmtPhrase.stmt st).Spelled x y) (hn : st.nesting ≤ levels) :
    Gives (statement levels) x st y :=
  h.readBy levels hn

/-- Statements are read up to the end of the stream, or up to a word that ends them. -/
theorem statements_complete {sts : List Stmt} (h : (StmtPhrase.stmts sts).Spelled x y)
    (hn : Stmt.nestingAll sts ≤ levels) (hy : Halts (fun _ => false) y) : Gives (statements levels) x sts y :=
  h.readBy levels hn _ passesStatements_false hy

end Parser

end StructuredText
