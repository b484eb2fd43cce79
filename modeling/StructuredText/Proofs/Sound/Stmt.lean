import StructuredText.Proofs.Grammar.Stmt
import StructuredText.Proofs.Sound.Expr

/-!
# What is read as a statement is spelled as one

If the rule for statements reads `st` without a report, the tokens that it took are a spelling of `st`, and `st` is
nested no deeper than the levels of the rule (`statement_sound`).
-/

namespace StructuredText.Parser

variable {s s' : ParserState}

/-! ## Ends of statements -/

theorem blockEnd_sound {k : TokenKind} {start : Nat} {f : Span → α} {a : α} (hk : k ≠ .eof)
    (h : Reads (do expectEnd k; return f (← blockSpan start)) s a s') :
    BlockEnd k s.rest s'.rest ∧ a = f (s'.spanFrom start) := by
  obtain ⟨hkind, h⟩ := reads_expectEnd_bind.1 h
  obtain ⟨t, ht, htk⟩ := ParserState.exists_of_kind hkind hk
  obtain ⟨span, s₁, h₁, h⟩ := reads_bind_iff.1 h
  obtain ⟨rfl, rfl⟩ := reads_pure.1 h
  rw [blockSpan, reads_eat_bind] at h₁
  have hspan {s : ParserState} (h : Reads (spanFrom start) s span s') : span = s'.spanFrom start ∧ s' = s := by
    have := h.1
    cases this
    exact ⟨rfl, rfl⟩
  split at h₁
  · next hsemi =>
    obtain ⟨rfl, rfl⟩ := hspan h₁
    obtain ⟨u, hu, huk⟩ := ParserState.exists_of_kind hsemi (by decide)
    rw [ht, hu]
    exact ⟨.semicolon htk huk, rfl⟩
  · next hsemi =>
    obtain ⟨rfl, rfl⟩ := hspan h₁
    rw [ht]
    rw [ParserState.kind_eq_headKind] at hsemi
    exact ⟨.plain htk hsemi, rfl⟩

theorem reads_expectSemicolon {u : PUnit} (h : Reads expectSemicolon s u s') :
    s.kind = .semicolon ∧ s' = s.advance := by
  rw [expectSemicolon, reads_sees_bind] at h
  split at h
  · next hk =>
    have := h.1
    cases this
    exact ⟨eq_of_beq hk, rfl⟩
  · exact absurd h not_reads_missing_bind

theorem semicolon_sound {u : PUnit} (h : Reads expectSemicolon s u s') :
    ∃ t, s.rest = t :: s'.rest ∧ t.kind = .semicolon := by
  obtain ⟨hk, rfl⟩ := reads_expectSemicolon h
  exact ParserState.exists_of_kind hk (by decide)

/-! ## Lists of statements -/

/-- What the rule reads is spelled as a statement, and is nested at most `n` deep. -/
def ReadsStmt (p : Parser Stmt) (n : Nat) : Prop :=
  ∀ ⦃s st s'⦄, Reads p s st s' → (StmtPhrase.stmt st).Spelled s.rest s'.rest ∧ st.nesting ≤ n

section

variable {statement : Parser Stmt} [Lawful statement] {n : Nat}

theorem statementTurn_sound {stops : ParserState → Bool} {t : Turn Stmt}
    (h : Reads (statementTurn statement stops) s t s') :
    (∃ st, t = .more [st] ∧ Reads statement s st s') ∨ t = .last [] ∧ s' = s := by
  rw [statementTurn, reads_get_bind] at h
  split at h
  · exact .inr (reads_pure.1 h)
  · exact .inl (reads_recovering.1 h)

variable (hs : ReadsStmt statement n)

include hs

theorem turning_statementTurn (stops : ParserState → Bool) : Turning (statementTurn statement stops) := by
  intro s items s' h
  rcases statementTurn_sound h with ⟨st, -, h⟩ | ⟨h, -⟩
  · exact (hs h).1.length_lt rfl
  · cases h

theorem statementsUntil_sound {stops : ParserState → Bool} {sts : List Stmt}
    (h : Reads (statementsUntil statement stops) s sts s') :
    (StmtPhrase.stmts sts).Spelled s.rest s'.rest ∧ Stmt.nestingAll sts ≤ n := by
  refine Reads.collect_induction (turning_statementTurn hs stops)
    (L := fun sts s s' => (StmtPhrase.stmts sts).Spelled s.rest s'.rest ∧ Stmt.nestingAll sts ≤ n) h ?_ ?_
  · intro sts s s' h
    rcases statementTurn_sound h with ⟨st, ht, -⟩ | ⟨ht, rfl⟩ <;> cases ht
    exact ⟨.noStmts, Nat.zero_le n⟩
  · rintro items s s₁ sts s' h ⟨hsts, hns⟩
    rcases statementTurn_sound h with ⟨st, ht, hst⟩ | ⟨ht, -⟩ <;> cases ht
    obtain ⟨hst, hn⟩ := hs hst
    exact ⟨.moreStmts hst hsts, Nat.max_le.2 ⟨hn, hns⟩⟩

end

/-! ## Statements with a body -/

section

variable {level : Level} [level.Lawful] {n : Nat} (hu : ReadsAs level.unary .unary n) (hs : ReadsStmt level.statement n)

include hs

theorem elseBody_sound {body : Option (List Stmt)} (h : Reads (elseBody level) s body s') :
    (StmtPhrase.elsePart body).Spelled s.rest s'.rest ∧ Stmt.nestingElse body ≤ n := by
  rw [elseBody, reads_eat_bind] at h
  split at h
  · next hk =>
    obtain ⟨w, hw, hwk⟩ := ParserState.exists_of_kind hk (by decide)
    obtain ⟨body, s₁, h₁, h⟩ := reads_bind_iff.1 h
    obtain ⟨rfl, rfl⟩ := reads_pure.1 h
    obtain ⟨hbody, hn⟩ := statementsUntil_sound hs h₁
    rw [hw]
    exact ⟨.someElse hwk hbody, hn⟩
  · obtain ⟨rfl, rfl⟩ := reads_pure.1 h
    exact ⟨.noElse, Nat.zero_le n⟩

include hu

theorem elsifTurn_sound {t : Turn ElsifBranch} (h : Reads (elsifTurn level) s t s') :
    (∃ w th x₁ c body, s.rest = w :: s.advance.rest ∧ w.kind = .kwElsif ∧
      (ExprPhrase.expr 0 c).Spelled s.advance.rest (th :: x₁) ∧ th.kind = .kwThen ∧
      (StmtPhrase.stmts body).Spelled x₁ s'.rest ∧ t = .more [.mk c body (spanBetween s.rest s'.rest)] ∧
      c.nesting ≤ n ∧ Stmt.nestingAll body ≤ n) ∨ t = .last [] ∧ s' = s := by
  have hp := h.passed
  rw [elsifTurn, reads_sees_bind] at h
  split at h
  · next hk =>
    obtain ⟨w, hw, hwk⟩ := ParserState.exists_of_kind (eq_of_beq hk) (by decide)
    rw [reads_offset_bind, reads_skip_bind] at h
    have hlt := h.length_le
    obtain ⟨c, s₁, h₁, h⟩ := reads_bind_iff.1 h
    obtain ⟨hk₁, h⟩ := reads_expect_bind.1 h
    obtain ⟨body, s₂, h₂, h⟩ := reads_bind_iff.1 h
    rw [reads_spanFrom_bind] at h
    obtain ⟨rfl, rfl⟩ := reads_pure.1 h
    obtain ⟨th, hth, hthk⟩ := ParserState.exists_of_kind hk₁ (by decide)
    obtain ⟨hc, hn⟩ := exprOf_sound hu h₁
    obtain ⟨hbody, hns⟩ := statementsUntil_sound hs h₂
    refine .inl ⟨w, th, _, c, body, hw, hwk, hth ▸ hc, hthk, hbody, ?_, hn, hns⟩
    rw [hp.spanFrom (by rw [hw, List.length_cons]; omega)]
  · exact .inr (reads_pure.1 h)

theorem turning_elsifTurn : Turning (elsifTurn level) := by
  intro s items s' h
  rcases elsifTurn_sound hu hs h with ⟨w, th, x₁, c, body, hw, -, hc, -, hbody, -⟩ | ⟨h, -⟩
  · have := hc.length_lt
    have := hbody.length_le.1
    rw [hw]
    simp only [List.length_cons] at *
    omega
  · cases h

theorem elsifs_sound {branches : List ElsifBranch} (h : Reads (collect (elsifTurn level)) s branches s') :
    (StmtPhrase.elsifs branches).Spelled s.rest s'.rest ∧ ElsifBranch.nestingAll branches ≤ n := by
  refine Reads.collect_induction (turning_elsifTurn hu hs) (L := fun branches s s' =>
    (StmtPhrase.elsifs branches).Spelled s.rest s'.rest ∧ ElsifBranch.nestingAll branches ≤ n) h ?_ ?_
  · intro branches s s' h
    rcases elsifTurn_sound hu hs h with ⟨w, th, x₁, c, body, -, -, -, -, -, ht, -⟩ | ⟨ht, rfl⟩ <;> cases ht
    exact ⟨.noElsifs, Nat.zero_le n⟩
  · rintro items s s₁ branches s' h ⟨hbs, hns⟩
    rcases elsifTurn_sound hu hs h with ⟨w, th, x₁, c, body, hw, hwk, hc, hth, hbody, ht, hn, hn'⟩ | ⟨ht, -⟩ <;>
      cases ht
    rw [hw]
    exact ⟨.moreElsifs hwk hc hth hbody hbs, Nat.max_le.2 ⟨Nat.max_le.2 ⟨hn, hn'⟩, hns⟩⟩

theorem ifStatement_sound {st : Stmt} (hk : s.kind = .kwIf) (h : Reads (ifStatement level) s st s') :
    (StmtPhrase.stmt st).Spelled s.rest s'.rest ∧ st.nesting ≤ n + 1 := by
  have hp := h.passed
  obtain ⟨w, hw, hwk⟩ := ParserState.exists_of_kind hk (by decide)
  rw [ifStatement, reads_offset_bind, reads_skip_bind] at h
  have hlt := h.length_le
  obtain ⟨c, s₁, h₁, h⟩ := reads_bind_iff.1 h
  obtain ⟨hk₁, h⟩ := reads_expect_bind.1 h
  obtain ⟨body, s₂, h₂, h⟩ := reads_bind_iff.1 h
  obtain ⟨branches, s₃, h₃, h⟩ := reads_bind_iff.1 h
  obtain ⟨last, s₄, h₄, h⟩ := reads_bind_iff.1 h
  obtain ⟨hend, rfl⟩ := blockEnd_sound (by decide) h
  obtain ⟨th, hth, hthk⟩ := ParserState.exists_of_kind hk₁ (by decide)
  obtain ⟨hc, hn₁⟩ := exprOf_sound hu h₁
  obtain ⟨hbody, hn₂⟩ := statementsUntil_sound hs h₂
  obtain ⟨hbranches, hn₃⟩ := elsifs_sound hu hs h₃
  obtain ⟨hlast, hn₄⟩ := elseBody_sound hs h₄
  rw [hp.spanFrom (by rw [hw, List.length_cons]; omega), hw]
  refine ⟨.ifThen hwk (hth ▸ hc) hthk hbody hbranches hlast hend, Nat.succ_le_succ ?_⟩
  exact Nat.max_le.2 ⟨Nat.max_le.2 ⟨hn₁, hn₂⟩, Nat.max_le.2 ⟨hn₃, hn₄⟩⟩

theorem caseArm_sound {a : CaseArm} (h : Reads (caseArm level) s a s') :
    (StmtPhrase.arm a).Spelled s.rest s'.rest ∧ a.nesting ≤ n := by
  have hp := h.passed
  rw [caseArm, reads_offset_bind, reads_kind_bind] at h
  split at h
  · obtain ⟨labels, s₁, h₁, h⟩ := reads_bind_iff.1 h
    obtain ⟨hk₁, h⟩ := reads_expect_bind.1 h
    obtain ⟨body, s₂, h₂, h⟩ := reads_bind_iff.1 h
    rw [reads_spanFrom_bind] at h
    obtain ⟨rfl, rfl⟩ := reads_pure.1 h
    obtain ⟨c, hc, hck⟩ := ParserState.exists_of_kind hk₁ (by decide)
    obtain ⟨hlabels, hn⟩ := exprs_sound hu h₁
    obtain ⟨hbody, hns⟩ := statementsUntil_sound hs h₂
    have harm := StmtPhrase.Spelled.arm (hc ▸ hlabels) hck hbody
    rw [hp.spanFrom (harm.length_lt rfl)]
    exact ⟨harm, Nat.max_le.2 ⟨hn, hns⟩⟩
  · exact absurd h not_reads_fail

theorem caseArmTurn_sound {t : Turn CaseArm} (h : Reads (caseArmTurn level) s t s') :
    (∃ a, t = .more [a] ∧ (StmtPhrase.arm a).Spelled s.rest s'.rest ∧ a.nesting ≤ n) ∨ t = .last [] ∧ s' = s := by
  rw [caseArmTurn, reads_get_bind] at h
  split at h
  · exact .inr (reads_pure.1 h)
  · obtain ⟨a, rfl, ha⟩ := reads_recovering.1 h
    exact .inl ⟨a, rfl, caseArm_sound hu hs ha⟩

theorem turning_caseArmTurn : Turning (caseArmTurn level) := by
  intro s items s' h
  rcases caseArmTurn_sound hu hs h with ⟨a, -, ha, -⟩ | ⟨h, -⟩
  · exact ha.length_lt rfl
  · cases h

theorem arms_sound {as : List CaseArm} (h : Reads (collect (caseArmTurn level)) s as s') :
    (StmtPhrase.arms as).Spelled s.rest s'.rest ∧ CaseArm.nestingAll as ≤ n := by
  refine Reads.collect_induction (turning_caseArmTurn hu hs) (L := fun as s s' =>
    (StmtPhrase.arms as).Spelled s.rest s'.rest ∧ CaseArm.nestingAll as ≤ n) h ?_ ?_
  · intro as s s' h
    rcases caseArmTurn_sound hu hs h with ⟨a, ht, -⟩ | ⟨ht, rfl⟩ <;> cases ht
    exact ⟨.noArms, Nat.zero_le n⟩
  · rintro items s s₁ as s' h ⟨has, hns⟩
    rcases caseArmTurn_sound hu hs h with ⟨a, ht, ha, hn⟩ | ⟨ht, -⟩ <;> cases ht
    exact ⟨.moreArms ha has, Nat.max_le.2 ⟨hn, hns⟩⟩

theorem caseBody_sound {start : Nat} {e : Expr} {st : Stmt} (h : Reads (caseBody level start e) s st s') :
    ∃ as last x₁ x₂, as ≠ [] ∧ (StmtPhrase.arms as).Spelled s.rest x₁ ∧ (StmtPhrase.elsePart last).Spelled x₁ x₂ ∧
      BlockEnd .kwEndCase x₂ s'.rest ∧ st = .select e as last (s'.spanFrom start) ∧ CaseArm.nestingAll as ≤ n ∧
      Stmt.nestingElse last ≤ n := by
  rw [caseBody, reads_kind_bind] at h
  dsimp only at h
  split at h
  iterate 2 exact absurd h not_reads_missing_bind
  next hk₁ hk₂ =>
  rw [caseArms] at h
  obtain ⟨as, s₁, h₁, h⟩ := reads_bind_iff.1 h
  obtain ⟨last, s₂, h₂, h⟩ := reads_bind_iff.1 h
  obtain ⟨hend, rfl⟩ := blockEnd_sound (by decide) h
  obtain ⟨has, hn₁⟩ := arms_sound hu hs h₁
  obtain ⟨hlast, hn₂⟩ := elseBody_sound hs h₂
  refine ⟨as, last, _, _, ?_, has, hlast, hend, rfl, hn₁, hn₂⟩
  -- Without an arm, the `CASE` would be over at once.
  rintro rfl
  rw [ParserState.kind_eq_headKind] at hk₁ hk₂
  generalize s.rest = x at hk₁ hk₂ has
  cases has with
  | noArms =>
    rcases hlast.headKind_elsePart with heq | heq
    · exact hk₂ (heq ▸ hend.headKind_eq)
    · exact hk₁ heq

theorem caseStatement_sound {st : Stmt} (hk : s.kind = .kwCase) (h : Reads (caseStatement level) s st s') :
    (StmtPhrase.stmt st).Spelled s.rest s'.rest ∧ st.nesting ≤ n + 1 := by
  have hp := h.passed
  obtain ⟨w, hw, hwk⟩ := ParserState.exists_of_kind hk (by decide)
  rw [caseStatement_eq, reads_offset_bind, reads_skip_bind] at h
  have hlt := h.length_le
  obtain ⟨e, s₁, h₁, h⟩ := reads_bind_iff.1 h
  obtain ⟨hk₁, h⟩ := reads_expect_bind.1 h
  obtain ⟨as, last, x₁, x₂, hne, has, hlast, hend, rfl, hn₂, hn₃⟩ := caseBody_sound hu hs h
  obtain ⟨o, ho, hok⟩ := ParserState.exists_of_kind hk₁ (by decide)
  obtain ⟨he, hn₁⟩ := exprOf_sound hu h₁
  rw [hp.spanFrom (by rw [hw, List.length_cons]; omega), hw]
  refine ⟨.select hwk (ho ▸ he) hok hne has hlast hend, Nat.succ_le_succ ?_⟩
  exact Nat.max_le.2 ⟨hn₁, Nat.max_le.2 ⟨hn₂, hn₃⟩⟩

omit hs in
theorem step_sound {step : Option Expr} (h : Reads (forStatement.step level) s step s') :
    Optionally (fun e => (ExprPhrase.expr 0 e).Spelled) .kwBy step s.rest s'.rest ∧ depthOf Expr.nesting step ≤ n :=
  optional_sound (by decide) (fun h => exprOf_sound hu h) h

set_option synthInstance.maxSize 512 in
theorem forStatement_sound {st : Stmt} (hk : s.kind = .kwFor) (h : Reads (forStatement level) s st s') :
    (StmtPhrase.stmt st).Spelled s.rest s'.rest ∧ st.nesting ≤ n + 1 := by
  have hp := h.passed
  obtain ⟨w, hw, hwk⟩ := ParserState.exists_of_kind hk (by decide)
  rw [forStatement, reads_offset_bind, reads_skip_bind] at h
  have hlt := h.length_le
  obtain ⟨var, s₁, h₁, h⟩ := reads_bind_iff.1 h
  obtain ⟨hk₁, h⟩ := reads_expect_bind.1 h
  obtain ⟨first, s₂, h₂, h⟩ := reads_bind_iff.1 h
  obtain ⟨hk₂, h⟩ := reads_expect_bind.1 h
  obtain ⟨last, s₃, h₃, h⟩ := reads_bind_iff.1 h
  obtain ⟨step, s₄, h₄, h⟩ := reads_bind_iff.1 h
  obtain ⟨hk₃, h⟩ := reads_expect_bind.1 h
  obtain ⟨body, s₅, h₅, h⟩ := reads_bind_iff.1 h
  obtain ⟨hend, rfl⟩ := blockEnd_sound (by decide) h
  obtain ⟨v, hv, hvk, rfl⟩ := ident_sound h₁
  obtain ⟨a, ha, hak⟩ := ParserState.exists_of_kind hk₁ (by decide)
  obtain ⟨t, ht, htk⟩ := ParserState.exists_of_kind hk₂ (by decide)
  obtain ⟨d, hd, hdk⟩ := ParserState.exists_of_kind hk₃ (by decide)
  obtain ⟨hfirst, hn₁⟩ := exprOf_sound hu h₂
  obtain ⟨hlast, hn₂⟩ := exprOf_sound hu h₃
  obtain ⟨hstep, hn₃⟩ := step_sound hu h₄
  obtain ⟨hbody, hn₄⟩ := statementsUntil_sound hs h₅
  rw [hp.spanFrom (by rw [hw, List.length_cons]; omega), hw, hv, ha]
  refine ⟨.forLoop hwk hvk hak (ht ▸ hfirst) htk hlast (hd ▸ hstep) hdk hbody hend, Nat.succ_le_succ ?_⟩
  exact Nat.max_le.2 ⟨Nat.max_le.2 ⟨hn₁, hn₂⟩, Nat.max_le.2 ⟨hn₃, hn₄⟩⟩

theorem whileStatement_sound {st : Stmt} (hk : s.kind = .kwWhile) (h : Reads (whileStatement level) s st s') :
    (StmtPhrase.stmt st).Spelled s.rest s'.rest ∧ st.nesting ≤ n + 1 := by
  have hp := h.passed
  obtain ⟨w, hw, hwk⟩ := ParserState.exists_of_kind hk (by decide)
  rw [whileStatement, reads_offset_bind, reads_skip_bind] at h
  have hlt := h.length_le
  obtain ⟨c, s₁, h₁, h⟩ := reads_bind_iff.1 h
  obtain ⟨hk₁, h⟩ := reads_expect_bind.1 h
  obtain ⟨body, s₂, h₂, h⟩ := reads_bind_iff.1 h
  obtain ⟨hend, rfl⟩ := blockEnd_sound (by decide) h
  obtain ⟨d, hd, hdk⟩ := ParserState.exists_of_kind hk₁ (by decide)
  obtain ⟨hc, hn₁⟩ := exprOf_sound hu h₁
  obtain ⟨hbody, hn₂⟩ := statementsUntil_sound hs h₂
  rw [hp.spanFrom (by rw [hw, List.length_cons]; omega), hw]
  exact ⟨.whileLoop hwk (hd ▸ hc) hdk hbody hend, Nat.succ_le_succ (Nat.max_le.2 ⟨hn₁, hn₂⟩)⟩

theorem repeatStatement_sound {st : Stmt} (hk : s.kind = .kwRepeat) (h : Reads (repeatStatement level) s st s') :
    (StmtPhrase.stmt st).Spelled s.rest s'.rest ∧ st.nesting ≤ n + 1 := by
  have hp := h.passed
  obtain ⟨w, hw, hwk⟩ := ParserState.exists_of_kind hk (by decide)
  rw [repeatStatement, reads_offset_bind, reads_skip_bind] at h
  have hlt := h.length_le
  obtain ⟨body, s₁, h₁, h⟩ := reads_bind_iff.1 h
  obtain ⟨hk₁, h⟩ := reads_expect_bind.1 h
  obtain ⟨c, s₂, h₂, h⟩ := reads_bind_iff.1 h
  obtain ⟨hend, rfl⟩ := blockEnd_sound (by decide) h
  obtain ⟨u, hu', huk⟩ := ParserState.exists_of_kind hk₁ (by decide)
  obtain ⟨hbody, hn₁⟩ := statementsUntil_sound hs h₁
  obtain ⟨hc, hn₂⟩ := exprOf_sound hu h₂
  rw [hp.spanFrom (by rw [hw, List.length_cons]; omega), hw]
  exact ⟨.repeatLoop hwk (hu' ▸ hbody) huk hc hend, Nat.succ_le_succ (Nat.max_le.2 ⟨hn₂, hn₁⟩)⟩

end

/-! ## Statements without a body -/

theorem keywordStatement_sound {make : Span → Stmt} {st : Stmt} {k : TokenKind} (hk : s.kind = k) (hne : k ≠ .eof)
    (h : Reads (keywordStatement make) s st s') :
    ∃ w e, s.rest = w :: e :: s'.rest ∧ w.kind = k ∧ e.kind = .semicolon ∧ st = make (spanBetween s.rest s'.rest) := by
  have hp := h.passed
  obtain ⟨w, hw, hwk⟩ := ParserState.exists_of_kind hk hne
  rw [keywordStatement, reads_offset_bind, reads_skip_bind] at h
  have hlt := h.length_le
  obtain ⟨_, s₁, h₁, h⟩ := reads_bind_iff.1 h
  rw [reads_spanFrom_bind] at h
  obtain ⟨rfl, rfl⟩ := reads_pure.1 h
  obtain ⟨e, he, hek⟩ := semicolon_sound h₁
  rw [hp.spanFrom (by rw [hw, List.length_cons]; omega)]
  exact ⟨w, e, by rw [hw, he], hwk, hek, rfl⟩

section

variable {deeper : Option Level} [LawfulLevel deeper] {n : Nat}

theorem assignmentOrCall_sound {st : Stmt} (hd : ReadsDeeper (deeper.map Level.unary) n)
    (hk : s.kind.startsTarget = true) (h : Reads (assignmentOrCall deeper) s st s') :
    (StmtPhrase.stmt st).Spelled s.rest s'.rest ∧ st.nesting ≤ n := by
  have hp := h.passed
  rw [ParserState.kind_eq_headKind] at hk
  rw [assignmentOrCall, reads_offset_bind] at h
  obtain ⟨target, s₁, h₁, h⟩ := reads_bind_iff.1 h
  obtain ⟨htarget, hn₁⟩ := accessOf_sound hd h₁
  have hlt := Nat.lt_of_le_of_lt h.length_le htarget.length_lt
  rw [reads_eat_bind] at h
  split at h
  · next hk₁ =>
    simp only [if_true] at h
    obtain ⟨a, ha, hak⟩ := ParserState.exists_of_kind hk₁ (by decide)
    obtain ⟨value, s₂, h₂, h⟩ := reads_bind_iff.1 h
    obtain ⟨_, s₃, h₃, h⟩ := reads_bind_iff.1 h
    rw [reads_spanFrom_bind] at h
    obtain ⟨rfl, rfl⟩ := reads_pure.1 h
    obtain ⟨hvalue, hn₂⟩ := exprOf_sound (unaryOf_sound hd) h₂
    obtain ⟨e, he, hek⟩ := semicolon_sound h₃
    rw [hp.spanFrom hlt]
    exact ⟨.assign hk (ha ▸ htarget) hak (he ▸ hvalue) hek, Nat.max_le.2 ⟨hn₁, hn₂⟩⟩
  · simp only [Bool.false_eq_true, if_false] at h
    obtain ⟨_, s₂, h₂, h⟩ := reads_bind_iff.1 h
    rw [reads_spanFrom_bind] at h
    obtain ⟨rfl, rfl⟩ := reads_pure.1 h
    obtain ⟨e, he, hek⟩ := semicolon_sound h₂
    rw [hp.spanFrom hlt]
    exact ⟨.call hk (he ▸ htarget) hek, hn₁⟩

end

/-! ## All levels -/

/-- The rules one level deeper, if there are any, read what is nested less. -/
def ReadsLevel (deeper : Option Level) (n : Nat) : Prop :=
  ∀ level, deeper = some level →
    ∃ m, n = m + 1 ∧ level.Lawful ∧ ReadsAs level.unary .unary m ∧ ReadsStmt level.statement m

theorem ReadsLevel.deeper {deeper : Option Level} {n : Nat} (hd : ReadsLevel deeper n) :
    ReadsDeeper (deeper.map Level.unary) n := by
  intro unary h
  obtain ⟨level, hlevel, rfl⟩ := Option.map_eq_some_iff.1 h
  obtain ⟨m, hm, hl, hu, -⟩ := hd level hlevel
  exact ⟨m, hm, hl.unary, hu⟩

theorem statementOf_sound {deeper : Option Level} [LawfulLevel deeper] {n : Nat} (hd : ReadsLevel deeper n) :
    ReadsStmt (statementOf deeper) n := by
  intro s st s' h
  -- A statement with a body is read on the next level.
  have hbody {rule : Level → Parser Stmt} (h : Reads (nested "statement" deeper rule) s st s')
      (hrule : ∀ level m, level.Lawful → ReadsAs level.unary .unary m → ReadsStmt level.statement m →
        Reads (rule level) s st s' → (StmtPhrase.stmt st).Spelled s.rest s'.rest ∧ st.nesting ≤ m + 1) :
      (StmtPhrase.stmt st).Spelled s.rest s'.rest ∧ st.nesting ≤ n := by
    obtain ⟨level, hlevel, h⟩ := reads_nested.1 h
    obtain ⟨m, rfl, hl, hu, hs⟩ := hd level hlevel
    exact hrule level m hl hu hs h
  rw [statementOf, reads_kind_bind] at h
  split at h
  · next hk => exact hbody h fun level m _ hu hs => ifStatement_sound hu hs hk
  · next hk => exact hbody h fun level m _ hu hs => caseStatement_sound hu hs hk
  · next hk => exact hbody h fun level m _ hu hs => forStatement_sound hu hs hk
  · next hk => exact hbody h fun level m _ hu hs => whileStatement_sound hu hs hk
  · next hk => exact hbody h fun level m _ hu hs => repeatStatement_sound hu hs hk
  · next hk =>
    obtain ⟨w, e, hr, hw, he, rfl⟩ := keywordStatement_sound hk (by decide) h
    rw [hr]
    exact ⟨.leave hw he, Nat.zero_le n⟩
  · next hk =>
    obtain ⟨w, e, hr, hw, he, rfl⟩ := keywordStatement_sound hk (by decide) h
    rw [hr]
    exact ⟨.exit hw he, Nat.zero_le n⟩
  · next hk =>
    obtain ⟨w, e, hr, hw, he, rfl⟩ := keywordStatement_sound hk (by decide) h
    rw [hr]
    exact ⟨.next hw he, Nat.zero_le n⟩
  · next hk =>
    obtain ⟨t, hr, ht⟩ := ParserState.exists_of_kind hk (by decide)
    rw [reads_take_bind_of_cons hr] at h
    obtain ⟨rfl, rfl⟩ := reads_pure.1 h
    rw [hr]
    exact ⟨.nop ht, Nat.zero_le n⟩
  iterate 3 next hk => exact assignmentOrCall_sound hd.deeper (by rw [hk]; rfl) h
  exact absurd h not_reads_fail

/-- What the rule for statements reads is spelled as one, and is nested no deeper than its levels. -/
theorem statement_sound (levels : Nat) : ReadsStmt (statement levels) levels := by
  induction levels with
  | zero => exact statementOf_sound fun level h => by cases h
  | succ levels ih =>
    show ReadsStmt (statementOf (some (levelAt levels))) (levels + 1)
    refine statementOf_sound fun level h => ?_
    cases h
    exact ⟨levels, rfl, inferInstance, unary_sound levels, ih⟩

theorem statements_sound {levels : Nat} {sts : List Stmt} (h : Reads (statements levels) s sts s') :
    (StmtPhrase.stmts sts).Spelled s.rest s'.rest ∧ Stmt.nestingAll sts ≤ levels :=
  statementsUntil_sound (statement_sound levels) h

end StructuredText.Parser
