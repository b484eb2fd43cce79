import StructuredText.Proofs.Nodes.Expr

/-!
# The nodes of statements

Statements read nodes that are well shaped and stand in order, also where parts of them are broken and skipped: a
skipped part takes tokens and reads no nodes. The target of an assignment and a call that stands alone begin with the
name, `THIS` or `SUPER` that tells these statements, and suffixes change nothing about that (`base_of_suffix?`).
-/

namespace StructuredText.Parser

variable {s₀ s s' : ParserState} {acc : List Node}

/-! ## Targets -/

section

variable {deeper : Option (Parser Expr)}

theorem base_of_selection {receiver e : Expr} {start : Nat} (h : selection deeper receiver start s = .ok e s') :
    e.base = receiver.base := by
  rw [selection, bind_of_ok (kind_apply s)] at h
  generalize s.kind = k at h
  split at h
  · cases h
    rfl
  · cases h
    rfl
  · rw [bind_of_ok (skip_apply s), bind_of_ok (kind_apply _)] at h
    generalize s.advance.kind = k at h
    split at h
    · cases h
      rfl
    · obtain ⟨index, s₁, -, h⟩ := ok_bind_iff.1 h
      cases h
      rfl
    · exact absurd h not_ok_fail
  · exact absurd h not_ok_fail

/-- A suffix changes nothing about what stands at the beginning. -/
theorem base_of_suffix? {receiver e : Expr} {start : Nat} (h : suffix? deeper start receiver s = .ok (some e) s') :
    e.base = receiver.base := by
  rw [suffix?, bind_of_ok (kind_apply s)] at h
  generalize s.kind = k at h
  split at h
  · rw [bind_of_ok (skip_apply s)] at h
    obtain ⟨e, s₁, he, h⟩ := ok_bind_iff.1 h
    cases h
    exact base_of_selection he
  · obtain ⟨es, s₁, -, h⟩ := ok_bind_iff.1 h
    cases h
    rfl
  · split at h
    · obtain ⟨as, s₁, -, h⟩ := ok_bind_iff.1 h
      cases h
      rfl
    · cases h
  · cases h

/-- The primary that a name, `THIS` or `SUPER` begins is one of them. -/
theorem isRoot_of_primary {e : Expr} (hk : s.kind.startsTarget = true) (h : primary deeper s = .ok e s') :
    e.base.IsRoot := by
  rw [primary, bind_of_ok (get_apply s)] at h
  rcases TokenKind.startsTarget_iff.1 hk with hk | hk | hk <;> rw [hk] at h
  · obtain ⟨name, s₁, -, h⟩ := ok_bind_iff.1 h
    cases h
    trivial
  · cases h
    trivial
  · cases h
    trivial

theorem isTarget_of_accessOf [LawfulDeeper deeper] (hd : YieldsDeeper deeper) {e : Expr}
    (hk : s.kind.startsTarget = true) (h : accessOf deeper s = .ok e s') : e.IsTarget := by
  refine ⟨(yields_accessOf hd h).2, ?_⟩
  rw [accessOf, bind_of_ok (offset_apply s)] at h
  obtain ⟨e₀, s₁, he₀, h⟩ := ok_bind_iff.1 h
  refine fold_invariant (I := fun e _ => e.base.IsRoot) h (isRoot_of_primary hk he₀) ?_ ?_
  · intro e₁ s₁ e₂ s₂ hroot h
    rwa [base_of_suffix? h]
  · exact fun _ _ _ hroot _ => hroot

end

/-! ## Lists of statements -/

section

variable {statement : Parser Stmt} [Lawful statement] (hst : Yields statement fun st => [.stmt st])

include hst

theorem yields_statementsUntil (stops : ParserState → Bool) :
    Yields (statementsUntil statement stops) fun sts => sts.map .stmt := by
  refine .collect_map (.pass fun s => ?_)
  split
  · exact .pure rfl
  · exact .recovering hst

theorem yields_statementList : Yields (statementList statement) fun sts => sts.map .stmt :=
  yields_statementsUntil hst _

end

theorem ok_blockSpan {start : Nat} {span : Span} (h : blockSpan start s = .ok span s') : span = s'.spanFrom start := by
  obtain ⟨_, s₁, -, h⟩ := ok_bind_iff.1 h
  cases h
  rfl

/-! ## Statements with a body -/

/-- The rules of the level read expressions and statements. -/
structure YieldsLevel (level : Level) : Prop where
  unary : YieldsExpr Expr.IsOperand level.unary
  statement : Yields level.statement fun st => [.stmt st]

section

variable {level : Level} [level.Lawful] (hl : YieldsLevel level)

include hl

theorem yields_elseBody : Yields (elseBody level) fun o => (o.getD []).map .stmt := by
  refine .pass fun more => ?_
  split
  · exact Yields.then (f := some) (yields_statementList hl.statement)
  · exact .pure rfl

theorem yields_elsifTurn : Yields (elsifTurn level) fun t => t.items.map .branch := by
  intro s t s' h
  rw [elsifTurn, bind_of_ok (sees_apply .kwElsif s)] at h
  split at h
  · rw [bind_of_ok (offset_apply s), bind_of_ok (skip_apply s)] at h
    obtain ⟨condition, s₁, -, hs, h⟩ := (Stands.refl s).skip.bind (yields_exprOf hl.unary) h
    obtain ⟨_, s₂, -, hs, h⟩ := hs.pass h
    obtain ⟨body, s₃, -, hs, h⟩ := hs.bind (yields_statementList hl.statement) h
    cases h
    exact hs.close (List.cons_ne_nil _ _) rfl rfl rfl trivial
  · cases h
    exact .refl s

theorem yields_ifStatement : Yields (ifStatement level) fun st => [.stmt st] := by
  intro s st s' h
  rw [ifStatement, bind_of_ok (offset_apply s), bind_of_ok (skip_apply s)] at h
  obtain ⟨condition, s₁, -, hs, h⟩ := (Stands.refl s).skip.bind (yields_exprOf hl.unary) h
  obtain ⟨_, s₂, -, hs, h⟩ := hs.pass h
  obtain ⟨thenBody, s₃, -, hs, h⟩ := hs.bind (yields_statementList hl.statement) h
  obtain ⟨elsifs, s₄, -, hs, h⟩ := hs.bind (.collect_map (yields_elsifTurn hl)) h
  obtain ⟨elseBody, s₅, -, hs, h⟩ := hs.bind (yields_elseBody hl) h
  obtain ⟨_, s₆, -, hs, h⟩ := hs.pass h
  obtain ⟨span, s₇, hspan, hs, h⟩ := hs.pass h
  cases h
  exact hs.close (List.cons_ne_nil _ _) (ok_blockSpan hspan) rfl rfl trivial

theorem yields_caseArm : Yields (caseArm level) fun arm => [.arm arm] := by
  intro s arm s' h
  rw [caseArm, bind_of_ok (offset_apply s), bind_of_ok (kind_apply s)] at h
  split at h
  · obtain ⟨labels, s₁, hlabels, hs, h⟩ := (Stands.refl s).bind (.sepByComma (yields_exprOf hl.unary)) h
    obtain ⟨_, s₂, -, hs, h⟩ := hs.pass h
    obtain ⟨body, s₃, -, hs, h⟩ := hs.bind (yields_statementsUntil hl.statement _) h
    have hne : labels ≠ [] := ensures_sepByComma _ hlabels
    cases h
    exact hs.close (by simp [hne]) rfl rfl rfl hne
  · exact absurd h not_ok_fail

theorem yields_caseArmTurn : Yields (caseArmTurn level) fun t => t.items.map .arm := by
  refine .pass fun s => ?_
  split
  · exact .pure rfl
  · exact .recovering (yields_caseArm hl)

theorem stands_caseArms {selector : Expr} {st : Stmt} (hs : Stands s₀ [.expr selector] s)
    (h : caseArms level s₀.span.start selector s = .ok st s') : Stands s₀ [.stmt st] s' := by
  obtain ⟨arms, s₁, -, hs, h⟩ := hs.bind (.collect_map (yields_caseArmTurn hl)) h
  obtain ⟨elseBody, s₂, -, hs, h⟩ := hs.bind (yields_elseBody hl) h
  obtain ⟨_, s₃, -, hs, h⟩ := hs.pass h
  obtain ⟨span, s₄, hspan, hs, h⟩ := hs.pass h
  cases h
  exact hs.close (List.cons_ne_nil _ _) (ok_blockSpan hspan) rfl rfl trivial

theorem yields_caseStatement : Yields (caseStatement level) fun st => [.stmt st] := by
  intro s st s' h
  rw [caseStatement_eq, bind_of_ok (offset_apply s), bind_of_ok (skip_apply s)] at h
  obtain ⟨selector, s₁, -, hs, h⟩ := (Stands.refl s).skip.bind (yields_exprOf hl.unary) h
  obtain ⟨_, s₂, -, hs, h⟩ := hs.pass h
  rw [caseBody, bind_of_ok (kind_apply s₂)] at h
  dsimp only at h
  generalize s₂.kind = k at h
  split at h
  · obtain ⟨_, s₃, -, hs, h⟩ := hs.pass h
    exact stands_caseArms hl hs h
  · obtain ⟨_, s₃, -, hs, h⟩ := hs.pass h
    exact stands_caseArms hl hs h
  · exact stands_caseArms hl hs h

theorem yields_step : Yields (forStatement.step level) fun o => o.toList.map .expr := by
  refine .pass fun more => ?_
  split
  · exact Yields.then (f := some) (yields_exprOf hl.unary)
  · exact .pure rfl

theorem yields_forStatement : Yields (forStatement level) fun st => [.stmt st] := by
  intro s st s' h
  rw [forStatement, bind_of_ok (offset_apply s), bind_of_ok (skip_apply s)] at h
  obtain ⟨var, s₁, -, hs, h⟩ := (Stands.refl s).skip.bind (yields_ident _) h
  obtain ⟨_, s₂, -, hs, h⟩ := hs.pass h
  obtain ⟨first, s₃, -, hs, h⟩ := hs.bind (yields_exprOf hl.unary) h
  obtain ⟨_, s₄, -, hs, h⟩ := hs.pass h
  obtain ⟨last, s₅, -, hs, h⟩ := hs.bind (yields_exprOf hl.unary) h
  obtain ⟨step, s₆, -, hs, h⟩ := hs.bind (yields_step hl) h
  obtain ⟨_, s₇, -, hs, h⟩ := hs.pass h
  obtain ⟨body, s₈, -, hs, h⟩ := hs.bind (yields_statementList hl.statement) h
  obtain ⟨_, s₉, -, hs, h⟩ := hs.pass h
  obtain ⟨span, s₁₀, hspan, hs, h⟩ := hs.pass h
  cases h
  exact hs.close (List.cons_ne_nil _ _) (ok_blockSpan hspan) rfl rfl trivial

theorem yields_whileStatement : Yields (whileStatement level) fun st => [.stmt st] := by
  intro s st s' h
  rw [whileStatement, bind_of_ok (offset_apply s), bind_of_ok (skip_apply s)] at h
  obtain ⟨condition, s₁, -, hs, h⟩ := (Stands.refl s).skip.bind (yields_exprOf hl.unary) h
  obtain ⟨_, s₂, -, hs, h⟩ := hs.pass h
  obtain ⟨body, s₃, -, hs, h⟩ := hs.bind (yields_statementList hl.statement) h
  obtain ⟨_, s₄, -, hs, h⟩ := hs.pass h
  obtain ⟨span, s₅, hspan, hs, h⟩ := hs.pass h
  cases h
  exact hs.close (List.cons_ne_nil _ _) (ok_blockSpan hspan) rfl rfl trivial

theorem yields_repeatStatement : Yields (repeatStatement level) fun st => [.stmt st] := by
  intro s st s' h
  rw [repeatStatement, bind_of_ok (offset_apply s), bind_of_ok (skip_apply s)] at h
  obtain ⟨body, s₁, -, hs, h⟩ := (Stands.refl s).skip.bind (yields_statementList hl.statement) h
  obtain ⟨_, s₂, -, hs, h⟩ := hs.pass h
  obtain ⟨condition, s₃, -, hs, h⟩ := hs.bind (yields_exprOf hl.unary) h
  obtain ⟨_, s₄, -, hs, h⟩ := hs.pass h
  obtain ⟨span, s₅, hspan, hs, h⟩ := hs.pass h
  cases h
  exact hs.close (by simp) (ok_blockSpan hspan) rfl rfl trivial

end

/-! ## Statements without a body -/

theorem stands_keywordStatement (make : Span → Stmt) {st : Stmt} {k : TokenKind} (hk : s.kind = k) (hne : k ≠ .eof)
    (hspan : ∀ span, (make span).span = span) (hchildren : ∀ span, (make span).children = [])
    (hshape : ∀ span, (Node.stmt (make span)).WellShaped) (h : keywordStatement make s = .ok st s') :
    Stands s [.stmt st] s' := by
  rw [keywordStatement, bind_of_ok (offset_apply s), bind_of_ok (skip_apply s)] at h
  obtain ⟨_, s₁, hsemi, h⟩ := ok_bind_iff.1 h
  obtain ⟨ts, hrun⟩ := Lawful.run hsemi
  have hlt := ParserState.length_advance hk hne
  have hle := hrun.length_le
  cases h
  exact ((Stands.refl s).skip.trans (.of_run hrun)).close_taken (by omega) (hspan _) (hchildren _) rfl (hshape _)

section

variable {deeper : Option Level} [hlaw : LawfulLevel deeper] (hd : ∀ level ∈ deeper, YieldsLevel level)

include hd

omit hlaw in
theorem yieldsDeeper_map_unary : YieldsDeeper (deeper.map Level.unary) := by
  intro unary hunary
  obtain ⟨level, hlevel, rfl⟩ := Option.map_eq_some_iff.1 hunary
  exact (hd level hlevel).unary

theorem stands_assignmentOrCall {st : Stmt} (hk : s.kind.startsTarget = true)
    (h : assignmentOrCall deeper s = .ok st s') : Stands s [.stmt st] s' := by
  have hdeeper := yieldsDeeper_map_unary hd
  rw [assignmentOrCall, bind_of_ok (offset_apply s)] at h
  obtain ⟨target, s₁, htarget, hs, h⟩ := (Stands.refl s).bind (yields_accessOf hdeeper).yields h
  have htarget := isTarget_of_accessOf hdeeper hk htarget
  obtain ⟨assigns, s₂, -, hs, h⟩ := hs.pass h
  split at h
  · obtain ⟨value, s₃, -, hs, h⟩ := hs.bind (yields_exprOf (yields_unaryOf hdeeper)) h
    obtain ⟨_, s₄, -, hs, h⟩ := hs.pass h
    cases h
    exact hs.close (List.cons_ne_nil _ _) rfl rfl rfl htarget
  · obtain ⟨_, s₃, -, hs, h⟩ := hs.pass h
    cases h
    exact hs.close (List.cons_ne_nil _ _) rfl rfl rfl htarget

theorem yields_statementOf : Yields (statementOf deeper) fun st => [.stmt st] := by
  have hnested {rule : Level → Parser Stmt}
      (hrule : ∀ level, Level.Lawful level → YieldsLevel level → Yields (rule level) fun st => [.stmt st]) :
      Yields (nested "statement" deeper rule) fun st => [.stmt st] :=
    .nested fun level hlevel => hrule level (hlaw.of_mem level hlevel) (hd level hlevel)
  intro s st s' h
  rw [statementOf, bind_of_ok (kind_apply s)] at h
  generalize hk : s.kind = k at h
  split at h
  · exact hnested (fun _ _ => yields_ifStatement) h
  · exact hnested (fun _ _ => yields_caseStatement) h
  · exact hnested (fun _ _ => yields_forStatement) h
  · exact hnested (fun _ _ => yields_whileStatement) h
  · exact hnested (fun _ _ => yields_repeatStatement) h
  · exact stands_keywordStatement .leave hk (by decide) (fun _ => rfl) (fun _ => rfl) (fun _ => trivial) h
  · exact stands_keywordStatement .exit hk (by decide) (fun _ => rfl) (fun _ => rfl) (fun _ => trivial) h
  · exact stands_keywordStatement .next hk (by decide) (fun _ => rfl) (fun _ => rfl) (fun _ => trivial) h
  · cases h
    exact .token hk (by decide) rfl rfl rfl trivial
  · exact stands_assignmentOrCall hd (by rw [hk]; rfl) h
  · exact stands_assignmentOrCall hd (by rw [hk]; rfl) h
  · exact stands_assignmentOrCall hd (by rw [hk]; rfl) h
  · exact absurd h not_ok_fail

end

theorem yields_statement (levels : Nat) : Yields (statement levels) fun st => [.stmt st] := by
  induction levels with
  | zero => exact yields_statementOf nofun
  | succ levels ih =>
    have hd : ∀ level ∈ some (levelAt levels), YieldsLevel level := by
      intro level hlevel
      cases hlevel
      exact ⟨yields_unary levels, ih⟩
    have hst := yields_statementOf hd
    exact hst

theorem yields_statements (levels : Nat) : Yields (statements levels) fun sts => sts.map .stmt :=
  yields_statementList (yields_statement levels)

end StructuredText.Parser
