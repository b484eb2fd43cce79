import StructuredText.Proofs.ParseStatements
import StructuredText.Proofs.Resuming

/-!
# Statements without their `;`

Whatever the tokens are, the statements of a tree are read in turn, those inside of others included
(`parseStatements_inTurn`). So behind a simple statement whose `;` is missing, the parse goes on without skipping
anything just where a statement or a label begins, and a bare name is passed over with the rest of the statement.

A label counts outside of every `CASE` too, so that a name is taken for a statement where a colon comes behind it.
-/

namespace StructuredText

/-! ## The statements of a tree -/

/-- The statement and those inside of it. -/
def Stmt.withInner (st : Stmt) : List Stmt := st :: st.inner.map Prod.snd

/-- The statements of the branch. -/
def ElsifBranch.stmts (b : ElsifBranch) : List Stmt := b.inner.map Prod.snd

/-- The statements of the arm. -/
def CaseArm.stmts (a : CaseArm) : List Stmt := (a.inner false).map Prod.snd

theorem Stmt.map_placed (last : Place) (sts : List Stmt) :
    (Stmt.placed last sts).map Prod.snd = sts.flatMap Stmt.withInner := by
  induction sts with
  | nil => rfl
  | cons st sts ih => simp [Stmt.placed, Stmt.withInner, ih]

theorem Stmt.map_placedElse (body : Option (List Stmt)) :
    (Stmt.placedElse body).map Prod.snd = (body.getD []).flatMap Stmt.withInner := by
  cases body with
  | none => rfl
  | some body => exact Stmt.map_placed .list body

theorem ElsifBranch.map_placed (bs : List ElsifBranch) :
    (ElsifBranch.placed bs).map Prod.snd = bs.flatMap ElsifBranch.stmts := by
  induction bs with
  | nil => rfl
  | cons b bs ih => simp [ElsifBranch.placed, ElsifBranch.stmts, ih]

theorem CaseArm.map_inner (followed : Bool) (a : CaseArm) : (a.inner followed).map Prod.snd = a.stmts := by
  cases a with
  | mk labels body span => rw [stmts, inner, inner, Stmt.map_placed, Stmt.map_placed]

theorem CaseArm.map_placed (as : List CaseArm) : (CaseArm.placed as).map Prod.snd = as.flatMap CaseArm.stmts := by
  induction as with
  | nil => rfl
  | cons a as ih => rw [CaseArm.placed, List.map_append, CaseArm.map_inner, ih, List.flatMap_cons]

namespace Parser

variable {s s' : ParserState}

/-! ## Lists of statements -/

section

variable {statement : Parser Stmt} [Lawful statement] (hst : ReadsInTurn statement Stmt.withInner)

include hst

theorem readsInTurn_statementsUntil (stops : ParserState → Bool) :
    ReadsInTurn (statementsUntil statement stops) (·.flatMap Stmt.withInner) := by
  refine .collect (.pass fun s => ?_)
  split
  · exact .pure rfl
  · exact .recovering hst

theorem readsInTurn_statementList : ReadsInTurn (statementList statement) (·.flatMap Stmt.withInner) :=
  readsInTurn_statementsUntil hst _

end

/-! ## Statements with a body -/

section

variable {level : Level} [level.Lawful] (hl : ReadsInTurn level.statement Stmt.withInner)

include hl

theorem readsInTurn_elseBody : ReadsInTurn (elseBody level) fun o => (o.getD []).flatMap Stmt.withInner := by
  refine .pass fun more => ?_
  split
  · exact ReadsInTurn.map (f := some) (readsInTurn_statementList hl)
  · exact .pure rfl

theorem readsInTurn_elsifTurn : ReadsInTurn (elsifTurn level) fun t => t.items.flatMap ElsifBranch.stmts := by
  refine .pass fun more => ?_
  split
  · refine .pass fun start => .pass fun _ => .pass fun condition => .pass fun _ => fun s t s' h => ?_
    obtain ⟨body, s₁, hs, h⟩ := InTurn.bind (.done List.suffix_rfl) (readsInTurn_statementList hl) h
    cases h
    simpa [Turn.items, ElsifBranch.stmts, ElsifBranch.inner, Stmt.map_placed] using hs
  · exact .pure rfl

theorem readsInTurn_ifStatement : ReadsInTurn (ifStatement level) Stmt.withInner := by
  refine .pass fun start => .pass fun _ => .pass fun condition => .pass fun _ => fun s st s' h => ?_
  obtain ⟨thenBody, s₁, hs, h⟩ := InTurn.bind (.done List.suffix_rfl) (readsInTurn_statementList hl) h
  obtain ⟨elsifs, s₂, hs, h⟩ := hs.bind (.collect (readsInTurn_elsifTurn hl)) h
  obtain ⟨elseBody, s₃, hs, h⟩ := hs.bind (readsInTurn_elseBody hl) h
  obtain ⟨_, s₄, hs, h⟩ := hs.pass h
  obtain ⟨span, s₅, hs, h⟩ := hs.pass h
  cases h
  refine .other rfl ?_
  simpa [Stmt.inner, Stmt.map_placed, Stmt.map_placedElse, ElsifBranch.map_placed] using hs

theorem readsInTurn_caseArm : ReadsInTurn (caseArm level) CaseArm.stmts := by
  refine .pass fun start => .pass fun k => ?_
  split
  · refine .pass fun labels => .pass fun _ => fun s arm s' h => ?_
    obtain ⟨body, s₁, hs, h⟩ := InTurn.bind (.done List.suffix_rfl) (readsInTurn_statementsUntil hl _) h
    cases h
    simpa [CaseArm.stmts, CaseArm.inner, Stmt.map_placed] using hs
  · exact fun s arm s' h => absurd h not_ok_fail

theorem readsInTurn_caseArmTurn : ReadsInTurn (caseArmTurn level) fun t => t.items.flatMap CaseArm.stmts := by
  refine .pass fun s => ?_
  split
  · exact .pure rfl
  · exact .recovering (readsInTurn_caseArm hl)

theorem readsInTurn_caseArms (start : Nat) (selector : Expr) :
    ReadsInTurn (caseArms level start selector) Stmt.withInner := by
  intro s st s' h
  obtain ⟨arms, s₁, hs, h⟩ := InTurn.bind (.done List.suffix_rfl) (.collect (readsInTurn_caseArmTurn hl)) h
  obtain ⟨elseBody, s₂, hs, h⟩ := hs.bind (readsInTurn_elseBody hl) h
  obtain ⟨_, s₃, hs, h⟩ := hs.pass h
  obtain ⟨span, s₄, hs, h⟩ := hs.pass h
  cases h
  refine .other rfl ?_
  simpa [Stmt.inner, Stmt.map_placedElse, CaseArm.map_placed] using hs

theorem readsInTurn_caseStatement : ReadsInTurn (caseStatement level) Stmt.withInner := by
  rw [caseStatement_eq]
  refine .pass fun start => .pass fun _ => .pass fun selector => .pass fun _ => .pass fun k => ?_
  have harms := readsInTurn_caseArms hl start selector
  split
  · exact .pass fun _ => harms
  · exact .pass fun _ => harms
  · exact harms

theorem readsInTurn_forStatement : ReadsInTurn (forStatement level) Stmt.withInner := by
  refine .pass fun start => .pass fun _ => .pass fun var => .pass fun _ => .pass fun first => .pass fun _ =>
    .pass fun last => .pass fun step => .pass fun _ => fun s st s' h => ?_
  obtain ⟨body, s₁, hs, h⟩ := InTurn.bind (.done List.suffix_rfl) (readsInTurn_statementList hl) h
  obtain ⟨_, s₂, hs, h⟩ := hs.pass h
  obtain ⟨span, s₃, hs, h⟩ := hs.pass h
  cases h
  refine .other rfl ?_
  simpa [Stmt.inner, Stmt.map_placed] using hs

theorem readsInTurn_whileStatement : ReadsInTurn (whileStatement level) Stmt.withInner := by
  refine .pass fun start => .pass fun _ => .pass fun condition => .pass fun _ => fun s st s' h => ?_
  obtain ⟨body, s₁, hs, h⟩ := InTurn.bind (.done List.suffix_rfl) (readsInTurn_statementList hl) h
  obtain ⟨_, s₂, hs, h⟩ := hs.pass h
  obtain ⟨span, s₃, hs, h⟩ := hs.pass h
  cases h
  refine .other rfl ?_
  simpa [Stmt.inner, Stmt.map_placed] using hs

theorem readsInTurn_repeatStatement : ReadsInTurn (repeatStatement level) Stmt.withInner := by
  refine .pass fun start => .pass fun _ => fun s st s' h => ?_
  obtain ⟨body, s₁, hs, h⟩ := InTurn.bind (.done List.suffix_rfl) (readsInTurn_statementList hl) h
  obtain ⟨_, s₂, hs, h⟩ := hs.pass h
  obtain ⟨condition, s₃, hs, h⟩ := hs.pass h
  obtain ⟨_, s₄, hs, h⟩ := hs.pass h
  obtain ⟨span, s₅, hs, h⟩ := hs.pass h
  cases h
  refine .other rfl ?_
  simpa [Stmt.inner, Stmt.map_placed] using hs

end

/-! ## Statements without a body -/

/-- The span from where the first token began is the span of the tokens taken. -/
theorem spanFrom_of_lawful {p : Parser α} [Lawful p] {a : α} (h : p s = .ok a s')
    (hlt : s'.rest.length < s.rest.length) : s'.spanFrom s.span.start = spanBetween s.rest s'.rest := by
  obtain ⟨ts, hrun⟩ := Lawful.run h
  have hrest := hrun.rest_eq
  cases ts with
  | nil =>
    rw [hrest] at hlt
    exact absurd hlt (Nat.lt_irrefl _)
  | cons t ts =>
    rw [ParserState.spanFrom, hrun.lastStop_eq, ParserState.span_of_cons hrest, hrest, spanBetween_append]
    rfl

/-- A statement without a body, with what stands at its end. -/
theorem inTurn_of_bare {st : Stmt} {x y z : List Lexeme} (hbare : st.Bare x y) (hcloses : Closes y z)
    (hspan : st.span = spanBetween x z) : InTurn x st.withInner z := by
  have hinner : st.inner = [] := by cases hbare <;> rfl
  rw [Stmt.withInner, hinner]
  exact .simple List.suffix_rfl hbare hcloses hspan (.done List.suffix_rfl)

theorem inTurn_of_keyword {make : Span → Stmt} {st : Stmt} {k : TokenKind} (hk : s.kind = k) (hne : k ≠ .eof)
    (hspan : ∀ span, (make span).span = span)
    (hbare : ∀ {w : Lexeme} {span : Span} {y : List Lexeme}, w.kind = k → (make span).Bare (w :: y) y)
    (h : keywordStatement make s = .ok st s') : InTurn s.rest st.withInner s'.rest := by
  have hok := h
  -- The word is taken in any case, so that the span is that of some tokens.
  rw [keywordStatement, bind_of_ok (offset_apply s), bind_of_ok (skip_apply s)] at h
  obtain ⟨_, s₁, hsemi, h⟩ := ok_bind_iff.1 h
  have hlt : s₁.rest.length < s.rest.length := by
    have hadvance := ParserState.length_advance hk hne
    have hle := Lawful.length_le hsemi
    omega
  obtain ⟨w, hr, hw⟩ := ParserState.exists_of_kind hk hne
  cases h
  refine inTurn_of_bare (y := s.advance.rest) ?_ (closes_of_expectSemicolon hsemi) ?_
  · rw [hr]
    exact hbare hw
  · rw [hspan, spanFrom_of_lawful hok hlt]

theorem inTurn_of_assignmentOrCall {levels : Nat} {st : Stmt} (hk : s.kind.startsTarget = true)
    (h : assignmentOrCall (deeperLevel levels) s = .ok st s') : InTurn s.rest st.withInner s'.rest := by
  have hne : s.rest ≠ [] := by
    intro hr
    rw [ParserState.kind_of_nil hr] at hk
    cases hk
  have hspan := spanFrom_of_lawful h ((takesFirst_assignmentOrCall hne hk).length_lt hne h)
  have hhead : (headKind s.rest).startsTarget = true := by rwa [← s.kind_eq_headKind]
  rw [assignmentOrCall, bind_of_ok (offset_apply s), map_unary_deeperLevel] at h
  obtain ⟨target, s₁, htarget, h⟩ := ok_bind_iff.1 h
  obtain ⟨assigns, s₂, heat, h⟩ := ok_bind_iff.1 h
  rw [eat_apply] at heat
  split at heat
  · next ha =>
    cases heat
    obtain ⟨a, hr, ha⟩ := ParserState.exists_of_kind ha (by decide)
    obtain ⟨value, s₃, hvalue, h⟩ := ok_bind_iff.1 h
    obtain ⟨_, s₄, hsemi, h⟩ := ok_bind_iff.1 h
    cases h
    rw [← unary_eq] at hvalue
    have htarget : (access levels).GivesFor s.rest target (a :: s₁.advance.rest) := ⟨s, s₁, rfl, htarget, hr⟩
    have hvalue : (Parser.expr levels).GivesFor s₁.advance.rest value s₃.rest := ⟨s₁.advance, s₃, rfl, hvalue, rfl⟩
    exact inTurn_of_bare (.assign hhead htarget ha hvalue) (closes_of_expectSemicolon hsemi) hspan
  · next ha =>
    cases heat
    obtain ⟨_, s₃, hsemi, h⟩ := ok_bind_iff.1 h
    cases h
    rw [ParserState.kind_eq_headKind] at ha
    have htarget : (access levels).GivesFor s.rest target s₁.rest := ⟨s, s₁, rfl, htarget, rfl⟩
    exact inTurn_of_bare (.call hhead htarget ha) (closes_of_expectSemicolon hsemi) hspan

/-! ## All statements -/

theorem readsInTurn_statementOf {levels : Nat} [LawfulLevel (deeperLevel levels)]
    (hd : ∀ level ∈ deeperLevel levels, ReadsInTurn level.statement Stmt.withInner) :
    ReadsInTurn (statementOf (deeperLevel levels)) Stmt.withInner := by
  have hnested {rule : Level → Parser Stmt} (hrule : ∀ level, Level.Lawful level →
      ReadsInTurn level.statement Stmt.withInner → ReadsInTurn (rule level) Stmt.withInner) :
      ReadsInTurn (nested "statement" (deeperLevel levels) rule) Stmt.withInner :=
    .nested fun level hlevel => hrule level (LawfulLevel.of_mem level hlevel) (hd level hlevel)
  intro s st s' h
  rw [statementOf, bind_of_ok (kind_apply s)] at h
  generalize hk : s.kind = k at h
  split at h
  · exact hnested (fun _ _ => readsInTurn_ifStatement) h
  · exact hnested (fun _ _ => readsInTurn_caseStatement) h
  · exact hnested (fun _ _ => readsInTurn_forStatement) h
  · exact hnested (fun _ _ => readsInTurn_whileStatement) h
  · exact hnested (fun _ _ => readsInTurn_repeatStatement) h
  · exact inTurn_of_keyword hk (by decide) (fun _ => rfl) .leave h
  · exact inTurn_of_keyword hk (by decide) (fun _ => rfl) .exit h
  · exact inTurn_of_keyword hk (by decide) (fun _ => rfl) .next h
  · cases h
    exact .other rfl (.done (ParserState.advance_rest s ▸ List.tail_suffix _))
  · exact inTurn_of_assignmentOrCall (by rw [hk]; rfl) h
  · exact inTurn_of_assignmentOrCall (by rw [hk]; rfl) h
  · exact inTurn_of_assignmentOrCall (by rw [hk]; rfl) h
  · exact absurd h not_ok_fail

theorem readsInTurn_statement (levels : Nat) : ReadsInTurn (statement levels) Stmt.withInner := by
  induction levels with
  | zero => exact @readsInTurn_statementOf 0 _ nofun
  | succ levels ih =>
    rw [statement_eq]
    refine readsInTurn_statementOf fun level hlevel => ?_
    cases hlevel
    exact ih

/-- A word that belongs to no statement is passed over. -/
theorem ok_strayTurn {sts : List Stmt} {t : Turn Stmt} (h : strayTurn sts s = .ok t s') :
    t.items = sts ∧ s'.rest <:+ s.rest := by
  refine ⟨?_, Lawful.rest_suffix_of_ok h⟩
  rw [strayTurn, bind_of_ok (get_apply s)] at h
  cases hr : s.rest with
  | nil =>
    rw [hr] at h
    cases h
    rfl
  | cons u x =>
    rw [hr] at h
    cases h
    rfl

theorem readsInTurn_statementsTurn (levels : Nat) :
    ReadsInTurn (statementsTurn levels) fun t => t.items.flatMap Stmt.withInner := by
  intro s t s' h
  rw [statementsTurn_eq] at h
  obtain ⟨sts, s₁, hs, h⟩ := ok_bind_iff.1 h
  obtain ⟨hitems, hrest⟩ := ok_strayTurn h
  have hsts := (readsInTurn_statementList (readsInTurn_statement levels) hs).trans (.done hrest)
  rwa [List.append_nil, ← hitems] at hsts

theorem inTurn_of_statementRoot {levels : Nat} {root : StatementList} (h : statementRoot levels s = .ok root s') :
    InTurn s.rest (root.placed.map Prod.snd) [] := by
  rw [statementRoot, bind_of_ok (offset_apply s)] at h
  obtain ⟨sts, s₁, hs, h⟩ := ok_bind_iff.1 h
  cases h
  have hsts := (ReadsInTurn.collect (readsInTurn_statementsTurn levels) hs).trans (.done List.nil_suffix)
  rwa [StatementList.placed, Stmt.map_placed, ← List.append_nil (sts.flatMap _)]

end Parser

/-- The statements of a tree are read in turn, whatever the tokens are. So a statement without a body has its `;`, or a
statement or a label begins where it is missing, or the rest of it is skipped and belongs to its span: the parse never
goes on at a bare name, unless that may be a label. -/
theorem parseStatements_inTurn {s : Stream} {root : StatementList} (h : (parseStatements s).tree = some root) :
    InTurn s.significant (root.placed.map Prod.snd) [] := by
  cases hr : Parser.statementRoot maxNesting (.start s) with
  | ok root' s' =>
    rw [parseStatements, Parser.run_of_ok hr] at h
    cases h
    exact Parser.inTurn_of_statementRoot hr
  | error e s' =>
    rw [parseStatements, Parser.run_of_error hr] at h
    cases h

theorem parseStatements_inTurn_skipped : ∃ root,
    (parseStatements (Stream.ofText "x y; z := 1 f(2) RETURN")).tree = some root ∧
    root.statements.map Stmt.span = [⟨0, 4⟩, ⟨5, 11⟩, ⟨12, 16⟩, ⟨17, 23⟩] ∧
    InTurn (Stream.ofText "x y; z := 1 f(2) RETURN").significant (root.placed.map Prod.snd) [] :=
  ⟨_, rfl, rfl, parseStatements_inTurn rfl⟩

/-- Without any `CASE`, the parse goes on at a bare name behind which a colon comes, and takes it for a call. -/
theorem parseStatements_resumes_at_name :
    (∀ t ∈ (Stream.ofText "x y : z;").tokens, t.kind ≠ .kwCase) ∧
    (parseStatements (Stream.ofText "x y : z;")).tree =
      some ⟨[.call (.name ⟨"x", ⟨0, 1⟩⟩) ⟨0, 1⟩, .call (.name ⟨"y", ⟨2, 3⟩⟩) ⟨2, 8⟩], ⟨0, 8⟩⟩ ∧
    ∃ x y, (Stream.ofText "x y : z;").significant = x :: y ∧ (Stmt.call (.name x.name) x.span).Bare (x :: y) y ∧
      x.span = ⟨0, 1⟩ ∧ headKind y ≠ .semicolon ∧ ¬BeginsStatement y := by
  refine ⟨by decide, rfl, _, _, rfl, ?_, rfl, by decide, ?_⟩
  · exact @Stmt.Bare.call 0 _ _ _ _ rfl ⟨.start (Stream.ofText "x y : z;"), _, rfl, rfl, rfl⟩ (by decide)
  · rintro (h | h | h | ⟨-, h⟩) <;> cases h

end StructuredText
