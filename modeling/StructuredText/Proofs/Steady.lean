import StructuredText.Proofs.Lexing.LineBreaks
import StructuredText.Proofs.Order

/-!
# What holds along a parse

A relation between states holds along parses if it holds along their small steps: taking a token, a problem with the
next token or with the end of the stream, and a problem with what has just been taken (`Parser.Along`). Then it holds
between the beginning and the end of every rule of the grammar, whether the rule succeeds or gives up: the rule is
steady (`Parser.Steady`). All ways to put rules together are steady if their parts are.

Three rules report what has just been taken: a literal behind a type name is reported together with its type name
(`steady_typedLiteral`), the word that opens a variable block when it has been taken (`steady_varBlock`), and the tokens
behind the end of a construct all together (`steady_expectEndOfInput`). In all three cases nothing has been reported
since the first of these tokens was taken.
-/

namespace StructuredText

set_option synthInstance.maxSize 1024

/-! ## Problems and their tokens -/

instance : OneLine "ALGORITHM or METHOD" := ⟨by decide⟩
instance : OneLine "case label" := ⟨by decide⟩
instance : OneLine "expression" := ⟨by decide⟩
instance : OneLine "field name" := ⟨by decide⟩
instance : OneLine "initializer" := ⟨by decide⟩
instance : OneLine "literal" := ⟨by decide⟩
instance : OneLine "literal value" := ⟨by decide⟩
instance : OneLine "location" := ⟨by decide⟩
instance : OneLine "loop variable" := ⟨by decide⟩
instance : OneLine "member name" := ⟨by decide⟩
instance : OneLine "name" := ⟨by decide⟩
instance : OneLine "partial access index" := ⟨by decide⟩
instance : OneLine "statement" := ⟨by decide⟩
instance : OneLine "type" := ⟨by decide⟩
instance : OneLine "type name" := ⟨by decide⟩
instance : OneLine "variable name" := ⟨by decide⟩

/-- A problem with the word that opens a variable block. -/
def Problem.OfBlock : Problem → Prop
  | plainBlock | blockInAlgorithm _ => True
  | _ => False

/-- A problem with the next token, or with the end of the stream. What is quoted is that token. -/
inductive Problem.Here (s : ParserState) : Problem → Prop
  | missing (what : String) [OneLine what] : Here s (.missing what)
  | unexpected (what : String) [OneLine what] {t : Lexeme} {ts : List Lexeme} :
      s.rest = t :: ts → Here s (.unexpected what t.text)
  | ended (what : String) [OneLine what] : Here s (.ended what)
  | tooDeep (what : String) [OneLine what] : Here s (.tooDeep what)
  | opening {problem : Problem} : problem.OfBlock → Here s problem
  | lateBlock : Here s .lateBlock
  | stray {t : Lexeme} {ts : List Lexeme} : s.rest = t :: ts → Here s (.stray t.text)
  | strayOutside {t : Lexeme} {ts : List Lexeme} : s.rest = t :: ts → Here s (.strayOutside t.text)

/-- A problem with tokens that have just been taken, and where it is reported: the word that opens a block, a literal
together with its type name, or all that stands behind a construct. -/
inductive Problem.About (source : List Char) : List Lexeme → Span → Problem → Prop
  | opening (t : Lexeme) {problem : Problem} : problem.OfBlock → About source [t] t.span problem
  | malformedLiteral (p : Lexeme) (sign : List Lexeme) (v : Lexeme) (fault : LiteralFault) :
      About source (p :: (sign ++ [v])) (p.span.cover v.span)
        (.malformedLiteral ((p.span.cover v.span).textIn source) fault)
  | trailing (t : Lexeme) (ts : List Lexeme) :
      About source (t :: ts) (spanOf (t :: ts)) (.unexpected "end of input" t.text)

namespace Parser

/-- The state behind a rule, whether it succeeds or gives up. -/
def final : EStateM.Result Abort ParserState α → ParserState
  | .ok _ s | .error _ s => s

theorem run_reports (rule : Parser α) (stream : Stream) :
    (rule.run stream).reports = (final (rule (.start stream))).reports.reverse := by
  cases h : rule (.start stream) with
  | ok a s => rw [run_of_ok h, final]
  | error e s => rw [run_of_error h, final]

/-- A relation between states that holds along the small steps of a parse, and along several of them. -/
class Along (R : ParserState → ParserState → Prop) : Prop where
  refl (s : ParserState) : R s s
  trans {s s₁ s' : ParserState} : R s s₁ → R s₁ s' → R s s'
  advance (s : ParserState) : R s s.advance
  here {s : ParserState} {problem : Problem} : problem.Here s → R s (s.report problem s.span)
  about {s s' : ParserState} {ts : List Lexeme} {span : Span} {problem : Problem} :
    Run s ts s' → s'.reports = s.reports → problem.About s.source ts span → R s (s'.report problem span)

/-- The relation holds between the state in front of the rule and the one behind it. -/
class Steady (R : ParserState → ParserState → Prop) (p : Parser α) : Prop where
  steps : ∀ s, R s (final (p s))

variable {R : ParserState → ParserState → Prop} [hR : Along R]

/-! ## Looking, taking and reporting -/

instance steady_pure (a : α) : Steady R (pure a : Parser α) := ⟨hR.refl⟩

instance steady_get : Steady R (get : Parser ParserState) := ⟨hR.refl⟩

instance steady_kind : Steady R kind := ⟨hR.refl⟩

instance steady_sees (k : TokenKind) : Steady R (sees k) := ⟨hR.refl⟩

instance steady_atEnd : Steady R atEnd := ⟨hR.refl⟩

instance steady_offset : Steady R offset := ⟨hR.refl⟩

instance steady_spanFrom (start : Nat) : Steady R (spanFrom start) := ⟨hR.refl⟩

instance steady_skip : Steady R skip := ⟨hR.advance⟩

instance steady_take : Steady R take := ⟨hR.advance⟩

instance steady_missing (what : String) [OneLine what] : Steady R (missing what) := ⟨fun _ => hR.here (.missing what)⟩

instance steady_lateBlock : Steady R (report .lateBlock) := ⟨fun _ => hR.here .lateBlock⟩

instance steady_fail (what : String) [OneLine what] : Steady R (fail what : Parser α) := by
  constructor
  intro s
  cases hr : s.rest with
  | nil =>
    rw [fail_of_nil hr]
    exact hR.here (.ended what)
  | cons t x =>
    rw [fail_of_cons hr, ParserState.text_of_cons hr]
    exact hR.here (.unexpected what hr)

/-! ## Rules put together -/

theorem Steady.bind {p : Parser α} {q : α → Parser β} (hp : Steady R p) (hq : ∀ a, Steady R (q a)) :
    Steady R (p >>= q) := by
  constructor
  intro s
  have hsteps := hp.steps s
  rw [bind_apply]
  cases hr : p s with
  | ok a s₁ =>
    rw [hr] at hsteps
    exact hR.trans hsteps ((hq a).steps s₁)
  | error e s₁ =>
    rw [hr] at hsteps
    exact hsteps

instance steady_bind {p : Parser α} {q : α → Parser β} [hp : Steady R p] [hq : ∀ a, Steady R (q a)] :
    Steady R (p >>= q) :=
  hp.bind hq

omit hR in
theorem Steady.ite {c : Prop} [Decidable c] {p q : Parser α} (hp : Steady R p) (hq : Steady R q) :
    Steady R (if c then p else q) := by
  split <;> assumption

instance steady_ite {c : Prop} [Decidable c] {p q : Parser α} [hp : Steady R p] [hq : Steady R q] :
    Steady R (if c then p else q) :=
  hp.ite hq

/-- A problem with the next token, and a rule behind it. -/
theorem Steady.behind {p : Parser α} (hp : Steady R p) {s : ParserState} {problem : Problem} (h : problem.Here s) :
    R s (final ((report problem >>= fun _ => p) s)) := by
  rw [bind_of_ok (report_apply problem s)]
  exact hR.trans (hR.here h) (hp.steps _)

instance steady_eat (k : TokenKind) : Steady R (eat k) := by
  unfold eat
  infer_instance

instance steady_expect (k : TokenKind) : Steady R (expect k) := by
  unfold expect
  infer_instance

instance steady_expectEnd (k : TokenKind) : Steady R (expectEnd k) := by
  unfold expectEnd
  infer_instance

theorem steady_nested {what : String} [OneLine what] {deeper : Option α} {rule : α → Parser β}
    (h : ∀ level ∈ deeper, Steady R (rule level)) : Steady R (nested what deeper rule) := by
  cases deeper with
  | some level => exact h level rfl
  | none => exact ⟨fun s => hR.here (.tooDeep what)⟩

instance steady_orRecover {rule recover : Parser α} [hr : Steady R rule] [hc : Steady R recover] :
    Steady R (orRecover rule recover) := by
  constructor
  intro s
  have hsteps := hr.steps s
  rw [orRecover_apply]
  split
  · next s₁ heq =>
    rw [heq] at hsteps
    exact hR.trans hsteps (hc.steps s₁)
  · exact hsteps

/-! ## Loops -/

theorem closed_steady : Closed (Steady R) := ⟨steady_pure, steady_get, fun hp hq => hp.bind hq⟩

instance steady_fold {turn : α → Parser (Option α)} [h : ∀ a, Steady R (turn a)] (a : α) : Steady R (fold turn a) :=
  closed_steady.fold h a

instance steady_collect {turn : Parser (Turn α)} [h : Steady R turn] : Steady R (collect turn) :=
  closed_steady.collect h

instance steady_sepByComma {item : Parser α} [Steady R item] : Steady R (sepByComma item) := by
  unfold sepByComma
  infer_instance

theorem along_skipWhile (p : ParserState → Bool) (left : List Lexeme) (s : ParserState) :
    R s (skipWhile.go p left s) := by
  induction left generalizing s with
  | nil => exact hR.refl s
  | cons _ left ih =>
    unfold skipWhile.go
    split
    · exact hR.trans (hR.advance s) (ih s.advance)
    · exact hR.refl s

instance steady_skipWhile (p : ParserState → Bool) : Steady R (skipWhile p) := ⟨fun s => along_skipWhile p s.rest s⟩

/-! ## Recovery -/

instance steady_skipTo (stops : TokenKind → Bool) : Steady R (skipTo stops) := by
  unfold skipTo
  infer_instance

instance steady_skipStatement : Steady R skipStatement := steady_skipTo _

instance steady_skipDecl : Steady R skipDecl := steady_skipTo _

instance steady_expectSemicolon : Steady R expectSemicolon := by
  unfold expectSemicolon
  infer_instance

instance steady_recovering {part : Parser α} {skipRest : Parser PUnit} [Steady R part] [Steady R skipRest] :
    Steady R (recovering part skipRest) := by
  unfold recovering
  infer_instance

theorem reports_skipWhile (p : ParserState → Bool) (left : List Lexeme) (s : ParserState) :
    (skipWhile.go p left s).reports = s.reports := by
  induction left generalizing s with
  | nil => rfl
  | cons _ left ih =>
    unfold skipWhile.go
    split
    · rw [ih, ParserState.advance_reports]
    · rfl

/-- The tokens behind the end of a construct are reported together when all of them are taken. -/
instance steady_expectEndOfInput : Steady R expectEndOfInput := by
  constructor
  intro s
  rw [expectEndOfInput, bind_of_ok (get_apply s)]
  cases hr : s.rest with
  | nil => exact hR.refl s
  | cons t ts =>
    obtain ⟨us, hrun⟩ := run_skipWhile (fun _ => true) ts s.advance
    have hskip : skipWhile (fun _ => true) s = .ok ⟨⟩ (skipWhile.go (fun _ => true) ts s.advance) := by
      show EStateM.Result.ok _ (skipWhile.go _ s.rest s) = _
      rw [hr]
      rfl
    have hreports := reports_skipWhile (fun _ => true) ts s.advance
    rw [ParserState.advance_reports] at hreports
    have hrun := (Run.stay.take hr).trans hrun
    dsimp only
    rw [bind_of_ok hskip, bind_of_ok (spanFrom_apply _ _), reportAt_apply, ParserState.text_of_cons hr]
    have hspan : (skipWhile.go (fun _ => true) ts s.advance).spanFrom s.span.start = spanOf (t :: us) := by
      rw [ParserState.spanFrom, hrun.lastStop_eq, ParserState.span_of_cons hr]
      rfl
    rw [hspan]
    exact hR.about hrun hreports (.trailing t us)

/-! ## Literals -/

instance steady_tokenLiteral (kind : LiteralKind) : Steady R (tokenLiteral kind) := by
  unfold tokenLiteral
  infer_instance

instance steady_timeOfDay : Steady R timeOfDay := by
  unfold timeOfDay
  infer_instance

instance steady_sign : Steady R sign := by
  constructor
  intro s
  rw [sign_apply]
  split
  · exact hR.advance s
  · exact hR.refl s

instance steady_typedLiteral : Steady R typedLiteral := by
  constructor
  intro s
  cases hr : s.rest with
  | nil =>
    have hk : s.kind = .eof := ParserState.kind_of_nil hr
    have hfail : typedLiteral s = (fail "literal value" : Parser Literal) s := by
      simp [typedLiteral, bind_apply, sign_apply, ParserState.advance_of_nil hr, hk, LiteralKind.ofToken?]
    rw [hfail]
    exact (steady_fail "literal value").steps s
  | cons p us =>
    have hp : Run s [p] s.advance := Run.stay.take hr
    obtain ⟨sign, s₁, hsign, -⟩ := sign_sound s.advance
    obtain ⟨ts, hrun⟩ := Lawful.run hsign.1
    have hsteps : R s s₁ := by
      have hsteady := steady_sign.steps (R := R) s.advance
      rw [hsign.1] at hsteady
      exact hR.trans (hR.advance s) hsteady
    simp only [typedLiteral]
    rw [bind_of_ok (take_apply s), bind_of_ok hsign.1, bind_of_ok (kind_apply s₁)]
    cases hk : LiteralKind.ofToken? s₁.kind with
    | none => exact hR.trans hsteps ((steady_fail "literal value").steps s₁)
    | some kind =>
      obtain ⟨v, hv, -⟩ := exists_of_ofToken? hk
      have hrun' : Run s (p :: (ts ++ [v])) s₁.advance := (hp.trans hrun).take hv
      have hreports : s₁.advance.reports = s.reports := by
        rw [ParserState.advance_reports, hsign.2, ParserState.advance_reports]
      dsimp only
      rw [bind_of_ok (tokenLiteral_apply kind s₁)]
      simp only [Literal.ofToken_span, ParserState.span_of_cons hr, ParserState.span_of_cons hv]
      generalize LiteralFault.of? _ _ _ = fault
      cases fault with
      | none => exact hR.trans hsteps (hR.advance s₁)
      | some fault =>
        have hsource : s₁.advance.source = s.source := hrun'.source_eq
        dsimp only
        rw [bind_of_ok (get_apply _), hsource]
        exact hR.about hrun' hreports (.malformedLiteral p ts v fault)

instance steady_literal : Steady R literal := by
  have (s : ParserState) : Steady R (match s.kind with
      | .typedLiteralPrefix => typedLiteral
      | kind =>
        if s.atTimeOfDay then timeOfDay
        else
          match LiteralKind.ofToken? kind with
          | some kind => tokenLiteral kind
          | none => fail "literal") := by
    split
    · infer_instance
    · split
      · infer_instance
      · split <;> infer_instance
  exact steady_bind

/-! ## Expressions -/

instance steady_ident (what : String) [OneLine what] : Steady R (ident what) := by
  unfold ident
  infer_instance

instance steady_qualifiedName (what : String) [OneLine what] : Steady R (qualifiedName what) := by
  unfold qualifiedName
  infer_instance

instance steady_tierTurn (tier : BinaryTier) {operand : Parser Expr} [Steady R operand] (left : Expr) :
    Steady R (tierTurn tier operand left) := by
  refine Steady.bind steady_kind fun k => ?_
  split <;> infer_instance

instance steady_binaryTier (tier : BinaryTier) {operand : Parser Expr} [Steady R operand] :
    Steady R (binaryTier tier operand) := by
  rw [binaryTier_eq]
  infer_instance

section

variable {unary : Parser Expr} [hu : Steady R unary]

instance steady_boundOf : Steady R (boundOf unary) := by
  unfold boundOf
  infer_instance

instance steady_exprOf : Steady R (exprOf unary) := by
  unfold exprOf
  infer_instance

instance steady_parenthesized : Steady R (parenthesized unary) := by
  unfold parenthesized
  infer_instance

instance steady_indices : Steady R (indices unary) := by
  unfold indices
  infer_instance

instance steady_output (start : Nat) (negated : Bool) : Steady R (arg.output unary start negated) := by
  unfold arg.output
  infer_instance

instance steady_arg : Steady R (arg unary) := by
  refine Steady.bind steady_get fun s => ?_
  dsimp only
  split <;> infer_instance

instance steady_args : Steady R (args unary) := by
  unfold args
  infer_instance

end

/-- The rule one level deeper is steady, if there is one. -/
class SteadyDeeper (R : ParserState → ParserState → Prop) (deeper : Option (Parser α)) : Prop where
  of_mem : ∀ p ∈ deeper, Steady R p

instance steadyDeeper_none : SteadyDeeper R (none : Option (Parser α)) := ⟨by simp⟩

instance steadyDeeper_some {p : Parser α} [hp : Steady R p] : SteadyDeeper R (some p) := ⟨by simpa using hp⟩

section

variable {deeper : Option (Parser Expr)} [hd : SteadyDeeper R deeper]

theorem steady_deeper {what : String} [OneLine what] {deeper : Option (Parser α)} [hd : SteadyDeeper R deeper]
    {rule : Parser α → Parser β} (h : ∀ p, Steady R p → Steady R (rule p)) : Steady R (nested what deeper rule) :=
  steady_nested fun p hp => h p (hd.of_mem p hp)

instance steady_nested_id {what : String} [OneLine what] {deeper : Option (Parser α)} [SteadyDeeper R deeper] :
    Steady R (nested what deeper id) :=
  steady_deeper fun _ h => h

instance steady_nested_parenthesized : Steady R (nested "expression" deeper parenthesized) :=
  steady_deeper fun _ _ => inferInstance

instance steady_nested_indices : Steady R (nested "expression" deeper indices) := steady_deeper fun _ _ => inferInstance

instance steady_nested_args : Steady R (nested "expression" deeper args) := steady_deeper fun _ _ => inferInstance

instance steady_primary : Steady R (primary deeper) := by
  have (start : Nat) : Steady R (nested "expression" deeper fun unary => do
      let inner ← parenthesized unary
      return Expr.paren inner (← spanFrom start)) :=
    steady_deeper fun _ _ => inferInstance
  refine Steady.bind steady_get fun s => ?_
  dsimp only
  split
  iterate 5 infer_instance
  split <;> infer_instance

instance steady_selection (receiver : Expr) (start : Nat) : Steady R (selection deeper receiver start) := by
  refine Steady.bind steady_kind fun k => ?_
  split
  iterate 2 infer_instance
  · refine Steady.bind steady_skip fun _ => Steady.bind steady_kind fun k => ?_
    split <;> infer_instance
  · infer_instance

instance steady_suffix? (start : Nat) (receiver : Expr) : Steady R (suffix? deeper start receiver) := by
  refine Steady.bind steady_kind fun k => ?_
  split <;> infer_instance

instance steady_accessOf : Steady R (accessOf deeper) := by
  unfold accessOf
  infer_instance

instance steady_unaryOf : Steady R (unaryOf deeper) := by
  refine Steady.bind steady_kind fun k => ?_
  split <;> infer_instance

end

instance steady_unary (levels : Nat) : Steady R (unary levels) := by
  induction levels with
  | zero => exact steady_unaryOf
  | succ levels ih => exact steady_unaryOf

instance steadyDeeper_deeperUnary (levels : Nat) : SteadyDeeper R (deeperUnary levels) := by
  cases levels with
  | zero => exact steadyDeeper_none
  | succ levels => exact steadyDeeper_some

instance steady_expr (levels : Nat) : Steady R (expr levels) := steady_exprOf

instance steady_bound (levels : Nat) : Steady R (bound levels) := steady_boundOf

/-! ## Statements -/

/-- The rules of the level are steady. -/
class Level.Steady (R : ParserState → ParserState → Prop) (level : Level) : Prop where
  unary : Parser.Steady R level.unary
  statement : Parser.Steady R level.statement

attribute [instance] Level.Steady.unary Level.Steady.statement

instance steady_statementTurn {statement : Parser Stmt} [Steady R statement] (stops : ParserState → Bool) :
    Steady R (statementTurn statement stops) := by
  unfold statementTurn
  infer_instance

instance steady_statementsUntil {statement : Parser Stmt} [Steady R statement] (stops : ParserState → Bool) :
    Steady R (statementsUntil statement stops) := by
  unfold statementsUntil
  infer_instance

instance steady_statementList {statement : Parser Stmt} [Steady R statement] : Steady R (statementList statement) := by
  unfold statementList
  infer_instance

instance steady_blockSpan (start : Nat) : Steady R (blockSpan start) := by
  unfold blockSpan
  infer_instance

section

variable {level : Level} [hl : level.Steady R]

instance steady_elseBody : Steady R (elseBody level) := by
  unfold elseBody
  infer_instance

instance steady_elsifTurn : Steady R (elsifTurn level) := by
  unfold elsifTurn
  infer_instance

instance steady_ifStatement : Steady R (ifStatement level) := by
  unfold ifStatement
  infer_instance

instance steady_caseArm : Steady R (caseArm level) := by
  unfold caseArm
  infer_instance

instance steady_caseArmTurn : Steady R (caseArmTurn level) := by
  unfold caseArmTurn
  infer_instance

instance steady_caseArms (start : Nat) (selector : Expr) : Steady R (caseArms level start selector) := by
  unfold caseArms
  infer_instance

instance steady_caseBody (start : Nat) (selector : Expr) : Steady R (caseBody level start selector) := by
  refine Steady.bind steady_kind fun k => ?_
  dsimp only
  split <;> infer_instance

instance steady_caseStatement : Steady R (caseStatement level) := by
  rw [caseStatement_eq]
  infer_instance

instance steady_step : Steady R (forStatement.step level) := by
  unfold forStatement.step
  infer_instance

instance steady_forStatement : Steady R (forStatement level) := by
  unfold forStatement
  infer_instance

instance steady_whileStatement : Steady R (whileStatement level) := by
  unfold whileStatement
  infer_instance

instance steady_repeatStatement : Steady R (repeatStatement level) := by
  unfold repeatStatement
  infer_instance

end

instance steady_keywordStatement (make : Span → Stmt) : Steady R (keywordStatement make) := by
  unfold keywordStatement
  infer_instance

/-- The rules one level deeper are steady, if there are any. -/
class SteadyLevel (R : ParserState → ParserState → Prop) (deeper : Option Level) : Prop where
  of_mem : ∀ level ∈ deeper, Level.Steady R level

section

variable {deeper : Option Level} [hd : SteadyLevel R deeper]

instance steadyDeeper_map_unary : SteadyDeeper R (deeper.map Level.unary) := by
  constructor
  simp only [Option.mem_def, Option.map_eq_some_iff, forall_exists_index, and_imp, forall_apply_eq_imp_iff₂]
  exact fun level h => (hd.of_mem level h).unary

instance steady_assignmentOrCall : Steady R (assignmentOrCall deeper) := by
  unfold assignmentOrCall
  infer_instance

instance steady_statementOf : Steady R (statementOf deeper) := by
  refine Steady.bind steady_kind fun k => ?_
  have hn {rule : Level → Parser Stmt} (h : ∀ level, Level.Steady R level → Steady R (rule level)) :
      Steady R (nested "statement" deeper rule) :=
    steady_nested fun level hl => h level (hd.of_mem level hl)
  split
  iterate 5 exact hn fun _ _ => inferInstance
  all_goals infer_instance

end

instance steadyLevel_none : SteadyLevel R none := ⟨by simp⟩

instance steadyLevel_some {level : Level} [hl : level.Steady R] : SteadyLevel R (some level) := ⟨by simpa using hl⟩

instance steady_statement (levels : Nat) : Steady R (statement levels) := by
  induction levels with
  | zero => exact steady_statementOf
  | succ levels ih =>
    have : (levelAt levels).Steady R := ⟨steady_unary levels, ih⟩
    show Steady R (statementOf (some (levelAt levels)))
    exact steady_statementOf

instance steady_statements (levels : Nat) : Steady R (statements levels) := steady_statementList

/-! ## Declarations -/

instance steady_typeRefOf {deeper : Option (Parser TypeRef)} [SteadyDeeper R deeper] : Steady R (typeRefOf deeper) := by
  refine Steady.bind steady_kind fun k => ?_
  split <;> infer_instance

instance steady_typeRef (levels : Nat) : Steady R (typeRef levels) := by
  induction levels with
  | zero => exact steady_typeRefOf
  | succ levels ih => exact steady_typeRefOf

instance steady_listUpTo (close : TokenKind) {item : Parser α} [Steady R item] : Steady R (listUpTo close item) := by
  unfold listUpTo
  infer_instance

section

variable {initializer : Parser Initializer} [hi : Steady R initializer]

instance steady_arrayElement : Steady R (arrayElement initializer) := by
  unfold arrayElement
  infer_instance

instance steady_arrayInitializer : Steady R (arrayInitializer initializer) := by
  unfold arrayInitializer
  infer_instance

instance steady_fieldInit : Steady R (fieldInit initializer) := by
  unfold fieldInit
  infer_instance

instance steady_recordInitializer : Steady R (recordInitializer initializer) := by
  unfold recordInitializer
  infer_instance

end

instance steady_initializerOf {expr : Parser Expr} [Steady R expr] {deeper : Option (Parser Initializer)}
    [SteadyDeeper R deeper] : Steady R (initializerOf expr deeper) := by
  have : Steady R (nested "initializer" deeper arrayInitializer) := steady_deeper fun _ _ => inferInstance
  have : Steady R (nested "initializer" deeper recordInitializer) := steady_deeper fun _ _ => inferInstance
  refine Steady.bind steady_get fun s => ?_
  split <;> infer_instance

instance steady_initializer (levels : Nat) : Steady R (initializer levels) := by
  induction levels with
  | zero => exact steady_initializerOf
  | succ levels ih => exact steady_initializerOf

section

variable (levels : Nat)

instance steady_arrayBounds : Steady R (arrayBounds levels) := by
  unfold arrayBounds
  infer_instance

instance steady_arrayDimensions : Steady R (arrayDimensions levels) := by
  unfold arrayDimensions
  infer_instance

instance steady_arrayShape? : Steady R (arrayShape? levels) := by
  unfold arrayShape?
  infer_instance

instance steady_location? : Steady R location? := by
  unfold location?
  infer_instance

instance steady_maxLength? : Steady R (maxLength? levels) := by
  unfold maxLength?
  infer_instance

instance steady_initial? : Steady R (initial? levels) := by
  unfold initial?
  infer_instance

instance steady_expectDeclEnd : Steady R expectDeclEnd := by
  unfold expectDeclEnd
  infer_instance

instance steady_varDecl : Steady R (varDecl levels) := by
  unfold varDecl
  infer_instance

instance steady_varDeclTurn : Steady R (varDeclTurn levels) := by
  refine Steady.bind steady_get fun s => ?_
  split <;> infer_instance

instance steady_blockRest (start : Nat) (kind : BlockKind) : Steady R (blockRest levels start kind) := by
  unfold blockRest
  infer_instance

/-- The word that opens a block is reported when it has been taken. -/
theorem along_opening (s : ParserState) {problem : Problem} (h : problem.OfBlock) :
    R s (s.advance.report problem s.span) := by
  cases hr : s.rest with
  | nil =>
    rw [ParserState.advance_of_nil hr]
    exact hR.here (.opening h)
  | cons t ts =>
    rw [ParserState.span_of_cons hr]
    exact hR.about (Run.stay.take hr) (ParserState.advance_reports s) (.opening t h)

instance steady_varBlock (unit : UnitKind) : Steady R (varBlock levels unit) := by
  constructor
  intro s
  have hrest {kind : BlockKind} {s₁ : ParserState} (h : R s s₁) :
      R s (final (blockRest levels s.span.start kind s₁)) :=
    hR.trans h ((steady_blockRest levels _ kind).steps s₁)
  rw [varBlock_eq, bind_of_ok (get_apply s), bind_of_ok (skip_apply s)]
  rcases blockKind_cases s.span s.kind s.advance with ⟨kind, hkind⟩ | hkind
  · rw [bind_of_ok hkind]
    split
    · exact hrest (along_opening s trivial)
    · exact hrest (hR.advance s)
  · rw [bind_of_ok hkind, if_neg fun h => h.2 rfl]
    exact hrest (along_opening s trivial)

/-! ## Units -/

instance steady_leadingBlockTurn (unit : UnitKind) : Steady R (leadingBlockTurn levels unit) := by
  unfold leadingBlockTurn
  infer_instance

instance steady_bodyRest (unit : UnitKind) (part : BodyPart) : Steady R (bodyRest levels unit part) := by
  constructor
  intro s
  have hrule {p : Parser (Turn BodyPart)} (hp : Steady R p) : R s (final (p s)) := hp.steps s
  rw [bodyRest, bind_of_ok (get_apply s)]
  cases hr : s.rest with
  | nil => exact hrule inferInstance
  | cons t ts =>
    dsimp only
    rw [ParserState.text_of_cons hr]
    generalize s.kind = k
    split
    · exact hrule inferInstance
    · split
      · exact hrule inferInstance
      · split
        iterate 4 exact hrule inferInstance
        exact Steady.behind inferInstance (.stray hr)

instance steady_bodyTurn (unit : UnitKind) : Steady R (bodyTurn levels unit) := by
  rw [bodyTurn_eq]
  infer_instance

instance steady_body (unit : UnitKind) : Steady R (body levels unit) := by
  unfold body
  infer_instance

instance steady_unitName : Steady R unitName := by
  unfold unitName
  infer_instance

instance steady_returnType? : Steady R (returnType? levels) := by
  unfold returnType?
  infer_instance

instance steady_algorithm : Steady R (algorithm levels) := by
  unfold algorithm
  infer_instance

instance steady_method : Steady R (method levels) := by
  unfold method
  infer_instance

instance steady_unitTurn : Steady R (unitTurn levels) := by
  refine Steady.bind steady_get fun s => ?_
  split
  · infer_instance
  · split <;> infer_instance

/-! ## Roots -/

instance steady_sourceFile : Steady R (sourceFile levels) := by
  unfold sourceFile
  infer_instance

instance steady_statementsTurn : Steady R (statementsTurn levels) := by
  refine Steady.bind (steady_statements levels) fun sts => ⟨fun s => ?_⟩
  rw [bind_of_ok (get_apply s)]
  cases hr : s.rest with
  | nil => exact hR.refl s
  | cons t ts =>
    dsimp only
    rw [ParserState.text_of_cons hr]
    exact Steady.behind inferInstance (.strayOutside hr)

instance steady_statementRoot : Steady R (statementRoot levels) := by
  unfold statementRoot
  infer_instance

instance steady_algorithmRoot : Steady R (algorithmRoot levels) := by
  unfold algorithmRoot
  infer_instance

instance steady_methodRoot : Steady R (methodRoot levels) := by
  unfold methodRoot
  infer_instance

instance steady_expressionRoot : Steady R (expressionRoot levels) := by
  unfold expressionRoot
  infer_instance

instance steady_target? : Steady R target? := by
  unfold target?
  infer_instance

instance steady_initializerRoot : Steady R (initializerRoot levels) := by
  unfold initializerRoot
  infer_instance

end

end Parser

end StructuredText
