import StructuredText.Proofs.Counted.Steps

/-!
# The rules follow the grammar

Each rule with a cursor follows the rule of the grammar. A rule that calls itself does so only inside of a construct, so
that more calls than levels are enough for it to come back (`Counted.follows_unary`, `Counted.follows_statement`).
-/

namespace StructuredText.Counted

open StructuredText.Parser (Turn Lawful Taking ContainingDeeper LawfulLevel)

set_option synthInstance.maxSize 1024

variable {levels : Nat}

/-! ## Literals -/

instance follows_tokenLiteral (kind : LiteralKind) : Follows levels (tokenLiteral kind) (Parser.tokenLiteral kind) := by
  unfold tokenLiteral Parser.tokenLiteral
  infer_instance

instance follows_timeOfDay : Follows levels timeOfDay Parser.timeOfDay := by
  unfold timeOfDay Parser.timeOfDay
  infer_instance

instance follows_sign : Follows levels sign Parser.sign := by
  refine @follows_bind _ _ _ _ _ _ _ follows_kind fun k => ?_
  split
  iterate 2 infer_instance
  · simp only [follows_pure]

instance follows_typedLiteral : Follows levels typedLiteral Parser.typedLiteral := by
  refine @follows_bind _ _ _ _ _ _ _ follows_take fun token => @follows_bind _ _ _ _ _ _ _ follows_sign fun sign => ?_
  refine @follows_bind _ _ _ _ _ _ _ follows_kind fun k => ?_
  cases LiteralKind.ofToken? k with
  | none => exact inferInstance
  | some kind =>
    refine @follows_bind _ _ _ _ _ _ _ (follows_tokenLiteral kind) fun value => ?_
    cases LiteralFault.of? (withoutHash token.text) kind sign.isSome <;> exact inferInstance

instance follows_literal : Follows levels literal Parser.literal := by
  refine @follows_bind _ _ _ _ _ _ _ follows_view fun s => ?_
  generalize s.kind = k
  split
  · infer_instance
  · by_cases htime : s.atTimeOfDay = true
    · simp only [htime, if_true, follows_timeOfDay]
    · simp only [htime, Bool.false_eq_true, if_false]
      generalize LiteralKind.ofToken? _ = o
      cases o <;> exact inferInstance

/-! ## Expressions -/

instance follows_ident (what : String) : Follows levels (ident what) (Parser.ident what) := by
  unfold ident Parser.ident
  infer_instance

instance follows_nameTurn (name : Name) : Follows levels (nameTurn name) (Parser.nameTurn name) := by
  unfold nameTurn Parser.nameTurn
  infer_instance

instance follows_qualifiedName (what : String) : Follows levels (qualifiedName what) (Parser.qualifiedName what) := by
  have hfold (name : Name) : Follows levels (fold nameTurn name) (Parser.fold Parser.nameTurn name) :=
    follows_fold Parser.pacing_nameTurn name
  rw [Parser.qualifiedName_eq]
  unfold qualifiedName
  infer_instance

section

variable {operand : Counted Expr} {operand' : Parser Expr} [ho : Follows levels operand operand'] [Lawful operand']

omit [Lawful operand'] in
instance follows_tierTurn (tier : BinaryTier) (left : Expr) :
    Follows levels (tierTurn tier operand left) (Parser.tierTurn tier operand' left) := by
  refine @follows_bind _ _ _ _ _ _ _ follows_kind fun k => ?_
  cases tier.op? k <;> exact inferInstance

instance follows_binaryTier (tier : BinaryTier) :
    Follows levels (binaryTier tier operand) (Parser.binaryTier tier operand') := by
  have hfold (left : Expr) : Follows levels (fold (tierTurn tier operand) left)
      (Parser.fold (Parser.tierTurn tier operand') left) :=
    follows_fold (Parser.pacing_tierTurn tier) left
  rw [Parser.binaryTier_eq]
  unfold binaryTier
  infer_instance

end

section

variable {unary : Counted Expr} {unary' : Parser Expr} [hu : Follows levels unary unary'] [Lawful unary']

instance follows_boundOf : Follows levels (boundOf unary) (Parser.boundOf unary') := by
  unfold boundOf Parser.boundOf
  infer_instance

instance follows_exprOf : Follows levels (exprOf unary) (Parser.exprOf unary') := by
  unfold exprOf Parser.exprOf
  infer_instance

instance follows_parenthesized : Follows levels (parenthesized unary) (Parser.parenthesized unary') := by
  unfold parenthesized Parser.parenthesized
  infer_instance

instance follows_indices : Follows levels (indices unary) (Parser.indices unary') := by
  unfold indices Parser.indices
  infer_instance

instance follows_output (start : Nat) (negated : Bool) :
    Follows levels (output unary start negated) (Parser.arg.output unary' start negated) := by
  unfold output Parser.arg.output
  infer_instance

instance follows_arg : Follows levels (arg unary) (Parser.arg unary') := by
  refine @follows_bind _ _ _ _ _ _ _ follows_view fun s => ?_
  dsimp only
  have hpositional : Follows levels (do return Arg.positional (← exprOf unary))
      (do return Arg.positional (← Parser.exprOf unary')) := inferInstance
  generalize s.kind = k, s.kindAt 1 = k₁, s.kindAt 2 = k₂
  split
  iterate 3 infer_instance
  · simp only [hpositional]

instance follows_args : Follows levels (args unary) (Parser.args unary') := by
  unfold args Parser.args
  infer_instance

end

/-- What a rule calls inside of a construct follows the rule of the grammar one level deeper, if there is one. -/
class FollowsDeeper (levels : Nat) (q : Counted α) (deeper : Option (Parser α)) : Prop where
  beneath : Beneath (fun levels q p => Follows levels q p ∧ Lawful p) q levels deeper

instance followsDeeper_none (q : Counted α) : FollowsDeeper 0 q none := ⟨.none⟩

instance followsDeeper_some {q : Counted α} {p : Parser α} [hq : Follows levels q p] [hp : Lawful p] :
    FollowsDeeper (levels + 1) q (some p) :=
  ⟨.some ⟨hq, hp⟩⟩

section

variable (callee : Counted α) {deeper : Option (Parser α)} [hd : FollowsDeeper levels callee deeper] {what : String}

theorem follows_deeper {q : Counted β} {rule : Parser α → Parser β}
    (h : ∀ levels p, Follows levels callee p → Lawful p → Follows levels q (rule p)) :
    Follows levels (nested what q) (Parser.nested what deeper rule) :=
  follows_nested hd.beneath fun levels p hp => h levels p hp.1 hp.2

instance follows_nested_id : Follows levels (nested what callee) (Parser.nested what deeper id) :=
  follows_deeper callee fun _ _ h _ => h

end

section

variable {callee : Counted Expr} {deeper : Option (Parser Expr)} [hd : FollowsDeeper levels callee deeper]

instance follows_nested_parenthesized : Follows levels (nested "expression" (parenthesized callee))
    (Parser.nested "expression" deeper Parser.parenthesized) :=
  follows_deeper callee fun _ _ _ _ => inferInstance

instance follows_nested_indices :
    Follows levels (nested "expression" (indices callee)) (Parser.nested "expression" deeper Parser.indices) :=
  follows_deeper callee fun _ _ _ _ => inferInstance

instance follows_nested_args :
    Follows levels (nested "expression" (args callee)) (Parser.nested "expression" deeper Parser.args) :=
  follows_deeper callee fun _ _ _ _ => inferInstance

instance follows_primary : Follows levels (primary callee) (Parser.primary deeper) := by
  refine @follows_bind _ _ _ _ _ _ _ follows_view fun s => ?_
  dsimp only
  have hparen : Follows levels (nested "expression" do
      let inner ← parenthesized callee
      return Expr.paren inner (← spanFrom s.span.start)) (Parser.nested "expression" deeper fun unary => do
      let inner ← Parser.parenthesized unary
      return Expr.paren inner (← Parser.spanFrom s.span.start)) :=
    follows_deeper callee fun _ _ _ _ => inferInstance
  have hliteral (k : TokenKind) : Follows levels
      (if k.isLiteral then do return Expr.literal (← literal) else fail "expression")
      (if k.isLiteral then do return Expr.literal (← Parser.literal) else Parser.fail "expression") := inferInstance
  generalize s.kind = k
  split
  iterate 5 infer_instance
  · simp only [hliteral]

instance follows_selection (receiver : Expr) (start : Nat) :
    Follows levels (selection callee receiver start) (Parser.selection deeper receiver start) := by
  refine @follows_bind _ _ _ _ _ _ _ follows_kind fun k => ?_
  split
  iterate 2 infer_instance
  · refine @follows_bind _ _ _ _ _ _ _ follows_skip fun _ => @follows_bind _ _ _ _ _ _ _ follows_kind fun k => ?_
    split
    iterate 2 infer_instance
    · simp only [follows_fail]
  · simp only [follows_fail]

instance follows_suffix? (start : Nat) (receiver : Expr) :
    Follows levels (suffix? callee start receiver) (Parser.suffix? deeper start receiver) := by
  refine @follows_bind _ _ _ _ _ _ _ follows_kind fun k => ?_
  split
  iterate 3 infer_instance
  · simp only [follows_pure]

variable [ContainingDeeper deeper]

instance follows_accessOf : Follows levels (accessOf callee) (Parser.accessOf deeper) := by
  have hfold (start : Nat) (e : Expr) : Follows levels (fold (suffix? callee start) e)
      (Parser.fold (Parser.suffix? deeper start) e) :=
    follows_fold (Parser.pacing_suffix? start) e
  unfold accessOf Parser.accessOf
  infer_instance

instance follows_unaryOf : Follows levels (unaryOf callee) (Parser.unaryOf deeper) := by
  refine @follows_bind _ _ _ _ _ _ _ follows_kind fun k => ?_
  cases UnaryOp.ofToken? k <;> exact inferInstance

end

/-- So many calls inside each other are enough for so many levels. -/
class Enough (levels calls : Nat) : Prop where
  lt : levels < calls

theorem follows_unary {calls : Nat} (h : levels < calls) : Follows levels (unary calls) (Parser.unary levels) := by
  induction calls generalizing levels with
  | zero => exact absurd h (Nat.not_lt_zero _)
  | succ calls ih =>
    cases levels with
    | zero => exact follows_unaryOf
    | succ levels =>
      have := ih (Nat.lt_of_succ_lt_succ h)
      exact follows_unaryOf

section

variable {calls : Nat} [h : Enough levels calls]

instance follows_unary_of_enough : Follows levels (unary calls) (Parser.unary levels) := follows_unary h.lt

instance follows_expr : Follows levels (expr calls) (Parser.expr levels) := follows_exprOf

instance follows_bound : Follows levels (bound calls) (Parser.bound levels) := follows_boundOf

end

/-! ## Statements -/

section

variable {statement : Counted Stmt} {statement' : Parser Stmt} [hs : Follows levels statement statement']
  [Lawful statement'] [Taking statement']

instance follows_statementTurn (stops : ParserState → Bool) :
    Follows levels (statementTurn statement stops) (Parser.statementTurn statement' stops) := by
  unfold statementTurn Parser.statementTurn
  infer_instance

instance follows_statementsUntil (stops : ParserState → Bool) :
    Follows levels (statementsUntil statement stops) (Parser.statementsUntil statement' stops) := by
  unfold statementsUntil Parser.statementsUntil
  infer_instance

instance follows_statementList : Follows levels (statementList statement) (Parser.statementList statement') :=
  follows_statementsUntil _

end

instance follows_blockSpan (start : Nat) : Follows levels (blockSpan start) (Parser.blockSpan start) := by
  unfold blockSpan Parser.blockSpan
  infer_instance

/-- The rules that a statement calls follow those of a level. -/
class FollowsLevel (levels : Nat) (callees : Callees) (level : Parser.Level) : Prop where
  unary : Follows levels callees.unary level.unary
  statement : Follows levels callees.statement level.statement

attribute [instance] FollowsLevel.unary FollowsLevel.statement

section

variable {callees : Callees} {level : Parser.Level} [hl : FollowsLevel levels callees level] [level.Lawful]
  [Taking level.statement]

instance follows_elseBody : Follows levels (elseBody callees) (Parser.elseBody level) := by
  unfold elseBody Parser.elseBody
  infer_instance

instance follows_elsifTurn : Follows levels (elsifTurn callees) (Parser.elsifTurn level) := by
  unfold elsifTurn Parser.elsifTurn
  infer_instance

instance follows_ifStatement : Follows levels (ifStatement callees) (Parser.ifStatement level) := by
  unfold ifStatement Parser.ifStatement
  infer_instance

instance follows_caseArm : Follows levels (caseArm callees) (Parser.caseArm level) := by
  unfold caseArm Parser.caseArm
  infer_instance

instance follows_caseArmTurn : Follows levels (caseArmTurn callees) (Parser.caseArmTurn level) := by
  unfold caseArmTurn Parser.caseArmTurn
  infer_instance

instance follows_caseArms (start : Nat) (selector : Expr) :
    Follows levels (caseArms callees start selector) (Parser.caseArms level start selector) := by
  unfold caseArms Parser.caseArms
  infer_instance

instance follows_caseStatement : Follows levels (caseStatement callees) (Parser.caseStatement level) := by
  have hbody (start : Nat) (selector : Expr) : Follows levels (do
      match ← kind with
      | .kwElse | .kwEndCase => missing "case label"
      | _ => pure ()
      caseArms callees start selector) (Parser.caseBody level start selector) := by
    refine @follows_bind _ _ _ _ _ _ _ follows_kind fun k => ?_
    split
    iterate 2 infer_instance
    · simp only [follows_caseArms]
  rw [Parser.caseStatement_eq]
  unfold caseStatement
  infer_instance

instance follows_step : Follows levels (step callees) (Parser.forStatement.step level) := by
  unfold step Parser.forStatement.step
  infer_instance

instance follows_forStatement : Follows levels (forStatement callees) (Parser.forStatement level) := by
  unfold forStatement Parser.forStatement
  infer_instance

instance follows_whileStatement : Follows levels (whileStatement callees) (Parser.whileStatement level) := by
  unfold whileStatement Parser.whileStatement
  infer_instance

instance follows_repeatStatement : Follows levels (repeatStatement callees) (Parser.repeatStatement level) := by
  unfold repeatStatement Parser.repeatStatement
  infer_instance

end

/-- What a statement calls inside of a construct follows the rules one level deeper, if there are any. -/
class FollowsDeeperLevel (levels : Nat) (callees : Callees) (deeper : Option Parser.Level) : Prop where
  beneath : Beneath (fun levels callees level => FollowsLevel levels callees level ∧ level.Lawful ∧
    Taking level.statement) callees levels deeper

section

variable {callees : Callees} {deeper : Option Parser.Level} [hd : FollowsDeeperLevel levels callees deeper]

instance followsDeeper_map_unary : FollowsDeeper levels callees.unary (deeper.map Parser.Level.unary) := by
  cases hd.beneath with
  | none => exact ⟨.none⟩
  | some h => exact ⟨.some ⟨h.1.unary, h.2.1.unary⟩⟩

instance follows_keywordStatement (make : Span → Stmt) :
    Follows levels (keywordStatement make) (Parser.keywordStatement make) := by
  unfold keywordStatement Parser.keywordStatement
  infer_instance

variable [ContainingDeeper (deeper.map Parser.Level.unary)]

instance follows_assignmentOrCall : Follows levels (assignmentOrCall callees) (Parser.assignmentOrCall deeper) := by
  unfold assignmentOrCall Parser.assignmentOrCall
  infer_instance

instance follows_statementOf : Follows levels (statementOf callees) (Parser.statementOf deeper) := by
  have hn {q : Counted Stmt} {rule : Parser.Level → Parser Stmt} (h : ∀ levels level,
      FollowsLevel levels callees level → level.Lawful → Taking level.statement → Follows levels q (rule level)) :
      Follows levels (nested "statement" q) (Parser.nested "statement" deeper rule) :=
    follows_nested hd.beneath fun levels level hr => h levels level hr.1 hr.2.1 hr.2.2
  refine @follows_bind _ _ _ _ _ _ _ follows_kind fun k => ?_
  split
  iterate 5 exact hn fun _ _ _ _ _ => inferInstance
  iterate 7 infer_instance
  · simp only [follows_fail]

end

theorem follows_statement {calls : Nat} (h : levels < calls) :
    Follows levels (statement calls) (Parser.statement levels) := by
  induction calls generalizing levels with
  | zero => exact absurd h (Nat.not_lt_zero _)
  | succ calls ih =>
    have : FollowsDeeperLevel levels ⟨unary calls, statement calls⟩ (Parser.deeperLevel levels) := by
      cases levels with
      | zero => exact ⟨.none⟩
      | succ levels =>
        have hlt := Nat.lt_of_succ_lt_succ h
        exact ⟨.some ⟨⟨follows_unary hlt, ih hlt⟩, inferInstance, Parser.taking_statement levels⟩⟩
    rw [Parser.statement_eq]
    exact follows_statementOf

instance follows_statements {calls : Nat} [h : Enough levels calls] :
    Follows levels (statements calls) (Parser.statements levels) := by
  have := follows_statement h.lt
  exact follows_statementList

/-! ## Declarations -/

instance follows_typeRefOf {callee : Counted TypeRef} {deeper : Option (Parser TypeRef)}
    [FollowsDeeper levels callee deeper] : Follows levels (typeRefOf callee) (Parser.typeRefOf deeper) := by
  refine @follows_bind _ _ _ _ _ _ _ follows_kind fun k => ?_
  split
  iterate 3 infer_instance
  · simp only [follows_fail]

theorem follows_typeRef {calls : Nat} (h : levels < calls) :
    Follows levels (typeRef calls) (Parser.typeRef levels) := by
  induction calls generalizing levels with
  | zero => exact absurd h (Nat.not_lt_zero _)
  | succ calls ih =>
    cases levels with
    | zero => exact follows_typeRefOf
    | succ levels =>
      have := ih (Nat.lt_of_succ_lt_succ h)
      exact follows_typeRefOf

instance follows_listUpTo (close : TokenKind) {item : Counted α} {item' : Parser α} [Follows levels item item']
    [Lawful item'] : Follows levels (listUpTo close item) (Parser.listUpTo close item') := by
  unfold listUpTo Parser.listUpTo
  infer_instance

section

variable {initializer : Counted Initializer} {initializer' : Parser Initializer}
  [hi : Follows levels initializer initializer'] [Lawful initializer']

instance follows_arrayElement : Follows levels (arrayElement initializer) (Parser.arrayElement initializer') := by
  unfold arrayElement Parser.arrayElement
  infer_instance

instance follows_arrayInitializer :
    Follows levels (arrayInitializer initializer) (Parser.arrayInitializer initializer') := by
  unfold arrayInitializer Parser.arrayInitializer
  infer_instance

omit [Lawful initializer'] in
instance follows_fieldInit : Follows levels (fieldInit initializer) (Parser.fieldInit initializer') := by
  unfold fieldInit Parser.fieldInit
  infer_instance

instance follows_recordInitializer :
    Follows levels (recordInitializer initializer) (Parser.recordInitializer initializer') := by
  unfold recordInitializer Parser.recordInitializer
  infer_instance

end

instance follows_initializerOf {expr : Counted Expr} {expr' : Parser Expr} [Follows levels expr expr']
    {callee : Counted Initializer} {deeper : Option (Parser Initializer)} [FollowsDeeper levels callee deeper] :
    Follows levels (initializerOf expr callee) (Parser.initializerOf expr' deeper) := by
  have : Follows levels (nested "initializer" (arrayInitializer callee))
      (Parser.nested "initializer" deeper Parser.arrayInitializer) :=
    follows_deeper callee fun _ _ _ _ => inferInstance
  have : Follows levels (nested "initializer" (recordInitializer callee))
      (Parser.nested "initializer" deeper Parser.recordInitializer) :=
    follows_deeper callee fun _ _ _ _ => inferInstance
  have hvalue : Follows levels (do return Initializer.value (← expr)) (do return Initializer.value (← expr')) :=
    inferInstance
  refine @follows_bind _ _ _ _ _ _ _ follows_view fun s => ?_
  generalize s.kind = k, s.kindAt 1 = k₁, s.kindAt 2 = k₂
  split
  iterate 2 infer_instance
  · simp only [hvalue]

theorem follows_initializer {calls : Nat} (h : levels < calls) :
    Follows levels (initializer calls) (Parser.initializer levels) := by
  induction calls generalizing levels with
  | zero => exact absurd h (Nat.not_lt_zero _)
  | succ calls ih =>
    have : Enough levels (calls + 1) := ⟨h⟩
    cases levels with
    | zero => exact follows_initializerOf
    | succ levels =>
      have := ih (Nat.lt_of_succ_lt_succ h)
      exact follows_initializerOf

section

variable (calls : Nat) [h : Enough levels calls]

instance follows_typeRef_of_enough : Follows levels (typeRef calls) (Parser.typeRef levels) := follows_typeRef h.lt

instance follows_initializer_of_enough : Follows levels (initializer calls) (Parser.initializer levels) :=
  follows_initializer h.lt

instance follows_arrayBounds : Follows levels (arrayBounds calls) (Parser.arrayBounds levels) := by
  unfold arrayBounds Parser.arrayBounds
  infer_instance

instance follows_arrayDimensions : Follows levels (arrayDimensions calls) (Parser.arrayDimensions levels) := by
  unfold arrayDimensions Parser.arrayDimensions
  infer_instance

instance follows_arrayShape? : Follows levels (arrayShape? calls) (Parser.arrayShape? levels) := by
  unfold arrayShape? Parser.arrayShape?
  infer_instance

omit h in
instance follows_location? : Follows levels location? Parser.location? := by
  unfold location? Parser.location?
  infer_instance

instance follows_maxLength? : Follows levels (maxLength? calls) (Parser.maxLength? levels) := by
  unfold maxLength? Parser.maxLength?
  infer_instance

instance follows_initial? : Follows levels (initial? calls) (Parser.initial? levels) := by
  unfold initial? Parser.initial?
  infer_instance

omit h in
instance follows_expectDeclEnd : Follows levels expectDeclEnd Parser.expectDeclEnd := by
  unfold expectDeclEnd Parser.expectDeclEnd
  infer_instance

instance follows_varDecl : Follows levels (varDecl calls) (Parser.varDecl levels) := by
  unfold varDecl Parser.varDecl
  infer_instance

omit h in
instance follows_skipDecl : Follows levels skipDecl Parser.skipDecl := follows_skipTo _

instance follows_varDeclTurn : Follows levels (varDeclTurn calls) (Parser.varDeclTurn levels) := by
  refine @follows_bind _ _ _ _ _ _ _ follows_view fun s => ?_
  cases s.rest <;> exact inferInstance

omit h in
instance follows_blockKind (span : Span) (k : TokenKind) :
    Follows levels (blockKind span k) (Parser.blockKind span k) := by
  have hplain : Follows levels (do reportAt span .plainBlock; return BlockKind.temp)
      (do Parser.reportAt span .plainBlock; return BlockKind.temp) := inferInstance
  unfold blockKind Parser.blockKind
  split
  iterate 4 infer_instance
  · simp only [hplain]

instance follows_varBlock (unit : UnitKind) : Follows levels (varBlock calls unit) (Parser.varBlock levels unit) := by
  unfold varBlock Parser.varBlock
  infer_instance

/-! ## Units -/

instance follows_leadingBlockTurn (unit : UnitKind) :
    Follows levels (leadingBlockTurn calls unit) (Parser.leadingBlockTurn levels unit) := by
  unfold leadingBlockTurn Parser.leadingBlockTurn
  infer_instance

instance follows_bodyTurn (unit : UnitKind) : Follows levels (bodyTurn calls unit) (Parser.bodyTurn levels unit) := by
  refine @follows_bind _ _ _ _ _ _ _ follows_statements fun sts => ?_
  refine @follows_bind _ _ _ _ _ _ _ follows_view fun s => ?_
  cases s.rest with
  | nil => exact inferInstance
  | cons t ts =>
    refine @follows_ite _ _ _ _ _ _ _ _ inferInstance (@follows_ite _ _ _ _ _ _ _ _ inferInstance ?_)
    have hstray : Follows levels (do report (.stray s.text); skip; return Turn.more [BodyPart.statements sts])
        (do Parser.report (.stray s.text); Parser.skip; return Turn.more [BodyPart.statements sts]) := inferInstance
    generalize s.kind = k
    split
    iterate 4 infer_instance
    · simp only [hstray]

instance follows_body (unit : UnitKind) : Follows levels (body calls unit) (Parser.body levels unit) := by
  unfold body Parser.body
  infer_instance

omit h in
instance follows_unitName : Follows levels unitName Parser.unitName := by
  unfold unitName Parser.unitName
  infer_instance

instance follows_returnType? : Follows levels (returnType? calls) (Parser.returnType? levels) := by
  unfold returnType? Parser.returnType?
  infer_instance

instance follows_algorithm : Follows levels (algorithm calls) (Parser.algorithm levels) := by
  unfold algorithm Parser.algorithm
  infer_instance

instance follows_method : Follows levels (method calls) (Parser.method levels) := by
  unfold method Parser.method
  infer_instance

instance follows_unitTurn : Follows levels (unitTurn calls) (Parser.unitTurn levels) := by
  refine @follows_bind _ _ _ _ _ _ _ follows_view fun s => ?_
  cases s.rest with
  | nil => exact inferInstance
  | cons t ts =>
    dsimp only
    have hmissing : Follows levels
        (do
          missing "ALGORITHM or METHOD"
          skipWhile fun s => s.kind != .kwAlgorithm && s.kind != .kwMethod
          return Turn.more ([] : List ProgramUnit))
        (do
          Parser.missing "ALGORITHM or METHOD"
          Parser.skipWhile fun s => s.kind != .kwAlgorithm && s.kind != .kwMethod
          return Turn.more ([] : List ProgramUnit)) := inferInstance
    generalize s.kind = k
    split
    iterate 2 infer_instance
    · simp only [hmissing]

/-! ## Roots -/

instance follows_sourceFile : Follows levels (sourceFile calls) (Parser.sourceFile levels) := by
  unfold sourceFile Parser.sourceFile
  infer_instance

instance follows_statementsTurn : Follows levels (statementsTurn calls) (Parser.statementsTurn levels) := by
  refine @follows_bind _ _ _ _ _ _ _ follows_statements fun sts => ?_
  refine @follows_bind _ _ _ _ _ _ _ follows_view fun s => ?_
  cases s.rest <;> exact inferInstance

instance follows_statementRoot : Follows levels (statementRoot calls) (Parser.statementRoot levels) := by
  unfold statementRoot Parser.statementRoot
  infer_instance

instance follows_algorithmRoot : Follows levels (algorithmRoot calls) (Parser.algorithmRoot levels) := by
  unfold algorithmRoot Parser.algorithmRoot
  infer_instance

instance follows_methodRoot : Follows levels (methodRoot calls) (Parser.methodRoot levels) := by
  unfold methodRoot Parser.methodRoot
  infer_instance

instance follows_expressionRoot : Follows levels (expressionRoot calls) (Parser.expressionRoot levels) := by
  unfold expressionRoot Parser.expressionRoot
  infer_instance

omit h in
instance follows_target? : Follows levels target? Parser.target? := by
  unfold target? Parser.target?
  infer_instance

instance follows_initializerRoot : Follows levels (initializerRoot calls) (Parser.initializerRoot levels) := by
  unfold initializerRoot Parser.initializerRoot
  infer_instance

end

end StructuredText.Counted
