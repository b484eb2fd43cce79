import StructuredText.Proofs.Checked.Steps
import StructuredText.Proofs.Lawful
import StructuredText.Proofs.Nodes.Expr

/-!
# No check of the grammar fails

Each rule with checks does what the rule of the grammar does. The two rules match on the same things: one side is split,
and the other one goes into the same branch by it.
-/

namespace StructuredText.Checked

open StructuredText.Parser (Turn)

set_option synthInstance.maxSize 1024

/-! ## Literals -/

section

variable {token : Name} [Valid token]
  (hle : token.span.start + Text.byteLength token.text.toList ≤ token.span.stop)

include hle

theorem grants_splitAtHash (kind : LiteralKind) : Grants (splitAtHash kind token) (.splitAtHash kind token) := by
  have hfront : token.span.start + Text.byteLength (token.text.toList.takeWhile (· != '#')) ≤ token.span.stop :=
    Nat.le_trans (Nat.add_le_add_left (Text.byteLength_le_of_prefix (List.takeWhile_prefix _)) _) hle
  have := grants_rangeAt hfront
  unfold splitAtHash Literal.splitAtHash
  cases token.text.toList.dropWhile (· != '#') <;> exact inferInstance

theorem grants_ofToken (kind : LiteralKind) : Grants (ofToken kind token) (.ofToken kind token) := by
  have (q : Quote) : Grants (quoted q token.text.toList) (String.ofList (q.read token.text.toList)) := by
    rw [Quote.read, Quote.inner_eq]
    unfold quoted
    infer_instance
  have := grants_splitAtHash hle
  cases kind <;> unfold ofToken Literal.ofToken <;> exact inferInstance

end

instance passes_tokenLiteral (kind : LiteralKind) : Passes (tokenLiteral kind) (Parser.tokenLiteral kind) := by
  refine passes_take_bind fun token hv hle => ?_
  have : Valid (Literal.ofToken kind token) := ⟨by
    show (Literal.ofToken kind token).span.Valid
    rw [Literal.ofToken_span]
    exact hv.valid⟩
  rw [(grants_ofToken hle kind).eq]
  infer_instance

instance passes_timeOfDay : Passes timeOfDay Parser.timeOfDay := by
  unfold timeOfDay Parser.timeOfDay
  infer_instance

instance passes_sign : Passes sign Parser.sign := by
  refine @passes_bind_plain _ _ _ _ _ _ _ _ _ passes_kind fun k => ?_
  have hnone : Passes (pure none) (pure none : Parser (Option String)) := inferInstance
  split
  iterate 2 infer_instance
  · simp only [hnone]

instance passes_typedLiteral : Passes typedLiteral Parser.typedLiteral := by
  refine passes_take_bind fun token hv hle => ?_
  have := grants_rangeAt (Nat.le_trans (Nat.add_le_add_left (withoutHash_le token.text) _) hle)
  refine @passes_granted _ _ _ _ _ _ _ this ?_
  refine @passes_bind _ _ _ _ _ _ _ _ passes_sign fun sign => ?_
  refine @passes_bind_plain _ _ _ _ _ _ _ _ _ passes_kind fun k => ?_
  cases LiteralKind.ofToken? k with
  | none => exact inferInstance
  | some kind =>
    refine @passes_bind _ _ _ _ _ _ _ _ (passes_tokenLiteral kind) fun value => ?_
    cases LiteralFault.of? (withoutHash token.text) kind sign.it.isSome <;> exact inferInstance

instance passes_literal : Passes literal Parser.literal := by
  refine @passes_bind _ _ _ _ _ _ _ _ passes_get fun s => ?_
  generalize s.it.kind = k
  split
  · infer_instance
  · by_cases htime : s.it.atTimeOfDay = true
    · simp only [htime, if_true, passes_timeOfDay]
    · simp only [htime, Bool.false_eq_true, if_false]
      generalize LiteralKind.ofToken? _ = o
      cases o <;> exact inferInstance

/-! ## Expressions -/

instance passes_ident (what : String) : Passes (ident what) (Parser.ident what) := by
  unfold ident Parser.ident
  infer_instance

instance passes_qualifiedName (what : String) : Passes (qualifiedName what) (Parser.qualifiedName what) := by
  unfold qualifiedName Parser.qualifiedName
  infer_instance

section

variable {operand : Checked Expr} {operand' : Parser Expr} [ho : Passes operand operand']

instance passes_tierTurn (tier : BinaryTier) {left : Expr} [Valid left] :
    Passes (tierTurn tier operand left) (Parser.tierTurn tier operand' left) := by
  refine @passes_bind_plain _ _ _ _ _ _ _ _ _ passes_kind fun k => ?_
  cases tier.op? k <;> exact inferInstance

instance passes_binaryTier (tier : BinaryTier) :
    Passes (binaryTier tier operand) (Parser.binaryTier tier operand') := by
  rw [Parser.binaryTier_eq]
  unfold binaryTier
  infer_instance

end

section

variable {unary : Checked Expr} {unary' : Parser Expr} [hu : Passes unary unary']

instance passes_boundOf : Passes (boundOf unary) (Parser.boundOf unary') := by
  unfold boundOf Parser.boundOf
  infer_instance

instance passes_exprOf : Passes (exprOf unary) (Parser.exprOf unary') := by
  unfold exprOf Parser.exprOf
  infer_instance

instance passes_parenthesized : Passes (parenthesized unary) (Parser.parenthesized unary') := by
  unfold parenthesized Parser.parenthesized
  infer_instance

instance passes_indices : Passes (indices unary) (Parser.indices unary') := by
  unfold indices Parser.indices
  infer_instance

instance passes_output {start : Nat} [Valid start] (negated : Bool) :
    Passes (output unary start negated) (Parser.arg.output unary' start negated) := by
  unfold output Parser.arg.output
  infer_instance

instance passes_arg : Passes (arg unary) (Parser.arg unary') := by
  refine @passes_bind _ _ _ _ _ _ _ _ passes_get fun s => @passes_granted _ _ _ _ _ _ _ grants_spanOf ?_
  dsimp only
  have hpositional : Passes (do return Arg.positional (← exprOf unary))
      (do return Arg.positional (← Parser.exprOf unary')) := inferInstance
  generalize s.it.kind = k, s.it.kindAt 1 = k₁, s.it.kindAt 2 = k₂
  split
  iterate 3 infer_instance
  · simp only [hpositional]

instance passes_args : Passes (args unary) (Parser.args unary') := by
  unfold args Parser.args
  infer_instance

end

theorem passes_deeper [Sized α] [Sized β] {what : String} {deeper : Option (Checked α)} {deeper' : Option (Parser α)}
    [hd : PassesDeeper deeper deeper'] {rule : Checked α → Checked β} {rule' : Parser α → Parser β}
    (h : ∀ g p, Passes g p → Passes (rule g) (rule' p)) :
    Passes (nested what deeper rule) (Parser.nested what deeper' rule') :=
  passes_nested hd.rel h

instance passes_nested_id [Sized α] {what : String} {deeper : Option (Checked α)} {deeper' : Option (Parser α)}
    [PassesDeeper deeper deeper'] : Passes (nested what deeper id) (Parser.nested what deeper' id) :=
  passes_deeper fun _ _ h => h

section

variable {deeper : Option (Checked Expr)} {deeper' : Option (Parser Expr)} [hd : PassesDeeper deeper deeper']

instance passes_nested_parenthesized :
    Passes (nested "expression" deeper parenthesized) (Parser.nested "expression" deeper' Parser.parenthesized) :=
  passes_deeper fun _ _ _ => inferInstance

instance passes_nested_indices :
    Passes (nested "expression" deeper indices) (Parser.nested "expression" deeper' Parser.indices) :=
  passes_deeper fun _ _ _ => inferInstance

instance passes_nested_args :
    Passes (nested "expression" deeper args) (Parser.nested "expression" deeper' Parser.args) :=
  passes_deeper fun _ _ _ => inferInstance

instance grants_atLiteralType {s : ParserState} [Valid s] : Grants (atLiteralType s) s.atLiteralType := by
  unfold atLiteralType ParserState.atLiteralType
  infer_instance

instance passes_primary : Passes (primary deeper) (Parser.primary deeper') := by
  refine @passes_bind _ _ _ _ _ _ _ _ passes_get fun s => @passes_granted _ _ _ _ _ _ _ grants_spanOf ?_
  dsimp only
  have hparen : Passes (nested "expression" deeper fun unary => do
      let inner ← parenthesized unary
      return Expr.paren inner (← spanFrom s.it.span.start)) (Parser.nested "expression" deeper' fun unary => do
      let inner ← Parser.parenthesized unary
      return Expr.paren inner (← Parser.spanFrom s.it.span.start)) :=
    passes_deeper fun _ _ _ => inferInstance
  have hliteral (k : TokenKind) : Passes
      (if k.isLiteral then do return Expr.literal (← literal) else fail "expression")
      (if k.isLiteral then do return Expr.literal (← Parser.literal) else Parser.fail "expression") := inferInstance
  generalize s.it.kind = k
  split
  iterate 5 infer_instance
  · simp only [hliteral]

instance passes_selection {receiver : Expr} {start : Nat} [Valid start] :
    Passes (selection deeper receiver start) (Parser.selection deeper' receiver start) := by
  refine @passes_bind_plain _ _ _ _ _ _ _ _ _ passes_kind fun k => ?_
  split
  iterate 2 infer_instance
  · refine @passes_bind_plain _ _ _ _ _ _ _ _ _ passes_skip fun _ =>
      @passes_bind_plain _ _ _ _ _ _ _ _ _ passes_kind fun k => ?_
    split
    iterate 2 infer_instance
    · simp only [passes_fail]
  · simp only [passes_fail]

instance passes_suffix? {start : Nat} [Valid start] {receiver : Expr} :
    Passes (suffix? deeper start receiver) (Parser.suffix? deeper' start receiver) := by
  refine @passes_bind_plain _ _ _ _ _ _ _ _ _ passes_kind fun k => ?_
  have hnone : Passes (pure none) (pure none : Parser (Option Expr)) := inferInstance
  split
  iterate 3 infer_instance
  · simp only [hnone]

instance passes_accessOf : Passes (accessOf deeper) (Parser.accessOf deeper') := by
  unfold accessOf Parser.accessOf
  infer_instance

instance passes_unaryOf : Passes (unaryOf deeper) (Parser.unaryOf deeper') := by
  refine @passes_bind_plain _ _ _ _ _ _ _ _ _ passes_kind fun k => ?_
  cases UnaryOp.ofToken? k <;> exact inferInstance

end

instance passes_unary (levels : Nat) : Passes (unary levels) (Parser.unary levels) := by
  induction levels with
  | zero => exact passes_unaryOf
  | succ levels ih => exact passes_unaryOf

instance passes_expr (levels : Nat) : Passes (expr levels) (Parser.expr levels) := passes_exprOf

instance passes_bound (levels : Nat) : Passes (bound levels) (Parser.bound levels) := passes_boundOf

/-! ## Statements -/

section

variable {statement : Checked Stmt} {statement' : Parser Stmt} [hst : Passes statement statement']

instance passes_statementTurn (stops : ParserState → Bool) :
    Passes (statementTurn statement stops) (Parser.statementTurn statement' stops) := by
  unfold statementTurn Parser.statementTurn
  infer_instance

instance passes_statementsUntil (stops : ParserState → Bool) :
    Passes (statementsUntil statement stops) (Parser.statementsUntil statement' stops) := by
  unfold statementsUntil Parser.statementsUntil
  infer_instance

instance passes_statementList : Passes (statementList statement) (Parser.statementList statement') :=
  passes_statementsUntil _

end

instance passes_blockSpan {start : Nat} [Valid start] : Passes (blockSpan start) (Parser.blockSpan start) := by
  unfold blockSpan Parser.blockSpan
  infer_instance

/-- The rules with checks of a level pass. -/
class PassesLevel (level : Level) (level' : Parser.Level) : Prop where
  unary : Passes level.unary level'.unary
  statement : Passes level.statement level'.statement

attribute [instance] PassesLevel.unary PassesLevel.statement

section

variable {level : Level} {level' : Parser.Level} [hl : PassesLevel level level']

instance passes_elseBody : Passes (elseBody level) (Parser.elseBody level') := by
  unfold elseBody Parser.elseBody
  infer_instance

instance passes_elsifTurn : Passes (elsifTurn level) (Parser.elsifTurn level') := by
  unfold elsifTurn Parser.elsifTurn
  infer_instance

instance passes_ifStatement : Passes (ifStatement level) (Parser.ifStatement level') := by
  unfold ifStatement Parser.ifStatement
  infer_instance

instance passes_caseArm : Passes (caseArm level) (Parser.caseArm level') := by
  unfold caseArm Parser.caseArm
  infer_instance

instance passes_caseArmTurn : Passes (caseArmTurn level) (Parser.caseArmTurn level') := by
  unfold caseArmTurn Parser.caseArmTurn
  infer_instance

instance passes_caseArms {start : Nat} [Valid start] (selector : Expr) :
    Passes (caseArms level start selector) (Parser.caseArms level' start selector) := by
  unfold caseArms Parser.caseArms
  infer_instance

instance passes_caseStatement : Passes (caseStatement level) (Parser.caseStatement level') := by
  have hbody {start : Nat} [Valid start] (selector : Expr) : Passes (do
      match ← kind with
      | .kwElse | .kwEndCase => missing "case label"
      | _ => pure ()
      caseArms level start selector) (Parser.caseBody level' start selector) := by
    refine @passes_bind_plain _ _ _ _ _ _ _ _ _ passes_kind fun k => ?_
    have harms : Passes (caseArms level start selector) (Parser.caseArms level' start selector) := inferInstance
    split
    iterate 2 infer_instance
    · simp only [harms]
  rw [Parser.caseStatement_eq]
  unfold caseStatement
  infer_instance

instance passes_step : Passes (step level) (Parser.forStatement.step level') := by
  unfold step Parser.forStatement.step
  infer_instance

instance passes_forStatement : Passes (forStatement level) (Parser.forStatement level') := by
  unfold forStatement Parser.forStatement
  infer_instance

instance passes_whileStatement : Passes (whileStatement level) (Parser.whileStatement level') := by
  unfold whileStatement Parser.whileStatement
  infer_instance

instance passes_repeatStatement : Passes (repeatStatement level) (Parser.repeatStatement level') := by
  unfold repeatStatement Parser.repeatStatement
  infer_instance

end

/-- The rules with checks one level deeper pass, or there are none on both sides. -/
class PassesDeeperLevel (deeper : Option Level) (deeper' : Option Parser.Level) : Prop where
  rel : Option.Rel PassesLevel deeper deeper'

section

variable {deeper : Option Level} {deeper' : Option Parser.Level} [hd : PassesDeeperLevel deeper deeper']

instance passesDeeper_map_unary : PassesDeeper (deeper.map Level.unary) (deeper'.map Parser.Level.unary) := by
  cases hd.rel with
  | some hr => exact ⟨.some hr.unary⟩
  | none => exact ⟨.none⟩

instance passes_keywordStatement (make : Span → Stmt) :
    Passes (keywordStatement make) (Parser.keywordStatement make) := by
  unfold keywordStatement Parser.keywordStatement
  infer_instance

instance passes_assignmentOrCall : Passes (assignmentOrCall deeper) (Parser.assignmentOrCall deeper') := by
  unfold assignmentOrCall Parser.assignmentOrCall
  infer_instance

instance passes_statementOf : Passes (statementOf deeper) (Parser.statementOf deeper') := by
  have hn {rule : Level → Checked Stmt} {rule' : Parser.Level → Parser Stmt}
      (h : ∀ level level', PassesLevel level level' → Passes (rule level) (rule' level')) :
      Passes (nested "statement" deeper rule) (Parser.nested "statement" deeper' rule') :=
    passes_nested hd.rel h
  refine @passes_bind_plain _ _ _ _ _ _ _ _ _ passes_kind fun k => ?_
  split
  iterate 5 exact hn fun _ _ _ => inferInstance
  iterate 7 infer_instance
  · simp only [passes_fail]

end

instance passes_statement (levels : Nat) : Passes (statement levels) (Parser.statement levels) := by
  induction levels with
  | zero =>
    have : PassesDeeperLevel none none := ⟨.none⟩
    exact passes_statementOf
  | succ levels ih =>
    have : PassesDeeperLevel (some ⟨unary levels, statement levels⟩)
        (some ⟨Parser.unary levels, Parser.statement levels⟩) := ⟨.some ⟨passes_unary levels, ih⟩⟩
    exact passes_statementOf

instance passes_statements (levels : Nat) : Passes (statements levels) (Parser.statements levels) :=
  passes_statementList

/-! ## Declarations -/

instance passes_typeRefOf {deeper : Option (Checked TypeRef)} {deeper' : Option (Parser TypeRef)}
    [PassesDeeper deeper deeper'] : Passes (typeRefOf deeper) (Parser.typeRefOf deeper') := by
  refine @passes_bind_plain _ _ _ _ _ _ _ _ _ passes_kind fun k => ?_
  split
  iterate 3 infer_instance
  · simp only [passes_fail]

instance passes_typeRef (levels : Nat) : Passes (typeRef levels) (Parser.typeRef levels) := by
  induction levels with
  | zero => exact passes_typeRefOf
  | succ levels ih => exact passes_typeRefOf

instance passes_listUpTo [Sized α] (close : TokenKind) {item : Checked α} {item' : Parser α} [Passes item item'] :
    Passes (listUpTo close item) (Parser.listUpTo close item') := by
  unfold listUpTo Parser.listUpTo
  infer_instance

section

variable {initializer : Checked Initializer} {initializer' : Parser Initializer} [hi : Passes initializer initializer']

instance passes_arrayElement : Passes (arrayElement initializer) (Parser.arrayElement initializer') := by
  unfold arrayElement Parser.arrayElement
  infer_instance

instance passes_arrayInitializer : Passes (arrayInitializer initializer) (Parser.arrayInitializer initializer') := by
  unfold arrayInitializer Parser.arrayInitializer
  infer_instance

instance passes_fieldInit : Passes (fieldInit initializer) (Parser.fieldInit initializer') := by
  unfold fieldInit Parser.fieldInit
  infer_instance

instance passes_recordInitializer : Passes (recordInitializer initializer) (Parser.recordInitializer initializer') := by
  unfold recordInitializer Parser.recordInitializer
  infer_instance

end

instance passes_initializerOf {expr : Checked Expr} {expr' : Parser Expr} [Passes expr expr']
    {deeper : Option (Checked Initializer)} {deeper' : Option (Parser Initializer)} [PassesDeeper deeper deeper'] :
    Passes (initializerOf expr deeper) (Parser.initializerOf expr' deeper') := by
  have : Passes (nested "initializer" deeper arrayInitializer)
      (Parser.nested "initializer" deeper' Parser.arrayInitializer) := passes_deeper fun _ _ _ => inferInstance
  have : Passes (nested "initializer" deeper recordInitializer)
      (Parser.nested "initializer" deeper' Parser.recordInitializer) := passes_deeper fun _ _ _ => inferInstance
  have hvalue : Passes (do return Initializer.value (← expr)) (do return Initializer.value (← expr')) := inferInstance
  refine @passes_bind _ _ _ _ _ _ _ _ passes_get fun s => ?_
  generalize s.it.kind = k, s.it.kindAt 1 = k₁, s.it.kindAt 2 = k₂
  split
  iterate 2 infer_instance
  · simp only [hvalue]

instance passes_initializer (levels : Nat) : Passes (initializer levels) (Parser.initializer levels) := by
  induction levels with
  | zero => exact passes_initializerOf
  | succ levels ih => exact passes_initializerOf

section

variable (levels : Nat)

instance passes_arrayBounds : Passes (arrayBounds levels) (Parser.arrayBounds levels) := by
  unfold arrayBounds Parser.arrayBounds
  infer_instance

instance passes_arrayDimensions : Passes (arrayDimensions levels) (Parser.arrayDimensions levels) := by
  unfold arrayDimensions Parser.arrayDimensions
  infer_instance

instance passes_arrayShape? : Passes (arrayShape? levels) (Parser.arrayShape? levels) := by
  unfold arrayShape? Parser.arrayShape?
  infer_instance

instance passes_location? : Passes location? Parser.location? := by
  unfold location? Parser.location?
  infer_instance

instance passes_maxLength? : Passes (maxLength? levels) (Parser.maxLength? levels) := by
  unfold maxLength? Parser.maxLength?
  infer_instance

instance passes_initial? : Passes (initial? levels) (Parser.initial? levels) := by
  unfold initial? Parser.initial?
  infer_instance

instance passes_expectDeclEnd : Passes expectDeclEnd Parser.expectDeclEnd := by
  unfold expectDeclEnd Parser.expectDeclEnd
  infer_instance

instance passes_varDecl : Passes (varDecl levels) (Parser.varDecl levels) := by
  unfold varDecl Parser.varDecl
  infer_instance

instance passes_skipDecl : Passes skipDecl Parser.skipDecl := passes_skipTo _

instance passes_varDeclTurn : Passes (varDeclTurn levels) (Parser.varDeclTurn levels) := by
  refine @passes_bind _ _ _ _ _ _ _ _ passes_get fun s => ?_
  cases s.it.rest <;> exact inferInstance

instance passes_blockKind (span : Span) (k : TokenKind) : Passes (blockKind span k) (Parser.blockKind span k) := by
  have hplain : Passes (do reportAt span .plainBlock; return BlockKind.temp)
      (do Parser.reportAt span .plainBlock; return BlockKind.temp) := inferInstance
  unfold blockKind Parser.blockKind
  split
  iterate 4 infer_instance
  · simp only [hplain]

instance passes_varBlock (unit : UnitKind) : Passes (varBlock levels unit) (Parser.varBlock levels unit) := by
  unfold varBlock Parser.varBlock
  infer_instance

/-! ## Units -/

instance passes_leadingBlockTurn (unit : UnitKind) :
    Passes (leadingBlockTurn levels unit) (Parser.leadingBlockTurn levels unit) := by
  unfold leadingBlockTurn Parser.leadingBlockTurn
  infer_instance

instance passes_bodyTurn (unit : UnitKind) : Passes (bodyTurn levels unit) (Parser.bodyTurn levels unit) := by
  refine @passes_bind_plain _ _ _ _ _ _ _ _ _ (passes_statements levels) fun sts => ?_
  refine @passes_bind _ _ _ _ _ _ _ _ passes_get fun s => ?_
  cases s.it.rest with
  | nil => exact inferInstance
  | cons t ts =>
    refine @passes_ite _ _ _ _ _ _ _ _ inferInstance (@passes_ite _ _ _ _ _ _ _ _ inferInstance ?_)
    have hstray : Passes
        (do report (.stray (← textOf s.it)); skip; return Turn.more [BodyPart.statements sts])
        (do Parser.report (.stray s.it.text); Parser.skip; return Turn.more [BodyPart.statements sts]) :=
      inferInstance
    generalize s.it.kind = k
    split
    iterate 4 infer_instance
    · simp only [hstray]

instance passes_body (unit : UnitKind) : Passes (body levels unit) (Parser.body levels unit) := by
  unfold body Parser.body
  infer_instance

instance passes_unitName : Passes unitName Parser.unitName := by
  unfold unitName Parser.unitName
  infer_instance

instance passes_returnType? : Passes (returnType? levels) (Parser.returnType? levels) := by
  unfold returnType? Parser.returnType?
  infer_instance

instance passes_algorithm : Passes (algorithm levels) (Parser.algorithm levels) := by
  unfold algorithm Parser.algorithm
  infer_instance

instance passes_method : Passes (method levels) (Parser.method levels) := by
  unfold method Parser.method
  infer_instance

instance passes_unitTurn : Passes (unitTurn levels) (Parser.unitTurn levels) := by
  refine @passes_bind _ _ _ _ _ _ _ _ passes_get fun s => ?_
  cases s.it.rest with
  | nil => exact inferInstance
  | cons t ts =>
    dsimp only
    have hmissing : Passes
        (do
          missing "ALGORITHM or METHOD"
          skipWhile fun s => s.kind != .kwAlgorithm && s.kind != .kwMethod
          return Turn.more ([] : List ProgramUnit))
        (do
          Parser.missing "ALGORITHM or METHOD"
          Parser.skipWhile fun s => s.kind != .kwAlgorithm && s.kind != .kwMethod
          return Turn.more ([] : List ProgramUnit)) := inferInstance
    generalize s.it.kind = k
    split
    iterate 2 infer_instance
    · simp only [hmissing]

/-! ## Roots -/

instance passes_sourceFile : Passes (sourceFile levels) (Parser.sourceFile levels) := by
  unfold sourceFile Parser.sourceFile
  infer_instance

instance passes_statementsTurn : Passes (statementsTurn levels) (Parser.statementsTurn levels) := by
  refine @passes_bind_plain _ _ _ _ _ _ _ _ _ (passes_statements levels) fun sts => ?_
  refine @passes_bind _ _ _ _ _ _ _ _ passes_get fun s => ?_
  cases s.it.rest <;> exact inferInstance

instance passes_statementRoot : Passes (statementRoot levels) (Parser.statementRoot levels) := by
  unfold statementRoot Parser.statementRoot
  infer_instance

instance passes_algorithmRoot : Passes (algorithmRoot levels) (Parser.algorithmRoot levels) := by
  unfold algorithmRoot Parser.algorithmRoot
  infer_instance

instance passes_methodRoot : Passes (methodRoot levels) (Parser.methodRoot levels) := by
  unfold methodRoot Parser.methodRoot
  infer_instance

instance passes_expressionRoot : Passes (expressionRoot levels) (Parser.expressionRoot levels) := by
  unfold expressionRoot Parser.expressionRoot
  infer_instance

instance passes_target? : Passes target? Parser.target? := by
  unfold target? Parser.target?
  infer_instance

instance passes_initializerRoot : Passes (initializerRoot levels) (Parser.initializerRoot levels) := by
  unfold initializerRoot Parser.initializerRoot
  infer_instance

end

end StructuredText.Checked
