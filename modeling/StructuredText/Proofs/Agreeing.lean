import StructuredText.Proofs.Alike

/-!
# No rule depends on the case of letters

Each rule of the grammar agrees with itself: what it takes, yields and reports are the same but for the case of
letters. The rules take what they were given before, such as a receiver or the beginning of a span, as a parameter;
there they agree for parameters that are alike.
-/

namespace StructuredText.Parser

set_option synthInstance.maxSize 1024

/-! ## Literals -/

instance agree_tokenLiteral (kind : LiteralKind) : Agree (tokenLiteral kind) (tokenLiteral kind) := by
  unfold tokenLiteral
  infer_instance

instance agree_timeOfDay : Agree timeOfDay timeOfDay := by
  unfold timeOfDay
  infer_instance

instance agree_sign : Agree sign sign := by
  refine @agree_bind_letterless _ _ _ _ _ _ _ _ _ agree_kind fun k => ?_
  split <;> infer_instance

instance agree_typedLiteral : Agree typedLiteral typedLiteral := by
  refine @agree_bind _ _ _ _ _ _ _ _ agree_take fun token => @agree_bind _ _ _ _ _ _ _ _ agree_sign fun sign => ?_
  refine @agree_bind_letterless _ _ _ _ _ _ _ _ _ agree_kind fun k => ?_
  split
  · infer_instance
  · next kind _ =>
    refine @agree_bind _ _ _ _ _ _ _ _ (agree_tokenLiteral kind) fun value => ?_
    have hfault : LiteralFault.of? (withoutHash token.one.text) kind sign.one.isSome =
        LiteralFault.of? (withoutHash token.other.text) kind sign.other.isSome := by
      rw [LiteralFault.of?, LiteralFault.of?, eq_of_alike sign.one.isSome sign.other.isSome,
        ofName?_eq_of_alike (withoutHash token.one.text) (withoutHash token.other.text)]
    dsimp only
    rw [hfault, eq_of_alike token.one.span token.other.span, eq_of_alike value.one.span value.other.span,
      byteLength_eq_of_alike (withoutHash token.one.text) (withoutHash token.other.text)]
    split <;> infer_instance

instance agree_literal : Agree literal literal := by
  refine @agree_bind _ _ _ _ _ _ _ _ agree_get fun s => ?_
  rw [eq_of_alike s.one.kind s.other.kind, eq_of_alike s.one.atTimeOfDay s.other.atTimeOfDay]
  split
  · infer_instance
  · split
    · infer_instance
    · split <;> infer_instance

/-! ## Expressions -/

instance agree_ident (what : String) : Agree (ident what) (ident what) := by
  unfold ident
  infer_instance

instance agree_qualifiedName (what : String) : Agree (qualifiedName what) (qualifiedName what) := by
  unfold qualifiedName
  infer_instance

instance agree_tierTurn (tier : BinaryTier) {operand : Parser Expr} [Agree operand operand] {left left' : Expr}
    [Alike left left'] : Agree (tierTurn tier operand left) (tierTurn tier operand left') := by
  refine @agree_bind_letterless _ _ _ _ _ _ _ _ _ agree_kind fun k => ?_
  split <;> infer_instance

instance agree_binaryTier (tier : BinaryTier) {operand : Parser Expr} [Agree operand operand] :
    Agree (binaryTier tier operand) (binaryTier tier operand) := by
  rw [binaryTier_eq]
  infer_instance

section

variable {unary : Parser Expr} [hu : Agree unary unary]

instance agree_boundOf : Agree (boundOf unary) (boundOf unary) := by
  unfold boundOf
  infer_instance

instance agree_exprOf : Agree (exprOf unary) (exprOf unary) := by
  unfold exprOf
  infer_instance

instance agree_parenthesized : Agree (parenthesized unary) (parenthesized unary) := by
  unfold parenthesized
  infer_instance

instance agree_indices : Agree (indices unary) (indices unary) := by
  unfold indices
  infer_instance

instance agree_output (start : Nat) (negated : Bool) :
    Agree (arg.output unary start negated) (arg.output unary start negated) := by
  unfold arg.output
  infer_instance

instance agree_arg : Agree (arg unary) (arg unary) := by
  refine @agree_bind _ _ _ _ _ _ _ _ agree_get fun s => ?_
  dsimp only
  rw [eq_of_alike s.one.kind s.other.kind, eq_of_alike (s.one.kindAt 1) (s.other.kindAt 1),
    eq_of_alike (s.one.kindAt 2) (s.other.kindAt 2), eq_of_alike s.one.span s.other.span]
  split <;> infer_instance

instance agree_args : Agree (args unary) (args unary) := by
  unfold args
  infer_instance

end

/-- The rule one level deeper agrees with itself, if there is one. -/
class AgreeDeeper [Cased α] (deeper : Option (Parser α)) : Prop where
  of_mem : ∀ p ∈ deeper, Agree p p

instance agreeDeeper_none [Cased α] : AgreeDeeper (none : Option (Parser α)) := ⟨by simp⟩

instance agreeDeeper_some [Cased α] {p : Parser α} [hp : Agree p p] : AgreeDeeper (some p) := ⟨by simpa using hp⟩

theorem agree_deeper [Cased α] [Cased β] {what : String} {deeper : Option (Parser α)} [hd : AgreeDeeper deeper]
    {rule : Parser α → Parser β} (h : ∀ p, Agree p p → Agree (rule p) (rule p)) :
    Agree (nested what deeper rule) (nested what deeper rule) :=
  agree_nested fun p hp => h p (hd.of_mem p hp)

instance agree_nested_id [Cased α] {what : String} {deeper : Option (Parser α)} [AgreeDeeper deeper] :
    Agree (nested what deeper id) (nested what deeper id) :=
  agree_deeper fun _ h => h

section

variable {deeper : Option (Parser Expr)} [hd : AgreeDeeper deeper]

instance agree_nested_parenthesized :
    Agree (nested "expression" deeper parenthesized) (nested "expression" deeper parenthesized) :=
  agree_deeper fun _ _ => inferInstance

instance agree_nested_indices : Agree (nested "expression" deeper indices) (nested "expression" deeper indices) :=
  agree_deeper fun _ _ => inferInstance

instance agree_nested_args : Agree (nested "expression" deeper args) (nested "expression" deeper args) :=
  agree_deeper fun _ _ => inferInstance

instance agree_primary : Agree (primary deeper) (primary deeper) := by
  have hparen (start : Nat) : Agree (nested "expression" deeper fun unary => do
      let inner ← parenthesized unary
      return Expr.paren inner (← spanFrom start)) (nested "expression" deeper fun unary => do
      let inner ← parenthesized unary
      return Expr.paren inner (← spanFrom start)) :=
    agree_deeper fun _ _ => inferInstance
  refine @agree_bind _ _ _ _ _ _ _ _ agree_get fun s => ?_
  dsimp only
  rw [eq_of_alike s.one.kind s.other.kind, eq_of_alike (s.one.kindAt 1) (s.other.kindAt 1),
    eq_of_alike s.one.atLiteralType s.other.atLiteralType, eq_of_alike s.one.span s.other.span]
  split
  iterate 5 infer_instance
  split <;> infer_instance

instance agree_selection {receiver receiver' : Expr} [Alike receiver receiver'] (start : Nat) :
    Agree (selection deeper receiver start) (selection deeper receiver' start) := by
  refine @agree_bind_letterless _ _ _ _ _ _ _ _ _ agree_kind fun k => ?_
  split
  iterate 2 infer_instance
  · refine @agree_bind_letterless _ _ _ _ _ _ _ _ _ agree_skip fun _ =>
      @agree_bind_letterless _ _ _ _ _ _ _ _ _ agree_kind fun k => ?_
    split <;> infer_instance
  · infer_instance

instance agree_suffix? (start : Nat) {receiver receiver' : Expr} [Alike receiver receiver'] :
    Agree (suffix? deeper start receiver) (suffix? deeper start receiver') := by
  refine @agree_bind_letterless _ _ _ _ _ _ _ _ _ agree_kind fun k => ?_
  split
  iterate 2 infer_instance
  · rw [eq_of_alike receiver.isCallable receiver'.isCallable]
    infer_instance
  · infer_instance

instance agree_accessOf : Agree (accessOf deeper) (accessOf deeper) := by
  unfold accessOf
  infer_instance

instance agree_unaryOf : Agree (unaryOf deeper) (unaryOf deeper) := by
  refine @agree_bind_letterless _ _ _ _ _ _ _ _ _ agree_kind fun k => ?_
  split <;> infer_instance

end

instance agree_unary (levels : Nat) : Agree (unary levels) (unary levels) := by
  induction levels with
  | zero => exact agree_unaryOf
  | succ levels ih => exact agree_unaryOf

instance agree_expr (levels : Nat) : Agree (expr levels) (expr levels) := agree_exprOf

instance agree_bound (levels : Nat) : Agree (bound levels) (bound levels) := agree_boundOf

/-! ## Statements -/

/-- The rules of the level agree with themselves. -/
class Level.Agrees (level : Level) : Prop where
  unary : Agree level.unary level.unary
  statement : Agree level.statement level.statement

attribute [instance] Level.Agrees.unary Level.Agrees.statement

section

variable {statement : Parser Stmt} [hst : Agree statement statement]

instance agree_statementTurn {stops : ParserState → Bool}
    [∀ x : Twins ParserState, Alike (stops x.one) (stops x.other)] :
    Agree (statementTurn statement stops) (statementTurn statement stops) := by
  refine @agree_bind _ _ _ _ _ _ _ _ agree_get fun s => ?_
  rw [eq_of_alike s.one.kind s.other.kind, eq_of_alike s.one.rest.isEmpty s.other.rest.isEmpty,
    eq_of_alike (stops s.one) (stops s.other)]
  infer_instance

instance agree_statementsUntil {stops : ParserState → Bool}
    [∀ x : Twins ParserState, Alike (stops x.one) (stops x.other)] :
    Agree (statementsUntil statement stops) (statementsUntil statement stops) := by
  unfold statementsUntil
  infer_instance

instance agree_statementList : Agree (statementList statement) (statementList statement) := by
  unfold statementList
  infer_instance

end

instance agree_blockSpan (start : Nat) : Agree (blockSpan start) (blockSpan start) := by
  unfold blockSpan
  infer_instance

section

variable {level : Level} [hl : level.Agrees]

instance agree_elseBody : Agree (elseBody level) (elseBody level) := by
  unfold elseBody
  infer_instance

instance agree_elsifTurn : Agree (elsifTurn level) (elsifTurn level) := by
  unfold elsifTurn
  infer_instance

instance agree_ifStatement : Agree (ifStatement level) (ifStatement level) := by
  unfold ifStatement
  infer_instance

instance agree_caseArm : Agree (caseArm level) (caseArm level) := by
  unfold caseArm
  infer_instance

instance agree_caseArmTurn : Agree (caseArmTurn level) (caseArmTurn level) := by
  refine @agree_bind _ _ _ _ _ _ _ _ agree_get fun s => ?_
  rw [eq_of_alike s.one.kind s.other.kind, eq_of_alike s.one.rest.isEmpty s.other.rest.isEmpty]
  infer_instance

instance agree_caseArms (start : Nat) {selector selector' : Expr} [Alike selector selector'] :
    Agree (caseArms level start selector) (caseArms level start selector') := by
  unfold caseArms
  infer_instance

instance agree_caseBody (start : Nat) {selector selector' : Expr} [Alike selector selector'] :
    Agree (caseBody level start selector) (caseBody level start selector') := by
  refine @agree_bind_letterless _ _ _ _ _ _ _ _ _ agree_kind fun k => ?_
  dsimp only
  split <;> infer_instance

instance agree_caseStatement : Agree (caseStatement level) (caseStatement level) := by
  rw [caseStatement_eq]
  infer_instance

instance agree_step : Agree (forStatement.step level) (forStatement.step level) := by
  unfold forStatement.step
  infer_instance

instance agree_forStatement : Agree (forStatement level) (forStatement level) := by
  unfold forStatement
  infer_instance

instance agree_whileStatement : Agree (whileStatement level) (whileStatement level) := by
  unfold whileStatement
  infer_instance

instance agree_repeatStatement : Agree (repeatStatement level) (repeatStatement level) := by
  unfold repeatStatement
  infer_instance

end

/-- The rules one level deeper agree with themselves, if there are any. -/
class AgreeLevel (deeper : Option Level) : Prop where
  of_mem : ∀ level ∈ deeper, Level.Agrees level

section

variable {deeper : Option Level} [hd : AgreeLevel deeper]

instance agreeDeeper_map_unary : AgreeDeeper (deeper.map Level.unary) := by
  constructor
  simp only [Option.mem_def, Option.map_eq_some_iff, forall_exists_index, and_imp, forall_apply_eq_imp_iff₂]
  exact fun level h => (hd.of_mem level h).unary

instance agree_assignmentOrCall : Agree (assignmentOrCall deeper) (assignmentOrCall deeper) := by
  unfold assignmentOrCall
  infer_instance

instance agree_statementOf : Agree (statementOf deeper) (statementOf deeper) := by
  have hn {rule : Level → Parser Stmt} (h : ∀ level, Level.Agrees level → Agree (rule level) (rule level)) :
      Agree (nested "statement" deeper rule) (nested "statement" deeper rule) :=
    agree_nested fun level hl => h level (hd.of_mem level hl)
  have hk (make : Span → Stmt) [∀ u, Alike (make u) (make u)] :
      Agree (keywordStatement make) (keywordStatement make) := by
    unfold keywordStatement
    infer_instance
  refine @agree_bind_letterless _ _ _ _ _ _ _ _ _ agree_kind fun k => ?_
  split
  iterate 5 exact hn fun _ _ => inferInstance
  all_goals infer_instance

end

instance agreeLevel_none : AgreeLevel none := ⟨by simp⟩

instance agreeLevel_some {level : Level} [hl : level.Agrees] : AgreeLevel (some level) := ⟨by simpa using hl⟩

instance agree_statement (levels : Nat) : Agree (statement levels) (statement levels) := by
  induction levels with
  | zero => exact agree_statementOf
  | succ levels ih =>
    have : (levelAt levels).Agrees := ⟨agree_unary levels, ih⟩
    show Agree (statementOf (some (levelAt levels))) (statementOf (some (levelAt levels)))
    exact agree_statementOf

instance agree_statements (levels : Nat) : Agree (statements levels) (statements levels) := agree_statementList

/-! ## Declarations -/

instance agree_typeRefOf {deeper : Option (Parser TypeRef)} [AgreeDeeper deeper] :
    Agree (typeRefOf deeper) (typeRefOf deeper) := by
  refine @agree_bind_letterless _ _ _ _ _ _ _ _ _ agree_kind fun k => ?_
  split <;> infer_instance

instance agree_typeRef (levels : Nat) : Agree (typeRef levels) (typeRef levels) := by
  induction levels with
  | zero => exact agree_typeRefOf
  | succ levels ih => exact agree_typeRefOf

instance agree_listUpTo [Cased α] (close : TokenKind) {item : Parser α} [Agree item item] :
    Agree (listUpTo close item) (listUpTo close item) := by
  unfold listUpTo
  infer_instance

section

variable {initializer : Parser Initializer} [hi : Agree initializer initializer]

instance agree_arrayElement : Agree (arrayElement initializer) (arrayElement initializer) := by
  refine @agree_bind _ _ _ _ _ _ _ _ agree_get fun s => ?_
  dsimp only
  rw [eq_of_alike s.one.kind s.other.kind, eq_of_alike (s.one.kindAt 1) (s.other.kindAt 1),
    eq_of_alike s.one.span s.other.span]
  infer_instance

instance agree_arrayInitializer : Agree (arrayInitializer initializer) (arrayInitializer initializer) := by
  unfold arrayInitializer
  infer_instance

instance agree_fieldInit : Agree (fieldInit initializer) (fieldInit initializer) := by
  unfold fieldInit
  infer_instance

instance agree_recordInitializer : Agree (recordInitializer initializer) (recordInitializer initializer) := by
  unfold recordInitializer
  infer_instance

end

instance agree_initializerOf {expr : Parser Expr} [Agree expr expr] {deeper : Option (Parser Initializer)}
    [AgreeDeeper deeper] : Agree (initializerOf expr deeper) (initializerOf expr deeper) := by
  have : Agree (nested "initializer" deeper arrayInitializer) (nested "initializer" deeper arrayInitializer) :=
    agree_deeper fun _ _ => inferInstance
  have : Agree (nested "initializer" deeper recordInitializer) (nested "initializer" deeper recordInitializer) :=
    agree_deeper fun _ _ => inferInstance
  refine @agree_bind _ _ _ _ _ _ _ _ agree_get fun s => ?_
  rw [eq_of_alike s.one.kind s.other.kind, eq_of_alike (s.one.kindAt 1) (s.other.kindAt 1),
    eq_of_alike (s.one.kindAt 2) (s.other.kindAt 2)]
  split <;> infer_instance

instance agree_initializer (levels : Nat) : Agree (initializer levels) (initializer levels) := by
  induction levels with
  | zero => exact agree_initializerOf
  | succ levels ih => exact agree_initializerOf

section

variable (levels : Nat)

instance agree_arrayBounds : Agree (arrayBounds levels) (arrayBounds levels) := by
  unfold arrayBounds
  infer_instance

instance agree_arrayDimensions : Agree (arrayDimensions levels) (arrayDimensions levels) := by
  unfold arrayDimensions
  infer_instance

instance agree_arrayShape? : Agree (arrayShape? levels) (arrayShape? levels) := by
  unfold arrayShape?
  infer_instance

instance agree_location? : Agree location? location? := by
  unfold location?
  infer_instance

instance agree_maxLength? : Agree (maxLength? levels) (maxLength? levels) := by
  unfold maxLength?
  infer_instance

instance agree_initial? : Agree (initial? levels) (initial? levels) := by
  unfold initial?
  infer_instance

instance agree_expectDeclEnd : Agree expectDeclEnd expectDeclEnd := by
  have (x : Twins ParserState) : Agree
      (if x.one.atDeclEnd then missing TokenKind.semicolon.spelling else fail TokenKind.semicolon.spelling)
      (if x.other.atDeclEnd then missing TokenKind.semicolon.spelling else fail TokenKind.semicolon.spelling) := by
    rw [eq_of_alike x.one.atDeclEnd x.other.atDeclEnd]
    infer_instance
  unfold expectDeclEnd
  infer_instance

instance agree_varDecl : Agree (varDecl levels) (varDecl levels) := by
  unfold varDecl
  infer_instance

instance agree_skipDecl : Agree skipDecl skipDecl := agree_skipTo _

instance agree_varDeclTurn : Agree (varDeclTurn levels) (varDeclTurn levels) := by
  refine @agree_bind _ _ _ _ _ _ _ _ agree_get fun s => ?_
  rw [eq_of_alike s.one.kind s.other.kind, eq_of_alike s.one.atStatementStart s.other.atStatementStart]
  obtain ⟨hr, hr'⟩ | ⟨t, ts, t', ts', hr, hr', -, -⟩ := ParserState.rest_cases s.one s.other <;> rw [hr, hr'] <;>
    infer_instance

instance agree_blockRest (start : Nat) (kind : BlockKind) :
    Agree (blockRest levels start kind) (blockRest levels start kind) := by
  unfold blockRest
  infer_instance

instance agree_blockKind (span : Span) (k : TokenKind) : Agree (blockKind span k) (blockKind span k) := by
  unfold blockKind
  split <;> infer_instance

instance agree_varBlock (unit : UnitKind) : Agree (varBlock levels unit) (varBlock levels unit) := by
  rw [varBlock_eq]
  refine @agree_bind _ _ _ _ _ _ _ _ agree_get fun s => ?_
  rw [eq_of_alike s.one.kind s.other.kind, eq_of_alike s.one.span s.other.span]
  infer_instance

/-! ## Units -/

instance agree_leadingBlockTurn (unit : UnitKind) :
    Agree (leadingBlockTurn levels unit) (leadingBlockTurn levels unit) := by
  unfold leadingBlockTurn
  infer_instance

instance agree_bodyRest (unit : UnitKind) {part part' : BodyPart} [Alike part part'] :
    Agree (bodyRest levels unit part) (bodyRest levels unit part') := by
  refine @agree_bind _ _ _ _ _ _ _ _ agree_get fun s => ?_
  rw [eq_of_alike s.one.kind s.other.kind]
  obtain ⟨hr, hr'⟩ | ⟨t, ts, t', ts', hr, hr', -, -⟩ := ParserState.rest_cases s.one s.other <;> rw [hr, hr']
  · infer_instance
  · refine @agree_ite _ _ _ _ _ _ _ _ inferInstance (@agree_ite _ _ _ _ _ _ _ _ inferInstance ?_)
    split <;> infer_instance

instance agree_bodyTurn (unit : UnitKind) : Agree (bodyTurn levels unit) (bodyTurn levels unit) := by
  rw [bodyTurn_eq]
  infer_instance

instance agree_body (unit : UnitKind) : Agree (body levels unit) (body levels unit) := by
  unfold body
  infer_instance

instance agree_unitName : Agree unitName unitName := by
  unfold unitName
  infer_instance

instance agree_returnType? : Agree (returnType? levels) (returnType? levels) := by
  unfold returnType?
  infer_instance

instance agree_algorithm : Agree (algorithm levels) (algorithm levels) := by
  unfold algorithm
  infer_instance

instance agree_method : Agree (method levels) (method levels) := by
  unfold method
  infer_instance

instance agree_unitTurn : Agree (unitTurn levels) (unitTurn levels) := by
  have (x : Twins ParserState) : Alike (x.one.kind != .kwAlgorithm && x.one.kind != .kwMethod)
      (x.other.kind != .kwAlgorithm && x.other.kind != .kwMethod) := by
    rw [eq_of_alike x.one.kind x.other.kind]
    infer_instance
  refine @agree_bind _ _ _ _ _ _ _ _ agree_get fun s => ?_
  rw [eq_of_alike s.one.kind s.other.kind]
  obtain ⟨hr, hr'⟩ | ⟨t, ts, t', ts', hr, hr', -, -⟩ := ParserState.rest_cases s.one s.other <;> rw [hr, hr']
  · infer_instance
  · dsimp only
    split <;> infer_instance

/-! ## Roots -/

instance agree_sourceFile : Agree (sourceFile levels) (sourceFile levels) := by
  unfold sourceFile
  infer_instance

instance agree_statementsTurn : Agree (statementsTurn levels) (statementsTurn levels) := by
  refine @agree_bind _ _ _ _ _ _ _ _ (agree_statements levels) fun sts => ?_
  refine @agree_bind _ _ _ _ _ _ _ _ agree_get fun s => ?_
  obtain ⟨hr, hr'⟩ | ⟨t, ts, t', ts', hr, hr', -, -⟩ := ParserState.rest_cases s.one s.other <;> rw [hr, hr'] <;>
    infer_instance

instance agree_statementRoot : Agree (statementRoot levels) (statementRoot levels) := by
  unfold statementRoot
  infer_instance

instance agree_algorithmRoot : Agree (algorithmRoot levels) (algorithmRoot levels) := by
  unfold algorithmRoot
  infer_instance

instance agree_methodRoot : Agree (methodRoot levels) (methodRoot levels) := by
  unfold methodRoot
  infer_instance

instance agree_expressionRoot : Agree (expressionRoot levels) (expressionRoot levels) := by
  unfold expressionRoot
  infer_instance

instance agree_target? : Agree target? target? := by
  refine @agree_bind _ _ _ _ _ _ _ _ agree_get fun s => ?_
  rw [eq_of_alike s.one.kind s.other.kind, eq_of_alike (s.one.kindAt 1) (s.other.kindAt 1)]
  infer_instance

instance agree_initializerRoot : Agree (initializerRoot levels) (initializerRoot levels) := by
  unfold initializerRoot
  infer_instance

end

end StructuredText.Parser
