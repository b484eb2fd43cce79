import StructuredText.Proofs.Steps

/-!
# The rules of the grammar are lawful

Every rule of the grammar takes tokens and reports problems, and does nothing else. Only two rules report a problem at
tokens that they have taken before: a type name and the value behind it (`lawful_typedLiteral`), and the word that
opens a variable block (`lawful_varBlock`).
-/

namespace StructuredText

/-! ## Operators -/

/-- The binary operator that a token writes, of whatever tier. -/
def BinaryOp.ofToken? : TokenKind → Option BinaryOp
  | .dotDot => some range
  | .kwOr => some or
  | .kwXor => some xor
  | .kwAnd | .ampersand => some and
  | .eq => some eq
  | .neq => some neq
  | .lt => some lt
  | .ltEq => some ltEq
  | .gt => some gt
  | .gtEq => some gtEq
  | .plus => some add
  | .minus => some sub
  | .star => some mul
  | .slash => some div
  | .kwMod => some mod
  | .power => some power
  | _ => none

/-- The table of a tier holds the operators of the tier and no others. -/
theorem BinaryTier.op?_eq (tier : BinaryTier) (k : TokenKind) :
    tier.op? k = (BinaryOp.ofToken? k).filter (·.tier = tier) := by
  cases tier <;> cases k <;> rfl

theorem BinaryTier.op?_eq_some_iff {tier : BinaryTier} {k : TokenKind} {op : BinaryOp} :
    tier.op? k = some op ↔ BinaryOp.ofToken? k = some op ∧ op.tier = tier := by
  rw [op?_eq, Option.filter_eq_some_iff, decide_eq_true_iff]

namespace Parser

/-! ## Literals -/

instance lawful_tokenLiteral (kind : LiteralKind) : Lawful (tokenLiteral kind) := by
  unfold tokenLiteral
  infer_instance

instance lawful_timeOfDay : Lawful timeOfDay := by
  unfold timeOfDay
  infer_instance

theorem run_sign (s : ParserState) : ∃ ts sign s', Parser.sign s = .ok sign s' ∧ Run s ts s' := by
  rw [sign_apply]
  split
  · exact ⟨_, _, _, rfl, Run.advance s⟩
  · exact ⟨_, _, _, rfl, .stay⟩

instance lawful_sign : Lawful sign := by
  constructor
  intro s
  obtain ⟨ts, sign, s', h, hrun⟩ := run_sign s
  rw [h]
  exact ⟨ts, hrun⟩

instance lawful_typedLiteral : Lawful typedLiteral := by
  constructor
  intro s
  cases hr : s.rest with
  | nil =>
    have hk : s.kind = .eof := ParserState.kind_of_nil hr
    have : typedLiteral s = .error .endOfStream (s.report (.ended "literal value") s.span) := by
      simp [typedLiteral, bind_apply, sign_apply, ParserState.advance_of_nil hr, hk, LiteralKind.ofToken?,
        fail_of_nil hr]
    rw [this]
    exact ⟨[], s, .stay, .endOfStream _ hr⟩
  | cons p us =>
    have hp : Run s [p] s.advance := Run.stay.take hr
    obtain ⟨ts, sign, s₁, hsign, hrun⟩ := run_sign s.advance
    simp only [typedLiteral]
    rw [bind_of_ok (take_apply s), bind_of_ok hsign, bind_of_ok (kind_apply s₁)]
    cases hk : LiteralKind.ofToken? s₁.kind with
    | none =>
      exact Reached.after (hp.trans hrun) ((lawful_fail "literal value").reached s₁)
    | some kind =>
      dsimp only
      rcases hv : s₁.rest with _ | ⟨v, vs⟩
      · simp [ParserState.kind_of_nil hv, LiteralKind.ofToken?] at hk
      have hrun' : Run s (([p] ++ ts) ++ [v]) s₁.advance := (hp.trans hrun).take hv
      rw [bind_of_ok (tokenLiteral_apply kind s₁)]
      simp only [Literal.ofToken_span, ParserState.span_of_cons hr, ParserState.span_of_cons hv]
      generalize LiteralFault.of? _ _ _ = fault
      cases fault with
      | none => exact ⟨_, hrun'⟩
      | some fault => exact ⟨_, hrun'.report rfl (.cover (by simp) (by simp))⟩

instance lawful_literal : Lawful literal := by
  have (s : ParserState) : Lawful (match s.kind with
      | .typedLiteralPrefix => typedLiteral
      | kind =>
        if s.atTimeOfDay then timeOfDay
        else
          match LiteralKind.ofToken? kind with
          | some kind => tokenLiteral kind
          | none => fail "literal") := by
    split
    · infer_instance
    · split
      · infer_instance
      · split <;> infer_instance
  exact lawful_bind

/-! ## Expressions -/

instance lawful_ident (what : String) : Lawful (ident what) := by
  unfold ident
  infer_instance

instance lawful_qualifiedName (what : String) : Lawful (qualifiedName what) := by
  unfold qualifiedName
  infer_instance

/-- One more operator of the tier with its right operand, if there is one. -/
def tierTurn (tier : BinaryTier) (operand : Parser Expr) (left : Expr) : Parser (Option Expr) := do
  match tier.op? (← kind) with
  | some op =>
    skip
    let right ← operand
    return some (.binary op left right (left.span.cover right.span))
  | none => return none

theorem binaryTier_eq (tier : BinaryTier) (operand : Parser Expr) :
    binaryTier tier operand = operand >>= fold (tierTurn tier operand) := rfl

instance lawful_tierTurn (tier : BinaryTier) {operand : Parser Expr} [Lawful operand] (left : Expr) :
    Lawful (tierTurn tier operand left) := by
  have (k : TokenKind) : Lawful (match tier.op? k with
      | some op => do
        skip
        let right ← operand
        return some (Expr.binary op left right (left.span.cover right.span))
      | none => return none) := by
    split <;> infer_instance
  exact lawful_bind

instance lawful_binaryTier (tier : BinaryTier) {operand : Parser Expr} [Lawful operand] :
    Lawful (binaryTier tier operand) := by
  rw [binaryTier_eq]
  infer_instance

section

variable {unary : Parser Expr} [hu : Lawful unary]

instance lawful_boundOf : Lawful (boundOf unary) := by
  unfold boundOf
  infer_instance

instance lawful_exprOf : Lawful (exprOf unary) := by
  unfold exprOf
  infer_instance

instance lawful_parenthesized : Lawful (parenthesized unary) := by
  unfold parenthesized
  infer_instance

instance lawful_indices : Lawful (indices unary) := by
  unfold indices
  infer_instance

instance lawful_output (start : Nat) (negated : Bool) : Lawful (arg.output unary start negated) := by
  unfold arg.output
  infer_instance

instance lawful_arg : Lawful (arg unary) := by
  refine @lawful_bind _ _ _ _ lawful_get fun s => ?_
  dsimp only
  split <;> infer_instance

instance lawful_args : Lawful (args unary) := by
  unfold args
  infer_instance

end

/-- The rule one level deeper is lawful, if there is one. -/
class LawfulDeeper (deeper : Option (Parser α)) : Prop where
  of_mem : ∀ p ∈ deeper, Lawful p

instance lawfulDeeper_none : LawfulDeeper (none : Option (Parser α)) := ⟨by simp⟩

instance lawfulDeeper_some {p : Parser α} [hp : Lawful p] : LawfulDeeper (some p) := ⟨by simpa using hp⟩

theorem lawful_deeper {what : String} (hw : what ∈ Problem.limited) {deeper : Option (Parser α)}
    [hd : LawfulDeeper deeper] {rule : Parser α → Parser β} (h : ∀ p, Lawful p → Lawful (rule p)) :
    Lawful (nested what deeper rule) :=
  lawful_nested hw fun p hp => h p (hd.of_mem p hp)

section

variable {deeper : Option (Parser Expr)} [hd : LawfulDeeper deeper]

theorem lawful_deeperExpr {rule : Parser Expr → Parser β} (h : ∀ p, Lawful p → Lawful (rule p)) :
    Lawful (nested "expression" deeper rule) :=
  lawful_deeper (by decide) h

instance lawful_nested_operand : Lawful (nested "expression" deeper id) := lawful_deeperExpr fun _ h => h

instance lawful_nested_parenthesized : Lawful (nested "expression" deeper parenthesized) :=
  lawful_deeperExpr fun _ _ => inferInstance

instance lawful_nested_indices : Lawful (nested "expression" deeper indices) :=
  lawful_deeperExpr fun _ _ => inferInstance

instance lawful_nested_args : Lawful (nested "expression" deeper args) :=
  lawful_deeperExpr fun _ _ => inferInstance

instance lawful_primary : Lawful (primary deeper) := by
  have (start : Nat) : Lawful (nested "expression" deeper fun unary => do
      let inner ← parenthesized unary
      return Expr.paren inner (← spanFrom start)) :=
    lawful_deeperExpr fun _ _ => inferInstance
  refine @lawful_bind _ _ _ _ lawful_get fun s => ?_
  dsimp only
  split
  iterate 5 infer_instance
  split <;> infer_instance

instance lawful_selection (receiver : Expr) (start : Nat) : Lawful (selection deeper receiver start) := by
  refine @lawful_bind _ _ _ _ lawful_kind fun k => ?_
  split
  iterate 2 infer_instance
  · refine @lawful_bind _ _ _ _ lawful_skip fun _ => @lawful_bind _ _ _ _ lawful_kind fun k => ?_
    split <;> infer_instance
  · infer_instance

instance lawful_suffix? (start : Nat) (receiver : Expr) : Lawful (suffix? deeper start receiver) := by
  refine @lawful_bind _ _ _ _ lawful_kind fun k => ?_
  split <;> infer_instance

instance lawful_accessOf : Lawful (accessOf deeper) := by
  unfold accessOf
  infer_instance

instance lawful_unaryOf : Lawful (unaryOf deeper) := by
  refine @lawful_bind _ _ _ _ lawful_kind fun k => ?_
  split <;> infer_instance

end

instance lawful_unary (levels : Nat) : Lawful (unary levels) := by
  induction levels with
  | zero => exact lawful_unaryOf
  | succ levels ih => exact lawful_unaryOf

instance lawfulDeeper_deeperUnary (levels : Nat) : LawfulDeeper (deeperUnary levels) := by
  cases levels with
  | zero => exact lawfulDeeper_none
  | succ levels => exact lawfulDeeper_some

instance lawful_expr (levels : Nat) : Lawful (expr levels) := lawful_exprOf

instance lawful_bound (levels : Nat) : Lawful (bound levels) := lawful_boundOf

/-! ## Statements -/

/-- The rules of the level are lawful. -/
class Level.Lawful (level : Level) : Prop where
  unary : Parser.Lawful level.unary
  statement : Parser.Lawful level.statement

attribute [instance] Level.Lawful.unary Level.Lawful.statement

section

variable {statement : Parser Stmt} [hs : Lawful statement]

instance lawful_statementTurn (stops : ParserState → Bool) : Lawful (statementTurn statement stops) := by
  unfold statementTurn
  infer_instance

instance lawful_statementsUntil (stops : ParserState → Bool) : Lawful (statementsUntil statement stops) := by
  unfold statementsUntil
  infer_instance

instance lawful_statementList : Lawful (statementList statement) := by
  unfold statementList
  infer_instance

end

instance lawful_blockSpan (start : Nat) : Lawful (blockSpan start) := by
  unfold blockSpan
  infer_instance

section

variable {level : Level} [hl : level.Lawful]

instance lawful_elseBody : Lawful (elseBody level) := by
  unfold elseBody
  infer_instance

set_option synthInstance.maxSize 512 in
instance lawful_elsifTurn : Lawful (elsifTurn level) := by
  unfold elsifTurn
  infer_instance

set_option synthInstance.maxSize 512 in
instance lawful_ifStatement : Lawful (ifStatement level) := by
  unfold ifStatement
  infer_instance

instance lawful_caseArm : Lawful (caseArm level) := by
  unfold caseArm
  infer_instance

instance lawful_caseArmTurn : Lawful (caseArmTurn level) := by
  unfold caseArmTurn
  infer_instance

/-- The arms of a `CASE` and what stands behind them. -/
def caseArms (level : Level) (start : Nat) (selector : Expr) : Parser Stmt := do
  let arms ← collect (caseArmTurn level)
  let elseBody ← elseBody level
  expectEnd .kwEndCase
  return .select selector arms elseBody (← blockSpan start)

/-- The arms of a `CASE`, of which one has to be there. -/
def caseBody (level : Level) (start : Nat) (selector : Expr) : Parser Stmt := do
  match ← kind with
  | .kwElse | .kwEndCase => missing "case label"
  | _ => pure ()
  caseArms level start selector

theorem caseStatement_eq (level : Level) : caseStatement level = (do
    let start ← offset
    skip
    let selector ← exprOf level.unary
    expect .kwOf
    caseBody level start selector) := rfl

instance lawful_caseArms (start : Nat) (selector : Expr) : Lawful (caseArms level start selector) := by
  unfold caseArms
  infer_instance

instance lawful_caseBody (start : Nat) (selector : Expr) : Lawful (caseBody level start selector) := by
  refine @lawful_bind _ _ _ _ lawful_kind fun k => ?_
  dsimp only
  split <;> infer_instance

instance lawful_caseStatement : Lawful (caseStatement level) := by
  rw [caseStatement_eq]
  infer_instance

instance lawful_step : Lawful (forStatement.step level) := by
  unfold forStatement.step
  infer_instance

set_option synthInstance.maxSize 512 in
instance lawful_forStatement : Lawful (forStatement level) := by
  unfold forStatement
  infer_instance

instance lawful_whileStatement : Lawful (whileStatement level) := by
  unfold whileStatement
  infer_instance

instance lawful_repeatStatement : Lawful (repeatStatement level) := by
  unfold repeatStatement
  infer_instance

end

instance lawful_keywordStatement (make : Span → Stmt) : Lawful (keywordStatement make) := by
  unfold keywordStatement
  infer_instance

/-- The rules one level deeper are lawful, if there are any. -/
class LawfulLevel (deeper : Option Level) : Prop where
  of_mem : ∀ level ∈ deeper, Level.Lawful level

section

variable {deeper : Option Level} [hd : LawfulLevel deeper]

instance lawfulDeeper_map_unary : LawfulDeeper (deeper.map Level.unary) := by
  constructor
  simp only [Option.mem_def, Option.map_eq_some_iff, forall_exists_index, and_imp, forall_apply_eq_imp_iff₂]
  exact fun level h => (hd.of_mem level h).unary

instance lawful_assignmentOrCall : Lawful (assignmentOrCall deeper) := by
  unfold assignmentOrCall
  infer_instance

instance lawful_statementOf : Lawful (statementOf deeper) := by
  refine @lawful_bind _ _ _ _ lawful_kind fun k => ?_
  have hn {rule : Level → Parser Stmt} (h : ∀ level, Level.Lawful level → Lawful (rule level)) :
      Lawful (nested "statement" deeper rule) :=
    lawful_nested (by decide) fun level hl => h level (hd.of_mem level hl)
  split
  iterate 5 exact hn fun _ _ => inferInstance
  all_goals infer_instance

end

/-- The rules for a number of levels. -/
def levelAt (levels : Nat) : Level := ⟨unary levels, statement levels⟩

/-- The rules one level deeper. -/
def deeperLevel : (levels : Nat) → Option Level
  | 0 => none
  | levels + 1 => some (levelAt levels)

theorem statement_eq (levels : Nat) : statement levels = statementOf (deeperLevel levels) := by
  cases levels <;> rfl

theorem map_unary_deeperLevel (levels : Nat) : (deeperLevel levels).map Level.unary = deeperUnary levels := by
  cases levels <;> rfl

instance lawfulLevel_none : LawfulLevel none := ⟨by simp⟩

instance lawfulLevel_some {level : Level} [hl : level.Lawful] : LawfulLevel (some level) := ⟨by simpa using hl⟩

instance lawful_statement (levels : Nat) : Lawful (statement levels) := by
  induction levels with
  | zero => exact lawful_statementOf
  | succ levels ih =>
    have : (levelAt levels).Lawful := ⟨lawful_unary levels, ih⟩
    show Lawful (statementOf (some (levelAt levels)))
    exact lawful_statementOf

instance lawful_levelAt (levels : Nat) : (levelAt levels).Lawful := ⟨lawful_unary levels, lawful_statement levels⟩

instance lawfulLevel_deeperLevel (levels : Nat) : LawfulLevel (deeperLevel levels) := by
  cases levels with
  | zero => exact lawfulLevel_none
  | succ levels => exact lawfulLevel_some

instance lawful_statements (levels : Nat) : Lawful (statements levels) := lawful_statementList

/-! ## Declarations -/

instance lawful_nested_target {deeper : Option (Parser TypeRef)} [LawfulDeeper deeper] :
    Lawful (nested "type" deeper id) :=
  lawful_deeper (by decide) fun _ h => h

instance lawful_typeRefOf {deeper : Option (Parser TypeRef)} [LawfulDeeper deeper] : Lawful (typeRefOf deeper) := by
  refine @lawful_bind _ _ _ _ lawful_kind fun k => ?_
  split <;> infer_instance

instance lawful_typeRef (levels : Nat) : Lawful (typeRef levels) := by
  induction levels with
  | zero => exact lawful_typeRefOf
  | succ levels ih => exact lawful_typeRefOf

instance lawful_listUpTo (close : TokenKind) {item : Parser α} [Lawful item] : Lawful (listUpTo close item) := by
  unfold listUpTo
  infer_instance

section

variable {initializer : Parser Initializer} [hi : Lawful initializer]

instance lawful_arrayElement : Lawful (arrayElement initializer) := by
  unfold arrayElement
  infer_instance

instance lawful_arrayInitializer : Lawful (arrayInitializer initializer) := by
  unfold arrayInitializer
  infer_instance

instance lawful_fieldInit : Lawful (fieldInit initializer) := by
  unfold fieldInit
  infer_instance

instance lawful_recordInitializer : Lawful (recordInitializer initializer) := by
  unfold recordInitializer
  infer_instance

end

instance lawful_initializerOf {expr : Parser Expr} [Lawful expr] {deeper : Option (Parser Initializer)}
    [LawfulDeeper deeper] : Lawful (initializerOf expr deeper) := by
  have : Lawful (nested "initializer" deeper arrayInitializer) :=
    lawful_deeper (by decide) fun _ _ => inferInstance
  have : Lawful (nested "initializer" deeper recordInitializer) :=
    lawful_deeper (by decide) fun _ _ => inferInstance
  refine @lawful_bind _ _ _ _ lawful_get fun s => ?_
  split <;> infer_instance

instance lawful_initializer (levels : Nat) : Lawful (initializer levels) := by
  induction levels with
  | zero => exact lawful_initializerOf
  | succ levels ih => exact lawful_initializerOf

instance lawful_arrayBounds (levels : Nat) : Lawful (arrayBounds levels) := by
  unfold arrayBounds
  infer_instance

instance lawful_arrayDimensions (levels : Nat) : Lawful (arrayDimensions levels) := by
  unfold arrayDimensions
  infer_instance

instance lawful_arrayShape? (levels : Nat) : Lawful (arrayShape? levels) := by
  unfold arrayShape?
  infer_instance

instance lawful_location? : Lawful location? := by
  unfold location?
  infer_instance

instance lawful_maxLength? (levels : Nat) : Lawful (maxLength? levels) := by
  unfold maxLength?
  infer_instance

instance lawful_initial? (levels : Nat) : Lawful (initial? levels) := by
  unfold initial?
  infer_instance

instance lawful_expectDeclEnd : Lawful expectDeclEnd := by
  unfold expectDeclEnd
  infer_instance

instance lawful_varDecl (levels : Nat) : Lawful (varDecl levels) := by
  unfold varDecl
  infer_instance

instance lawful_varDeclTurn (levels : Nat) : Lawful (varDeclTurn levels) := by
  refine @lawful_bind _ _ _ _ lawful_get fun s => ?_
  split <;> infer_instance

/-- What stands behind the word that opens a block. -/
def blockRest (levels : Nat) (start : Nat) (kind : BlockKind) : Parser VarBlock := do
  let isConstant ← eat .kwConstant
  let decls ← collect (varDeclTurn levels)
  return ⟨kind, isConstant, decls, ← spanFrom start⟩

theorem varBlock_eq (levels : Nat) (unit : UnitKind) : varBlock levels unit = (do
    let s ← get
    skip
    let kind ← blockKind s.span s.kind
    if unit = .algorithm ∧ kind ≠ .temp then do
      reportAt s.span (.blockInAlgorithm kind)
      blockRest levels s.span.start kind
    else blockRest levels s.span.start kind) := rfl

instance lawful_blockRest (levels start : Nat) (kind : BlockKind) : Lawful (blockRest levels start kind) := by
  unfold blockRest
  infer_instance

/-- A bare `VAR` is reported and read as `VAR_TEMP`, which may stand in every unit. -/
theorem blockKind_cases (span : Span) (k : TokenKind) (s : ParserState) :
    (∃ kind, blockKind span k s = .ok kind s) ∨ blockKind span k s = .ok .temp (s.report .plainBlock span) := by
  unfold blockKind
  split
  iterate 4 exact .inl ⟨_, rfl⟩
  exact .inr rfl

/-- The word that opens a block is taken, and a bare `VAR` is reported. -/
theorem run_blockKind {s s' : ParserState} {ts : List Lexeme} {span : Span} (hrun : Run s ts s')
    (hp : Placed s' ts span) (k : TokenKind) :
    ∃ kind s₁, blockKind span k s' = .ok kind s₁ ∧ Run s ts s₁ ∧ (kind ≠ .temp → Placed s₁ ts span) := by
  rcases blockKind_cases span k s' with ⟨kind, hkind⟩ | hkind
  · exact ⟨kind, s', hkind, hrun, fun _ => hp⟩
  · exact ⟨.temp, _, hkind, hrun.report rfl hp, by simp⟩

/-- Behind the word that opens a block, and with the reports about it, the rest of the block is read. -/
theorem exists_varBlock_eq (levels : Nat) (unit : UnitKind) (s : ParserState) : ∃ kind s₁,
    Run s (s.rest.take 1) s₁ ∧ varBlock levels unit s = blockRest levels s.span.start kind s₁ := by
  have hp : Placed s.advance (s.rest.take 1) s.span := by
    cases hr : s.rest with
    | nil => rw [ParserState.advance_of_nil hr]; exact .here
    | cons t ts => rw [ParserState.span_of_cons hr]; exact .taken (by simp)
  obtain ⟨kind, s₁, hkind, hrun, hp⟩ := run_blockKind (Run.advance s) hp s.kind
  rw [varBlock_eq, bind_of_ok (get_apply s), bind_of_ok (skip_apply s), bind_of_ok hkind]
  split
  · next h => exact ⟨kind, _, hrun.report rfl (hp h.2), rfl⟩
  · exact ⟨kind, s₁, hrun, rfl⟩

instance lawful_varBlock (levels : Nat) (unit : UnitKind) : Lawful (varBlock levels unit) := by
  constructor
  intro s
  obtain ⟨kind, s₁, hrun, h⟩ := exists_varBlock_eq levels unit s
  rw [h]
  exact Reached.after hrun ((lawful_blockRest _ _ _).reached _)

/-! ## Units -/

section

variable (levels : Nat)

instance lawful_leadingBlockTurn (unit : UnitKind) : Lawful (leadingBlockTurn levels unit) := by
  unfold leadingBlockTurn
  infer_instance

/-- What follows statements in a body. -/
def bodyRest (unit : UnitKind) (part : BodyPart) : Parser (Turn BodyPart) := do
  let s ← get
  match s.rest with
  | [] => fail unit.endKeyword.spelling
  | _ :: _ =>
    if s.kind = unit.endKeyword then
      skip
      let _ ← eat .semicolon
      return .last [part]
    else if s.kind.isVarKeyword then
      report .lateBlock
      let block ← varBlock levels unit
      return .more [part, .block block]
    else
      match s.kind with
      | .kwEndAlgorithm | .kwEndMethod =>
        missing unit.endKeyword.spelling
        skip
        return .last [part]
      | .kwAlgorithm | .kwMethod =>
        missing unit.endKeyword.spelling
        return .last [part]
      | _ =>
        report (.stray s.text)
        skip
        return .more [part]

theorem bodyTurn_eq (unit : UnitKind) :
    bodyTurn levels unit = statements levels >>= fun sts => bodyRest levels unit (.statements sts) := rfl

instance lawful_bodyRest (unit : UnitKind) (part : BodyPart) : Lawful (bodyRest levels unit part) := by
  refine @lawful_bind _ _ _ _ lawful_get fun s => ?_
  have : Lawful (report .lateBlock) := lawful_report rfl
  have : Lawful (report (.stray s.text)) := lawful_report rfl
  split
  · infer_instance
  · refine @lawful_ite _ _ _ _ _ inferInstance (@lawful_ite _ _ _ _ _ inferInstance ?_)
    split <;> infer_instance

instance lawful_bodyTurn (unit : UnitKind) : Lawful (bodyTurn levels unit) := by
  rw [bodyTurn_eq]
  infer_instance

instance lawful_body (unit : UnitKind) : Lawful (body levels unit) := by
  unfold body
  infer_instance

instance lawful_unitName : Lawful unitName := by
  unfold unitName
  infer_instance

instance lawful_returnType? : Lawful (returnType? levels) := by
  unfold returnType?
  infer_instance

instance lawful_algorithm : Lawful (algorithm levels) := by
  unfold algorithm
  infer_instance

instance lawful_method : Lawful (method levels) := by
  unfold method
  infer_instance

instance lawful_unitTurn : Lawful (unitTurn levels) := by
  refine @lawful_bind _ _ _ _ lawful_get fun s => ?_
  split
  · infer_instance
  · split <;> infer_instance

end

end Parser

end StructuredText
