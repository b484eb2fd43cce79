import StructuredText.Proofs.Complete.Decl
import StructuredText.Proofs.Spared

/-!
# No rule inside a unit takes the word that opens the next one

The rules for literals, expressions, statements, declarations and bodies are sparing. A rule that takes its first token
unseen is run only where the caller has seen it, and spares units there: in front of a bracket (`spares_parenthesized`),
of the word of a statement (`spares_ifStatement`) or of a block (`spares_varBlock`).
-/

namespace StructuredText.Parser

variable {s : ParserState}

theorem opensUnit_eq_false_of_op {k : TokenKind} {op : BinaryOp} (h : BinaryOp.ofToken? k = some op) :
    k.opensUnit = false :=
  TokenKind.opensUnit_eq_false (P := fun k => BinaryOp.ofToken? k = some op) h nofun nofun

theorem opensUnit_eq_false_of_unaryOp {k : TokenKind} {op : UnaryOp} (h : UnaryOp.ofToken? k = some op) :
    k.opensUnit = false :=
  TokenKind.opensUnit_eq_false (P := fun k => UnaryOp.ofToken? k = some op) h nofun nofun

theorem opensUnit_eq_false_of_literal {k : TokenKind} {kind : LiteralKind} (h : LiteralKind.ofToken? k = some kind) :
    k.opensUnit = false :=
  TokenKind.opensUnit_eq_false (P := fun k => LiteralKind.ofToken? k = some kind) h nofun nofun

/-! ## Literals -/

theorem spares_tokenLiteral {kind : LiteralKind} (h : s.kind.opensUnit = false) : Spares (tokenLiteral kind) s :=
  (Spares.take h).then

theorem spares_timeOfDay (h : s.atTimeOfDay = true) : Spares timeOfDay s := by
  obtain ⟨a, b, c, d, e, x, hr, h⟩ := atTimeOfDay_iff.1 h
  have h₁ := ParserState.advance_rest_of_cons hr
  have h₂ := ParserState.advance_rest_of_cons h₁
  have h₃ := ParserState.advance_rest_of_cons h₂
  have h₄ := ParserState.advance_rest_of_cons h₃
  refine .take_bind (by rw [ParserState.kind_of_cons hr, h.hours]) fun _ => ?_
  refine .take_bind (by rw [ParserState.kind_of_cons h₁, h.colon]) fun _ => ?_
  refine .take_bind (by rw [ParserState.kind_of_cons h₂, h.minutes]) fun _ => ?_
  refine .take_bind (by rw [ParserState.kind_of_cons h₃, h.colon']) fun _ => ?_
  refine .take_bind ?_ fun _ => Sparing.spares _
  rw [ParserState.kind_of_cons h₄]
  rcases h.seconds with he | he <;> rw [he]

instance sparing_sign : Sparing sign := by
  constructor
  intro s
  refine .kind ?_
  split
  iterate 2
    · next hk => exact (Spares.take (by rw [hk])).then
  · exact Sparing.spares s

theorem spares_typedLiteral (h : s.kind = .typedLiteralPrefix) : Spares typedLiteral s := by
  refine .take_bind (by rw [h]) fun token => ?_
  refine Spares.bind (Sparing.spares _) fun sign s₁ _ => .kind ?_
  split
  · exact Sparing.spares s₁
  · next kind hk =>
    refine (spares_tokenLiteral (opensUnit_eq_false_of_literal hk)).bind fun value s₂ _ => ?_
    dsimp only
    split <;> exact Sparing.spares s₂

instance sparing_literal : Sparing literal := by
  constructor
  intro s
  refine .get ?_
  split
  · next hk => exact spares_typedLiteral hk
  · split
    · next h => exact spares_timeOfDay h
    · split
      · next hk => exact spares_tokenLiteral (opensUnit_eq_false_of_literal hk)
      · exact Sparing.spares s

/-! ## Expressions -/

instance sparing_ident (what : String) : Sparing (ident what) :=
  ⟨fun s => .sees (fun h => .take (by rw [h])) (Sparing.spares s)⟩

instance sparing_qualifiedName (what : String) : Sparing (qualifiedName what) := by
  unfold qualifiedName
  infer_instance

instance sparing_tierTurn (tier : BinaryTier) {operand : Parser Expr} [Sparing operand] (left : Expr) :
    Sparing (tierTurn tier operand left) := by
  constructor
  intro s
  refine .kind ?_
  split
  · next op h =>
    obtain ⟨h, -⟩ := BinaryTier.op?_eq_some_iff.1 h
    exact (Spares.skip (opensUnit_eq_false_of_op h)).then
  · exact Sparing.spares s

instance sparing_binaryTier (tier : BinaryTier) {operand : Parser Expr} [Sparing operand] :
    Sparing (binaryTier tier operand) := by
  rw [binaryTier_eq]
  infer_instance

section

variable {unary : Parser Expr} [hu : Sparing unary]

instance sparing_boundOf : Sparing (boundOf unary) := by
  unfold boundOf
  infer_instance

instance sparing_exprOf : Sparing (exprOf unary) := by
  unfold exprOf
  infer_instance

theorem spares_parenthesized (h : s.kind = .lParen) : Spares (parenthesized unary) s :=
  (Spares.skip (by rw [h])).then

theorem spares_indices (h : s.kind = .lBracket) : Spares (indices unary) s :=
  (Spares.skip (by rw [h])).then

theorem spares_output {start : Nat} {negated : Bool} (h : s.kind = .ident) (h₁ : s.advance.kind = .arrow) :
    Spares (arg.output unary start negated) s :=
  .take_bind (by rw [h]) fun _ => (Spares.skip (by rw [h₁])).then

instance sparing_arg : Sparing (arg unary) := by
  constructor
  intro s
  refine .get ?_
  dsimp only
  split
  · next h h₁ h₂ =>
    rw [ParserState.kindAt_one] at h₁
    rw [ParserState.kindAt_two] at h₂
    exact .skip_bind (by rw [h]) (spares_output h₁ h₂)
  · next h h₁ =>
    rw [ParserState.kindAt_one] at h₁
    exact spares_output h h₁
  · next h h₁ =>
    rw [ParserState.kindAt_one] at h₁
    exact .take_bind (by rw [h]) fun _ => (Spares.skip (by rw [h₁])).then
  · exact Sparing.spares s

theorem spares_args (h : s.kind = .lParen) : Spares (args unary) s :=
  (Spares.skip (by rw [h])).then

end

/-- The rule one level deeper is sparing, if there is one. -/
class SparingDeeper (deeper : Option (Parser α)) : Prop where
  of_mem : ∀ p ∈ deeper, Sparing p

instance sparingDeeper_none : SparingDeeper (none : Option (Parser α)) := ⟨by simp⟩

instance sparingDeeper_some {p : Parser α} [hp : Sparing p] : SparingDeeper (some p) := ⟨by simpa using hp⟩

theorem spares_deeper {what : String} {deeper : Option (Parser α)} [hd : SparingDeeper deeper]
    {rule : Parser α → Parser β} (h : ∀ p, Sparing p → Spares (rule p) s) : Spares (nested what deeper rule) s :=
  .nested fun p hp => h p (hd.of_mem p hp)

instance sparing_nested_id {what : String} {deeper : Option (Parser α)} [SparingDeeper deeper] :
    Sparing (nested what deeper id) :=
  ⟨fun s => spares_deeper fun _ h => h.spares s⟩

section

variable {deeper : Option (Parser Expr)} [hd : SparingDeeper deeper]

instance sparing_primary : Sparing (primary deeper) := by
  constructor
  intro s
  refine .get ?_
  dsimp only
  split
  · next h => exact spares_deeper fun unary _ => (spares_parenthesized h).then
  · exact Sparing.spares s
  iterate 2
    · next h => exact (Spares.take (by rw [h])).then
  · next h =>
    split
    · next h₁ =>
      obtain ⟨h₁, -⟩ := h₁
      rw [ParserState.kindAt_one] at h₁
      exact .take_bind (by rw [h]) fun _ => (Spares.take (by rw [h₁])).then
    · exact Sparing.spares s
  · split <;> exact Sparing.spares s

instance sparing_selection (receiver : Expr) (start : Nat) : Sparing (selection deeper receiver start) := by
  constructor
  intro s
  refine .kind ?_
  split
  iterate 2
    · next h => exact (Spares.take (by rw [h])).then
  · next h =>
    refine .skip_bind (by rw [h]) (.kind ?_)
    split
    · next h => exact (Spares.take (by rw [h])).then
    · next h =>
      have hn : Spares (nested "expression" deeper parenthesized) s.advance :=
        spares_deeper fun _ _ => spares_parenthesized h
      exact hn.then
    · exact Sparing.spares s.advance
  · exact Sparing.spares s

instance sparing_suffix? (start : Nat) (receiver : Expr) : Sparing (suffix? deeper start receiver) := by
  constructor
  intro s
  refine .kind ?_
  split
  · next h => exact (Spares.skip (by rw [h])).then
  · next h =>
    have hn : Spares (nested "expression" deeper indices) s := spares_deeper fun _ _ => spares_indices h
    exact hn.then
  · next h =>
    split
    · have hn : Spares (nested "expression" deeper args) s := spares_deeper fun _ _ => spares_args h
      exact hn.then
    · exact Sparing.spares s
  · exact Sparing.spares s

instance sparing_accessOf : Sparing (accessOf deeper) := by
  unfold accessOf
  infer_instance

instance sparing_unaryOf : Sparing (unaryOf deeper) := by
  constructor
  intro s
  refine .kind ?_
  split
  · next op h => exact .offset (Spares.skip (opensUnit_eq_false_of_unaryOp h)).then
  · exact Sparing.spares s

end

instance sparing_unary (levels : Nat) : Sparing (unary levels) := by
  induction levels with
  | zero => exact sparing_unaryOf
  | succ levels ih => exact sparing_unaryOf

instance sparingDeeper_deeperUnary (levels : Nat) : SparingDeeper (deeperUnary levels) := by
  cases levels with
  | zero => exact sparingDeeper_none
  | succ levels => exact sparingDeeper_some

instance sparing_expr (levels : Nat) : Sparing (expr levels) := sparing_exprOf

instance sparing_bound (levels : Nat) : Sparing (bound levels) := sparing_boundOf

/-! ## Statements -/

/-- The rules of the level are sparing. -/
class Level.Sparing (level : Level) : Prop where
  unary : Parser.Sparing level.unary
  statement : Parser.Sparing level.statement

attribute [instance] Level.Sparing.unary Level.Sparing.statement

theorem opensUnit_eq_false_of_endsStatements {k : TokenKind} (h : k.endsStatements = false) : k.opensUnit = false :=
  TokenKind.opensUnit_eq_false (P := fun k => k.endsStatements = false) h nofun nofun

section

variable {statement : Parser Stmt} [hs : Sparing statement]

instance sparing_statementTurn (stops : ParserState → Bool) : Sparing (statementTurn statement stops) := by
  constructor
  intro s
  refine .get ?_
  split
  · exact Sparing.spares s
  · next h =>
    simp only [Bool.or_eq_true, not_or, Bool.not_eq_true] at h
    exact .recovering (opensUnit_eq_false_of_endsStatements h.1.2)

instance sparing_statementsUntil (stops : ParserState → Bool) : Sparing (statementsUntil statement stops) := by
  unfold statementsUntil
  infer_instance

instance sparing_statementList : Sparing (statementList statement) := by
  unfold statementList
  infer_instance

end

instance sparing_blockSpan (start : Nat) : Sparing (blockSpan start) := by
  unfold blockSpan
  infer_instance

section

variable {level : Level} [hl : level.Sparing]

instance sparing_elseBody : Sparing (elseBody level) := by
  unfold elseBody
  infer_instance

set_option synthInstance.maxSize 512 in
instance sparing_elsifTurn : Sparing (elsifTurn level) :=
  ⟨fun s => .sees (fun h => .offset (Spares.skip (by rw [h])).then) (Sparing.spares s)⟩

set_option synthInstance.maxSize 512 in
theorem spares_ifStatement (h : s.kind = .kwIf) : Spares (ifStatement level) s :=
  .offset (Spares.skip (by rw [h])).then

instance sparing_caseArm : Sparing (caseArm level) := by
  unfold caseArm
  infer_instance

instance sparing_caseArmTurn : Sparing (caseArmTurn level) := by
  constructor
  intro s
  refine .get ?_
  split
  · exact Sparing.spares s
  · next h =>
    simp only [Bool.or_eq_true, not_or, Bool.not_eq_true] at h
    exact .recovering (opensUnit_eq_false_of_endsStatements h.2)

instance sparing_caseArms (start : Nat) (selector : Expr) : Sparing (caseArms level start selector) := by
  unfold caseArms
  infer_instance

instance sparing_caseBody (start : Nat) (selector : Expr) : Sparing (caseBody level start selector) := by
  constructor
  intro s
  refine .kind ?_
  dsimp only
  split <;> exact Sparing.spares s

theorem spares_caseStatement (h : s.kind = .kwCase) : Spares (caseStatement level) s := by
  rw [caseStatement_eq]
  exact .offset (Spares.skip (by rw [h])).then

instance sparing_step : Sparing (forStatement.step level) := by
  unfold forStatement.step
  infer_instance

set_option synthInstance.maxSize 512 in
theorem spares_forStatement (h : s.kind = .kwFor) : Spares (forStatement level) s :=
  .offset (Spares.skip (by rw [h])).then

theorem spares_whileStatement (h : s.kind = .kwWhile) : Spares (whileStatement level) s :=
  .offset (Spares.skip (by rw [h])).then

theorem spares_repeatStatement (h : s.kind = .kwRepeat) : Spares (repeatStatement level) s :=
  .offset (Spares.skip (by rw [h])).then

end

theorem spares_keywordStatement {make : Span → Stmt} (h : s.kind.opensUnit = false) :
    Spares (keywordStatement make) s :=
  .offset (Spares.skip h).then

/-- The rules one level deeper are sparing, if there are any. -/
class SparingLevel (deeper : Option Level) : Prop where
  of_mem : ∀ level ∈ deeper, Level.Sparing level

section

variable {deeper : Option Level} [hd : SparingLevel deeper]

instance sparingDeeper_map_unary : SparingDeeper (deeper.map Level.unary) := by
  constructor
  simp only [Option.mem_def, Option.map_eq_some_iff, forall_exists_index, and_imp, forall_apply_eq_imp_iff₂]
  exact fun level h => (hd.of_mem level h).unary

instance sparing_assignmentOrCall : Sparing (assignmentOrCall deeper) := by
  unfold assignmentOrCall
  infer_instance

instance sparing_statementOf : Sparing (statementOf deeper) := by
  constructor
  intro s
  refine .kind ?_
  have hn {rule : Level → Parser Stmt} (h : ∀ level, Level.Sparing level → Spares (rule level) s) :
      Spares (nested "statement" deeper rule) s :=
    .nested fun level hl => h level (hd.of_mem level hl)
  split
  · next h => exact hn fun _ _ => spares_ifStatement h
  · next h => exact hn fun _ _ => spares_caseStatement h
  · next h => exact hn fun _ _ => spares_forStatement h
  · next h => exact hn fun _ _ => spares_whileStatement h
  · next h => exact hn fun _ _ => spares_repeatStatement h
  iterate 3
    · next h => exact spares_keywordStatement (by rw [h])
  · next h => exact (Spares.take (by rw [h])).then
  all_goals exact Sparing.spares s

end

instance sparingLevel_none : SparingLevel none := ⟨by simp⟩

instance sparingLevel_some {level : Level} [hl : level.Sparing] : SparingLevel (some level) := ⟨by simpa using hl⟩

instance sparing_statement (levels : Nat) : Sparing (statement levels) := by
  induction levels with
  | zero => exact sparing_statementOf
  | succ levels ih =>
    have : (levelAt levels).Sparing := ⟨sparing_unary levels, ih⟩
    show Sparing (statementOf (some (levelAt levels)))
    exact sparing_statementOf

instance sparing_statements (levels : Nat) : Sparing (statements levels) := sparing_statementList

/-! ## Declarations -/

instance sparing_typeRefOf {deeper : Option (Parser TypeRef)} [SparingDeeper deeper] :
    Sparing (typeRefOf deeper) := by
  constructor
  intro s
  refine .kind ?_
  split
  · next h => exact (Spares.take (by rw [h])).then
  · next h => exact .offset (Spares.skip (by rw [h])).then
  all_goals exact Sparing.spares s

instance sparing_typeRef (levels : Nat) : Sparing (typeRef levels) := by
  induction levels with
  | zero => exact sparing_typeRefOf
  | succ levels ih => exact sparing_typeRefOf

instance sparing_listUpTo {close : TokenKind} [IsFalse close.opensUnit] {item : Parser α} [Sparing item] :
    Sparing (listUpTo close item) := by
  unfold listUpTo
  infer_instance

section

variable {initializer : Parser Initializer} [hi : Sparing initializer]

/-- The count of an element is one token, so that the bracket behind it is known. -/
instance sparing_arrayElement : Sparing (arrayElement initializer) := by
  constructor
  intro s
  refine .get ?_
  split
  · next h =>
    obtain ⟨hc, hl⟩ := h
    rw [ParserState.kindAt_one] at hl
    obtain ⟨c, hcr, hck⟩ := ParserState.exists_of_kind hc (by decide)
    obtain ⟨l, hlr, hlk⟩ := ParserState.exists_of_kind hl (by decide)
    rw [hlr] at hcr
    refine (Sparing.spares s).bind fun count s₁ h₁ => ?_
    obtain ⟨s₂, ⟨h₂, -⟩, hr⟩ := count_complete hck hlk s hcr
    cases h₁.symm.trans h₂
    exact (Spares.skip (by rw [ParserState.kind_of_cons hr, hlk])).then
  · exact Sparing.spares s

theorem spares_arrayInitializer (h : s.kind = .lBracket) : Spares (arrayInitializer initializer) s :=
  .offset (Spares.skip (by rw [h])).then

instance sparing_fieldInit : Sparing (fieldInit initializer) := by
  unfold fieldInit
  infer_instance

theorem spares_recordInitializer (h : s.kind = .lParen) : Spares (recordInitializer initializer) s :=
  .offset (Spares.skip (by rw [h])).then

end

instance sparing_initializerOf {expr : Parser Expr} [Sparing expr] {deeper : Option (Parser Initializer)}
    [SparingDeeper deeper] : Sparing (initializerOf expr deeper) := by
  constructor
  intro s
  refine .get ?_
  split
  · next h => exact spares_deeper fun _ _ => spares_arrayInitializer h
  · next h _ _ => exact spares_deeper fun _ _ => spares_recordInitializer h
  · exact Sparing.spares s

instance sparing_initializer (levels : Nat) : Sparing (initializer levels) := by
  induction levels with
  | zero => exact sparing_initializerOf
  | succ levels ih => exact sparing_initializerOf

instance sparing_arrayBounds (levels : Nat) : Sparing (arrayBounds levels) := by
  unfold arrayBounds
  infer_instance

instance sparing_arrayDimensions (levels : Nat) : Sparing (arrayDimensions levels) := by
  unfold arrayDimensions
  infer_instance

instance sparing_arrayShape? (levels : Nat) : Sparing (arrayShape? levels) := by
  unfold arrayShape?
  infer_instance

instance sparing_location? : Sparing location? := by
  unfold location?
  infer_instance

instance sparing_maxLength? (levels : Nat) : Sparing (maxLength? levels) := by
  unfold maxLength?
  infer_instance

instance sparing_initial? (levels : Nat) : Sparing (initial? levels) := by
  unfold initial?
  infer_instance

instance sparing_expectDeclEnd : Sparing expectDeclEnd :=
  ⟨fun s => .sees (fun h => .skip (by rw [h])) (Sparing.spares s)⟩

instance sparing_varDecl (levels : Nat) : Sparing (varDecl levels) := by
  unfold varDecl
  infer_instance

instance sparing_varDeclTurn (levels : Nat) : Sparing (varDeclTurn levels) := by
  constructor
  intro s
  refine .get ?_
  split
  · exact Sparing.spares s
  · split
    · next h => exact (Spares.skip (by rw [h])).then
    · exact Sparing.spares s

instance sparing_blockKind (span : Span) (k : TokenKind) : Sparing (blockKind span k) := by
  unfold blockKind
  split <;> infer_instance

instance sparing_blockRest (levels start : Nat) (kind : BlockKind) : Sparing (blockRest levels start kind) := by
  unfold blockRest
  infer_instance

theorem spares_varBlock {levels : Nat} {unit : UnitKind} (h : s.kind.opensUnit = false) :
    Spares (varBlock levels unit) s := by
  rw [varBlock_eq]
  exact .get (Spares.skip h).then

/-! ## Units -/

section

variable {levels : Nat} {unit : UnitKind}

theorem opensUnit_eq_false_of_isVarKeyword {k : TokenKind} (h : k.isVarKeyword = true) : k.opensUnit = false :=
  TokenKind.opensUnit_eq_false (P := fun k => k.isVarKeyword = true) h nofun nofun

instance sparing_leadingBlockTurn : Sparing (leadingBlockTurn levels unit) := by
  constructor
  intro s
  refine .kind ?_
  split
  · next h => exact (spares_varBlock (opensUnit_eq_false_of_isVarKeyword h)).then
  · exact Sparing.spares s

instance sparing_bodyRest (part : BodyPart) : Sparing (bodyRest levels unit part) := by
  constructor
  intro s
  refine .get ?_
  split
  · exact Sparing.spares s
  · split
    · next h => exact (Spares.skip (by rw [h]; cases unit <;> rfl)).then
    · split
      · next h =>
        have hv : Spares (varBlock levels unit) (s.report .lateBlock s.span) :=
          spares_varBlock (opensUnit_eq_false_of_isVarKeyword h)
        exact .report_bind hv.then
      · split
        iterate 2
          · next h => exact .report_bind (Spares.skip (h ▸ rfl)).then
        iterate 2
          · exact Sparing.spares s
        · next ha hm =>
          have hk : s.kind.opensUnit = false := TokenKind.opensUnit_eq_false (P := fun k => s.kind = k) rfl ha hm
          have hskip : Spares skip (s.report (.stray s.text) s.span) := .skip hk
          exact .report_bind hskip.then

instance sparing_bodyTurn : Sparing (bodyTurn levels unit) := by
  rw [bodyTurn_eq]
  infer_instance

instance sparing_body : Sparing (body levels unit) := by
  unfold body
  infer_instance

instance sparing_unitName : Sparing unitName :=
  ⟨fun s => .sees (fun h => .take (by rw [h])) (Sparing.spares s)⟩

instance sparing_returnType? : Sparing (returnType? levels) := by
  unfold returnType?
  infer_instance

end

end StructuredText.Parser
