import StructuredText.Proofs.Containment
import StructuredText.Proofs.StreamEnd

/-!
# No rule sees where the stream ends

The rules that read a part of the text need a token, and do not see where the stream ends. A rule that takes a token of
any kind is run only where one is to come.
-/

namespace StructuredText.Parser

set_option synthInstance.maxSize 1024

variable {s s' : ParserState} {u u' : Span}

/-! ## Literals -/

instance blindInside_tokenLiteral (kind : LiteralKind) : BlindInside (tokenLiteral kind) := by
  unfold tokenLiteral
  infer_instance

/-- Five tokens are to come where a time of day stands. -/
theorem nearOutcome_timeOfDay (h : s.Near u u' s') (htime : s.atTimeOfDay = true) :
    NearOutcome u u' (timeOfDay s) (timeOfDay s') := by
  obtain ⟨stop, reports, rfl⟩ := h.exists_eq
  obtain ⟨source, stop, rest, lastStop, reports⟩ := s
  match rest with
  | _ :: _ :: _ :: _ :: _ :: _ => exact .ok h.advance.advance.advance.advance.advance
  | [] | [_] | [_, _] | [_, _, _] | [_, _, _, _] => cases htime

instance blind_sign : Blind sign := by
  refine blind_kind_bind (inferInstanceAs (Blind (pure none))) fun k _ => ?_
  split <;> infer_instance

instance blindInside_typedLiteral : BlindInside typedLiteral := by
  refine @blindInside_bind _ _ _ _ blindInside_take fun token => @blind_bind _ _ _ _ blind_sign fun sign => ?_
  refine blind_kind_bind (blind_fail "literal value") fun k _ => ?_
  split
  · infer_instance
  · refine @blindInside_bind _ _ _ _ (blindInside_tokenLiteral _) fun value => ?_
    dsimp only
    split
    · exact @blind_get_bind _ _ (fun _ _ _ => rfl) fun s => inferInstance
    · infer_instance

instance blind_literal : Blind literal := by
  refine blind_get_bind_at (fun _ _ _ => rfl) fun {u u' s s'} h => ?_
  have hin : s.kind ≠ .eof → s.rest ≠ [] := ParserState.rest_ne_nil
  generalize s.kind = k at hin
  split
  · exact blindInside_typedLiteral.outcome h (hin (by decide))
  · split
    · next htime => exact nearOutcome_timeOfDay h htime
    · cases hkind : LiteralKind.ofToken? k with
      | some kind =>
        refine (blindInside_tokenLiteral kind).outcome h (hin fun hk => ?_)
        rw [hk] at hkind
        cases hkind
      | none => exact (blind_fail "literal").outcome h

/-! ## Expressions -/

instance needsToken_ident (what : String) : NeedsToken (ident what) := needsToken_sees (by decide)

instance blind_ident (what : String) : Blind (ident what) := blind_sees_bind (by decide)

instance blind_qualifiedName (what : String) : Blind (qualifiedName what) := by
  unfold qualifiedName
  infer_instance

section

variable {operand : Parser Expr}

instance needsToken_binaryTier (tier : BinaryTier) [NeedsToken operand] : NeedsToken (binaryTier tier operand) := by
  rw [binaryTier_eq]
  infer_instance

instance blind_binaryTier (tier : BinaryTier) [Blind operand] : Blind (binaryTier tier operand) := by
  have (left : Expr) : Blind (tierTurn tier operand left) := by
    refine @blind_bind _ _ _ _ blind_kind fun k => ?_
    split <;> infer_instance
  rw [binaryTier_eq]
  infer_instance

end

section

variable {unary : Parser Expr}

instance needsToken_boundOf [NeedsToken unary] : NeedsToken (boundOf unary) := by
  unfold boundOf
  infer_instance

instance needsToken_exprOf [NeedsToken unary] : NeedsToken (exprOf unary) := by
  unfold exprOf
  infer_instance

variable [hu : Blind unary]

instance blind_boundOf : Blind (boundOf unary) := by
  unfold boundOf
  infer_instance

instance blind_exprOf : Blind (exprOf unary) := by
  unfold exprOf
  infer_instance

instance blind_parenthesized : Blind (parenthesized unary) := by
  unfold parenthesized
  infer_instance

instance blind_indices : Blind (indices unary) := by
  unfold indices
  infer_instance

instance blindInside_output (start : Nat) (negated : Bool) : BlindInside (arg.output unary start negated) := by
  unfold arg.output
  infer_instance

instance blind_arg : Blind (arg unary) := by
  refine blind_get_bind_at ?_ fun {u u' s s'} h => ?_
  · rintro ⟨source, stop, rest, lastStop, reports⟩ _ _
    cases rest <;> rfl
  have hin : s.kind ≠ .eof → s.rest ≠ [] := ParserState.rest_ne_nil
  have hin₁ : s.kindAt 1 ≠ .eof → s.advance.rest ≠ [] := by
    rw [ParserState.kindAt_one]
    exact ParserState.rest_ne_nil
  generalize s.kind = k at hin
  generalize s.kindAt 1 = k₁ at hin₁
  generalize s.kindAt 2 = k₂
  have hinput : BlindInside (do
      let param ← take
      skip
      let value ← exprOf unary
      return Arg.input param value (← spanFrom s.span.start)) := inferInstance
  split
  · exact (blindInside_output _ _).outcome h.advance (hin₁ (by decide))
  · exact (blindInside_output _ _).outcome h (hin (by decide))
  · exact hinput.outcome h (hin (by decide))
  · exact (inferInstance : Blind (do return Arg.positional (← exprOf unary))).outcome h

instance blind_args : Blind (args unary) := by
  unfold args
  infer_instance

end

/-- The rule one level deeper does not see the end, if there is one. -/
class BlindDeeper (deeper : Option (Parser α)) : Prop where
  of_mem : ∀ p ∈ deeper, Blind p

instance blindDeeper_none : BlindDeeper (none : Option (Parser α)) := ⟨by simp⟩

instance blindDeeper_some {p : Parser α} [hp : Blind p] : BlindDeeper (some p) := ⟨by simpa using hp⟩

theorem blind_deeper {what : String} {deeper : Option (Parser α)} [hd : BlindDeeper deeper]
    {rule : Parser α → Parser β} (h : ∀ p, Blind p → Blind (rule p)) : Blind (nested what deeper rule) :=
  blind_nested fun p hp => h p (hd.of_mem p hp)

instance blind_nested_id {what : String} {deeper : Option (Parser α)} [BlindDeeper deeper] :
    Blind (nested what deeper id) :=
  blind_deeper fun _ h => h

section

variable {deeper : Option (Parser Expr)}

instance needsToken_primary : NeedsToken (primary deeper) := by
  constructor
  intro s hr
  have hfail : primary deeper s = (fail "expression" : Parser Expr) s := by
    rw [primary, bind_of_ok (get_apply s), ParserState.kind_of_nil hr]
    rfl
  rw [hfail, fail_of_nil hr]
  exact ⟨_, _, rfl⟩

instance needsToken_accessOf [LawfulDeeper deeper] : NeedsToken (accessOf deeper) := by
  unfold accessOf
  infer_instance

instance needsToken_unaryOf [LawfulDeeper deeper] : NeedsToken (unaryOf deeper) := by
  constructor
  intro s hr
  have haccess : unaryOf deeper s = accessOf deeper s := by
    rw [unaryOf, bind_of_ok (kind_apply s), ParserState.kind_of_nil hr]
    rfl
  rw [haccess]
  exact needsToken_accessOf.error hr

variable [hd : BlindDeeper deeper]

instance blind_nested_parenthesized : Blind (nested "expression" deeper parenthesized) :=
  blind_deeper fun _ _ => inferInstance

instance blind_nested_indices : Blind (nested "expression" deeper indices) := blind_deeper fun _ _ => inferInstance

instance blind_nested_args : Blind (nested "expression" deeper args) := blind_deeper fun _ _ => inferInstance

/-- Two tokens are to come where a value of an enumeration stands. -/
theorem nearOutcome_enumerated (h : s.Near u u' s') (hk : s.kindAt 1 = .ident) :
    let enumerated : Parser Expr := do
      let type ← take
      let value ← take
      return .name ⟨type.text ++ value.text, type.span.cover value.span⟩
    NearOutcome u u' (enumerated s) (enumerated s') := by
  obtain ⟨stop, reports, rfl⟩ := h.exists_eq
  obtain ⟨source, stop, rest, lastStop, reports⟩ := s
  match rest with
  | _ :: _ :: _ => exact .ok h.advance.advance
  | [] | [_] => cases hk

instance blind_primary : Blind (primary deeper) := by
  refine blind_get_bind_at ?_ fun {u u' s s'} h => ?_
  · rintro ⟨source, stop, rest, lastStop, reports⟩ _ _
    cases rest <;> rfl
  have hin : s.kind ≠ .eof → s.rest ≠ [] := ParserState.rest_ne_nil
  have hparen (start : Nat) : Blind (nested "expression" deeper fun unary => do
      let inner ← parenthesized unary
      return Expr.paren inner (← spanFrom start)) :=
    blind_deeper fun _ _ => inferInstance
  have hliteral : Blind (do return Expr.literal (← literal)) := inferInstance
  generalize s.kind = k at hin
  split
  · exact (hparen _).outcome h
  · exact (inferInstance : Blind (do return Expr.name (← qualifiedName "name"))).outcome h
  · exact (inferInstance : BlindInside (do return Expr.this (← take).span)).outcome h (hin (by decide))
  · exact (inferInstance : BlindInside (do return Expr.super (← take).span)).outcome h (hin (by decide))
  · split
    · next hk => exact nearOutcome_enumerated h hk.1
    · exact hliteral.outcome h
  · split
    · exact hliteral.outcome h
    · exact (blind_fail "expression").outcome h

instance blind_selection (receiver : Expr) (start : Nat) : Blind (selection deeper receiver start) := by
  refine blind_kind_bind (blind_fail "member name") fun k _ => ?_
  split
  iterate 2 infer_instance
  · refine @blindInside_bind _ _ _ _ inferInstance fun _ => ?_
    refine blind_kind_bind (blind_fail "partial access index") fun k _ => ?_
    split <;> infer_instance
  · infer_instance

instance blind_suffix? (start : Nat) (receiver : Expr) : Blind (suffix? deeper start receiver) := by
  refine @blind_bind _ _ _ _ blind_kind fun k => ?_
  split <;> infer_instance

instance blind_accessOf : Blind (accessOf deeper) := by
  unfold accessOf
  infer_instance

instance blind_unaryOf : Blind (unaryOf deeper) := by
  refine blind_kind_bind blind_accessOf fun k _ => ?_
  split <;> infer_instance

end

instance blind_unary (levels : Nat) : Blind (unary levels) := by
  induction levels with
  | zero => exact blind_unaryOf
  | succ levels ih => exact blind_unaryOf

instance needsToken_unary (levels : Nat) : NeedsToken (unary levels) := by
  cases levels with
  | zero => exact needsToken_unaryOf
  | succ levels => exact needsToken_unaryOf

instance blind_expr (levels : Nat) : Blind (expr levels) := blind_exprOf

instance blind_bound (levels : Nat) : Blind (bound levels) := blind_boundOf

instance needsToken_expr (levels : Nat) : NeedsToken (expr levels) := needsToken_exprOf

instance needsToken_bound (levels : Nat) : NeedsToken (bound levels) := needsToken_boundOf

/-! ## Statements -/

/-- The rules of the level do not see the end. -/
class Level.Blind (level : Level) : Prop where
  unary : Parser.Blind level.unary
  statement : Parser.Blind level.statement
  needsToken : NeedsToken level.unary

attribute [instance] Level.Blind.unary Level.Blind.statement Level.Blind.needsToken

section

variable {statement : Parser Stmt} [hst : Blind statement]

theorem blind_statementTurn {stops : ParserState → Bool}
    (hstops : ∀ s stop reports, stops { s with stop := stop, reports := reports } = stops s) :
    Blind (statementTurn statement stops) := by
  refine @blind_get_bind _ _ (fun s stop reports => ?_) fun _ => inferInstance
  rw [hstops]
  rfl

instance blind_statementList : Blind (statementList statement) := by
  have := @blind_statementTurn statement _ (fun _ => false) fun _ _ _ => rfl
  unfold statementList statementsUntil
  infer_instance

instance blind_caseStatements : Blind (statementsUntil statement ParserState.atCaseLabel) := by
  have := @blind_statementTurn statement _ ParserState.atCaseLabel fun _ _ _ => rfl
  unfold statementsUntil
  infer_instance

end

instance blind_blockSpan (start : Nat) : Blind (blockSpan start) := by
  unfold blockSpan
  infer_instance

section

variable {level : Level} [hl : level.Blind]

instance blind_elseBody : Blind (elseBody level) := by
  unfold elseBody
  infer_instance

instance blind_elsifTurn : Blind (elsifTurn level) := blind_sees_bind (by decide)

instance blindInside_ifStatement : BlindInside (ifStatement level) := by
  unfold ifStatement
  infer_instance

instance blind_caseArm : Blind (caseArm level) := by
  unfold caseArm
  infer_instance

instance blind_caseArmTurn : Blind (caseArmTurn level) :=
  @blind_get_bind _ _ (fun _ _ _ => rfl) fun _ => inferInstance

instance blind_caseArms (start : Nat) (selector : Expr) : Blind (caseArms level start selector) := by
  unfold caseArms
  infer_instance

instance blind_caseBody (start : Nat) (selector : Expr) : Blind (caseBody level start selector) := by
  refine @blind_bind _ _ _ _ blind_kind fun k => ?_
  dsimp only
  split <;> infer_instance

instance blindInside_caseStatement : BlindInside (caseStatement level) := by
  rw [caseStatement_eq]
  infer_instance

instance blind_step : Blind (forStatement.step level) := by
  unfold forStatement.step
  infer_instance

instance blindInside_forStatement : BlindInside (forStatement level) := by
  unfold forStatement
  infer_instance

instance blindInside_whileStatement : BlindInside (whileStatement level) := by
  unfold whileStatement
  infer_instance

instance blindInside_repeatStatement : BlindInside (repeatStatement level) := by
  unfold repeatStatement
  infer_instance

end

instance blindInside_keywordStatement (make : Span → Stmt) : BlindInside (keywordStatement make) := by
  unfold keywordStatement
  infer_instance

/-- The rules one level deeper do not see the end, if there are any. -/
class BlindLevel (deeper : Option Level) : Prop where
  of_mem : ∀ level ∈ deeper, Level.Blind level

section

variable {deeper : Option Level} [hd : BlindLevel deeper]

instance blindDeeper_map_unary : BlindDeeper (deeper.map Level.unary) := by
  constructor
  simp only [Option.mem_def, Option.map_eq_some_iff, forall_exists_index, and_imp, forall_apply_eq_imp_iff₂]
  exact fun level h => (hd.of_mem level h).unary

instance blindInside_assignmentOrCall : BlindInside (assignmentOrCall deeper) := by
  unfold assignmentOrCall
  infer_instance

instance blind_statementOf : Blind (statementOf deeper) := by
  have hn {rule : Level → Parser Stmt} (h : ∀ level, Level.Blind level → BlindInside (rule level)) :
      BlindInside (nested "statement" deeper rule) :=
    blindInside_nested fun level hl => h level (hd.of_mem level hl)
  refine blind_kind_bind (blind_fail "statement") fun k _ => ?_
  split
  iterate 5 exact hn fun _ _ => inferInstance
  all_goals infer_instance

end

instance blind_statement (levels : Nat) : Blind (statement levels) := by
  induction levels with
  | zero =>
    have : BlindLevel none := ⟨by simp⟩
    exact blind_statementOf
  | succ levels ih =>
    have : (levelAt levels).Blind := ⟨blind_unary levels, ih, needsToken_unary levels⟩
    have : BlindLevel (some (levelAt levels)) := ⟨by simpa using this⟩
    show Blind (statementOf (some (levelAt levels)))
    exact blind_statementOf

instance blind_statements (levels : Nat) : Blind (statements levels) := blind_statementList

/-! ## Declarations -/

instance blind_typeRefOf {deeper : Option (Parser TypeRef)} [BlindDeeper deeper] : Blind (typeRefOf deeper) := by
  refine blind_kind_bind (blind_fail "type name") fun k _ => ?_
  split <;> infer_instance

instance blind_typeRef (levels : Nat) : Blind (typeRef levels) := by
  induction levels with
  | zero => exact blind_typeRefOf
  | succ levels ih => exact blind_typeRefOf

instance blind_listUpTo (close : TokenKind) {item : Parser α} [Blind item] : Blind (listUpTo close item) := by
  unfold listUpTo
  infer_instance

section

variable {initializer : Parser Initializer} [hi : Blind initializer]

instance blind_arrayElement : Blind (arrayElement initializer) := by
  refine @blind_get_bind _ _ ?_ fun s => inferInstance
  rintro ⟨source, stop, rest, lastStop, reports⟩ _ _
  cases rest <;> rfl

instance blindInside_arrayInitializer : BlindInside (arrayInitializer initializer) := by
  unfold arrayInitializer
  infer_instance

instance blind_fieldInit : Blind (fieldInit initializer) := by
  unfold fieldInit
  infer_instance

instance blindInside_recordInitializer : BlindInside (recordInitializer initializer) := by
  unfold recordInitializer
  infer_instance

end

section

variable {expr : Parser Expr} {deeper : Option (Parser Initializer)}

instance needsToken_initializerOf [he : NeedsToken expr] : NeedsToken (initializerOf expr deeper) := by
  constructor
  intro s hr
  have hvalue : initializerOf expr deeper s = (do return Initializer.value (← expr)) s := by
    rw [initializerOf, bind_of_ok (get_apply s), ParserState.kind_of_nil hr]
  rw [hvalue]
  exact needsToken_bind.error hr

instance blind_initializerOf [Blind expr] [hd : BlindDeeper deeper] : Blind (initializerOf expr deeper) := by
  have hn {rule : Parser Initializer → Parser Initializer} (h : ∀ p, Blind p → BlindInside (rule p)) :
      BlindInside (nested "initializer" deeper rule) :=
    blindInside_nested fun p hp => h p (hd.of_mem p hp)
  refine blind_get_bind_at (fun _ _ _ => rfl) fun {u u' s s'} h => ?_
  have hin : s.kind ≠ .eof → s.rest ≠ [] := ParserState.rest_ne_nil
  generalize s.kind = k at hin
  generalize s.kindAt 1 = k₁
  generalize s.kindAt 2 = k₂
  split
  · exact (hn fun _ _ => inferInstance).outcome h (hin (by decide))
  · exact (hn fun _ _ => inferInstance).outcome h (hin (by decide))
  · exact (inferInstance : Blind (do return Initializer.value (← expr))).outcome h

end

instance blind_initializer (levels : Nat) : Blind (initializer levels) := by
  induction levels with
  | zero => exact blind_initializerOf
  | succ levels ih => exact blind_initializerOf

instance needsToken_initializer (levels : Nat) : NeedsToken (initializer levels) := by
  cases levels with
  | zero => exact needsToken_initializerOf
  | succ levels => exact needsToken_initializerOf

section

variable (levels : Nat)

instance blind_arrayBounds : Blind (arrayBounds levels) := by
  unfold arrayBounds
  infer_instance

instance blind_arrayDimensions : Blind (arrayDimensions levels) := by
  unfold arrayDimensions
  infer_instance

instance blind_arrayShape? : Blind (arrayShape? levels) := by
  unfold arrayShape?
  infer_instance

instance blind_location? : Blind location? := by
  unfold location?
  infer_instance

instance blind_maxLength? : Blind (maxLength? levels) := by
  unfold maxLength?
  infer_instance

instance blind_initial? : Blind (initial? levels) := by
  unfold initial?
  infer_instance

instance blind_expectDeclEnd : Blind expectDeclEnd := by
  have : Blind (do
      if (← get).atDeclEnd then missing TokenKind.semicolon.spelling else fail TokenKind.semicolon.spelling) :=
    @blind_get_bind _ _ (fun _ _ _ => rfl) fun s => inferInstance
  unfold expectDeclEnd
  infer_instance

instance blind_varDecl : Blind (varDecl levels) := by
  unfold varDecl
  infer_instance

instance blind_skipDecl : Blind skipDecl := blind_skipTo _

instance blind_varDeclTurn : Blind (varDeclTurn levels) := by
  refine @blind_get_bind _ _ (fun _ _ _ => rfl) fun s => ?_
  cases s.rest <;> exact inferInstance

instance blind_blockKind (span : Span) (k : TokenKind) : Blind (blockKind span k) := by
  unfold blockKind
  split <;> infer_instance

instance blind_blockRest (start : Nat) (kind : BlockKind) : Blind (blockRest levels start kind) := by
  unfold blockRest
  infer_instance

instance blindInside_varBlock (unit : UnitKind) : BlindInside (varBlock levels unit) := by
  constructor
  intro u u' s s' h hr
  rw [varBlock_eq, bind_of_ok (get_apply s), bind_of_ok (get_apply s'), ← h.kind, ← h.span_eq hr]
  have : Blind (do
      skip
      let kind ← blockKind s.span s.kind
      if unit = .algorithm ∧ kind ≠ .temp then do
        reportAt s.span (.blockInAlgorithm kind)
        blockRest levels s.span.start kind
      else blockRest levels s.span.start kind) := inferInstance
  exact this.outcome h

/-! ## Units -/

instance blind_leadingBlockTurn (unit : UnitKind) : Blind (leadingBlockTurn levels unit) :=
  blind_kind_bind (inferInstanceAs (Blind (pure _))) fun _ _ => inferInstance

instance blind_bodyRest (unit : UnitKind) (part : BodyPart) : Blind (bodyRest levels unit part) := by
  refine blind_get_bind_at (fun _ _ _ => rfl) fun {u u' s s'} h => ?_
  cases hr : s.rest with
  | nil => exact (blind_fail _).outcome h
  | cons t ts =>
    refine (?_ : BlindInside _).outcome h (by simp [hr])
    refine @blindInside_ite _ _ _ _ _ inferInstance (@blindInside_ite _ _ _ _ _ inferInstance ?_)
    split <;> infer_instance

instance blind_bodyTurn (unit : UnitKind) : Blind (bodyTurn levels unit) := by
  rw [bodyTurn_eq]
  infer_instance

instance blind_body (unit : UnitKind) : Blind (body levels unit) := by
  unfold body
  infer_instance

instance blind_unitName : Blind unitName := by
  have : Blind (do
      if ← atEnd then fail "name"
      else
        missing "name"
        return Name.mk "" (.empty (← offset))) := blind_atEnd_bind
  exact blind_sees_bind (by decide)

instance blind_returnType? : Blind (returnType? levels) := by
  unfold returnType?
  infer_instance

instance blindInside_algorithm : BlindInside (algorithm levels) := by
  unfold algorithm
  infer_instance

instance blindInside_method : BlindInside (method levels) := by
  unfold method
  infer_instance

instance blind_unitTurn : Blind (unitTurn levels) := by
  have : Blind (skipWhile fun s => s.kind != .kwAlgorithm && s.kind != .kwMethod) := blind_skipWhile fun _ _ _ => rfl
  refine blind_get_bind_at (fun _ _ _ => rfl) fun {u u' s s'} h => ?_
  cases hr : s.rest with
  | nil => exact (blind_pure _).outcome h
  | cons t ts =>
    refine (?_ : BlindInside _).outcome h (by simp [hr])
    dsimp only
    split <;> infer_instance

/-! ## Roots -/

/-- Where no token is to come, there is no unit. -/
theorem sourceFile_of_nil (h : s.rest = []) : sourceFile levels s = .ok ⟨[], s.endSpan⟩ s := by
  have hturn : unitTurn levels s = .ok (.last []) s := by
    rw [unitTurn, bind_of_ok (get_apply s), h]
    rfl
  rw [sourceFile, bind_of_ok (offset_apply s), bind_of_ok (Turns.done.collect hturn),
    bind_of_ok (spanFrom_apply s.span.start s), ParserState.spanFrom_of_end h]
  rfl

/-- Where no token is to come, there is no statement. -/
theorem statementRoot_of_nil (h : s.rest = []) : statementRoot levels s = .ok ⟨[], s.endSpan⟩ s := by
  have hlist : statements levels s = .ok [] s := Turns.done.collect (listTurn_of_nil h)
  have hturn : statementsTurn levels s = .ok (.last []) s := by
    rw [statementsTurn, bind_of_ok hlist, bind_of_ok (get_apply s), h]
    rfl
  rw [statementRoot, bind_of_ok (offset_apply s), bind_of_ok (Turns.done.collect hturn),
    bind_of_ok (spanFrom_apply s.span.start s), ParserState.spanFrom_of_end h]
  rfl

instance blindInside_sourceFile : BlindInside (sourceFile levels) := by
  unfold sourceFile
  infer_instance

instance blind_statementsTurn : Blind (statementsTurn levels) := by
  refine @blind_bind _ _ _ _ (blind_statements levels) fun sts => ?_
  refine @blind_get_bind _ _ (fun _ _ _ => rfl) fun s => ?_
  cases s.rest <;> exact inferInstance

instance blindInside_statementRoot : BlindInside (statementRoot levels) := by
  unfold statementRoot
  infer_instance

instance blind_algorithmRoot : Blind (algorithmRoot levels) := blind_sees_bind (by decide)

instance blind_methodRoot : Blind (methodRoot levels) := blind_sees_bind (by decide)

instance blind_expressionRoot : Blind (expressionRoot levels) := by
  unfold expressionRoot
  infer_instance

instance blind_target? : Blind target? := by
  refine blind_get_bind_at (fun _ _ _ => rfl) fun {u u' s s'} h => ?_
  have hin : s.kind ≠ .eof → s.rest ≠ [] := ParserState.rest_ne_nil
  split
  · next hk =>
    have : BlindInside (do
        let name ← take
        skip
        return some name) := inferInstance
    exact this.outcome h (hin (by rw [hk.1]; decide))
  · exact (blind_pure _).outcome h

instance blind_initializerRoot : Blind (initializerRoot levels) := by
  unfold initializerRoot
  infer_instance

end

end StructuredText.Parser
