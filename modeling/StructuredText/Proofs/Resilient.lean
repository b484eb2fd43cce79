import StructuredText.Proofs.Lawful

/-!
# No syntax error ends a source

A rule is resilient if it does not give up because of a syntax error (`Parser.Resilient`): something is reported and
skipped instead, and the rule goes on. Lists of statements, blocks of variables and units are resilient, whatever
stands in them; a source is given up only at the end of the stream and where constructs nest too deeply.
-/

namespace StructuredText.Parser

variable {s : ParserState}

/-- At `s`, the rule does not give up because of a syntax error. -/
def Survives (p : Parser α) (s : ParserState) : Prop := ∀ s', p s ≠ .error .syntaxError s'

/-- The rule never gives up because of a syntax error. -/
class Resilient (p : Parser α) : Prop where
  survives : ∀ s, Survives p s

/-! ## Rules that never give up -/

theorem Survives.of_ok {p : Parser α} {a : α} {s' : ParserState} (h : p s = .ok a s') : Survives p s := by
  intro s₁ herror
  cases h.symm.trans herror

instance resilient_pure (a : α) : Resilient (pure a : Parser α) := ⟨fun _ => .of_ok rfl⟩

instance resilient_get : Resilient (get : Parser ParserState) := ⟨fun _ => .of_ok rfl⟩

instance resilient_kind : Resilient kind := ⟨fun _ => .of_ok rfl⟩

instance resilient_sees (k : TokenKind) : Resilient (sees k) := ⟨fun _ => .of_ok rfl⟩

instance resilient_atEnd : Resilient atEnd := ⟨fun _ => .of_ok rfl⟩

instance resilient_offset : Resilient offset := ⟨fun _ => .of_ok rfl⟩

instance resilient_spanFrom (start : Nat) : Resilient (spanFrom start) := ⟨fun _ => .of_ok rfl⟩

instance resilient_skip : Resilient skip := ⟨fun _ => .of_ok rfl⟩

instance resilient_take : Resilient take := ⟨fun _ => .of_ok rfl⟩

instance resilient_report (problem : Problem) : Resilient (report problem) := ⟨fun _ => .of_ok rfl⟩

instance resilient_reportAt (span : Span) (problem : Problem) : Resilient (reportAt span problem) :=
  ⟨fun _ => .of_ok rfl⟩

instance resilient_missing (what : String) : Resilient (missing what) := resilient_report _

instance resilient_skipWhile (p : ParserState → Bool) : Resilient (skipWhile p) := ⟨fun _ => .of_ok rfl⟩

/-! ## Rules put together -/

theorem Survives.bind {p : Parser α} {q : α → Parser β} (h : Survives p s)
    (hq : ∀ a s₁, p s = .ok a s₁ → Survives (q a) s₁) : Survives (p >>= q) s := by
  intro s' herror
  rw [bind_apply] at herror
  cases hp : p s with
  | ok a s₁ =>
    rw [hp] at herror
    exact hq a s₁ hp s' herror
  | error e s₁ =>
    rw [hp] at herror
    cases herror
    exact h s' hp

instance resilient_bind {p : Parser α} {q : α → Parser β} [hp : Resilient p] [hq : ∀ a, Resilient (q a)] :
    Resilient (p >>= q) :=
  ⟨fun s => (hp.survives s).bind fun a s₁ _ => (hq a).survives s₁⟩

instance resilient_ite {c : Prop} [Decidable c] {p q : Parser α} [hp : Resilient p] [hq : Resilient q] :
    Resilient (if c then p else q) := by
  split <;> assumption

theorem Survives.get {q : ParserState → Parser β} (h : Survives (q s) s) : Survives (MonadState.get >>= q) s := h

/-- At the end of the stream, a rule that gives up does not do so because of a syntax error. -/
theorem Survives.fail {what : String} (h : s.rest = []) : Survives (Parser.fail what : Parser α) s := by
  intro s' herror
  rw [fail_of_nil h] at herror
  cases herror

instance resilient_eat (k : TokenKind) : Resilient (eat k) := by
  unfold eat
  infer_instance

/-! ## Recovery -/

/-- After a syntax error the rest decides. -/
instance resilient_orRecover {rule recover : Parser α} [hr : Resilient recover] :
    Resilient (orRecover rule recover) := by
  constructor
  intro s s' herror
  rw [orRecover_apply] at herror
  split at herror
  · exact hr.survives _ s' herror
  · next hne => exact hne s' herror

instance resilient_skipTo (stops : TokenKind → Bool) : Resilient (skipTo stops) := by
  unfold skipTo
  infer_instance

instance resilient_skipStatement : Resilient skipStatement := resilient_skipTo _

instance resilient_skipDecl : Resilient skipDecl := resilient_skipTo _

instance resilient_recovering {part : Parser α} {skipRest : Parser PUnit} [Resilient skipRest] :
    Resilient (recovering part skipRest) := by
  unfold recovering
  infer_instance

theorem closed_resilient : Closed Resilient :=
  ⟨resilient_pure, resilient_get, fun hp hq => @resilient_bind _ _ _ _ hp hq⟩

instance resilient_collect {turn : Parser (Turn α)} [h : Resilient turn] : Resilient (collect turn) :=
  closed_resilient.collect h

/-! ## Statements, blocks and units -/

instance resilient_statementTurn (statement : Parser Stmt) (stops : ParserState → Bool) :
    Resilient (statementTurn statement stops) := by
  unfold statementTurn
  infer_instance

instance resilient_statements (levels : Nat) : Resilient (statements levels) := by
  unfold statements statementList statementsUntil
  infer_instance

instance resilient_varDeclTurn (levels : Nat) : Resilient (varDeclTurn levels) := by
  constructor
  intro s
  refine .get ?_
  split
  · next h => exact .fail h
  · exact Resilient.survives s

instance resilient_blockKind (span : Span) (k : TokenKind) : Resilient (blockKind span k) := by
  unfold blockKind
  split <;> infer_instance

instance resilient_blockRest (levels start : Nat) (kind : BlockKind) : Resilient (blockRest levels start kind) := by
  unfold blockRest
  infer_instance

instance resilient_varBlock (levels : Nat) (unit : UnitKind) : Resilient (varBlock levels unit) := by
  rw [varBlock_eq]
  infer_instance

section

variable (levels : Nat)

instance resilient_leadingBlockTurn (unit : UnitKind) : Resilient (leadingBlockTurn levels unit) := by
  unfold leadingBlockTurn
  infer_instance

instance resilient_bodyRest (unit : UnitKind) (part : BodyPart) : Resilient (bodyRest levels unit part) := by
  constructor
  intro s
  refine .get ?_
  split
  · next h => exact .fail h
  · refine (@resilient_ite _ _ _ _ _ inferInstance (@resilient_ite _ _ _ _ _ inferInstance ?_)).survives s
    split <;> infer_instance

instance resilient_bodyTurn (unit : UnitKind) : Resilient (bodyTurn levels unit) := by
  rw [bodyTurn_eq]
  infer_instance

instance resilient_body (unit : UnitKind) : Resilient (body levels unit) := by
  unfold body
  infer_instance

instance resilient_unitName : Resilient unitName := by
  constructor
  intro s
  refine Survives.bind (Resilient.survives s) fun seen s₁ h₁ => ?_
  cases h₁
  split
  · exact Resilient.survives s
  · refine Survives.bind (Resilient.survives s) fun empty s₁ h₁ => ?_
    cases h₁
    split
    · next h => exact .fail (List.isEmpty_iff.1 h)
    · exact Resilient.survives s

instance resilient_returnType? : Resilient (returnType? levels) := by
  unfold returnType?
  infer_instance

end

end StructuredText.Parser
