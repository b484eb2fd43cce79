import StructuredText.Proofs.Nesting.Unit
import StructuredText.Proofs.ParseExpression
import StructuredText.Proofs.ParseStatements
import StructuredText.Proofs.ParseUnits

/-!
# Streams that nest too deeply

A stream that spells a source, statements, an expression or an initial value, but nests more constructs than allowed, is
given up where the first of them begins that stands inside as many as allowed: there is no tree, and the one diagnostic
says so (`parse_tooDeep`). Which construct that is depends on the tokens only.
-/

namespace StructuredText

/-- Of the constructs in the value, behind the name in front of it if there is one, the first one inside `n` others. -/
def InitializerExceeds (root : InitializerSource) (n : Nat) (x : List Lexeme) (f : Excess) : Prop :=
  ∃ x₁, TargetSpelled root.target x x₁ ∧ (InitPhrase.value root.value).Exceeds n x₁ f

/-- There is no tree, and the one diagnostic says that `f` nests too deeply. -/
def Parse.IsTooDeep (p : Parse α) (f : Excess) : Prop :=
  p.tree = none ∧ p.diagnostics = [⟨.syntaxError, .error, f.token.span, f.what ++ " nested too deeply", none⟩]

variable {n : Nat} {x y : List Lexeme} {f : Excess}

theorem TargetSpelled.eq_drop {target : Option Name} (h : TargetSpelled target x y) :
    y = if target.isSome then x.drop 2 else x := by
  cases h <;> rfl

namespace Parser

theorem Fails.isTooDeep {rule : Parser α} {s : Stream} (h : Fails rule s.significant f) : (rule.run s).IsTooDeep f := by
  obtain ⟨s', herror, hr⟩ := h (.start s) rfl
  rw [run_of_error herror, hr]
  exact ⟨rfl, rfl⟩

theorem sourceFile_fails {us : List ProgramUnit} (h : UnitsExceed us n x f) : Fails (sourceFile n) x f :=
  .offset fun _ => (units_fail h).bind

theorem statementRoot_fails {sts : List Stmt} (h : (StmtPhrase.stmts sts).Exceeds n x f) :
    Fails (statementRoot n) x f := by
  have hstatements : Fails (statements n) x f := (h.failsBy _ passesStatements_false).collect
  have hturn : Fails (statementsTurn n) x f := by
    rw [statementsTurn_eq]
    exact hstatements.bind
  exact .offset fun _ => .bind (LoopFails.here hturn).collect

theorem expressionRoot_fails {e : Expr} (h : (ExprPhrase.expr 0 e).Exceeds n x f) : Fails (expressionRoot n) x f :=
  h.failsBy.read.bind

theorem initializerRoot_fails {root : InitializerSource} (h : SpellsInitializer x root)
    (hf : InitializerExceeds root n x f) : Fails (initializerRoot n) x f := by
  obtain ⟨x₁, y, htarget, hv, hend, -⟩ := h
  obtain ⟨x₁', htarget', hf⟩ := hf
  obtain rfl : x₁' = x₁ := htarget'.eq_drop.trans htarget.eq_drop.symm
  have htarget := target?_complete htarget fun s hs => hv.not_target hend.endsValue hs
  exact .offset fun _ => .after htarget (.bind hf.failsBy)

end Parser

theorem SpellsInitializer.exists_exceeds {root : InitializerSource} (h : SpellsInitializer x root)
    (hn : n < root.value.nesting) : ∃ f, InitializerExceeds root n x f := by
  obtain ⟨x₁, y, htarget, hv, hend, -⟩ := h
  obtain ⟨f, h⟩ := hv.exists_exceeds hend.endsValue hn
  exact ⟨f, x₁, htarget, h⟩

/-- A stream of the grammar that nests too deeply has a first construct that is too deep, and a parse gives no tree and
just the diagnostic that this construct is nested too deeply, at the token where it begins. -/
theorem parse_tooDeep (s : Stream) :
    (∀ us, SpellsUnits s.significant us → maxNesting < deepest ProgramUnit.nesting us →
      (∃ f, UnitsExceed us maxNesting s.significant f) ∧
        ∀ f, UnitsExceed us maxNesting s.significant f → (parseSource s).IsTooDeep f) ∧
    (∀ sts, SpellsStatements s.significant sts → maxNesting < Stmt.nestingAll sts →
      (∃ f, (StmtPhrase.stmts sts).Exceeds maxNesting s.significant f) ∧
        ∀ f, (StmtPhrase.stmts sts).Exceeds maxNesting s.significant f → (parseStatements s).IsTooDeep f) ∧
    (∀ e, SpellsExpression s.significant e → maxNesting < e.nesting →
      (∃ f, (ExprPhrase.expr 0 e).Exceeds maxNesting s.significant f) ∧
        ∀ f, (ExprPhrase.expr 0 e).Exceeds maxNesting s.significant f → (parseExpression s).IsTooDeep f) ∧
    ∀ root, SpellsInitializer s.significant root → maxNesting < root.value.nesting →
      (∃ f, InitializerExceeds root maxNesting s.significant f) ∧
        ∀ f, InitializerExceeds root maxNesting s.significant f → (parseInitializer s).IsTooDeep f := by
  refine ⟨fun us h hn => ⟨?_, fun f hf => ?_⟩, fun sts h hn => ⟨?_, fun f hf => ?_⟩, fun e h hn => ⟨?_, fun f hf => ?_⟩,
    fun root h hn => ⟨?_, fun f hf => ?_⟩⟩
  · exact Row.exists_exceeds h (fun _ _ _ => UnitSpelled.exists_exceeds) hn
  · exact (Parser.sourceFile_fails hf).isTooDeep
  · exact StmtPhrase.Spelled.exists_exceeds h _ hn
  · exact (Parser.statementRoot_fails hf).isTooDeep
  · obtain ⟨y, h, -⟩ := h
    exact h.exists_exceeds trivial hn
  · exact (Parser.expressionRoot_fails hf).isTooDeep
  · exact h.exists_exceeds hn
  · exact (Parser.initializerRoot_fails h hf).isTooDeep

/-! ### Signs in front of a name -/

/-- As many minus signs, and a name. -/
def signedName (n : Nat) : Stream :=
  ⟨(List.range n).map (fun i => ⟨.minus, ⟨i, i + 1⟩⟩) ++ [⟨.ident, ⟨n, n + 1⟩⟩], List.replicate n '-' ++ ['a']⟩

theorem significant_signedName (n : Nat) : ∃ ms a, (signedName n).significant = ms ++ [a] ∧ ms.length = n ∧
    (∀ m ∈ ms, m.kind = .minus) ∧ a.kind = .ident ∧ a.span = ⟨n, n + 1⟩ := by
  have hkind : ∀ t ∈ (signedName n).tokens, t.kind ≠ .eof ∧ t.kind.isTrivia = false := by
    intro t ht
    rcases List.mem_append.1 ht with ht | ht
    · obtain ⟨i, -, rfl⟩ := List.mem_map.1 ht
      exact ⟨(fun h => by cases h), rfl⟩
    · rw [List.mem_singleton.1 ht]
      exact ⟨(fun h => by cases h), rfl⟩
  refine ⟨((List.range n).map fun i => ⟨.minus, ⟨i, i + 1⟩⟩).map (Token.lexeme (signedName n).source),
    Token.lexeme (signedName n).source ⟨.ident, ⟨n, n + 1⟩⟩, ?_, by simp, ?_, rfl, rfl⟩
  · rw [Stream.significant_of_no_eof fun t ht => (hkind t ht).1,
      List.filter_eq_self.2 fun t ht => by rw [(hkind t ht).2]; rfl, signedName, List.map_append]
    rfl
  · intro m hm
    obtain ⟨t, ht, rfl⟩ := List.mem_map.1 hm
    obtain ⟨i, -, rfl⟩ := List.mem_map.1 ht
    rfl

/-- Every sign is a construct around the name. -/
theorem spelled_signs {ms : List Lexeme} {a : Lexeme} (hms : ∀ m ∈ ms, m.kind = .minus) (ha : a.kind = .ident) :
    ∃ e, (ExprPhrase.unary e).Spelled (ms ++ [a]) [] ∧ e.nesting = ms.length ∧
      ∀ n, n + 1 = ms.length → (ExprPhrase.unary e).Exceeds n (ms ++ [a]) ⟨"expression", a⟩ := by
  induction ms with
  | nil => exact ⟨_, .access (.primary (.name (.one ha))), rfl, fun n hn => absurd hn (Nat.succ_ne_zero n)⟩
  | cons m ms ih =>
    obtain ⟨hm, hms⟩ := List.forall_mem_cons.1 hms
    obtain ⟨e, h, hnesting, hexceeds⟩ := ih hms
    have hop : UnaryOp.ofToken? m.kind = some .neg := by rw [hm]; rfl
    refine ⟨_, .unary hop h, congrArg Nat.succ hnesting, fun n hn => ?_⟩
    cases n with
    | zero =>
      obtain rfl : ms = [] := List.length_eq_zero_iff.1 (Nat.succ.inj hn).symm
      exact .operator hop
    | succ n => exact .inOperand hop (hexceeds n (Nat.succ.inj hn))

theorem parse_tooDeep_signs : (parseExpression (signedName 129)).tree = none ∧
    (parseExpression (signedName 129)).diagnostics =
      [⟨.syntaxError, .error, ⟨129, 130⟩, "expression nested too deeply", none⟩] := by
  obtain ⟨ms, a, hs, hlength, hms, ha, hspan⟩ := significant_signedName 129
  obtain ⟨e, h, hnesting, hexceeds⟩ := spelled_signs hms ha
  have hspells : SpellsExpression (signedName 129).significant e := ⟨[], by rw [hs]; exact .operand h, .inl rfl⟩
  have hdeep : maxNesting < e.nesting := by
    rw [hnesting, hlength]
    decide
  have hfirst : (ExprPhrase.expr 0 e).Exceeds maxNesting (signedName 129).significant ⟨"expression", a⟩ := by
    rw [hs]
    exact .operand (hexceeds maxNesting (by rw [hlength]; rfl))
  have hparse := ((parse_tooDeep (signedName 129)).2.2.1 e hspells hdeep).2 _ hfirst
  rw [Parse.IsTooDeep, hspan] at hparse
  exact hparse

end StructuredText
