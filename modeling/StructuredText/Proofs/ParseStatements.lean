import StructuredText.Proofs.Complete.Stmt
import StructuredText.Proofs.Roots

/-!
# Statements that stand alone

Reading statements succeeds just on the spellings of the grammar: a stream of tokens is read as a list of statements
without a diagnostic if and only if it spells the list and no statement is nested too deeply. What a `CASE` needs for
it is that its labels and the statements of its arms are told apart wherever they are spelled.
-/

namespace StructuredText

/-- The tokens spell the statements, and nothing else. -/
def SpellsStatements (x : List Lexeme) (sts : List Stmt) : Prop := (StmtPhrase.stmts sts).Spelled x []

namespace SpellsStatements

variable {x : List Lexeme} {sts sts' : List Stmt}

theorem gives (h : SpellsStatements x sts) {levels : Nat} (hn : Stmt.nestingAll sts ≤ levels) :
    Parser.Gives (Parser.statements levels) x sts [] :=
  Parser.statements_complete h hn fun s hs => by rw [hs]; rfl

/-- Enough levels for both lists read one list only. -/
theorem unique (h : SpellsStatements x sts) (h' : SpellsStatements x sts') : sts' = sts :=
  (h'.gives (Nat.le_max_right (Stmt.nestingAll sts) _)).eq (h.gives (Nat.le_max_left _ (Stmt.nestingAll sts')))

end SpellsStatements

namespace Parser

variable {levels : Nat} {s s' : ParserState}

/-- A word behind statements that belongs to none is reported and passed over. -/
def strayTurn (sts : List Stmt) : Parser (Turn Stmt) := do
  let s ← get
  match s.rest with
  | [] => return .last sts
  | _ :: _ =>
    report (.strayOutside s.text)
    skip
    return .more sts

theorem statementsTurn_eq (levels : Nat) : statementsTurn levels = statements levels >>= strayTurn := rfl

instance lawful_strayTurn (sts : List Stmt) : Lawful (strayTurn sts) := by
  refine @lawful_bind _ _ _ _ lawful_get fun s => ?_
  have : Lawful (report (.strayOutside s.text)) := lawful_report rfl
  split <;> infer_instance

instance lawful_statementsTurn (levels : Nat) : Lawful (statementsTurn levels) := by
  rw [statementsTurn_eq]
  infer_instance

theorem reads_strayTurn {sts : List Stmt} {t : Turn Stmt} :
    Reads (strayTurn sts) s t s' ↔ s.rest = [] ∧ t = .last sts ∧ s' = s := by
  rw [strayTurn, reads_get_bind]
  split
  · next hr => rw [reads_pure, hr, eq_self_iff_true, true_and]
  · next hr =>
    rw [hr]
    exact ⟨fun h => absurd h not_reads_report_bind, fun h => absurd h.1 (List.cons_ne_nil _ _)⟩

/-- Without a report, one turn reads all the statements there are. -/
theorem reads_statementsTurn {t : Turn Stmt} : Reads (statementsTurn levels) s t s' ↔
    ∃ sts, t = .last sts ∧ Reads (statements levels) s sts s' ∧ s'.rest = [] := by
  simp only [statementsTurn_eq, reads_bind_iff, reads_strayTurn]
  constructor
  · rintro ⟨sts, s₁, h, hr, rfl, rfl⟩
    exact ⟨sts, rfl, h, hr⟩
  · rintro ⟨sts, rfl, h, hr⟩
    exact ⟨sts, s', h, hr, rfl, rfl⟩

theorem reads_collect_statementsTurn {sts : List Stmt} : Reads (collect (statementsTurn levels)) s sts s' ↔
    Reads (statements levels) s sts s' ∧ s'.rest = [] := by
  have hturning : Turning (statementsTurn levels) := by
    intro s items s' h
    obtain ⟨sts, ht, -⟩ := reads_statementsTurn.1 h
    cases ht
  rw [reads_collect_iff hturning]
  constructor
  · rintro (⟨items, s₁, bs, h, -⟩ | h)
    · obtain ⟨sts, ht, -⟩ := reads_statementsTurn.1 h
      cases ht
    · obtain ⟨sts, ht, h⟩ := reads_statementsTurn.1 h
      cases ht
      exact h
  · exact fun h => .inr (reads_statementsTurn.2 ⟨sts, rfl, h⟩)

theorem exists_reads_statementRoot_iff {stream : Stream} {root : StatementList} :
    (∃ s', Reads (statementRoot levels) (.start stream) root s') ↔
      SpellsStatements stream.significant root.statements ∧ Stmt.nestingAll root.statements ≤ levels ∧
        root.span = stream.span := by
  rw [statementRoot]
  constructor
  · rintro ⟨s', h⟩
    rw [reads_offset_bind] at h
    obtain ⟨sts, s₁, h₁, h⟩ := reads_bind_iff.1 h
    rw [reads_spanFrom_bind] at h
    obtain ⟨rfl, rfl⟩ := reads_pure.1 h
    obtain ⟨h₁, hr⟩ := reads_collect_statementsTurn.1 h₁
    obtain ⟨hsts, hn⟩ := statements_sound h₁
    rw [hr] at hsts
    exact ⟨hsts, hn, spanFrom_of_passed h₁.passed hr⟩
  · rintro ⟨h, hn, hspan⟩
    obtain ⟨s₁, h₁, hr⟩ := h.gives hn (.start stream) rfl
    refine ⟨s₁, reads_offset_bind.2 ((reads_collect_statementsTurn.2 ⟨h₁, hr⟩).bind (reads_spanFrom_bind.2 ?_))⟩
    rw [spanFrom_of_passed h₁.passed hr, ← hspan]
    exact reads_pure.2 ⟨rfl, rfl⟩

end Parser

/-- The statement parser is its grammar: it gives a list of statements without a diagnostic just if the tokens spell
the list and no statement is nested deeper than allowed, and the tokens spell no other list. Wherever a statement is
spelled, no label is seen, and wherever an arm of a `CASE` is spelled, its first label is; so the statements of an arm
are read exactly up to the labels of the next one. -/
theorem parseStatements_clean_iff (s : Stream) (root : StatementList) :
    (((parseStatements s).tree = some root ∧ (parseStatements s).diagnostics = []) ↔
      SpellsStatements s.significant root.statements ∧ Stmt.nestingAll root.statements ≤ maxNesting ∧
        root.span = s.span) ∧
    (∀ sts sts', SpellsStatements s.significant sts → SpellsStatements s.significant sts' → sts' = sts) ∧
    (∀ st x y (p : ParserState), (StmtPhrase.stmt st).Spelled x y → p.rest = x → p.atCaseLabel = false) ∧
    (∀ a x y (p : ParserState), (StmtPhrase.arm a).Spelled x y → p.rest = x → p.atCaseLabel = true) ∧
    ∀ levels body a x y z, (StmtPhrase.stmts body).Spelled x y → (StmtPhrase.arm a).Spelled y z →
      Stmt.nestingAll body ≤ levels →
      Parser.Gives (Parser.statementsUntil (Parser.statement levels) ParserState.atCaseLabel) x body y := by
  refine ⟨Parser.run_clean_iff.trans Parser.exists_reads_statementRoot_iff, fun _ _ => SpellsStatements.unique,
    fun _ _ _ _ h hp => not_atCaseLabel_of_stmt h hp, fun _ _ _ _ h hp => atCaseLabel_of_arm h hp, ?_⟩
  intro levels body a x y z hbody ha hn
  refine hbody.readBy levels hn _ Parser.passesStatements_atCaseLabel fun p hp => ?_
  rw [atCaseLabel_of_arm ha hp, Bool.or_true]

end StructuredText
