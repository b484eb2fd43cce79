import StructuredText.Proofs.Counted.Rules

/-!
# Recovery makes progress

Whatever the tokens, a parse with a cursor comes back: a turn of a loop after which the loop goes on has moved the
cursor (`Counted.LoopsProgress`), and constructs stand inside each other only so deep. It comes back with the outcome of
the parse, and all that was noted on the way is fine (`parse_progresses`).
-/

namespace StructuredText

open StructuredText.Parser (Turn Advancing)
open StructuredText.Machine (Leads)

namespace Counted

/-- From every place that is not too deep for so many calls, the turn of a loop comes back on the depth it began on. The
cursor has not gone back, and it has moved on if the loop goes on. -/
def Progresses (calls : Nat) (turn : Counted (Turn α)) : Prop :=
  ∀ m : Machine, m.depth ≤ maxNesting → maxNesting < m.depth + calls → ∃ r m', turn m = some (r, m') ∧
    m'.depth = m.depth ∧ m.cursor ≤ m'.cursor ∧ ∀ items, r = .ok (.more items) → m.cursor < m'.cursor

/-- The loops that go on after an error make progress: those over the statements of a list, over the arms of a `CASE`,
over the declarations of a block, over the blocks and the statements of a body, over the units of a file, and over
statements that stand alone. -/
structure LoopsProgress (calls : Nat) : Prop where
  statements (stops : ParserState → Bool) : Progresses calls (statementTurn (statement calls) stops)
  arms : Progresses calls (caseArmTurn ⟨unary calls, statement calls⟩)
  decls : Progresses calls (varDeclTurn calls)
  blocks (unit : UnitKind) : Progresses calls (leadingBlockTurn calls unit)
  body (unit : UnitKind) : Progresses calls (bodyTurn calls unit)
  units : Progresses calls (unitTurn calls)
  root : Progresses calls (statementsTurn calls)

/-- A turn makes progress where it follows one that takes a token. -/
theorem progresses_of_follows {calls : Nat} {turn : Counted (Turn α)} {turn' : (levels : Nat) → Parser (Turn α)}
    [ha : ∀ levels, Advancing (turn' levels)] (h : ∀ levels, Enough levels calls → Follows levels turn (turn' levels)) :
    Progresses calls turn := by
  intro m hm hcalls
  obtain ⟨levels, hlevels⟩ := Nat.exists_eq_add_of_le hm
  have hturn := (h levels ⟨by omega⟩).outcome m hlevels.symm
  revert hturn
  generalize turn m = r
  generalize hok : turn' levels m.view = r'
  rintro (hl | hl)
  · exact ⟨_, _, rfl, hl.depth, hl.cursor, fun items hmore => by
      cases hmore
      exact hl.cursor_lt ((ha levels).length_lt hok)⟩
  · exact ⟨_, _, rfl, hl.depth, hl.cursor, nofun⟩

theorem loopsProgress (calls : Nat) : LoopsProgress calls where
  statements stops := by
    have hturn (levels : Nat) (h : Enough levels calls) : Follows levels (statementTurn (statement calls) stops)
        (Parser.statementTurn (Parser.statement levels) stops) := by
      have := follows_statement h.lt
      infer_instance
    exact progresses_of_follows hturn
  arms := by
    have hturn (levels : Nat) (h : Enough levels calls) : Follows levels (caseArmTurn ⟨unary calls, statement calls⟩)
        (Parser.caseArmTurn (Parser.levelAt levels)) := by
      have : FollowsLevel levels ⟨unary calls, statement calls⟩ (Parser.levelAt levels) :=
        ⟨follows_unary h.lt, follows_statement h.lt⟩
      have : Parser.Taking (Parser.levelAt levels).statement := Parser.taking_statement levels
      infer_instance
    exact progresses_of_follows hturn
  decls := progresses_of_follows fun _ _ => follows_varDeclTurn calls
  blocks unit := progresses_of_follows fun _ _ => follows_leadingBlockTurn calls unit
  body unit := progresses_of_follows fun _ _ => follows_bodyTurn calls unit
  units := progresses_of_follows fun _ _ => follows_unitTurn calls
  root := progresses_of_follows fun _ _ => follows_statementsTurn calls

/-- From the beginning of a stream, a rule comes back with the outcome of the one that it follows. -/
theorem exists_run {q : Counted α} {p : Parser α} [hq : Follows maxNesting q p] (f : α → Tree) (s : Stream) :
    ∃ m, ((q.run s).map fun (p, m) => (p.map f, m)) = some ((p.run s).map f, m) ∧ Leads (.start s) m ∧
      ((p.run s).map f).reports = m.reports.reverse := by
  have h := hq.outcome (.start s) (Nat.zero_add _)
  have hview : (Machine.start s).view = .start s := rfl
  rw [run, Parser.run, EStateM.run, ← hview]
  revert h
  generalize q (.start s) = r
  generalize p (Machine.start s).view = r'
  rintro (hl | hl)
  · exact ⟨_, rfl, hl, rfl⟩
  · exact ⟨_, rfl, hl, rfl⟩

/-- From every entry, on every list of tokens, the parse comes back with the outcome of `parse`, if it may make so many
calls inside each other. Its steps lead from the beginning to the end, and its problems are those reported on the
way. -/
theorem exists_parse (calls : Nat) (entry : Entry) (s : Stream) :
    ∃ m, parse (maxNesting + 1 + calls) entry s = some (StructuredText.parse entry s, m) ∧ Leads (.start s) m ∧
      (StructuredText.parse entry s).reports = m.reports.reverse := by
  have : Enough maxNesting (maxNesting + 1 + calls) := ⟨by omega⟩
  cases entry <;> exact exists_run _ s

end Counted

/-- Recovery always makes progress. From every place that is not too deep, a turn of each loop that goes on after errors
comes back, and either leaves its loop or has moved the cursor on. And from every entry, on every list of tokens, the
parse comes back, though nothing bounds its loops: it makes no more calls inside each other than constructs may stand
inside each other, and however many more calls it may make, it has the outcome of `parse`. On its way no loop went on
without moving the cursor, no token that was taken moved it back, no depth was above `maxNesting`, and every construct
was left on the depth it was entered from. -/
theorem parse_progresses (calls : Nat) : Counted.LoopsProgress calls ∧ ∀ entry s, ∃ m,
    Counted.parse (maxNesting + 1 + calls) entry s = some (parse entry s, m) ∧ m.depth = 0 ∧ ∀ e ∈ m.log, e.Fine := by
  refine ⟨Counted.loopsProgress calls, fun entry s => ?_⟩
  obtain ⟨m, hparse, hl, -⟩ := Counted.exists_parse calls entry s
  exact ⟨m, hparse, hl.depth, fun e he => (hl.log e he).resolve_left List.not_mem_nil⟩

end StructuredText
