import StructuredText.Proofs.Lacking.Unit

/-!
# Bodies with blocks and statements in any order

The blocks of a body belong in front of its statements. `PartsSpelled` lets them stand anywhere, and says which of them
are late. Each turn of the body behind its leading blocks reads statements and a late block, and reports the block at
its first word (`bodyTurn_leaves_late`). So the body is read as if the late blocks stood in the front, each part as it
is spelled (`body_leaves_parts`).
-/

namespace StructuredText

variable {unit : UnitKind} {x x₀ x₁ y z : List Lexeme} {sts sts' : List Stmt} {b : VarBlock} {parts : List BodyPart}
  {spans : List Span}

/-! ## Parts of a body -/

namespace BodyPart

/-- The block, if the part is one. -/
def blocks : BodyPart → List VarBlock
  | block b => [b]
  | statements _ => []

/-- The statements of the part. -/
def stmts : BodyPart → List Stmt
  | block _ => []
  | statements sts => sts

/-- The deepest nesting in the part. -/
def nesting : BodyPart → Nat
  | block b => b.nesting
  | statements sts => Stmt.nestingAll sts

end BodyPart

theorem Body.ofParts_eq (parts : List BodyPart) :
    ofParts parts = ⟨parts.flatMap BodyPart.blocks, parts.flatMap BodyPart.stmts⟩ := by
  induction parts with
  | nil => rfl
  | cons part parts ih => cases part <;> rw [ofParts, ih] <;> rfl

/-- Parts that make up the same body do so behind other parts as well. -/
theorem Body.ofParts_append {parts' : List BodyPart} (h : ofParts parts = ofParts parts') (before : List BodyPart) :
    ofParts (before ++ parts) = ofParts (before ++ parts') := by
  rw [ofParts_eq, ofParts_eq, mk.injEq] at h
  simp only [ofParts_eq, List.flatMap_append, h.1, h.2]

theorem Stmt.nestingAll_append (sts sts' : List Stmt) :
    nestingAll (sts ++ sts') = max (nestingAll sts) (nestingAll sts') := by
  induction sts with
  | nil => exact (Nat.zero_max _).symm
  | cons st sts ih => rw [List.cons_append, nestingAll, nestingAll, ih, Nat.max_assoc]

/-- Two lists of statements, one behind the other, are one list. -/
theorem StmtPhrase.Spelled.stmts_append (h : (stmts sts).Spelled x y) (h' : (stmts sts').Spelled y z) :
    (stmts (sts ++ sts')).Spelled x z := by
  induction sts generalizing x with
  | nil =>
    cases h
    exact h'
  | cons st sts ih =>
    cases h with
    | moreStmts hst hsts => exact .moreStmts hst (ih hsts)

/-- Blocks and statements in any order. Behind a statement, which is `late`, the first words of the blocks have the
spans that are listed. -/
inductive PartsSpelled (unit : UnitKind) :
    (late : Bool) → List BodyPart → List Span → List Lexeme → List Lexeme → Prop
  | nil {late : Bool} {x : List Lexeme} : PartsSpelled unit late [] [] x x
  | leadingBlock {b : VarBlock} {parts : List BodyPart} {spans : List Span} {x y z : List Lexeme} :
      BlockSpelled unit b x y → PartsSpelled unit false parts spans y z →
      PartsSpelled unit false (.block b :: parts) spans x z
  | lateBlock {b : VarBlock} {parts : List BodyPart} {spans : List Span} {w : Lexeme} {x y z : List Lexeme} :
      BlockSpelled unit b (w :: x) y → PartsSpelled unit true parts spans y z →
      PartsSpelled unit true (.block b :: parts) (w.span :: spans) (w :: x) z
  | statements {late : Bool} {sts : List Stmt} {parts : List BodyPart} {spans : List Span} {x y z : List Lexeme} :
      sts ≠ [] → (StmtPhrase.stmts sts).Spelled x y → PartsSpelled unit true parts spans y z →
      PartsSpelled unit late (.statements sts :: parts) spans x z

namespace PartsSpelled

theorem headKind_of_statements (h : (StmtPhrase.stmts sts).Spelled x y) (hne : sts ≠ []) :
    (headKind x).isVarKeyword = false ∧ (headKind x).beginsBody = true := by
  cases h with
  | noStmts => exact absurd rfl hne
  | moreStmts h _ => exact h.beginsBody

theorem beginsBody {late : Bool} (h : PartsSpelled unit late parts spans x y) (hend : BlockEnd unit.endKeyword y z) :
    (headKind x).beginsBody = true := by
  have hblock {b : VarBlock} {x y : List Lexeme} (h : BlockSpelled unit b x y) : (headKind x).beginsBody = true := by
    rw [TokenKind.beginsBody, h.isVarKeyword]
    rfl
  cases h with
  | nil =>
    rw [hend.headKind_eq]
    exact unit.beginsBody_endKeyword.2
  | leadingBlock h _ | lateBlock h _ => exact hblock h
  | statements hne h _ => exact (headKind_of_statements h hne).2

/-- In front of the first statement, the blocks stand in a row. -/
theorem exists_leading (h : PartsSpelled unit false parts spans x y) (hend : BlockEnd unit.endKeyword y z) :
    ∃ leading rest x₁, parts = leading.map .block ++ rest ∧ Row (BlockSpelled unit) leading x x₁ ∧
      PartsSpelled unit true rest spans x₁ y ∧ (headKind x₁).isVarKeyword = false := by
  replace h : ∃ late, late = false ∧ PartsSpelled unit late parts spans x y := ⟨_, rfl, h⟩
  obtain ⟨late, hlate, h⟩ := h
  induction h with
  | nil =>
    refine ⟨[], [], _, rfl, .nil, .nil, ?_⟩
    rw [hend.headKind_eq]
    exact unit.beginsBody_endKeyword.1
  | leadingBlock hb _ ih =>
    obtain ⟨leading, rest, x₁, rfl, hrow, hrest, hx₁⟩ := ih hend hlate
    exact ⟨_ :: leading, rest, x₁, rfl, .cons hb hrow, hrest, hx₁⟩
  | lateBlock => cases hlate
  | statements hne hsts h' _ =>
    exact ⟨[], _, _, rfl, .nil, .statements hne hsts h', (headKind_of_statements hsts hne).1⟩

end PartsSpelled

/-- The reports of the late blocks, the latest first. -/
def lateReports (spans : List Span) : List Report := (spans.map fun span => ⟨.lateBlock, span⟩).reverse

theorem lateReports_cons (span : Span) (spans : List Span) :
    lateReports (span :: spans) = lateReports spans ++ [⟨.lateBlock, span⟩] := by
  rw [lateReports, lateReports, List.map_cons, List.reverse_cons]

/-! ## Reading the parts -/

/-- A block ends the statements in front of it. -/
theorem BlockSpelled.endsStatements (h : BlockSpelled unit b x y) : (headKind x).endsStatements = true := by
  have hk := h.isVarKeyword
  revert hk
  generalize headKind x = k
  cases k <;> simp [TokenKind.isVarKeyword, TokenKind.endsStatements]

namespace Parser

variable {levels : Nat}

/-- One turn reads statements and the late block behind them. -/
theorem bodyTurn_leaves_late {w : Lexeme} (hsts : (StmtPhrase.stmts sts).Spelled x (w :: x₁))
    (hn : Stmt.nestingAll sts ≤ levels) (hb : BlockSpelled unit b (w :: x₁) y) (hnb : b.nesting ≤ levels) :
    Leaves (bodyTurn levels unit) x (fun t => t = .more [.statements sts, .block b]) [⟨.lateBlock, w.span⟩] y := by
  have hvar : w.kind.isVarKeyword = true := hb.isVarKeyword
  have hne : w.kind ≠ unit.endKeyword := by
    intro h
    rw [h] at hvar
    cases unit <;> cases hvar
  rw [bodyTurn_eq]
  refine .after (statements_complete hsts hn (.of_ends hb.endsStatements)) (.get fun s hs => ?_)
  rw [hs]
  simp only [ParserState.kind_of_cons hs, if_neg hne, hvar, if_true]
  exact .before .report fun _ _ => .after (varBlock_complete hb hnb) (.pure rfl)

/-- The turns of a body read statements `sts` that begin before the other parts, and these parts. -/
theorem bodyTurns_leave (h : PartsSpelled unit true parts spans x y) (hn : ∀ part ∈ parts, part.nesting ≤ levels)
    (hend : BlockEnd unit.endKeyword y z) (hsts : (StmtPhrase.stmts sts).Spelled x₀ x)
    (hns : Stmt.nestingAll sts ≤ levels) :
    LoopLeaves (bodyTurn levels unit) x₀ (fun ps => Body.ofParts ps = Body.ofParts (.statements sts :: parts))
      (lateReports spans) z := by
  generalize hlate : true = late at h
  induction h generalizing x₀ sts with
  | nil => exact .last ((bodyTurn_complete hsts hns hend).leaves ⟨_, rfl, rfl⟩)
  | leadingBlock => cases hlate
  | @lateBlock b parts spans w x y _ hb h ih =>
    obtain ⟨hnb, hn⟩ := List.forall_mem_cons.1 hn
    have hturn := bodyTurn_leaves_late hsts hns hb hnb
    have hrest := ih hn hend .noStmts (Nat.zero_le _) rfl
    have hlt := Nat.lt_of_lt_of_le hb.length_lt hsts.length_le.1
    rw [lateReports_cons]
    refine .more (P := fun ps => ps = [.statements sts, .block b]) (hturn.mono fun t ht => ⟨_, ht, rfl⟩) hlt hrest ?_
    rintro _ ps rfl hps
    -- The next statements begin with none.
    have hparts : Body.ofParts ps = Body.ofParts parts := by simpa [Body.ofParts] using hps
    exact Body.ofParts_append hparts [.statements sts, .block b]
  | @statements late sts' parts spans x y _ hne hsts' h ih =>
    obtain ⟨hns', hn⟩ := List.forall_mem_cons.1 hn
    have hboth : Stmt.nestingAll (sts ++ sts') ≤ levels := by
      rw [Stmt.nestingAll_append]
      exact Nat.max_le.2 ⟨hns, hns'⟩
    have hrest := ih hn hend (hsts.stmts_append hsts') hboth rfl
    simpa [Body.ofParts] using hrest

/-- A body is read with its blocks and statements in any order, and each block behind a statement is reported. -/
theorem body_leaves_parts (h : PartsSpelled unit false parts spans x y) (hn : ∀ part ∈ parts, part.nesting ≤ levels)
    (hend : BlockEnd unit.endKeyword y z) :
    Leaves (body levels unit) x (fun b => b = .ofParts parts) (lateReports spans) z := by
  obtain ⟨leading, rest, x₁, rfl, hrow, hrest, hx₁⟩ := h.exists_leading hend
  rw [List.forall_mem_append] at hn
  have hleading : deepest VarBlock.nesting leading ≤ levels :=
    deepest_le_iff.2 fun b hb => hn.1 _ (List.mem_map_of_mem hb)
  have hturns := bodyTurns_leave hrest hn.2 hend .noStmts (Nat.zero_le _)
  refine .after (leadingBlocks_complete hrow hleading hx₁) (.before hturns.collect fun ps hps => .pure ?_)
  exact Body.ofParts_append (by simpa [Body.ofParts] using hps) (leading.map .block)

/-- A method is read with the parts of its body in any order. -/
theorem method_leaves_parts {type : Option TypeRef} {w n : Lexeme} (hn : n.kind = .ident)
    (htype : Optionally TypeSpelled .colon type x x₁) (hnt : depthOf TypeRef.nesting type ≤ levels)
    (h : PartsSpelled .method false parts spans x₁ y) (hnp : ∀ part ∈ parts, part.nesting ≤ levels)
    (hend : BlockEnd .kwEndMethod y z) :
    Leaves (method levels) (w :: n :: x)
      (fun m => m.name = n.name ∧ m.returnType = type ∧ m.body = .ofParts parts) (lateReports spans) z :=
  method_leaves hn (returnType?_complete htype hnt (h.beginsBody hend)) (body_leaves_parts h hnp hend)

end Parser

end StructuredText
