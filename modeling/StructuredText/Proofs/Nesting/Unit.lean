import StructuredText.Proofs.Complete.Unit
import StructuredText.Proofs.Nesting.Decl
import StructuredText.Proofs.Nesting.Stmt

/-!
# Units that nest too deeply

Bodies and units that go deeper than `n`, with their first construct inside `n` others. In a body the blocks come
before the statements, and in a method its type comes before the body.
-/

namespace StructuredText

/-- Of the constructs in the body, the first one inside `n` others. -/
inductive BodyExceeds (unit : UnitKind) : Body → Nat → List Lexeme → Excess → Prop
  | blocks {n : Nat} {b : Body} {x : List Lexeme} {f : Excess} :
      RowExceeds (BlockSpelled unit) (BlockExceeds unit) VarBlock.nesting n b.blocks x f → BodyExceeds unit b n x f
  | statements {n : Nat} {b : Body} {x x₁ : List Lexeme} {f : Excess} :
      Row (BlockSpelled unit) b.blocks x x₁ → deepest VarBlock.nesting b.blocks ≤ n →
      (StmtPhrase.stmts b.statements).Exceeds n x₁ f → BodyExceeds unit b n x f

/-- Of the constructs in the unit, the first one inside `n` others. -/
inductive UnitExceeds : ProgramUnit → Nat → List Lexeme → Excess → Prop
  | algorithm {n : Nat} {a : Algorithm} {w v : Lexeme} {x : List Lexeme} {f : Excess} :
      w.kind = .kwAlgorithm → v.kind = .ident → BodyExceeds .algorithm a.body n x f →
      UnitExceeds (.algorithm a) n (w :: v :: x) f
  | returnType {n : Nat} {m : Method} {w v : Lexeme} {x : List Lexeme} {f : Excess} :
      w.kind = .kwMethod → v.kind = .ident → OptionExceeds TypeExceeds n .colon m.returnType x f →
      UnitExceeds (.method m) n (w :: v :: x) f
  | method {n : Nat} {m : Method} {w v : Lexeme} {x x₁ : List Lexeme} {f : Excess} :
      w.kind = .kwMethod → v.kind = .ident → Optionally TypeSpelled .colon m.returnType x x₁ →
      depthOf TypeRef.nesting m.returnType ≤ n → BodyExceeds .method m.body n x₁ f →
      UnitExceeds (.method m) n (w :: v :: x) f

/-- Of the constructs in the units, the first one inside `n` others. -/
abbrev UnitsExceed (us : List ProgramUnit) (n : Nat) : List Lexeme → Excess → Prop :=
  RowExceeds UnitSpelled UnitExceeds ProgramUnit.nesting n us

variable {unit : UnitKind} {n : Nat} {x y : List Lexeme} {f : Excess}

/-! ## There is such a construct -/

theorem BodySpelled.exists_exceeds {b : Body} (h : BodySpelled unit b x y) (hn : n < b.nesting) :
    ∃ f, BodyExceeds unit b n x f := by
  cases h with
  | @mk blocks _ _ _ _ _ hblocks hstmts _ =>
    rcases Nat.lt_or_ge n (deepest VarBlock.nesting blocks) with hlt | hle
    · obtain ⟨f, h⟩ := hblocks.exists_exceeds (fun _ _ _ => BlockSpelled.exists_exceeds) hlt
      exact ⟨f, .blocks h⟩
    · obtain ⟨f, h⟩ := hstmts.exists_exceeds _ ((lt_max_iff.1 hn).resolve_left (Nat.not_lt.2 hle))
      exact ⟨f, .statements hblocks hle h⟩

theorem UnitSpelled.exists_exceeds {u : ProgramUnit} (h : UnitSpelled u x y) (hn : n < u.nesting) :
    ∃ f, UnitExceeds u n x f := by
  cases h with
  | algorithm hw hname hbody =>
    obtain ⟨f, h⟩ := hbody.exists_exceeds hn
    exact ⟨f, .algorithm hw hname h⟩
  | @method type _ _ _ _ _ _ hw hname htype hbody =>
    rcases Nat.lt_or_ge n (depthOf TypeRef.nesting type) with hlt | hle
    · obtain ⟨f, h⟩ := htype.exists_exceeds (fun _ _ => TypeSpelled.exists_exceeds) hlt
      exact ⟨f, .returnType hw hname h⟩
    · obtain ⟨f, h⟩ := hbody.exists_exceeds ((lt_max_iff.1 hn).resolve_left (Nat.not_lt.2 hle))
      exact ⟨f, .method hw hname htype hle h⟩

/-! ## First tokens -/

theorem beginsBody_of_stmts {sts : List Stmt} (h : (StmtPhrase.stmts sts).Exceeds n x f) :
    (headKind x).isVarKeyword = false ∧ (headKind x).beginsBody = true := by
  cases h with
  | firstStmt hst _ => exact hst.beginsBody
  | laterStmt hst _ _ => exact hst.beginsBody

theorem isVarKeyword_of_blocks {blocks : List VarBlock}
    (h : RowExceeds (BlockSpelled unit) (BlockExceeds unit) VarBlock.nesting n blocks x f) :
    (headKind x).isVarKeyword = true := by
  cases h with
  | here hb _ => exact hb.isVarKeyword
  | later hb _ _ => exact hb.isVarKeyword

theorem BodyExceeds.beginsBody {b : Body} (h : BodyExceeds unit b n x f) : (headKind x).beginsBody = true := by
  have hvar (hx : (headKind x).isVarKeyword = true) : (headKind x).beginsBody = true := by
    rw [TokenKind.beginsBody, hx]
    rfl
  cases h with
  | blocks h => exact hvar (isVarKeyword_of_blocks h)
  | statements hblocks _ h =>
    generalize b.blocks = blocks at hblocks
    cases hblocks with
    | nil => exact (beginsBody_of_stmts h).2
    | cons hb _ => exact hvar hb.isVarKeyword

/-! ## The rules give up -/

namespace Parser

theorem leadingBlockTurn_fails {b : VarBlock} (h : BlockSpelled unit b x y) (hb : BlockExceeds unit b n x f) :
    Fails (leadingBlockTurn n unit) x f := by
  refine .kind ?_
  rw [if_pos h.isVarKeyword]
  exact hb.fails.bind

theorem body_fails {b : Body} (h : BodyExceeds unit b n x f) : Fails (body n unit) x f := by
  cases h with
  | blocks h =>
    have hloop : LoopFails (leadingBlockTurn n unit) x f :=
      row_fails h BlockSpelled.length_lt (fun _ _ _ hb hle => ⟨_, leadingBlockTurn_more hb hle⟩)
        fun _ _ _ _ => leadingBlockTurn_fails
    exact hloop.collect.bind
  | @statements _ _ _ x₁ _ hblocks hle h =>
    have hleading := leadingBlocks_complete hblocks hle (beginsBody_of_stmts h).1
    have hstatements : Fails (statements n) x₁ f := (h.failsBy _ passesStatements_false).collect
    have hturn : Fails (bodyTurn n unit) x₁ f := by
      rw [bodyTurn_eq]
      exact hstatements.bind
    exact .after hleading (.bind (LoopFails.here hturn).collect)

theorem returnType?_fails {o : Option TypeRef} (h : OptionExceeds TypeExceeds n .colon o x f) :
    Fails (returnType? n) x f := by
  cases h with
  | some hw h => exact .eat hw (.orRecover h.fails.bind)

theorem unitTurn_fails {u : ProgramUnit} (h : UnitExceeds u n x f) : Fails (unitTurn n) x f := by
  refine .get fun s hs => ?_
  cases h with
  | algorithm hw hname h =>
    rw [hs]
    simp only [(ParserState.kind_of_cons hs).trans hw]
    exact .bind (.offset fun _ => .skip (.after (unitName_complete hname) (body_fails h).bind))
  | returnType hw hname h =>
    rw [hs]
    simp only [(ParserState.kind_of_cons hs).trans hw]
    exact .bind (.offset fun _ => .skip (.after (unitName_complete hname) (returnType?_fails h).bind))
  | method hw hname htype hle h =>
    have htype' := returnType?_complete htype hle h.beginsBody
    rw [hs]
    simp only [(ParserState.kind_of_cons hs).trans hw]
    refine .bind (.offset fun _ => .skip (.after (unitName_complete hname) (.after htype' ?_)))
    exact (body_fails h).bind

theorem units_fail {us : List ProgramUnit} (h : UnitsExceed us n x f) : Fails (collect (unitTurn n)) x f :=
  (row_fails h UnitSpelled.length_lt (fun _ _ _ hu hle => ⟨_, unitTurn_more hu hle⟩)
    fun _ _ _ _ _ => unitTurn_fails).collect

end Parser

end StructuredText
