import StructuredText.Proofs.Complete.Decl
import StructuredText.Proofs.Complete.Stmt
import StructuredText.Proofs.Sound.Unit

/-!
# What is spelled as a unit is read as one

Where the tokens to come begin with a spelling of a unit, the rule for units reads it and stops behind it, if its levels
are enough (`unitTurn_more`). What begins a body settles where the header of a method and the blocks are over.
-/

namespace StructuredText

theorem TokenKind.ne_of_beginsBody {k : TokenKind} (h : k.beginsBody = true) : k ≠ .colon ∧ k ≠ .colonColon := by
  constructor <;> rintro rfl <;> cases h

theorem UnitKind.endsStatements_endKeyword (unit : UnitKind) : unit.endKeyword.endsStatements = true := by
  cases unit <;> rfl

namespace Parser

variable {levels : Nat} {unit : UnitKind} {x x₁ y : List Lexeme}

/-! ## Bodies -/

theorem leadingBlockTurn_more {b : VarBlock} (h : BlockSpelled unit b x y) (hn : b.nesting ≤ levels) :
    Gives (leadingBlockTurn levels unit) x (.more [.block b]) y := by
  refine GivesFrom.gives (.kind ?_)
  rw [if_pos h.isVarKeyword]
  exact (varBlock_complete h hn).from.bind .pure

theorem leadingBlockTurn_last (h : (headKind x).isVarKeyword = false) :
    Gives (leadingBlockTurn levels unit) x (.last []) x := by
  refine GivesFrom.gives (.kind ?_)
  rw [if_neg (by simp [h])]
  exact .pure

theorem leadingBlocks_complete {blocks : List VarBlock} (h : Row (BlockSpelled unit) blocks x y)
    (hn : deepest VarBlock.nesting blocks ≤ levels) (hy : (headKind y).isVarKeyword = false) :
    Gives (collect (leadingBlockTurn levels unit)) x (blocks.map .block) y := by
  induction h with
  | nil => exact .collect_last turning_leadingBlockTurn (leadingBlockTurn_last hy)
  | cons h _ ih =>
    obtain ⟨hn, hns⟩ := Nat.max_le.1 hn
    exact .collect_more turning_leadingBlockTurn (leadingBlockTurn_more h hn) (ih hns hy)

theorem bodyRest_complete {part : BodyPart} (h : BlockEnd unit.endKeyword x y) :
    Gives (bodyRest levels unit part) x (.last [part]) y := by
  refine GivesFrom.gives (.get fun s hs => ?_)
  have hk : s.kind = unit.endKeyword := by rw [s.kind_eq_headKind, hs, h.headKind_eq]
  cases h with
  | plain ht hsemi =>
    rw [hs]
    simp only [hk, if_true]
    exact .skip (.eat_none hsemi .pure)
  | semicolon ht hu =>
    rw [hs]
    simp only [hk, if_true]
    exact .skip (.eat hu .pure)

theorem bodyTurn_complete {sts : List Stmt} (h : (StmtPhrase.stmts sts).Spelled x x₁)
    (hn : Stmt.nestingAll sts ≤ levels) (hend : BlockEnd unit.endKeyword x₁ y) :
    Gives (bodyTurn levels unit) x (.last [.statements sts]) y := by
  have hsts := statements_complete h hn (.of_ends (by rw [hend.headKind_eq, unit.endsStatements_endKeyword]))
  rw [bodyTurn_eq]
  exact hsts.bind (bodyRest_complete hend)

theorem body_complete {b : Body} (h : BodySpelled unit b x y) (hn : b.nesting ≤ levels) :
    Gives (body levels unit) x b y := by
  cases h with
  | @mk blocks sts x x₁ x₂ _ hblocks hstmts hend =>
    obtain ⟨hn₁, hn₂⟩ := Nat.max_le.1 hn
    have hleading := leadingBlocks_complete hblocks hn₁ (hstmts.beginsBody_of_end hend).1
    have hparts : Gives (collect (bodyTurn levels unit)) x₁ [.statements sts] y :=
      .collect_last turning_bodyTurn (bodyTurn_complete hstmts hn₂ hend)
    rw [← Body.ofParts_blocks]
    exact GivesFrom.gives (hleading.from.bind (hparts.from.bind .pure))

/-! ## Units -/

theorem unitName_complete {n : Lexeme} (hn : n.kind = .ident) : Gives unitName (n :: x) n.name x := by
  refine GivesFrom.gives (.sees ?_)
  rw [headKind_cons, hn, if_pos (by rfl)]
  exact Gives.take.from

theorem returnType?_complete {o : Option TypeRef} (h : Optionally TypeSpelled .colon o x y)
    (hn : depthOf TypeRef.nesting o ≤ levels) (hy : (headKind y).beginsBody = true) :
    Gives (returnType? levels) x o y := by
  obtain ⟨hcolon, hcolonColon⟩ := TokenKind.ne_of_beginsBody hy
  have hoptional : Gives (optional .colon (typeRef levels)) x o y := by
    refine optional_complete h hcolon fun type ho _ htype => ?_
    cases ho
    exact typeRef_complete htype hn hcolonColon
  intro s hs
  obtain ⟨s', h', hy⟩ := hoptional s hs
  exact ⟨s', reads_returnType?.2 h', hy⟩

theorem algorithm_complete {b : Body} {w n : Lexeme} (hn : n.kind = .ident) (h : BodySpelled .algorithm b x y)
    (hnest : b.nesting ≤ levels) :
    Gives (algorithm levels) (w :: n :: x) ⟨n.name, b, spanBetween (w :: n :: x) y⟩ y := by
  have hlt := h.length_lt
  refine Gives.offset (.skip ((unitName_complete hn).from.bind ((body_complete h hnest).from.bind ?_)))
  exact .spanFrom (by simp only [List.length_cons]; omega) .pure

theorem method_complete {type : Option TypeRef} {b : Body} {w n : Lexeme} (hn : n.kind = .ident)
    (htype : Optionally TypeSpelled .colon type x x₁) (h : BodySpelled .method b x₁ y)
    (hnest₁ : depthOf TypeRef.nesting type ≤ levels) (hnest₂ : b.nesting ≤ levels) :
    Gives (method levels) (w :: n :: x) ⟨n.name, type, b, spanBetween (w :: n :: x) y⟩ y := by
  have hlt := h.length_lt
  have hle := htype.length_le fun h => Nat.le_of_lt h.length_lt
  have htype' := returnType?_complete htype hnest₁ h.beginsBody
  refine Gives.offset (.skip ((unitName_complete hn).from.bind (htype'.from.bind ?_)))
  exact (body_complete h hnest₂).from.bind (.spanFrom (by simp only [List.length_cons]; omega) .pure)

/-- What is spelled as a unit is read as one. -/
theorem unitTurn_more {u : ProgramUnit} (h : UnitSpelled u x y) (hn : u.nesting ≤ levels) :
    Gives (unitTurn levels) x (.more [u]) y := by
  refine GivesFrom.gives (.get fun s hs => ?_)
  cases h with
  | algorithm hw hname hbody =>
    rw [hs]
    simp only [(ParserState.kind_of_cons hs).trans hw]
    exact (algorithm_complete hname hbody hn).from.bind .pure
  | method hw hname htype hbody =>
    obtain ⟨hn₁, hn₂⟩ := Nat.max_le.1 hn
    rw [hs]
    simp only [(ParserState.kind_of_cons hs).trans hw]
    exact (method_complete hname htype hbody hn₁ hn₂).from.bind .pure

theorem unitTurn_last : Gives (unitTurn levels) [] (.last []) [] := by
  refine GivesFrom.gives (.get fun s hs => ?_)
  rw [hs]
  exact .pure

theorem turning_unitTurn : Turning (unitTurn levels) := unitTurn_sound.turning UnitSpelled.length_lt

end Parser

end StructuredText
