import StructuredText.Parser.Unit
import StructuredText.Proofs.Grammar.Decl
import StructuredText.Proofs.Grammar.Stmt

/-!
# The grammar of units

A unit has a name, blocks of variables and statements behind them, up to the word that closes the unit and the `;`
behind it if there is one. A method may have a type.
-/

namespace StructuredText

/-- Blocks, then statements, then the word that closes the unit. -/
inductive BodySpelled (unit : UnitKind) : Body → List Lexeme → List Lexeme → Prop
  | mk {blocks : List VarBlock} {statements : List Stmt} {x x₁ x₂ y : List Lexeme} :
      Row (BlockSpelled unit) blocks x x₁ → (StmtPhrase.stmts statements).Spelled x₁ x₂ →
      BlockEnd unit.endKeyword x₂ y → BodySpelled unit ⟨blocks, statements⟩ x y

/-- `ALGORITHM name … END_ALGORITHM` or `METHOD name [: type] … END_METHOD` -/
inductive UnitSpelled : ProgramUnit → List Lexeme → List Lexeme → Prop
  | algorithm {body : Body} {w n : Lexeme} {x y : List Lexeme} :
      w.kind = .kwAlgorithm → n.kind = .ident → BodySpelled .algorithm body x y →
      UnitSpelled (.algorithm ⟨n.name, body, spanBetween (w :: n :: x) y⟩) (w :: n :: x) y
  | method {type : Option TypeRef} {body : Body} {w n : Lexeme} {x x₁ y : List Lexeme} :
      w.kind = .kwMethod → n.kind = .ident → Optionally TypeSpelled .colon type x x₁ → BodySpelled .method body x₁ y →
      UnitSpelled (.method ⟨n.name, type, body, spanBetween (w :: n :: x) y⟩) (w :: n :: x) y

/-- The deepest nesting in the blocks and statements. -/
def Body.nesting (b : Body) : Nat := max (deepest VarBlock.nesting b.blocks) (Stmt.nestingAll b.statements)

/-- The deepest nesting in the unit. -/
def ProgramUnit.nesting : ProgramUnit → Nat
  | .algorithm a => a.body.nesting
  | .method m => max (depthOf TypeRef.nesting m.returnType) m.body.nesting

/-! ## Lengths and first tokens -/

section

variable {unit : UnitKind} {x y : List Lexeme}

theorem BodySpelled.length_lt {body : Body} (h : BodySpelled unit body x y) : y.length < x.length := by
  cases h with
  | mk hblocks hstmts hend =>
    have := hblocks.length_le fun h => Nat.le_of_lt h.length_lt
    have := hstmts.length_le.1
    have := hend.length_lt
    omega

theorem UnitSpelled.length_lt {u : ProgramUnit} (h : UnitSpelled u x y) : y.length < x.length := by
  cases h with
  | algorithm _ _ h =>
    have := h.length_lt
    simp only [List.length_cons]
    omega
  | method _ _ htype h =>
    have := htype.length_le fun h => Nat.le_of_lt h.length_lt
    have := h.length_lt
    simp only [List.length_cons]
    omega

/-- The tokens with which statements or the end of a unit begin. -/
def TokenKind.beginsBody (k : TokenKind) : Bool :=
  k.isVarKeyword || k.isStatementKeyword || k.startsTarget || k == .semicolon || k == .kwEndAlgorithm ||
    k == .kwEndMethod

theorem StmtPhrase.Spelled.beginsBody {st : Stmt} (h : (StmtPhrase.stmt st).Spelled x y) :
    (headKind x).isVarKeyword = false ∧ (headKind x).beginsBody = true := by
  cases h with
  | assign hk _ _ _ _ | call hk _ _ =>
    revert hk
    generalize headKind x = k
    cases k <;> simp [TokenKind.startsTarget, TokenKind.isVarKeyword, TokenKind.beginsBody]
  | ifThen hk | select hk | forLoop hk | whileLoop hk | repeatLoop hk | leave hk | exit hk | next hk | nop hk =>
    rw [headKind_cons, hk]
    exact ⟨rfl, rfl⟩

theorem UnitKind.beginsBody_endKeyword (unit : UnitKind) :
    unit.endKeyword.isVarKeyword = false ∧ unit.endKeyword.beginsBody = true := by
  cases unit <;> exact ⟨rfl, rfl⟩

/-- Behind the blocks of a body, no other block stands. -/
theorem StmtPhrase.Spelled.beginsBody_of_end {sts : List Stmt} {x₁ : List Lexeme}
    (h : (StmtPhrase.stmts sts).Spelled x x₁) (hend : BlockEnd unit.endKeyword x₁ y) :
    (headKind x).isVarKeyword = false ∧ (headKind x).beginsBody = true := by
  cases h with
  | noStmts =>
    rw [hend.headKind_eq]
    exact unit.beginsBody_endKeyword
  | moreStmts h _ => exact h.beginsBody

theorem BlockSpelled.isVarKeyword {b : VarBlock} (h : BlockSpelled unit b x y) : (headKind x).isVarKeyword = true := by
  cases h with
  | @mk kind _ _ _ _ _ _ _ hw _ _ _ _ =>
    rw [headKind_cons, hw]
    exact kind.isVarKeyword_keyword

theorem BodySpelled.beginsBody {body : Body} (h : BodySpelled unit body x y) : (headKind x).beginsBody = true := by
  cases h with
  | mk hblocks hstmts hend =>
    cases hblocks with
    | nil => exact (hstmts.beginsBody_of_end hend).2
    | cons h _ =>
      rw [TokenKind.beginsBody, h.isVarKeyword]
      rfl

end

end StructuredText
