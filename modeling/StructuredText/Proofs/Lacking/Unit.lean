import StructuredText.Proofs.Complete.Unit
import StructuredText.Proofs.Lacking.Decl
import StructuredText.Proofs.Lacking.Stmt

/-!
# Units that lack one `;`

A body is read without the `;` of one of its declarations or statements (`body_lacks_decl`, `body_lacks_stmt`), and so
is a row of units with such a body in it (`units_lack`).
-/

namespace StructuredText

namespace Parser

variable {levels : Nat} {unit : UnitKind} {x x₁ x₂ y : List Lexeme} {rs rs₁ rs₂ : List Report} {span : Span}
  {ready : List Lexeme → Prop}

/-! ## Bodies -/

/-- The word that closes a unit ends the statements in front of it. -/
theorem halts_of_end {stops : ParserState → Bool} (h : BlockEnd unit.endKeyword x y) : Halts stops x :=
  .of_ends (by rw [h.headKind_eq, unit.endsStatements_endKeyword])

/-- The part of a body is the block, up to spans. -/
def IsBlock (b : VarBlock) (part : BodyPart) : Prop := ∃ b', part = .block b' ∧ b'.plain = b.plain

theorem exists_blocks {blocks : List VarBlock} {parts : List BodyPart} (h : List.Forall₂ IsBlock blocks parts) :
    ∃ bs : List VarBlock, parts = bs.map .block ∧ bs.map VarBlock.plain = blocks.map VarBlock.plain := by
  induction h with
  | nil => exact ⟨[], rfl, rfl⟩
  | cons hb _ ih =>
    obtain ⟨b, rfl, hb⟩ := hb
    obtain ⟨bs, rfl, hbs⟩ := ih
    exact ⟨b :: bs, rfl, by rw [List.map_cons, List.map_cons, hb, hbs]⟩

theorem leadingBlockTurn_leaves {b : VarBlock} (hx : (headKind x).isVarKeyword = true)
    (h : Leaves (varBlock levels unit) x (·.plain = b.plain) rs y) :
    ReadsOne (leadingBlockTurn levels unit) IsBlock b rs x y := by
  refine .kind ?_
  rw [if_pos hx]
  exact .before h fun b' hb => .pure ⟨_, rfl, b', rfl, hb⟩

theorem leadingBlocks_leave {blocks : List VarBlock} (h : Row (BlockSpelled unit) blocks x y)
    (hn : deepest VarBlock.nesting blocks ≤ levels) (hy : (headKind y).isVarKeyword = false) :
    LoopLeaves (leadingBlockTurn levels unit) x (List.Forall₂ IsBlock blocks) [] y := by
  refine h.leaves BlockSpelled.length_lt (fun b hb _ _ h => ?_) (leadingBlockTurn_last hy)
  exact (leadingBlockTurn_more h (deepest_le_iff.1 hn b hb)).leaves ⟨_, rfl, b, rfl, rfl⟩

theorem body_leaves {blocks : List VarBlock} {sts : List Stmt}
    (hblocks : LoopLeaves (leadingBlockTurn levels unit) x (List.Forall₂ IsBlock blocks) rs₁ x₁)
    (hsts : Leaves (statements levels) x₁ (Stmt.plainAll · = Stmt.plainAll sts) rs₂ x₂)
    (hend : BlockEnd unit.endKeyword x₂ y) :
    Leaves (body levels unit) x (·.plain = (⟨blocks, sts⟩ : Body).plain) (rs₂ ++ rs₁) y := by
  have hparts : Leaves (bodyTurn levels unit) x₁
      (fun t => ∃ parts, t = .last parts ∧ ∃ sts', parts = [.statements sts'] ∧ Stmt.plainAll sts' = Stmt.plainAll sts)
      rs₂ y := by
    rw [bodyTurn_eq]
    exact .before hsts fun sts' h => (bodyRest_complete hend).leaves ⟨_, rfl, sts', rfl, h⟩
  refine .bind hblocks.collect fun leading hleading => .before (LoopLeaves.last hparts).collect fun parts h => .pure ?_
  obtain ⟨bs, rfl, hbs⟩ := exists_blocks hleading
  obtain ⟨sts', rfl, hsts'⟩ := h
  rw [Body.ofParts_blocks, Body.plain, Body.plain, hbs, hsts']

/-- A body is read without the `;` of one of its declarations. -/
theorem body_lacks_decl {b : Body} (h : BodySpelled unit b x y) (hn : b.nesting ≤ levels) {b₀ : VarBlock} {d : VarDecl}
    (hb : b₀ ∈ b.blocks) (hd : d ∈ b₀.decls) :
    Lacks d.span (fun _ => True) (fun r x' => Leaves (body levels unit) x' (·.plain = b.plain) [r] y) x y := by
  cases h with
  | @mk blocks sts x x₁ x₂ _ hblocks hsts hend =>
    obtain ⟨hn₁, hn₂⟩ := Nat.max_le.1 hn
    have hn₁ := deepest_le_iff.1 hn₁
    have hlacks : Lacks d.span (fun _ => True) (fun r x' => LoopLeaves (leadingBlockTurn levels unit) x'
        (List.Forall₂ IsBlock blocks) [r] x₁) x x₁ := by
      refine hblocks.lacks BlockSpelled.length_lt BlockSpelled.removed (fun b hb _ _ h => ?_)
        (leadingBlockTurn_last (hsts.beginsBody_of_end hend).1) hb fun _ x y h _ => ?_
      · exact (leadingBlockTurn_more h (hn₁ b hb)).leaves ⟨_, rfl, b, rfl, rfl⟩
      · refine (block_lacks h (hn₁ b₀ hb) hd).around (Nat.le_refl _) fun z x' hx _ => ?_
        exact ⟨x', hx, fun r hr => leadingBlockTurn_leaves (by rw [hx.headKind_eq]; exact h.isVarKeyword) hr⟩
    have hle := Nat.le_trans (Nat.le_of_lt hend.length_lt) hsts.length_le.1
    have hread := statements_complete hsts hn₂ (halts_of_end hend)
    exact hlacks.around hle fun z x' hx _ => ⟨x', hx, fun r hr => body_leaves hr (hread.leaves rfl) hend⟩

/-- A body is read without the `;` of one of its statements. -/
theorem body_lacks_stmt {b : Body} (h : BodySpelled unit b x y) (hn : b.nesting ≤ levels) {place : Place} {st : Stmt}
    (hmem : (place, st) ∈ Stmt.placed .list b.statements) (hst : st.isSimple = true) :
    Lacks st.span (StmtPhrase.Ready place st)
      (fun r x' => Leaves (body levels unit) x' (·.plain = b.plain) [r] y) x y := by
  cases h with
  | @mk blocks sts x x₁ x₂ _ hblocks hsts hend =>
    obtain ⟨hn₁, hn₂⟩ := Nat.max_le.1 hn
    have hlacks : StmtPhrase.Lacking place st false (.stmts sts) x₁ x₂ :=
      hsts.lacking .list hmem hst fun h => by cases h
    refine hlacks.around (Nat.le_of_lt hend.length_lt) fun z x₁' hx₁ _ => ?_
    obtain ⟨x', hx, hblocks⟩ := blocks_removed hblocks hx₁
    refine ⟨x', hx, fun r hr => ?_⟩
    have hvar : (headKind x₁').isVarKeyword = false := by
      rw [hx₁.headKind_eq]
      exact (hsts.beginsBody_of_end hend).1
    have hread := leadingBlocks_leave hblocks hn₁ hvar
    exact body_leaves hread (hr levels hn₂ (halts_of_end hend)).collect hend

/-! ## Units -/

theorem algorithm_leaves {name : Name} {b : Body} {w n : Lexeme} (hn : n.kind = .ident) (hname : n.name = name)
    (h : Leaves (body levels .algorithm) x (·.plain = b.plain) rs y) :
    Leaves (algorithm levels) (w :: n :: x) (fun a => a.name.plain = name.plain ∧ a.body.plain = b.plain) rs y := by
  refine .offset fun _ => .skip (.after (unitName_complete hn) (.before h fun b' hb => .spanFrom fun _ => .pure ?_))
  exact ⟨by rw [hname], hb⟩

theorem method_leaves {type : Option TypeRef} {P : Body → Prop} {w n : Lexeme} (hn : n.kind = .ident)
    (htype : Gives (returnType? levels) x type x₁) (h : Leaves (body levels .method) x₁ P rs y) :
    Leaves (method levels) (w :: n :: x) (fun m => m.name = n.name ∧ m.returnType = type ∧ P m.body) rs y := by
  refine .offset fun _ => .skip (.after (unitName_complete hn) (.after htype ?_))
  exact .before h fun b hb => .spanFrom fun _ => .pure ⟨rfl, rfl, hb⟩

/-- A unit lacks a `;` that its body lacks. -/
theorem unit_lacks {u : ProgramUnit} (h : UnitSpelled u x y) (hn : u.nesting ≤ levels)
    (hbody : ∀ unit x, BodySpelled unit u.body x y →
      Lacks span ready (fun r x' => Leaves (body levels unit) x' (·.plain = u.body.plain) [r] y) x y) :
    Lacks span ready (fun r x' => ReadsOne (unitTurn levels) (fun u u' => u'.plain = u.plain) u [r] x' y) x y := by
  cases h with
  | @algorithm b w n x _ hw hname h =>
    refine (hbody _ _ h).around (Nat.le_refl _) fun z x' hx _ => ⟨_, hx.cons.cons, fun r hr => ?_⟩
    refine .get fun s hs => ?_
    rw [hs]
    simp only [(ParserState.kind_of_cons hs).trans hw]
    refine .before (algorithm_leaves hname rfl hr) fun a ha => .pure ⟨_, rfl, ?_⟩
    rw [ProgramUnit.plain, ProgramUnit.plain, ha.1, ha.2]
    rfl
  | @method type b w n x x₁ _ hw hname htype h =>
    obtain ⟨hn₁, hn₂⟩ := Nat.max_le.1 hn
    refine (hbody _ _ h).around (Nat.le_refl _) fun z x₁' hx₁ _ => ?_
    obtain ⟨x', hx, htype⟩ := htype.removed hx₁ fun h => h.swapped
    refine ⟨_, hx.cons.cons, fun r hr => ?_⟩
    have htype := returnType?_complete htype hn₁ (by rw [hx₁.headKind_eq]; exact h.beginsBody)
    refine .get fun s hs => ?_
    rw [hs]
    simp only [(ParserState.kind_of_cons hs).trans hw]
    refine .before (method_leaves hname htype hr) fun m hm => .pure ⟨_, rfl, ?_⟩
    rw [ProgramUnit.plain, ProgramUnit.plain, hm.1, hm.2.1, hm.2.2]
    rfl

/-- A row of units lacks a `;` that the body of one of them lacks. -/
theorem units_lack {us : List ProgramUnit} {u : ProgramUnit} (h : Row UnitSpelled us x [])
    (hn : deepest ProgramUnit.nesting us ≤ levels) (hu : u ∈ us)
    (hbody : ∀ unit x y, BodySpelled unit u.body x y →
      Lacks span ready (fun r x' => Leaves (body levels unit) x' (·.plain = u.body.plain) [r] y) x y) :
    Lacks span ready (fun r x' => LoopLeaves (unitTurn levels) x'
      (List.Forall₂ (fun u u' => u'.plain = u.plain) us) [r] []) x [] := by
  have hn := deepest_le_iff.1 hn
  refine h.lacks UnitSpelled.length_lt UnitSpelled.removed (fun u hu _ _ h => ?_) unitTurn_last hu
    fun _ _ y h _ => unit_lacks h (hn u hu) fun unit x => hbody unit x y
  exact (unitTurn_more h (hn u hu)).leaves ⟨u, rfl, rfl⟩

end Parser

end StructuredText
