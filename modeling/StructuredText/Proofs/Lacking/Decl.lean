import StructuredText.Proofs.Complete.Decl
import StructuredText.Proofs.Lacking.Lacks
import StructuredText.Proofs.Plain

/-!
# Declarations that lack their `;`

A declaration without its `;` is read up to `END_VAR` or to the next declaration, one of which always stands behind it
(`decl_lacks`), and so is its block (`block_lacks`).
-/

namespace StructuredText

variable {x x₁ y : List Lexeme} {t : Lexeme} {d : VarDecl}

/-! ## What stands behind a declaration -/

/-- In front of these tokens a declaration is over. -/
def EndsDecl (y : List Lexeme) : Prop :=
  headKind y = .kwEndVar ∨ headKind y = .ident ∧ (headKind y.tail = .colon ∨ headKind y.tail = .kwAt)

/-- Behind a declaration stands another one or the end of the block. -/
theorem EndsDecl.of_row {decls : List VarDecl} {e : Lexeme} (h : Row DeclSpelled decls x (e :: y))
    (he : e.kind = .kwEndVar) : EndsDecl x := by
  cases h with
  | nil => exact .inl he
  | cons hd _ =>
    obtain ⟨n, c, z, rfl, hn, hc⟩ := hd.cons_cons
    exact .inr ⟨hn, hc⟩

namespace EndsDecl

variable (h : EndsDecl y)

include h

theorem headKind_cases : headKind y = .kwEndVar ∨ headKind y = .ident := h.imp id And.left

theorem endsInitializer : (headKind y).endsInitializer = true := by
  rcases h.headKind_cases with hk | hk <;> rw [hk] <;> rfl

theorem ne_semicolon : headKind y ≠ .semicolon := by
  rcases h.headKind_cases with hk | hk <;> rw [hk] <;> decide

theorem ne_eof : headKind y ≠ .eof := by
  rcases h.headKind_cases with hk | hk <;> rw [hk] <;> decide

theorem ne_colon : headKind y ≠ .colon := by
  rcases h.headKind_cases with hk | hk <;> rw [hk] <;> decide

theorem atDeclEnd {s : ParserState} (hs : s.rest = y) : s.atDeclEnd = true := by
  rcases h with hk | ⟨hk, hnext⟩
  · rw [ParserState.atDeclEnd, s.kind_eq_headKind, hs, hk]
    simp
  · have hstart : s.atDeclStart = true := by
      rw [ParserState.atDeclStart, ParserState.kindAt_one, ParserState.kind_eq_headKind, ParserState.kind_eq_headKind,
        ParserState.advance_rest, hs, hk]
      rcases hnext with hk | hk <;> rw [hk] <;> rfl
    rw [ParserState.atDeclEnd, hstart]
    simp

end EndsDecl

/-! ## One declaration -/

namespace Parser

variable {levels : Nat} {rs : List Report} {P : VarDecl → Prop}

theorem expectDeclEnd_leaves (h : EndsDecl (t :: y)) :
    Leaves expectDeclEnd (t :: y) (fun _ => True) [missingSemicolon t] (t :: y) := by
  refine .sees ?_
  rw [if_neg (by simpa using h.ne_semicolon)]
  refine .get fun s hs => ?_
  rw [if_pos (h.atDeclEnd hs)]
  exact .missing

theorem varDecl_leaves_head (h : DeclHeadSpelled d x (t :: y)) (hy : EndsDecl (t :: y)) (hn : d.nesting ≤ levels) :
    Leaves (varDecl levels) x (·.plain = d.plain) [missingSemicolon t] (t :: y) := by
  obtain ⟨n, c, x₀, x₁, x₂, x₃, x₄, rfl, hname, heq, hc, h₁, h₂, h₃, h₄, h₅⟩ :=
    declHead_complete h hn hy.endsInitializer
  refine .offset fun _ => .after (ident_complete hname) (.after h₁ (.after (Gives.expect hc) (.after h₂ ?_)))
  refine .after h₃ (.after h₄ (.after h₅ (.before (expectDeclEnd_leaves hy) fun _ _ => .spanFrom fun _ => .pure ?_)))
  rw [VarDecl.plain, VarDecl.plain, heq]

/-- In front of a name and `:` or `AT`, a block goes on. -/
theorem varDeclTurn_leaves {n c : Lexeme} (hn : n.kind = .ident) (hc : c.kind = .colon ∨ c.kind = .kwAt)
    (h : Leaves (varDecl levels) (n :: c :: x) P rs y) :
    Leaves (varDeclTurn levels) (n :: c :: x) (fun t => ∃ d, t = .more [d] ∧ P d) rs y := by
  refine .get fun s hs => ?_
  have hk₀ : s.kind = .ident := (ParserState.kind_of_cons hs).trans hn
  have hk₁ : s.kindAt 1 = c.kind := ParserState.kindAt_one_of_cons hs
  have hstart : s.atStatementStart = false := by
    rw [ParserState.atStatementStart, hk₀, hk₁]
    rcases hc with hc | hc <;> rw [hc] <;> rfl
  rw [hs]
  simp only [hk₀, hstart]
  exact .orRecover (.before h fun d hd => .pure ⟨d, rfl, hd⟩)

/-- A declaration is read without its `;`. -/
theorem decl_lacks (h : DeclSpelled d x y) (hy : EndsDecl y) (hn : d.nesting ≤ levels) :
    Lacks d.span (fun _ => True)
      (fun r x' => ReadsOne (varDeclTurn levels) (fun d d' => d'.plain = d.plain) d [r] x' y) x y := by
  obtain ⟨e, he, hhead, hspan⟩ := h.exists_head
  obtain ⟨x', hx, hhead'⟩ := hhead.swapped (.of_ne hy.ne_colon)
  refine ⟨y, x', ?_, Nat.le_refl _, fun t z hz _ => ?_⟩
  · obtain ⟨n, c, z, rfl, hname, -⟩ := h.cons_cons
    rw [hspan]
    exact .of_swapped hx he hhead.length_lt (by rw [headKind_cons, hname]; rfl)
  · subst hz
    have hread := varDecl_leaves_head hhead' hy hn
    obtain ⟨n, c, z, rfl, hname, hc⟩ := hhead'.cons_cons
    exact varDeclTurn_leaves hname hc hread

/-! ## One block -/

theorem map_eq_of_forall₂ {f : α → β} {as bs : List α} (h : List.Forall₂ (fun a b => f b = f a) as bs) :
    bs.map f = as.map f := by
  induction h with
  | nil => rfl
  | cons hab _ ih => rw [List.map_cons, List.map_cons, hab, ih]

theorem varBlock_leaves {unit : UnitKind} {kind : BlockKind} {isConstant : Bool} {decls : List VarDecl} {span : Span}
    {w : Lexeme} (hw : w.kind = kind.keyword) (hunit : unit = .algorithm → kind = .temp)
    (hconstant : ConstantSpelled isConstant x x₁) (hne : headKind x₁ ≠ .kwConstant)
    (hdecls : LoopLeaves (varDeclTurn levels) x₁ (List.Forall₂ (fun d d' => d'.plain = d.plain) decls) rs y) :
    Leaves (varBlock levels unit) (w :: x) (·.plain = (⟨kind, isConstant, decls, span⟩ : VarBlock).plain) rs y := by
  have hrest (start : Nat) : Leaves (blockRest levels start kind) x
      (·.plain = (⟨kind, isConstant, decls, span⟩ : VarBlock).plain) rs y := by
    have hd (start : Nat) : Leaves (do
        let decls ← collect (varDeclTurn levels)
        return (⟨kind, isConstant, decls, ← spanFrom start⟩ : VarBlock)) x₁
        (·.plain = (⟨kind, isConstant, decls, span⟩ : VarBlock).plain) rs y := by
      refine .before hdecls.collect fun decls' h => .spanFrom fun _ => .pure ?_
      rw [VarBlock.plain, VarBlock.plain, map_eq_of_forall₂ h]
    cases hconstant with
    | no => exact .eat_none hne (hd start)
    | yes hc => exact .eat hc (hd start)
  rw [varBlock_eq]
  refine .get fun s hs => .skip ?_
  have hkind : blockKind s.span s.kind = pure kind := by
    rw [ParserState.kind_of_cons hs, hw]
    cases kind <;> rfl
  rw [hkind, pure_bind, if_neg fun h => h.2 (hunit h.1)]
  exact hrest _

/-- A block is read without the `;` of one of its declarations. -/
theorem block_lacks {unit : UnitKind} {b : VarBlock} (h : BlockSpelled unit b x y) (hn : b.nesting ≤ levels)
    (hd : d ∈ b.decls) :
    Lacks d.span (fun _ => True) (fun r x' => Leaves (varBlock levels unit) x' (·.plain = b.plain) [r] y) x y := by
  cases h with
  | @mk kind isConstant decls w e x x₁ _ hw hunit hconstant hdecls he =>
    have hn := deepest_le_iff.1 hn
    have hlacks : Lacks d.span (fun _ => True) (fun r x' => LoopLeaves (varDeclTurn levels) x'
        (List.Forall₂ (fun d d' => d'.plain = d.plain) decls) [r] y) x₁ (e :: y) := by
      refine hdecls.lacks DeclSpelled.length_lt DeclSpelled.removed (fun d hd _ _ h => ?_)
        (varDeclTurn_last ⟨e, rfl, he⟩) hd fun _ _ _ h hrow => decl_lacks h (.of_row hrow he) (hn d hd)
      exact (varDeclTurn_more h (hn d hd)).leaves ⟨d, rfl, rfl⟩
    refine hlacks.around (Nat.le_succ _) fun z x₁' hx₁ _ => ?_
    obtain ⟨x', hx, hconstant⟩ := hconstant.removed hx₁
    have hne : headKind x₁' ≠ .kwConstant := by
      rw [hx₁.headKind_eq]
      exact hdecls.headKind_ne he
    exact ⟨_, hx.cons, fun r hr => varBlock_leaves hw hunit hconstant hne hr⟩

end Parser

end StructuredText
