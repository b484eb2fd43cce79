import StructuredText.Proofs.Grammar.Swapped

/-!
# Spellings without a `;`

`Removed span z x x'` says that the tokens `x'` are the tokens `x` but for one `;`, which ends a part with this span and
stands in front of `z`. Where the part stands behind a phrase, the phrase is spelled as before (`removed`).
-/

namespace StructuredText

variable {x x' y y' z : List Lexeme} {e t : Lexeme} {span : Span}

/-- `x'` are the tokens `x` without the `;` in front of their tail `z`. What the `;` ends has this span, and holds a
token that is in no time of day. -/
def Removed (span : Span) (z x x' : List Lexeme) : Prop :=
  ∃ e p q, e.kind = .semicolon ∧ span = spanOf (q ++ [e]) ∧ Settled q ∧ x = p ++ (q ++ e :: z) ∧ x' = p ++ (q ++ z)

namespace Removed

/-- The part from `x` up to `z` loses its `;`. -/
theorem of_swapped (hx : Swapped (e :: z) z x x') (he : e.kind = .semicolon) (hlt : (e :: z).length < x.length)
    (hk : (headKind x).inTimeOfDay = false) : Removed (spanBetween x z) z x x' := by
  obtain ⟨q, rfl, rfl⟩ := hx
  refine ⟨e, [], q, he, ?_, ?_, rfl, rfl⟩
  · rw [← spanBetween_append (q ++ [e]) z, List.append_assoc, List.singleton_append]
  · cases q with
    | nil => exact absurd hlt (Nat.lt_irrefl _)
    | cons t q => exact .head hk

theorem swapped (h : Removed span z y y') (hx : Swapped y y' x x') : Removed span z x x' := by
  obtain ⟨e, p, q, he, hspan, hq, rfl, rfl⟩ := h
  obtain ⟨r, rfl, rfl⟩ := hx
  exact ⟨e, r ++ p, q, he, hspan, hq, (List.append_assoc r p _).symm, (List.append_assoc r p _).symm⟩

theorem cons (h : Removed span z x x') : Removed span z (t :: x) (t :: x') := h.swapped (.cons (.refl x x'))

/-- The tokens begin as before. -/
theorem headKind_eq (h : Removed span z x x') : headKind x' = headKind x := by
  obtain ⟨e, p, q, -, -, ⟨t, ht, -⟩, rfl, rfl⟩ := h
  cases p with
  | cons u p => rfl
  | nil =>
    cases q with
    | cons u q => rfl
    | nil => cases ht

theorem keepsTimes (h : Removed span z x x') : KeepsTimes x x' := by
  obtain ⟨e, p, q, -, -, hq, rfl, rfl⟩ := h
  rw [← List.append_assoc, ← List.append_assoc]
  exact .of_settled (hq.of_suffix (List.suffix_append p q))

/-- No `;` is new. -/
theorem semicolon (h : Removed span z x x') (hx : headKind x' = .semicolon) : headKind x = .semicolon :=
  h.headKind_eq ▸ hx

theorem length_lt (h : Removed span z x x') : z.length < x'.length := by
  obtain ⟨e, p, q, -, -, ⟨t, ht, -⟩, rfl, rfl⟩ := h
  have := List.length_pos_of_mem ht
  simp only [List.length_append]
  omega

end Removed

/-! ## Phrases in front of the part -/

theorem ExprPhrase.Spelled.removed {φ : ExprPhrase} (h : φ.Spelled x y) (hy : Removed span z y y') :
    ∃ x', Removed span z x x' ∧ φ.Spelled x' y' := by
  obtain ⟨x', hx, h⟩ := h.swapped hy.keepsTimes.number
  exact ⟨x', hy.swapped hx, h⟩

theorem Optionally.removed {R : α → List Lexeme → List Lexeme → Prop} {k : TokenKind} {o : Option α}
    (h : Optionally R k o x y) (hy : Removed span z y y')
    (hR : ∀ {a x}, R a x y → ∃ x', Swapped y y' x x' ∧ R a x' y') :
    ∃ x', Removed span z x x' ∧ Optionally R k o x' y' := by
  obtain ⟨x', hx, h⟩ := h.swapped hR
  exact ⟨x', hy.swapped hx, h⟩

theorem StmtPhrase.Spelled.removed {φ : StmtPhrase} (h : φ.Spelled x y) (hy : Removed span z y y') :
    ∃ x', Removed span z x x' ∧ φ.Spelled x' y' := by
  obtain ⟨x', hx, h⟩ := h.swapped (fun _ => hy.keepsTimes) (.of_head hy.semicolon)
  exact ⟨x', hy.swapped hx, h⟩

theorem DeclSpelled.removed {d : VarDecl} (h : DeclSpelled d x y) (hy : Removed span z y y') :
    ∃ x', Removed span z x x' ∧ DeclSpelled d x' y' := by
  obtain ⟨x', hx, h⟩ := h.swapped
  exact ⟨x', hy.swapped hx, h⟩

theorem ConstantSpelled.removed {isConstant : Bool} (h : ConstantSpelled isConstant x y) (hy : Removed span z y y') :
    ∃ x', Removed span z x x' ∧ ConstantSpelled isConstant x' y' := by
  obtain ⟨x', hx, h⟩ := h.swapped
  exact ⟨x', hy.swapped hx, h⟩

theorem BlockSpelled.removed {unit : UnitKind} {b : VarBlock} (h : BlockSpelled unit b x y)
    (hy : Removed span z y y') : ∃ x', Removed span z x x' ∧ BlockSpelled unit b x' y' := by
  obtain ⟨x', hx, h⟩ := h.swapped
  exact ⟨x', hy.swapped hx, h⟩

theorem blocks_removed {unit : UnitKind} {blocks : List VarBlock} (h : Row (BlockSpelled unit) blocks x y)
    (hy : Removed span z y y') : ∃ x', Removed span z x x' ∧ Row (BlockSpelled unit) blocks x' y' := by
  obtain ⟨x', hx, h⟩ := blocks_swapped h
  exact ⟨x', hy.swapped hx, h⟩

theorem UnitSpelled.removed {u : ProgramUnit} (h : UnitSpelled u x y) (hy : Removed span z y y') :
    ∃ x', Removed span z x x' ∧ UnitSpelled u x' y' := by
  obtain ⟨x', hx, h⟩ := h.swapped hy.semicolon
  exact ⟨x', hy.swapped hx, h⟩

end StructuredText
