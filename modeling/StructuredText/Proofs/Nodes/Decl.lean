import StructuredText.Proofs.Nodes.Expr

/-!
# The nodes of declarations

Types, initial values and variable blocks read nodes that are well shaped and stand in order. A broken declaration is
skipped, and a block keeps the others. Where something is reported about the word that opens a block, the word is taken
by then, so that the block begins with it all the same (`exists_varBlock_eq`).
-/

namespace StructuredText.Parser

variable {s₀ s s' : ParserState} {acc : List Node}

/-! ## Types -/

theorem yields_typeRefOf {deeper : Option (Parser TypeRef)}
    (hd : ∀ p ∈ deeper, Yields p fun type => [.type type]) : Yields (typeRefOf deeper) fun type => [.type type] := by
  intro s type s' h
  rw [typeRefOf, bind_of_ok (kind_apply s)] at h
  generalize hk : s.kind = k at h
  split at h
  · cases h
    exact .token hk nofun rfl rfl rfl trivial
  · rw [bind_of_ok (offset_apply s), bind_of_ok (skip_apply s)] at h
    obtain ⟨target, s₁, -, hs, h⟩ := (Stands.refl s).skip.bind (.nested hd) h
    rw [bind_of_ok (spanFrom_apply _ _)] at h
    cases h
    exact hs.close (List.cons_ne_nil _ _) rfl rfl rfl trivial
  · obtain ⟨name, s₁, -, hs, h⟩ := (Stands.refl s).bind (yields_qualifiedName _) h
    cases h
    exact hs.wrap rfl rfl rfl trivial
  · exact absurd h not_ok_fail

theorem yields_typeRef (levels : Nat) : Yields (typeRef levels) fun type => [.type type] := by
  induction levels with
  | zero => exact yields_typeRefOf nofun
  | succ levels ih => exact yields_typeRefOf fun p hp => by cases hp; exact ih

/-! ## Initial values -/

section

variable {item : Parser α} {close : TokenKind}

theorem yields_listUpTo [Lawful item] {f : α → Node} (h : Yields item fun a => [f a]) :
    Yields (listUpTo close item) fun as => as.map f := by
  intro s as s' has
  obtain ⟨as, s₁, -, hs, has⟩ := (Stands.refl s).bind (.sepByComma h) has
  obtain ⟨_, s₂, -, hs, has⟩ := hs.pass has
  cases has
  exact hs

theorem ensures_listUpTo (close : TokenKind) (item : Parser α) : Ensures (listUpTo close item) (· ≠ []) := by
  intro s as s' h
  obtain ⟨as, s₁, has, h⟩ := ok_bind_iff.1 h
  obtain ⟨_, s₂, -, h⟩ := ok_bind_iff.1 h
  cases h
  exact ensures_sepByComma _ has

end

section

variable {initializer : Parser Initializer} [hlaw : Lawful initializer]
  (hi : Yields initializer fun v => [.initial v])

include hi

theorem yields_arrayElement : Yields (arrayElement initializer) fun e => [.element e] := by
  intro s e s' h
  rw [arrayElement, bind_of_ok (get_apply s)] at h
  split at h
  · obtain ⟨count, s₁, -, hs, h⟩ := (Stands.refl s).bind yields_literal h
    rw [bind_of_ok (skip_apply s₁)] at h
    obtain ⟨closed, s₂, -, hs, h⟩ := hs.skip.pass h
    split at h
    · cases h
      exact hs.close (List.cons_ne_nil _ _) rfl rfl rfl trivial
    · obtain ⟨values, s₃, -, hs, h⟩ := hs.bind (yields_listUpTo hi) h
      cases h
      exact hs.close (List.cons_ne_nil _ _) rfl rfl rfl trivial
  · obtain ⟨value, s₁, -, hs, h⟩ := (Stands.refl s).bind hi h
    cases h
    exact hs.wrap rfl rfl rfl trivial

theorem yields_arrayInitializer : Yields (arrayInitializer initializer) fun v => [.initial v] := by
  intro s v s' h
  rw [arrayInitializer, bind_of_ok (offset_apply s), bind_of_ok (skip_apply s)] at h
  obtain ⟨elements, s₁, helements, hs, h⟩ := (Stands.refl s).skip.bind (yields_listUpTo (yields_arrayElement hi)) h
  have hne : elements ≠ [] := ensures_listUpTo _ _ helements
  cases h
  exact hs.close (by simp [hne]) rfl rfl rfl hne

omit hlaw in
theorem yields_fieldInit : Yields (fieldInit initializer) fun f => [.field f] := by
  intro s f s' h
  rw [fieldInit, bind_of_ok (offset_apply s)] at h
  obtain ⟨field, s₁, -, hs, h⟩ := (Stands.refl s).bind (yields_ident _) h
  obtain ⟨_, s₂, -, hs, h⟩ := hs.pass h
  obtain ⟨value, s₃, -, hs, h⟩ := hs.bind hi h
  cases h
  exact hs.close (List.cons_ne_nil _ _) rfl rfl rfl trivial

theorem yields_recordInitializer : Yields (recordInitializer initializer) fun v => [.initial v] := by
  intro s v s' h
  rw [recordInitializer, bind_of_ok (offset_apply s), bind_of_ok (skip_apply s)] at h
  obtain ⟨fields, s₁, hfields, hs, h⟩ := (Stands.refl s).skip.bind (yields_listUpTo (yields_fieldInit hi)) h
  have hne : fields ≠ [] := ensures_listUpTo _ _ hfields
  cases h
  exact hs.close (by simp [hne]) rfl rfl rfl hne

end

theorem yields_initializerOf {expr : Parser Expr} (he : Yields expr fun e => [.expr e])
    {deeper : Option (Parser Initializer)} [hl : LawfulDeeper deeper]
    (hd : ∀ p ∈ deeper, Yields p fun v => [.initial v]) : Yields (initializerOf expr deeper) fun v => [.initial v] := by
  have hnested {rule : Parser Initializer → Parser Initializer} (hrule : ∀ p, Lawful p →
      (Yields p fun v => [.initial v]) → Yields (rule p) fun v => [.initial v]) :
      Yields (nested "initializer" deeper rule) fun v => [.initial v] :=
    .nested fun p hp => hrule p (hl.of_mem p hp) (hd p hp)
  intro s v s' h
  rw [initializerOf, bind_of_ok (get_apply s)] at h
  generalize s.kind = k, s.kindAt 1 = k₁, s.kindAt 2 = k₂ at h
  split at h
  · exact hnested (fun _ _ => yields_arrayInitializer) h
  · exact hnested (fun _ _ => yields_recordInitializer) h
  · obtain ⟨e, s₁, -, hs, h⟩ := (Stands.refl s).bind he h
    cases h
    exact hs.wrap rfl rfl rfl trivial

theorem yields_initializer (levels : Nat) : Yields (initializer levels) fun v => [.initial v] := by
  induction levels with
  | zero => exact yields_initializerOf (yields_expr 0) nofun
  | succ levels ih => exact yields_initializerOf (yields_expr _) fun p hp => by cases hp; exact ih

/-! ## Variables -/

section

variable (levels : Nat)

theorem yields_arrayBounds : Yields (arrayBounds levels) fun b => [.bounds b] := by
  intro s b s' h
  rw [arrayBounds, bind_of_ok (offset_apply s)] at h
  obtain ⟨lower, s₁, hlower, hs, h⟩ := (Stands.refl s).bind (yields_bound levels).yields h
  obtain ⟨_, s₂, -, hs, h⟩ := hs.pass h
  obtain ⟨upper, s₃, hupper, hs, h⟩ := hs.bind (yields_bound levels).yields h
  cases h
  refine hs.close (List.cons_ne_nil _ _) rfl rfl rfl ⟨?_, ?_⟩
  · exact (yields_bound levels hlower).2.not_isRange
  · exact (yields_bound levels hupper).2.not_isRange

theorem yields_arrayDimensions : Yields (arrayDimensions levels) ArrayShape.nodes := by
  refine .pass fun stars => ?_
  split
  · exact .pass fun _ => .pure rfl
  · have hbounds : Yields _ fun bounds => (ArrayShape.bounded bounds).nodes := .sepByComma (yields_arrayBounds levels)
    exact hbounds.then

theorem ensures_arrayDimensions : Ensures (arrayDimensions levels) fun shape => 0 < shape.dimensions := by
  intro s shape s' h
  rw [arrayDimensions, bind_of_ok (sees_apply .star s)] at h
  split at h
  · obtain ⟨stars, s₁, hstars, h⟩ := ok_bind_iff.1 h
    cases h
    exact List.length_pos_of_ne_nil (ensures_sepByComma _ hstars)
  · obtain ⟨bounds, s₁, hbounds, h⟩ := ok_bind_iff.1 h
    cases h
    exact List.length_pos_of_ne_nil (ensures_sepByComma _ hbounds)

/-- An array has a dimension. -/
theorem stands_arrayShape? {o : Option ArrayShape} (h : arrayShape? levels s = .ok o s') :
    Stands s (o.toList.flatMap ArrayShape.nodes) s' ∧ ∀ shape ∈ o, 0 < shape.dimensions := by
  obtain ⟨isArray, s₁, -, hs, h⟩ := (Stands.refl s).pass h
  split at h
  · obtain ⟨_, s₂, -, hs, h⟩ := hs.pass h
    obtain ⟨shape, s₃, hshape, hs, h⟩ := hs.bind (yields_arrayDimensions levels) h
    obtain ⟨_, s₄, -, hs, h⟩ := hs.pass h
    obtain ⟨_, s₅, -, hs, h⟩ := hs.pass h
    cases h
    refine ⟨by simpa using hs, ?_⟩
    rintro shape ⟨⟩
    exact ensures_arrayDimensions levels hshape
  · cases h
    exact ⟨hs, nofun⟩

theorem yields_location? : Yields location? fun o => o.toList.map .name := by
  refine .pass fun more => ?_
  split
  · exact Yields.then (f := some) (yields_qualifiedName _)
  · exact .pure rfl

theorem yields_maxLength? : Yields (maxLength? levels) fun o => o.toList.map .expr := by
  intro s o s' h
  obtain ⟨more, s₁, -, hs, h⟩ := (Stands.refl s).pass h
  split at h
  · obtain ⟨length, s₂, -, hs, h⟩ := hs.bind (yields_expr levels) h
    obtain ⟨_, s₃, -, hs, h⟩ := hs.pass h
    cases h
    exact hs
  · cases h
    exact hs

theorem yields_initial? : Yields (initial? levels) fun o => o.toList.map .initial := by
  refine .pass fun more => ?_
  split
  · exact Yields.then (f := some) (yields_initializer levels)
  · exact .pure rfl

theorem yields_varDecl : Yields (varDecl levels) fun d => [.decl d] := by
  intro s d s' h
  rw [varDecl, bind_of_ok (offset_apply s)] at h
  obtain ⟨name, s₁, -, hs, h⟩ := (Stands.refl s).bind (yields_ident _) h
  obtain ⟨location, s₂, -, hs, h⟩ := hs.bind yields_location? h
  obtain ⟨_, s₃, -, hs, h⟩ := hs.pass h
  obtain ⟨shape, s₄, hshape, h⟩ := ok_bind_iff.1 h
  obtain ⟨hshape, hpos⟩ := stands_arrayShape? levels hshape
  obtain ⟨type, s₅, -, hs, h⟩ := (hs.trans hshape).bind (yields_typeRef levels) h
  obtain ⟨maxLength, s₆, -, hs, h⟩ := hs.bind (yields_maxLength? levels) h
  obtain ⟨initial, s₇, -, hs, h⟩ := hs.bind (yields_initial? levels) h
  obtain ⟨_, s₈, -, hs, h⟩ := hs.pass h
  cases h
  exact hs.close (List.cons_ne_nil _ _) rfl rfl rfl hpos

theorem yields_varDeclTurn : Yields (varDeclTurn levels) fun t => t.items.map .decl := by
  refine .pass fun s => ?_
  split
  · exact fun _ _ _ h => absurd h not_ok_fail
  · split
    · exact .pass fun _ => .pure rfl
    · split
      · split
        · exact .pass fun _ => .pure rfl
        · refine .orRecover (Yields.then (f := fun d => Turn.more [d]) (yields_varDecl levels)) ?_
          exact .pass fun _ => .pure rfl
      · split
        · exact .pass fun _ => .pure rfl
        · exact .pass fun _ => .pass fun _ => .pure rfl

/-! ## Blocks -/

variable {levels} {unit : UnitKind} {b : VarBlock} {k : TokenKind}

/-- A block takes the word that opens it. -/
theorem length_lt_of_varBlock (hk : s.kind = k) (hne : k ≠ .eof) (h : varBlock levels unit s = .ok b s') :
    s'.rest.length < s.rest.length := by
  obtain ⟨t, hr, -⟩ := ParserState.exists_of_kind hk hne
  obtain ⟨kind, s₁, hrun, heq⟩ := exists_varBlock_eq levels unit s
  rw [heq] at h
  have hle := Lawful.length_le h
  have hrest := hrun.rest_eq
  rw [hr] at hrest ⊢
  rw [hrest, List.take_succ_cons, List.length_append, List.length_cons]
  omega

theorem stands_varBlock (hk : s.kind = k) (hne : k ≠ .eof) (h : varBlock levels unit s = .ok b s') :
    Stands s [.block b] s' := by
  have hlt := length_lt_of_varBlock hk hne h
  obtain ⟨kind, s₁, hrun, heq⟩ := exists_varBlock_eq levels unit s
  rw [heq] at h
  obtain ⟨isConstant, s₂, -, hs, h⟩ := (Stands.of_run hrun).pass h
  obtain ⟨decls, s₃, -, hs, h⟩ := hs.bind (.collect_map (yields_varDeclTurn levels)) h
  cases h
  exact hs.close_taken hlt rfl rfl rfl trivial

end

end StructuredText.Parser
