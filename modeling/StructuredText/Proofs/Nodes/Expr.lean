import StructuredText.Proofs.Nodes.Stands

/-!
# The nodes of expressions

The rules for expressions read nodes that are well shaped and stand in order. What a rule gives also has the shape that
the rules around it rely on (`YieldsExpr`): a tier gives no operator of a looser tier, and a unary expression no binary
operator at all. This goes by the levels, and on one level every loop keeps it.
-/

namespace StructuredText

variable {s₀ s s' : ParserState} {acc : List Node}

/-! ## Type names in front of literals -/

theorem Text.byteLength_le_of_prefix {cs ds : List Char} (h : cs <+: ds) : Text.byteLength cs ≤ Text.byteLength ds := by
  obtain ⟨rest, rfl⟩ := h
  rw [Text.byteLength_append]
  exact Nat.le_add_right _ _

theorem withoutHash_le (text : String) :
    Text.byteLength (withoutHash text).toList ≤ Text.byteLength text.toList := by
  rw [withoutHash, String.toList_ofList]
  refine Text.byteLength_le_of_prefix ?_
  have := List.reverse_prefix.2 (List.dropWhile_suffix (· == '#') (l := text.toList.reverse))
  rwa [List.reverse_reverse] at this

/-- The type name of a literal of one token begins with the token, and ends in it. -/
theorem Literal.ofToken_typeName (kind : LiteralKind) (token : Name) : ∀ name ∈ (ofToken kind token).typeName,
    name.span.start = token.span.start ∧
      name.span.stop ≤ token.span.start + Text.byteLength token.text.toList := by
  have hsplit : ∀ name ∈ (splitAtHash kind token).typeName, name.span.start = token.span.start ∧
      name.span.stop ≤ token.span.start + Text.byteLength token.text.toList := by
    intro name hname
    simp only [splitAtHash] at hname
    split at hname <;> cases hname
    exact ⟨rfl, Nat.add_le_add_left (Text.byteLength_le_of_prefix (List.takeWhile_prefix _)) _⟩
  cases kind with
  | bool | integer | nonDecimal | real | string | wideString =>
    intro name hname
    cases hname
  | duration | date | timeOfDay | dateAndTime => exact hsplit

namespace Stands

/-- A literal lies where a node of its span does if its type name lies in it. -/
theorem literal {l : Literal} {n : Node} (h : Stands s₀ [n] s) (hspan : l.span = n.span)
    (hname : s₀.InOrder → ∀ name ∈ l.typeName, (Node.typeName name).Within n) : Stands s₀ [.literal l] s := by
  have hchildren : ∀ c ∈ (Node.literal l).children, ∃ name ∈ l.typeName, c = .typeName name := by
    intro c hc
    obtain ⟨name, hname, rfl⟩ := List.mem_map.1 hc
    exact ⟨name, Option.mem_toList.1 hname, rfl⟩
  have hrow : (Node.literal l).children.Pairwise Node.Before := by
    cases hl : l.typeName <;> simp [Node.children, hl]
  refine ⟨h.run, ?_, fun hs => ?_, fun hs => ?_, fun _ => List.pairwise_singleton _ _⟩
  · refine List.forall_mem_singleton.2 (Node.every_iff.2 ⟨trivial, fun c hc => ?_⟩)
    obtain ⟨name, -, rfl⟩ := hchildren c hc
    exact Node.every_iff.2 ⟨trivial, by simp [Node.children]⟩
  · refine List.forall_mem_singleton.2 (Node.every_iff.2 ⟨.inl ⟨fun c hc => ?_, ?_⟩, fun c hc => ?_⟩)
    · obtain ⟨name, hmem, rfl⟩ := hchildren c hc
      have := hname hs name hmem
      rwa [Node.Within, ← hspan] at this
    · exact List.forall_mem_singleton.2 hrow
    · obtain ⟨name, -, rfl⟩ := hchildren c hc
      exact Node.every_iff.2
        ⟨.inl ⟨by simp [Node.children], List.forall_mem_singleton.2 .nil⟩, by simp [Node.children]⟩
  · obtain ⟨h₁, h₂, h₃⟩ := h.between hs n (List.mem_singleton_self n)
    refine List.forall_mem_singleton.2 ⟨?_, ?_, ?_⟩
    · rwa [show (Node.literal l).span = l.span from rfl, hspan]
    · rwa [show (Node.literal l).span = l.span from rfl, hspan]
    · rwa [show (Node.literal l).span = l.span from rfl, hspan]

end Stands

namespace Parser

/-! ## Names -/

theorem ok_ident {what : String} {name : Name} (h : ident what s = .ok name s') :
    s.kind = .ident ∧ name = ⟨s.text, s.span⟩ ∧ s' = s.advance := by
  rw [ident, bind_of_ok (sees_apply .ident s)] at h
  split at h
  · next hk =>
    cases h
    exact ⟨eq_of_beq hk, rfl, rfl⟩
  · exact absurd h not_ok_fail

theorem yields_ident (what : String) : Yields (ident what) fun name => [.name name] := by
  intro s name s' h
  obtain ⟨hk, rfl, rfl⟩ := ok_ident h
  exact (Stands.refl s).take hk (by decide)

theorem yields_qualifiedName (what : String) : Yields (qualifiedName what) fun name => [.name name] := by
  intro s name s' h
  rw [qualifiedName_eq] at h
  obtain ⟨first, s₁, -, hs, h⟩ := (Stands.refl s).bind (yields_ident what) h
  refine Yields.fold (fun name => [.name name]) ?_ hs h
  intro s₀ s name o s' hs h
  obtain ⟨more, s₁, -, hs, h⟩ := hs.pass h
  split at h
  · obtain ⟨part, s₂, -, hs, h⟩ := hs.bind (yields_ident "name") h
    cases h
    exact hs.cover rfl (.inl rfl) rfl trivial
  · cases h

/-! ## Literals -/

theorem stands_tokenLiteral {kind : LiteralKind} (hk : LiteralKind.ofToken? s.kind = some kind) :
    Stands s [.literal (.ofToken kind ⟨s.text, s.span⟩)] s.advance := by
  obtain ⟨t, hr, -⟩ := exists_of_ofToken? hk
  have hne : s.kind ≠ .eof := by
    intro heof
    rw [heof] at hk
    cases hk
  refine Stands.literal ((Stands.refl s).take rfl hne) (Literal.ofToken_span ..) fun hs name hname => ?_
  obtain ⟨hstart, hstop⟩ := Literal.ofToken_typeName kind _ name hname
  have hcovers := (hs.covers (t := t) (by rw [hr]; exact List.mem_cons_self)).length
  rw [ParserState.text_of_cons hr, ParserState.span_of_cons hr, hcovers] at hstop
  refine ⟨Nat.le_of_eq hstart.symm, ?_⟩
  show name.span.stop ≤ s.span.stop
  rwa [ParserState.span_of_cons hr]

theorem stands_timeOfDay {l : Literal} (hlt : s.advance.rest.length < s.rest.length) (h : timeOfDay s = .ok l s') :
    Stands s [.literal l] s' := by
  have hs := ((((Stands.refl s).skip).skip).skip).skip.skip
  have hlen := ((Stands.refl s.advance).skip.skip.skip.skip).length_le
  rw [timeOfDay, bind_of_ok (take_apply _), bind_of_ok (take_apply _), bind_of_ok (take_apply _),
    bind_of_ok (take_apply _), bind_of_ok (take_apply _), bind_of_ok (spanFrom_apply _ _)] at h
  cases h
  exact hs.close_taken (Nat.lt_of_le_of_lt hlen hlt) rfl rfl rfl trivial

theorem stands_typedLiteral {l : Literal} (hk : s.kind = .typedLiteralPrefix) (h : typedLiteral s = .ok l s') :
    Stands s [.literal l] s' := by
  have hrun := Lawful.run h
  obtain ⟨t, hr, -⟩ := ParserState.exists_of_kind hk (by decide)
  rw [typedLiteral, bind_of_ok (take_apply s)] at h
  dsimp only at h
  obtain ⟨sign, s₁, -, hs, h⟩ := ((Stands.refl s).take hk (by decide)).pass h
  rw [bind_of_ok (kind_apply s₁)] at h
  cases hkind : LiteralKind.ofToken? s₁.kind with
  | none =>
    rw [hkind] at h
    exact absurd h not_ok_fail
  | some kind =>
    rw [hkind] at h
    dsimp only at h
    rw [bind_of_ok (tokenLiteral_apply kind s₁)] at h
    have hs := hs.trans (stands_tokenLiteral hkind)
    generalize Literal.ofToken kind ⟨s₁.text, s₁.span⟩ = value at h hs
    have hcover := hs.cover (n := .name ⟨"", s.span.cover value.span⟩) rfl (.inl rfl) rfl trivial
    -- The type name lies in its token, which is the first one.
    have hname (hin : s.InOrder) : (Node.typeName ⟨withoutHash s.text,
        ⟨s.span.start, s.span.start + Text.byteLength (withoutHash s.text).toList⟩⟩).Within
          (.name ⟨"", s.span.cover value.span⟩) := by
      have hcovers := (hin.covers (t := t) (by rw [hr]; exact List.mem_cons_self)).length
      have hle := withoutHash_le t.text
      rw [ParserState.span_of_cons hr, ParserState.text_of_cons hr]
      simp only [Node.Within, Node.span, Span.cover]
      refine ⟨Nat.min_le_left _ _, ?_⟩
      rw [← hcovers]
      exact Nat.le_trans (Nat.add_le_add_left hle _) (Nat.le_max_left _ _)
    cases hfault : LiteralFault.of? (withoutHash s.text) kind sign.isSome with
    | none =>
      rw [hfault] at h
      cases h
      exact hcover.literal rfl fun hin => by simpa using hname hin
    | some fault =>
      rw [hfault] at h
      cases h
      exact (hcover.literal rfl fun hin => by simpa using hname hin).report hrun

theorem yields_literal : Yields literal fun l => [.literal l] := by
  intro s l s' h
  rw [literal, bind_of_ok (get_apply s)] at h
  generalize hk : s.kind = k at h
  split at h
  · exact stands_typedLiteral hk h
  · split at h
    · next htod =>
      obtain ⟨t, c, m, d, x, y, hr, -⟩ := atTimeOfDay_iff.1 htod
      exact stands_timeOfDay (by simp [hr]) h
    · generalize hkind : LiteralKind.ofToken? _ = o at h
      split at h
      · rw [tokenLiteral_apply] at h
        cases h
        exact stands_tokenLiteral (hk ▸ hkind)
      · exact absurd h not_ok_fail

/-! ## Binary operators -/

/-- What the rule gives is read as one node, and has the property. -/
def YieldsExpr (Q : Expr → Prop) (p : Parser Expr) : Prop :=
  ∀ ⦃s e s'⦄, p s = .ok e s' → Stands s [.expr e] s' ∧ Q e

theorem YieldsExpr.mono {Q R : Expr → Prop} {p : Parser Expr} (h : YieldsExpr Q p) (hQR : ∀ e, Q e → R e) :
    YieldsExpr R p :=
  fun _ _ _ he => ⟨(h he).1, hQR _ (h he).2⟩

theorem YieldsExpr.yields {Q : Expr → Prop} {p : Parser Expr} (h : YieldsExpr Q p) : Yields p fun e => [.expr e] :=
  fun _ _ _ he => (h he).1

theorem yields_binaryTier (tier : BinaryTier) {operand : Parser Expr} [Lawful operand]
    (hop : YieldsExpr (·.AtLeast (tier.level + 1)) operand) :
    YieldsExpr (·.AtLeast tier.level) (binaryTier tier operand) := by
  intro s e s' h
  rw [binaryTier_eq] at h
  obtain ⟨left, s₁, hleft, h⟩ := ok_bind_iff.1 h
  obtain ⟨hs, hl⟩ := hop hleft
  refine fold_invariant (I := fun e s₁ => Stands s [.expr e] s₁ ∧ e.AtLeast tier.level) h
    ⟨hs, hl.mono (Nat.le_succ _)⟩ ?_ ?_
  · rintro left s₁ e s₂ ⟨hs, hl⟩ h
    rw [tierTurn, bind_of_ok (kind_apply s₁)] at h
    generalize hop' : tier.op? s₁.kind = o at h
    split at h
    · next op =>
      obtain ⟨-, htier⟩ := BinaryTier.op?_eq_some_iff.1 hop'
      rw [bind_of_ok (skip_apply s₁)] at h
      obtain ⟨right, s₃, hright, hs, h⟩ := hs.skip.bind hop.yields h
      cases h
      rw [← htier] at hl ⊢
      exact ⟨hs.cover rfl (.inr rfl) rfl ⟨hl, htier ▸ (hop hright).2⟩, Nat.le_refl _⟩
    · cases h
  · rintro left s₁ s₂ ⟨hs, hl⟩ h
    obtain ⟨ts, hrun⟩ := Lawful.run h
    exact ⟨hs.trans (.of_run hrun), hl⟩

section

variable {unary : Parser Expr} [Lawful unary] (hu : YieldsExpr Expr.IsOperand unary)

include hu

theorem yields_boundOf : YieldsExpr (·.AtLeast 1) (boundOf unary) := by
  have hop : YieldsExpr (·.AtLeast 9) unary := hu.mono fun e he => he.atLeast 9
  exact yields_binaryTier .or <| yields_binaryTier .xor <| yields_binaryTier .and <|
    yields_binaryTier .equality <| yields_binaryTier .comparison <|
    yields_binaryTier .addSub <| yields_binaryTier .mulDivMod <| yields_binaryTier .power hop

theorem yields_exprOf : Yields (exprOf unary) fun e => [.expr e] :=
  (yields_binaryTier .subrange (yields_boundOf hu)).yields

/-! ## Brackets -/

theorem yields_parenthesized : Yields (parenthesized unary) fun e => [.expr e] := by
  intro s e s' h
  rw [parenthesized, bind_of_ok (skip_apply s)] at h
  obtain ⟨inner, s₁, -, hs, h⟩ := (Stands.refl s).skip.bind (yields_exprOf hu) h
  obtain ⟨_, s₂, -, hs, h⟩ := hs.pass h
  cases h
  exact hs

theorem yields_indices : Yields (indices unary) fun es => es.map .expr := by
  intro s es s' h
  rw [indices, bind_of_ok (skip_apply s)] at h
  obtain ⟨es, s₁, -, hs, h⟩ := (Stands.refl s).skip.bind (.sepByComma (yields_exprOf hu)) h
  obtain ⟨_, s₂, -, hs, h⟩ := hs.pass h
  cases h
  exact hs

omit [Lawful unary] hu in
theorem ensures_indices : Ensures (indices unary) (· ≠ []) := by
  intro s es s' h
  rw [indices, bind_of_ok (skip_apply s)] at h
  obtain ⟨es, s₁, hes, h⟩ := ok_bind_iff.1 h
  obtain ⟨_, s₂, -, h⟩ := ok_bind_iff.1 h
  cases h
  exact ensures_sepByComma _ hes

theorem stands_output {a : Arg} {negated : Bool} (hs : Stands s₀ [] s) (hk : s.kind = .ident)
    (h : arg.output unary s₀.span.start negated s = .ok a s') : Stands s₀ [.arg a] s' := by
  rw [arg.output, bind_of_ok (take_apply s), bind_of_ok (skip_apply _)] at h
  obtain ⟨value, s₁, -, hs, h⟩ := (hs.take hk (by decide)).skip.bind (yields_exprOf hu) h
  rw [bind_of_ok (spanFrom_apply _ _)] at h
  cases h
  exact hs.close (List.cons_ne_nil _ _) rfl rfl rfl trivial

theorem yields_arg : Yields (arg unary) fun a => [.arg a] := by
  intro s a s' h
  rw [arg, bind_of_ok (get_apply s)] at h
  generalize hk : s.kind = k, hk₁ : s.kindAt 1 = k₁, hk₂ : s.kindAt 2 = k₂ at h
  split at h
  · rw [ParserState.kindAt_one] at hk₁
    rw [bind_of_ok (skip_apply s)] at h
    exact stands_output hu (Stands.refl s).skip hk₁ h
  · exact stands_output hu (.refl s) hk h
  · rw [bind_of_ok (take_apply s), bind_of_ok (skip_apply _)] at h
    obtain ⟨value, s₁, -, hs, h⟩ := ((Stands.refl s).take hk (by decide)).skip.bind (yields_exprOf hu) h
    rw [bind_of_ok (spanFrom_apply _ _)] at h
    cases h
    exact hs.close (List.cons_ne_nil _ _) rfl rfl rfl trivial
  · obtain ⟨value, s₁, -, hs, h⟩ := (Stands.refl s).bind (yields_exprOf hu) h
    cases h
    exact hs.wrap rfl rfl rfl trivial

theorem yields_args : Yields (args unary) fun as => as.map .arg := by
  intro s as s' h
  rw [args, bind_of_ok (skip_apply s)] at h
  obtain ⟨closed, s₁, -, hs, h⟩ := (Stands.refl s).skip.pass h
  split at h
  · cases h
    exact hs
  · obtain ⟨as, s₂, -, hs, h⟩ := hs.bind (.sepByComma (yields_arg hu)) h
    obtain ⟨_, s₃, -, hs, h⟩ := hs.pass h
    cases h
    exact hs

end

/-! ## Primaries and suffixes -/

/-- The rule one level deeper, if there is one, reads unary expressions. -/
def YieldsDeeper (deeper : Option (Parser Expr)) : Prop := ∀ unary ∈ deeper, YieldsExpr Expr.IsOperand unary

section

variable {deeper : Option (Parser Expr)} [hl : LawfulDeeper deeper] (hd : YieldsDeeper deeper)

include hd

theorem yields_deeper {rule : Parser Expr → Parser β} {nodes : β → List Node}
    (h : ∀ unary, Lawful unary → YieldsExpr Expr.IsOperand unary → Yields (rule unary) nodes) :
    Yields (nested "expression" deeper rule) nodes :=
  .nested fun unary hunary => h unary (hl.of_mem unary hunary) (hd unary hunary)

theorem yields_primary : YieldsExpr Expr.IsAccess (primary deeper) := by
  intro s e s' h
  rw [primary, bind_of_ok (get_apply s)] at h
  generalize hk : s.kind = k at h
  split at h
  · obtain ⟨unary, hunary, h⟩ := ok_nested h
    have := hl.of_mem unary hunary
    obtain ⟨inner, s₁, -, hs, h⟩ := (Stands.refl s).bind (yields_parenthesized (hd unary hunary)) h
    rw [bind_of_ok (spanFrom_apply _ _)] at h
    cases h
    exact ⟨hs.close (List.cons_ne_nil _ _) rfl rfl rfl trivial, trivial⟩
  · obtain ⟨name, s₁, -, hs, h⟩ := (Stands.refl s).bind (yields_qualifiedName _) h
    cases h
    exact ⟨hs.wrap rfl rfl rfl trivial, trivial⟩
  · cases h
    exact ⟨.token hk (by decide) rfl rfl rfl trivial, trivial⟩
  · cases h
    exact ⟨.token hk (by decide) rfl rfl rfl trivial, trivial⟩
  · split at h
    · next hc =>
      have hk₁ := hc.1
      rw [ParserState.kindAt_one] at hk₁
      cases h
      have hs := ((Stands.refl s).take hk (by decide)).take hk₁ (by decide)
      have hname := hs.cover (n := .name ⟨s.text ++ s.advance.text, s.span.cover s.advance.span⟩) rfl (.inl rfl) rfl
        trivial
      exact ⟨hname.wrap rfl rfl rfl trivial, trivial⟩
    · obtain ⟨l, s₁, -, hs, h⟩ := (Stands.refl s).bind yields_literal h
      cases h
      exact ⟨hs.wrap rfl rfl rfl trivial, trivial⟩
  · split at h
    · obtain ⟨l, s₁, -, hs, h⟩ := (Stands.refl s).bind yields_literal h
      cases h
      exact ⟨hs.wrap rfl rfl rfl trivial, trivial⟩
    · exact absurd h not_ok_fail

/-- What follows a point behind an access makes another access. -/
theorem stands_selection {receiver e : Expr} (hs : Stands s₀ [.expr receiver] s) (hr : receiver.IsAccess)
    (h : selection deeper receiver s₀.span.start s = .ok e s') : Stands s₀ [.expr e] s' ∧ e.IsAccess := by
  rw [selection, bind_of_ok (kind_apply s)] at h
  generalize hk : s.kind = k at h
  split at h
  · cases h
    exact ⟨(hs.take hk (by decide)).close (List.cons_ne_nil _ _) rfl rfl rfl hr, trivial⟩
  · cases h
    have hs := hs.trans (.token (n := .selector (.ofToken ⟨s.text, s.span⟩)) hk (by decide) rfl rfl rfl trivial)
    exact ⟨hs.close (List.cons_ne_nil _ _) rfl rfl rfl hr, trivial⟩
  · rw [bind_of_ok (skip_apply s), bind_of_ok (kind_apply _)] at h
    generalize hk : s.advance.kind = k at h
    split at h
    · cases h
      have hs := hs.skip.trans (.token (n := .selector (.ofToken ⟨s.advance.text, s.advance.span⟩)) hk (by decide)
        rfl rfl rfl trivial)
      exact ⟨hs.close (List.cons_ne_nil _ _) rfl rfl rfl hr, trivial⟩
    · obtain ⟨index, s₁, -, hs, h⟩ := hs.skip.bind (yields_deeper hd fun _ _ hu => yields_parenthesized hu) h
      rw [bind_of_ok (spanFrom_apply _ _)] at h
      cases h
      exact ⟨hs.close (List.cons_ne_nil _ _) rfl rfl rfl hr, trivial⟩
    · exact absurd h not_ok_fail
  · exact absurd h not_ok_fail

/-- A suffix behind an access makes another access. -/
theorem stands_suffix? {receiver e : Expr} (hs : Stands s₀ [.expr receiver] s) (hr : receiver.IsAccess)
    (h : suffix? deeper s₀.span.start receiver s = .ok (some e) s') : Stands s₀ [.expr e] s' ∧ e.IsAccess := by
  rw [suffix?, bind_of_ok (kind_apply s)] at h
  generalize hk : s.kind = k at h
  split at h
  · rw [bind_of_ok (skip_apply s)] at h
    obtain ⟨e, s₁, he, h⟩ := ok_bind_iff.1 h
    cases h
    exact stands_selection hd hs.skip hr he
  · obtain ⟨es, s₁, hes, hs, h⟩ := hs.bind (yields_deeper hd fun _ _ hu => yields_indices hu) h
    obtain ⟨unary, -, hes⟩ := ok_nested hes
    rw [bind_of_ok (spanFrom_apply _ _)] at h
    cases h
    exact ⟨hs.close (List.cons_ne_nil _ _) rfl rfl rfl ⟨hr, ensures_indices hes⟩, trivial⟩
  · split at h
    · next hcallable =>
      obtain ⟨as, s₁, -, hs, h⟩ := hs.bind (yields_deeper hd fun _ _ hu => yields_args hu) h
      rw [bind_of_ok (spanFrom_apply _ _)] at h
      cases h
      exact ⟨hs.close (List.cons_ne_nil _ _) rfl rfl rfl hcallable, trivial⟩
    · cases h
  · cases h

theorem yields_accessOf : YieldsExpr Expr.IsAccess (accessOf deeper) := by
  intro s e s' h
  rw [accessOf, bind_of_ok (offset_apply s)] at h
  obtain ⟨e₀, s₁, he₀, h⟩ := ok_bind_iff.1 h
  refine fold_invariant (I := fun e s₁ => Stands s [.expr e] s₁ ∧ e.IsAccess) h (yields_primary hd he₀) ?_ ?_
  · rintro e₁ s₁ e₂ s₂ ⟨hs, ha⟩ h
    exact stands_suffix? hd hs ha h
  · rintro e₁ s₁ s₂ ⟨hs, ha⟩ h
    obtain ⟨ts, hrun⟩ := Lawful.run h
    exact ⟨hs.trans (.of_run hrun), ha⟩

theorem yields_unaryOf : YieldsExpr Expr.IsOperand (unaryOf deeper) := by
  intro s e s' h
  rw [unaryOf, bind_of_ok (kind_apply s)] at h
  generalize UnaryOp.ofToken? s.kind = o at h
  split at h
  · rw [bind_of_ok (offset_apply s), bind_of_ok (skip_apply s)] at h
    obtain ⟨operand, s₁, hoperand, hs, h⟩ :=
      (Stands.refl s).skip.bind (yields_deeper hd fun _ _ hu => hu.yields) h
    obtain ⟨unary, hunary, hoperand⟩ := ok_nested hoperand
    rw [bind_of_ok (spanFrom_apply _ _)] at h
    cases h
    exact ⟨hs.close (List.cons_ne_nil _ _) rfl rfl rfl (hd unary hunary hoperand).2, trivial⟩
  · exact (yields_accessOf hd).mono (fun _ he => he.isOperand) h

end

/-! ## All levels -/

theorem yields_unary (levels : Nat) : YieldsExpr Expr.IsOperand (unary levels) := by
  induction levels with
  | zero => exact yields_unaryOf nofun
  | succ levels ih => exact yields_unaryOf fun unary hunary => by cases hunary; exact ih

theorem yields_expr (levels : Nat) : Yields (expr levels) fun e => [.expr e] := yields_exprOf (yields_unary levels)

theorem yields_bound (levels : Nat) : YieldsExpr (·.AtLeast 1) (bound levels) := yields_boundOf (yields_unary levels)

end Parser

end StructuredText
