import StructuredText.Proofs.Printing.Printed
import StructuredText.Proofs.Spans

/-!
# The tokens of expressions

Whatever spells an expression in a text is spanned by it, and so is what spells the nodes inside it
(`ExprPhrase.Spelled.placed`). Spans are made in three ways: of the tokens taken, of one token, and around the operands
of a binary operator; they agree since the tokens of a text stand in order.
-/

namespace StructuredText

variable {text : String} {x y : List Lexeme} {t u : Lexeme}

/-! ## Names -/

theorem QualifiedName.fills {name : Name} (h : QualifiedName name x y) (hx : EndsText text x) :
    Fills text (.name name) x y := by
  induction h with
  | one ht => exact .ident hx ht
  | @more name c t x y h hc ht ih =>
    have hname := ih hx
    have hlast : Fills text (.name t.name) (t :: y) y := .ident hname.laid.token.rest ht
    have hspelled : QualifiedName ⟨name.text ++ "::" ++ t.text, name.span.cover t.span⟩ x y := .more h hc ht
    exact (Laid.none hx (hlast.laid.suffix.trans hname.laid.token.suffix)).node rfl (NameSpelled.qualified hspelled)
      (hname.cover (List.suffix_cons c _) hlast) hspelled.length_lt

/-- The span around two tokens is that of all tokens from the one to the other. -/
theorem EndsText.cover_eq (ts : List Lexeme) (hx : EndsText text (t :: (ts ++ u :: y))) :
    t.span.cover u.span = spanBetween (t :: (ts ++ u :: y)) y := by
  have hassoc : t :: (ts ++ u :: y) = (t :: (ts ++ [u])) ++ y := by simp
  obtain ⟨k, hstand⟩ := hx.stand
  rw [hassoc] at hstand ⊢
  rw [spanBetween_append]
  exact (StandFrom.append_iff.1 hstand).1.cover_eq

/-! ## Literals -/

/-- What stands in a token in front of its first `#` is a node inside the token. -/
theorem Laid.typeName {name : Name} (hx : EndsText text (t :: y)) (h : name.FrontOf t) :
    Laid text [.typeName name] (t :: y) y := by
  have hcovers := hx.covers.length
  obtain ⟨value, htext⟩ := h.text_eq
  rw [htext, Text.byteLength_append] at hcovers
  refine ⟨hx, List.suffix_cons t y, List.forall_mem_singleton.2 ?_, List.forall_mem_singleton.2 ?_,
    List.pairwise_singleton _ _⟩
  · exact Node.every_iff.2 ⟨⟨.typeName hx.mem h, nofun, .nil⟩, nofun⟩
  · rw [hx.spanBetween_one, Node.span, h.span_eq]
    exact ⟨Nat.lt_succ_self _, Nat.le_refl _, by dsimp only; omega⟩

/-- The type name of a literal of one token stands in the token in front of the first `#`. -/
theorem Literal.frontOf_ofToken (kind : LiteralKind) (t : Lexeme) :
    ∀ name ∈ (ofToken kind t.name).typeName, name.FrontOf t := by
  have hsplit : ∀ name ∈ (splitAtHash kind t.name).typeName, name.FrontOf t := by
    intro name hname
    simp only [splitAtHash] at hname
    split at hname
    · next c value hdrop =>
      cases hname
      have htext : t.text.toList.takeWhile (· != '#') ++ c :: value = t.text.toList := by
        rw [← hdrop]
        exact List.takeWhile_append_dropWhile
      have hc : c = '#' := by
        have := List.head?_dropWhile_not (· != '#') t.text.toList
        rw [show List.dropWhile (· != '#') t.text.toList = c :: value from hdrop] at this
        simpa using this
      rw [hc] at htext
      refine ⟨⟨value, ?_⟩, ?_, ?_⟩
      · rw [String.toList_ofList]
        exact htext.symm
      · rw [String.toList_ofList]
        intro hmem
        simpa using List.mem_takeWhile_imp hmem
      · rw [String.toList_ofList]
        rfl
    · cases hname
  cases kind with
  | bool | integer | nonDecimal | real | string | wideString =>
    intro name hname
    cases hname
  | duration | date | timeOfDay | dateAndTime => exact hsplit

/-- The type name in front of a literal is its token without the `#`. -/
theorem EndsText.frontOf (hx : EndsText text (t :: y)) (hk : t.kind = .typedLiteralPrefix) :
    Name.FrontOf ⟨withoutHash t.text,
      ⟨t.span.start, t.span.start + Text.byteLength (withoutHash t.text).toList⟩⟩ t := by
  cases (lexed_significant text).suffix hx with
  | cons hscanned _ =>
    obtain ⟨f, hscanned, -⟩ := hscanned (by rw [hk]; exact nofun) (by rw [hk]; exact nofun)
    rw [hk] at hscanned
    obtain ⟨w, hword, htext, hname⟩ := hscanned.withoutHash
    refine ⟨⟨[], ?_⟩, ?_, rfl⟩
    · rw [htext, hname, String.toList_ofList]
    · rw [hname, String.toList_ofList]
      intro hmem
      cases hword.part _ hmem

theorem LiteralSpelled.fills {l : Literal} (h : LiteralSpelled l x y) (hx : EndsText text x) :
    Fills text (.literal l) x y := by
  have hspelled : (Node.literal l).Spelled x y := h
  cases h with
  | @token kind t y hk hnot =>
    have hname : Laid text ((Node.literal (.ofToken kind t.name)).children) (t :: y) y := by
      cases htype : (Literal.ofToken kind t.name).typeName with
      | none =>
        rw [Node.children, htype]
        exact (Laid.refl hx).token
      | some name =>
        rw [Node.children, htype]
        exact .typeName hx (Literal.frontOf_ofToken kind t name htype)
    refine hname.node rfl hspelled ?_ (Nat.lt_succ_self _)
    rw [hx.spanBetween_one, Node.span, Literal.ofToken_span]
    rfl
  | timeOfDay h =>
    have hlaid := (Laid.refl hx).token.token.token.token.token
    exact hlaid.node rfl hspelled rfl (by simp only [List.length_cons]; omega)
  | @typed kind p v y hp hv hf =>
    have hspan := hx.cover_eq []
    exact (Laid.typeName hx (hx.frontOf hp)).token.node rfl hspelled hspan (by simp only [List.length_cons]; omega)
  | @typedSigned kind p sign v y hp hs hv hf =>
    have hspan := hx.cover_eq [sign]
    exact (Laid.typeName hx (hx.frontOf hp)).token.token.node rfl hspelled hspan
      (by simp only [List.length_cons]; omega)

/-! ## Expressions -/

/-- The phrase is spelled by the tokens `x` of the text in front of `y`: what is one node spans them, and what is a row
of nodes stands in them. -/
def ExprPhrase.Placed (text : String) : ExprPhrase → List Lexeme → List Lexeme → Prop
  | expr _ e | unary e | access e | primary e => Fills text (.expr e)
  | exprs es => Laid text (es.map .expr)
  | arg a => Fills text (.arg a)
  | args as => Laid text (as.map .arg)

/-- An expression spelled by all the tokens of a row takes the place of the nodes below it. -/
theorem Laid.expr {ns : List Node} {e : Expr} (h : Laid text ns x y) (hchildren : e.children = ns)
    (hspelled : (ExprPhrase.expr 0 e).Spelled x y) (hspan : e.span = spanBetween x y) : Fills text (.expr e) x y :=
  h.node hchildren hspelled hspan hspelled.length_lt

theorem Laid.arg {ns : List Node} {a : Arg} (h : Laid text ns x y) (hchildren : a.children = ns)
    (hspelled : (ExprPhrase.arg a).Spelled x y) (hspan : a.span = spanBetween x y) : Fills text (.arg a) x y :=
  h.node hchildren hspelled hspan hspelled.length_lt

/-- The number of a partial access. -/
theorem Fills.selector (hx : EndsText text (t :: y)) (hk : t.kind = .intLiteral) :
    Fills text (.selector (.ofToken t.name)) (t :: y) y :=
  .one hx rfl ⟨t, rfl, hk, rfl⟩ rfl

/-- What spells a phrase of expressions in a text is spanned by it. -/
theorem ExprPhrase.Spelled.placed {φ : ExprPhrase} (h : φ.Spelled x y) (hx : EndsText text x) :
    φ.Placed text x y := by
  have hexpr {e : Expr} {x y : List Lexeme} (h : (ExprPhrase.access e).Spelled x y) :
      (ExprPhrase.expr 0 e).Spelled x y :=
    .operand (.access h)
  induction h with
  -- Binary operators
  | operand _ ih | access _ ih | primary _ ih => exact ih hx
  | binary _ ho hl hr ihl ihr =>
    have hleft := ihl hx
    have hright := ihr hleft.laid.token.rest
    exact (hleft.laid.token.append hright.laid).expr rfl (.binary (Nat.zero_le _) ho hl hr)
      (hleft.cover (List.suffix_cons _ _) hright)
  -- Unary operators
  | unary ho h ih =>
    exact ((Laid.refl hx).token.append (ih hx.tail).laid).expr rfl (.operand (.unary ho h)) rfl
  -- Suffixes
  | member h hd hn ih =>
    exact ((ih hx).laid.token.andThen fun hy => (Fills.ident hy hn).laid).expr rfl (hexpr (.member h hd hn)) rfl
  | part h hd hn ih =>
    exact ((ih hx).laid.token.andThen fun hy => (Fills.selector hy hn).laid).expr rfl (hexpr (.part h hd hn)) rfl
  | widePart h hd hw hn ih =>
    exact ((ih hx).laid.token.token.andThen fun hy => (Fills.selector hy hn).laid).expr rfl
      (hexpr (.widePart h hd hw hn)) rfl
  | partAt h hd hw hl hi hr ih ihi =>
    exact ((ih hx).laid.token.token.token.andThen fun hy => (ihi hy).laid).token.expr rfl
      (hexpr (.partAt h hd hw hl hi hr)) rfl
  | index h hl hes hr ih ihes =>
    exact ((ih hx).laid.token.andThen ihes).token.expr rfl (hexpr (.index h hl hes hr)) rfl
  | callEmpty h hc hl hr ih => exact (ih hx).laid.token.token.expr rfl (hexpr (.callEmpty h hc hl hr)) rfl
  | call h hc hl has hr ih ihas =>
    exact ((ih hx).laid.token.andThen ihas).token.expr rfl (hexpr (.call h hc hl has hr)) rfl
  -- Primaries
  | name h =>
    have hname := h.fills hx
    exact hname.laid.expr rfl (hexpr (.primary (.name h))) hname.span_eq
  | this ht => exact (Laid.refl hx).token.expr rfl (hexpr (.primary (.this ht))) hx.spanBetween_one.symm
  | super ht => exact (Laid.refl hx).token.expr rfl (hexpr (.primary (.super ht))) hx.spanBetween_one.symm
  | paren hl h hr ih =>
    exact ((Laid.refl hx).token.append (ih hx.tail).laid).token.expr rfl (hexpr (.primary (.paren hl h hr))) rfl
  | @enumerated p n y hp hname hn =>
    have hspan := hx.cover_eq []
    have hnode := (Laid.refl hx).token.token.node (n := .name ⟨p.text ++ n.text, p.span.cover n.span⟩) rfl
      (NameSpelled.enumerated hp hname hn) hspan (by simp only [List.length_cons]; omega)
    exact hnode.laid.expr rfl (hexpr (.primary (.enumerated hp hname hn))) hspan
  | literal h =>
    have hliteral := h.fills hx
    exact hliteral.laid.expr rfl (hexpr (.primary (.literal h))) hliteral.span_eq
  -- Lists
  | lastExpr _ ih | lastArg _ ih => exact (ih hx).laid
  | moreExprs _ _ _ ih ihes => exact (ih hx).laid.token.andThen ihes
  | moreArgs _ _ _ ih ihas => exact (ih hx).laid.token.andThen ihas
  -- Arguments
  | positional h ih => exact (ih hx).laid.arg rfl (.positional h) (ih hx).span_eq
  | input hp ha h ih =>
    exact ((Fills.ident hx hp).laid.token.andThen fun hy => (ih hy).laid).arg rfl (.input hp ha h) rfl
  | output hp ha h ih =>
    exact ((Fills.ident hx hp).laid.token.andThen fun hy => (ih hy).laid).arg rfl (.output hp ha h) rfl
  | negatedOutput hn hp ha h ih =>
    have hparam := (Laid.refl hx).token.append (Fills.ident hx.tail hp).laid
    exact (hparam.token.andThen fun hy => (ih hy).laid).arg rfl (.negatedOutput hn hp ha h) rfl

end StructuredText
