import StructuredText.Proofs.Spans.Stmt

/-!
# The tokens of declarations and units

Whatever spells a type, an initial value, a declaration, a block of variables or a unit in a text is spanned by it, and
so is what spells the nodes inside it (`TypeSpelled.laid`, `InitPhrase.Spelled.placed`, `DeclSpelled.laid`,
`UnitSpelled.fills`).
-/

namespace StructuredText

variable {text : String} {x y : List Lexeme}

/-! ## Types -/

theorem TypeSpelled.laid {type : TypeRef} (h : TypeSpelled type x y) (hx : EndsText text x) :
    Laid text [.type type] x y := by
  have hspelled : (Node.type type).Spelled x y := h
  have hlt := h.length_lt
  induction h with
  | elementary ht => exact (Fills.one hx rfl hspelled rfl).laid
  | named h => exact ((h.fills hx).laid.node rfl hspelled (h.fills hx).span_eq hlt).laid
  | reference hw h ih =>
    exact (((Laid.refl hx).token.append (ih hx.tail h h.length_lt)).node rfl hspelled rfl hlt).laid

/-! ## Initial values -/

/-- The phrase is spelled by the tokens `x` of the text in front of `y`: what is one node spans them, and what is a row
of nodes stands in them. -/
def InitPhrase.Placed (text : String) : InitPhrase → List Lexeme → List Lexeme → Prop
  | value v => Fills text (.initial v)
  | values vs => Laid text (vs.map .initial)
  | element e => Fills text (.element e)
  | elements es => Laid text (es.map .element)
  | field f => Fills text (.field f)
  | fields fs => Laid text (fs.map .field)

/-- The number in front of `(` is no time of day. -/
theorem Fills.count {c l : Lexeme} (hx : EndsText text (c :: l :: x)) (hc : c.kind = .intLiteral)
    (hl : l.kind = .lParen) : Fills text (.literal (.ofToken .integer c.name)) (c :: l :: x) (l :: x) := by
  have hnot : ¬StartsTimeOfDay (c :: l :: x) := by
    rintro ⟨_, _, _, _, _, _, heq, htime⟩
    cases heq
    have hcolon := htime.colon
    rw [hl] at hcolon
    cases hcolon
  exact LiteralSpelled.fills (.token (by rw [hc]; rfl) hnot) hx

/-- What spells an initial value in a text is spanned by it. -/
theorem InitPhrase.Spelled.placed {φ : InitPhrase} (h : φ.Spelled x y) (hx : EndsText text x) : φ.Placed text x y := by
  induction h with
  | @expr e x y h =>
    have he : Fills text (.expr e) x y := h.placed hx
    exact he.laid.node (n := .initial (.value e)) rfl (.expr h) he.span_eq h.length_lt
  | array hl hes hr ih =>
    have h : (value _).Spelled _ _ := .array hl hes hr
    exact ((Laid.refl hx).token.append (ih hx.tail)).token.node rfl h rfl h.length_lt
  | record hl hfs hr ih =>
    have h : (value _).Spelled _ _ := .record hl hfs hr
    exact ((Laid.refl hx).token.append (ih hx.tail)).token.node rfl h rfl h.length_lt
  | single h ih =>
    have h' : (element _).Spelled _ _ := .single h
    exact (ih hx).laid.node rfl h' (ih hx).span_eq h.length_lt
  | @repeatedNone c l r y hc hl hr =>
    have h : (element _).Spelled (c :: l :: r :: y) y := .repeatedNone hc hl hr
    exact (Fills.count hx hc hl).laid.token.token.node rfl h rfl h.length_lt
  | repeated hc hl hvs hr ih =>
    have h : (element _).Spelled _ _ := .repeated hc hl hvs hr
    exact ((Fills.count hx hc hl).laid.token.andThen ih).token.node rfl h rfl h.length_lt
  | field hn ha hv ih =>
    have h : (InitPhrase.field _).Spelled _ _ := .field hn ha hv
    exact ((Fills.ident hx hn).laid.token.andThen fun hy => (ih hy).laid).node rfl h rfl h.length_lt
  | lastValue _ ih | lastElement _ ih | lastField _ ih => exact (ih hx).laid
  | moreValues _ _ _ ih ihs | moreElements _ _ _ ih ihs | moreFields _ _ _ ih ihs =>
    exact (ih hx).laid.token.andThen ihs

theorem InitPhrase.Spelled.laid {v : Initializer} (h : (value v).Spelled x y) (hx : EndsText text x) :
    Laid text [.initial v] x y :=
  (h.placed hx : Fills text (.initial v) x y).laid

/-! ## Variables -/

theorem BoundsSpelled.laid {b : ArrayBounds} (h : BoundsSpelled b x y) (hx : EndsText text x) :
    Laid text [.bounds b] x y := by
  have hlt := h.length_lt
  have hspelled : (Node.bounds b).Spelled x y := h
  cases h with
  | mk hl hd hu => exact (((hl.laid hx).token.andThen hu.laid).node rfl hspelled rfl hlt).laid

theorem OneToken.laid {k : TokenKind} {u : Unit} (h : OneToken k u x y) (hx : EndsText text x) : Laid text [] x y := by
  cases h with
  | mk _ => exact (Laid.refl hx).token

theorem DimensionsSpelled.laid {shape : ArrayShape} (h : DimensionsSpelled shape x y) (hx : EndsText text x) :
    Laid text shape.nodes x y := by
  cases h with
  | @bounded bounds x y h =>
    rw [ArrayShape.nodes, List.map_eq_flatMap]
    exact h.laid BoundsSpelled.laid hx
  | @unbounded stars x y h =>
    have hstars : Laid text (stars.flatMap fun _ => []) x y := h.laid OneToken.laid hx
    rwa [List.flatMap_eq_nil_iff.2 fun _ _ => rfl] at hstars

theorem ShapeSpelled.laid {shape : ArrayShape} (h : ShapeSpelled shape x y) (hx : EndsText text x) :
    Laid text shape.nodes x y := by
  cases h with
  | mk _ h _ _ => exact ((Laid.refl hx).token.andThen h.laid).token.token

theorem LengthSpelled.laid {e : Expr} (h : LengthSpelled e x y) (hx : EndsText text x) : Laid text [.expr e] x y := by
  cases h with
  | mk h _ => exact (h.laid hx).token

/-- What spells a declaration in a text is spanned by it. -/
theorem DeclSpelled.laid {d : VarDecl} (h : DeclSpelled d x y) (hx : EndsText text x) : Laid text [.decl d] x y := by
  have hlt := h.length_lt
  have hspelled : (Node.decl d).Spelled x y := h
  cases h with
  | mk hn hlocation hc hshape htype hlength hinitial he =>
    have hname := (Fills.ident hx hn).laid
    have hlocation := (hname.andThen (hlocation.laid (f := fun n => [.name n]) fun h hx => (h.fills hx).laid)).token
    have hshape := hlocation.andThen (hshape.laid ShapeSpelled.laid)
    have hlength := (hshape.andThen htype.laid).andThen (hlength.laid LengthSpelled.laid)
    have hinitial := hlength.andThen (hinitial.laid (f := fun v => [.initial v]) fun h hx => h.laid hx)
    exact (hinitial.token.node (n := .decl _) (by simp [Node.children, VarDecl.children, List.map_eq_flatMap]) hspelled
      rfl hlt).laid

/-! ## Blocks -/

theorem ConstantSpelled.suffix {isConstant : Bool} (h : ConstantSpelled isConstant x y) : y <:+ x := by
  cases h with
  | no => exact List.suffix_rfl
  | yes _ => exact List.suffix_cons _ _

theorem BlockSpelled.laid {unit : UnitKind} {b : VarBlock} (h : BlockSpelled unit b x y) (hx : EndsText text x) :
    Laid text [.block b] x y := by
  have hlt := h.length_lt
  have hspelled : (Node.block b).Spelled x y := ⟨unit, h⟩
  cases h with
  | mk hw _ hconstant hdecls he =>
    have hopen := (Laid.refl hx).token.drop hconstant.suffix
    have hdecls := hopen.andThen (hdecls.laid DeclSpelled.laid)
    exact (hdecls.token.node (n := .block _) (by simp [Node.children, List.map_eq_flatMap]) hspelled rfl hlt).laid

/-! ## Units -/

/-- In a body, the blocks stand before the statements. -/
theorem BodySpelled.laid {unit : UnitKind} {body : Body} (h : BodySpelled unit body x y) (hx : EndsText text x) :
    Laid text (body.blocks.map .block ++ body.statements.map .stmt) x y := by
  cases h with
  | mk hblocks hstmts hend =>
    rw [List.map_eq_flatMap]
    exact ((hblocks.laid BlockSpelled.laid hx).andThen hstmts.laid).drop hend.suffix

/-- What spells a unit in a text is spanned by it. -/
theorem UnitSpelled.fills {u : ProgramUnit} (h : UnitSpelled u x y) (hx : EndsText text x) :
    Fills text (.unit u) x y := by
  have hlt := h.length_lt
  have hspelled : (Node.unit u).Spelled x y := h
  cases h with
  | algorithm hw hn hbody =>
    have hname := (Laid.refl hx).token.append (Fills.ident hx.tail hn).laid
    refine (hname.andThen hbody.laid).node ?_ hspelled rfl hlt
    simp [Node.children, ProgramUnit.header, ProgramUnit.body]
  | method hw hn htype hbody =>
    have hname := (Laid.refl hx).token.append (Fills.ident hx.tail hn).laid
    have htype := hname.andThen (htype.laid TypeSpelled.laid)
    exact (htype.andThen hbody.laid).node
      (by simp [Node.children, ProgramUnit.header, ProgramUnit.body, List.map_eq_flatMap]) hspelled rfl hlt

end StructuredText
