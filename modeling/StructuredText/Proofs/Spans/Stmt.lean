import StructuredText.Proofs.Spans.Expr

/-!
# The tokens of statements

Whatever spells statements in a text, each of them spans the tokens that spell it, and so do the nodes inside it
(`StmtPhrase.Spelled.laid`).
-/

namespace StructuredText

variable {text : String} {x y : List Lexeme}

theorem ExprPhrase.Spelled.laid {e : Expr} {level : Nat} (h : (expr level e).Spelled x y) (hx : EndsText text x) :
    Laid text [.expr e] x y :=
  (h.placed hx : Fills text (.expr e) x y).laid

/-- The nodes of a phrase of statements. -/
def StmtPhrase.nodes : StmtPhrase → List Node
  | stmt st => [.stmt st]
  | stmts sts => sts.map .stmt
  | elsifs branches => branches.map .branch
  | elsePart body => (body.getD []).map .stmt
  | arm a => [.arm a]
  | arms as => as.map .arm

/-- A statement spelled by all the tokens of a row takes the place of the nodes below it. -/
theorem Laid.stmt {ns : List Node} {st : Stmt} (h : Laid text ns x y) (hchildren : st.children = ns)
    (hspelled : (StmtPhrase.stmt st).Spelled x y) (hspan : st.span = spanBetween x y) :
    Laid text (StmtPhrase.stmt st).nodes x y :=
  (h.node (n := .stmt st) hchildren hspelled hspan (hspelled.length_lt rfl)).laid

/-- What spells statements in a text is spanned by them. -/
theorem StmtPhrase.Spelled.laid {φ : StmtPhrase} (h : φ.Spelled x y) (hx : EndsText text x) :
    Laid text φ.nodes x y := by
  induction h with
  -- Statements with a body
  | ifThen hw hc hth hbody hbranches hlast hend ih₁ ih₂ ih₃ =>
    have hcondition := ((Laid.refl hx).token.andThen hc.laid).token
    have hparts := (((hcondition.andThen ih₁).andThen ih₂).andThen ih₃).drop hend.suffix
    exact hparts.stmt (by simp [Stmt.children, nodes]) (.ifThen hw hc hth hbody hbranches hlast hend) rfl
  | select hw he ho hne harms hlast hend ih₁ ih₂ =>
    have hselector := ((Laid.refl hx).token.andThen he.laid).token
    have hparts := ((hselector.andThen ih₁).andThen ih₂).drop hend.suffix
    exact hparts.stmt (by simp [Stmt.children, nodes]) (.select hw he ho hne harms hlast hend) rfl
  | forLoop hw hv ha h₁ ht h₂ h₃ hd hbody hend ih =>
    have hvar := ((Laid.refl hx).token.andThen fun hy => (Fills.ident hy hv).laid).token
    have hbounds := (hvar.andThen h₁.laid).token.andThen h₂.laid
    have hstep := (hbounds.andThen (h₃.laid (f := fun e => [.expr e]) fun h hx => h.laid hx)).token
    have hparts := (hstep.andThen ih).drop hend.suffix
    exact hparts.stmt (by simp [Stmt.children, nodes, List.map_eq_flatMap])
      (.forLoop hw hv ha h₁ ht h₂ h₃ hd hbody hend) rfl
  | whileLoop hw hc hd hbody hend ih =>
    have hcondition := ((Laid.refl hx).token.andThen hc.laid).token
    have hparts := (hcondition.andThen ih).drop hend.suffix
    exact hparts.stmt rfl (.whileLoop hw hc hd hbody hend) rfl
  | repeatLoop hw hbody hu hc hend ih =>
    have hparts := ((((Laid.refl hx).token.andThen ih).token).andThen hc.laid).drop hend.suffix
    exact hparts.stmt (by simp [Stmt.children, nodes]) (.repeatLoop hw hbody hu hc hend) rfl
  -- Statements without a body
  | @assign target value a e x x₁ y hhead htarget ha hvalue he =>
    have htarget' : Fills text (.expr target) x (a :: x₁) := htarget.placed hx
    have hparts := (htarget'.laid.token.andThen hvalue.laid).token
    exact hparts.stmt rfl (.assign hhead htarget ha hvalue he) rfl
  | @call callee e x y hhead hcallee he =>
    have hcallee' : Fills text (.expr callee) x (e :: y) := hcallee.placed hx
    exact hcallee'.laid.token.stmt rfl (.call hhead hcallee he) rfl
  | leave hw he => exact (Laid.refl hx).token.token.stmt rfl (.leave hw he) rfl
  | exit hw he => exact (Laid.refl hx).token.token.stmt rfl (.exit hw he) rfl
  | next hw he => exact (Laid.refl hx).token.token.stmt rfl (.next hw he) rfl
  | nop ht => exact (Laid.refl hx).token.stmt rfl (.nop ht) hx.spanBetween_one.symm
  -- Lists of statements
  | noStmts | noElsifs | noElse | noArms => exact .refl hx
  | moreStmts _ _ ih₁ ih₂ | moreArms _ _ ih₁ ih₂ => exact (ih₁ hx).andThen ih₂
  -- Branches
  | @moreElsifs c body branches w th x x₁ x₂ y hw hc hth hbody hbranches ih₁ ih₂ =>
    have hparts := ((Laid.refl hx).token.andThen hc.laid).token.andThen ih₁
    have hspelled : (elsifs [.mk c body (spanBetween (w :: x) x₂)]).Spelled (w :: x) x₂ :=
      .moreElsifs hw hc hth hbody .noElsifs
    have hlt : x₂.length < (w :: x).length := by
      have := hc.length_lt
      have := hbody.length_le.1
      simp only [List.length_cons] at *
      omega
    exact (hparts.node (n := .branch (.mk c body (spanBetween (w :: x) x₂))) rfl hspelled rfl hlt).laid.andThen ih₂
  | someElse _ _ ih => exact (Laid.refl hx).token.andThen ih
  | @arm labels body c x x₁ y hlabels hc hbody ih =>
    have hlabels' : Laid text (labels.map .expr) x (c :: x₁) := hlabels.placed hx
    have hspelled : (StmtPhrase.arm (.mk labels body (spanBetween x y))).Spelled x y := .arm hlabels hc hbody
    exact ((hlabels'.token.andThen ih).node (n := .arm (.mk labels body (spanBetween x y))) rfl hspelled rfl
      (hspelled.length_lt rfl)).laid

end StructuredText
