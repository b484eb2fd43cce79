import StructuredText.Proofs.Lacking.Rules
import StructuredText.Proofs.Lacking.Simple

/-!
# Statements that lack one `;`

Where a statement without a body loses its `;`, everything around it is read as before, with one report
(`StmtPhrase.Spelled.lacking`): the parts in front of it and behind it are spelled as before, and every list of
statements goes on where it did. In the body of an arm the statement is no call, which could be taken for a label.
-/

namespace StructuredText

open StructuredText.Parser

/-- Where a list of statements is over besides at its end: in an arm, in front of the next label. -/
def listStops : (inArm : Bool) → ParserState → Bool
  | false => fun _ => false
  | true => ParserState.atCaseLabel

theorem passesStatements_listStops (inArm : Bool) : PassesStatements (listStops inArm) := by
  cases inArm
  · exact passesStatements_false
  · exact passesStatements_atCaseLabel

namespace StmtPhrase

variable {levels : Nat} {inArm : Bool} {rs rs₁ rs₂ rs₃ : List Report} {x x₁ x₂ x₃ x₄ y z : List Lexeme} {w : Lexeme}

/-! ## What is read, with reports -/

/-- In front of these tokens, a list of statements goes on. -/
def GoesOn (inArm : Bool) (x : List Lexeme) : Prop :=
  ∀ s : ParserState, s.rest = x → (s.rest.isEmpty || s.kind.endsStatements || listStops inArm s) = false

theorem GoesOn.of_word {k : TokenKind} (hw : w.kind = k) (hk : k.isStatementKeyword = true) :
    GoesOn inArm (w :: x) := by
  intro s hs
  have hends : k.endsStatements = false := by cases k <;> first | rfl | cases hk
  have hlabel : s.atCaseLabel = false := by
    rw [ParserState.atCaseLabel, ParserState.kind_of_cons hs, hw]
    cases k <;> first | rfl | cases hk
  rw [ParserState.kind_of_cons hs, hw, hends, hs]
  cases inArm
  · rfl
  · exact hlabel

/-- The phrase is read up to spans, and `rs` is reported. A statement is not taken for the end of its list, and an arm
is taken for one. -/
def LeftBy (levels : Nat) (inArm : Bool) (rs : List Report) : StmtPhrase → List Lexeme → List Lexeme → Prop
  | .stmt st, x, y => GoesOn inArm x ∧ (st.nesting ≤ levels → Leaves (statement levels) x (·.plain = st.plain) rs y)
  | .stmts sts, x, y => Stmt.nestingAll sts ≤ levels → Halts (listStops inArm) y →
    LoopLeaves (statementTurn (statement levels) (listStops inArm)) x (Stmt.plainAll · = Stmt.plainAll sts) rs y
  | .elsifs branches, x, y => ElsifBranch.nestingAll branches ≤ levels → (headKind y).endsStatements = true →
    headKind y ≠ .kwElsif →
    LoopLeaves (elsifTurn (levelAt levels)) x (ElsifBranch.plainAll · = ElsifBranch.plainAll branches) rs y
  | .elsePart body, x, y => Stmt.nestingElse body ≤ levels → (headKind y).endsStatements = true →
    headKind y ≠ .kwElse → Leaves (elseBody (levelAt levels)) x (Stmt.plainElse · = Stmt.plainElse body) rs y
  | .arm a, x, y => (∀ s : ParserState, s.rest = x → s.atCaseLabel = true) ∧ (a.nesting ≤ levels →
    Halts ParserState.atCaseLabel y → Leaves (caseArm (levelAt levels)) x (·.plain = a.plain) rs y)
  | .arms as, x, y => (as ≠ [] → ∀ s : ParserState, s.rest = x → s.atCaseLabel = true) ∧
    (CaseArm.nestingAll as ≤ levels → (headKind y).endsStatements = true →
    LoopLeaves (caseArmTurn (levelAt levels)) x (CaseArm.plainAll · = CaseArm.plainAll as) rs y)

/-- What is spelled is read without a report. -/
theorem Spelled.leftBy {φ : StmtPhrase} (h : φ.Spelled x y) : φ.LeftBy levels inArm [] x y := by
  have hread := h.readBy levels
  cases φ with
  | stmt st =>
    exact ⟨fun s hs => not_over_of_stmt (passesStatements_listStops inArm) h hs, fun hn => (hread hn).leaves rfl⟩
  | stmts sts =>
    intro hn hy
    exact (hread hn _ (passesStatements_listStops inArm) hy).loop (turning_statementTurn (statement_sound levels) _) rfl
  | elsifs branches =>
    intro hn hy hne
    exact (hread hn hy hne).loop (turning_elsifTurn (unary_sound levels) (statement_sound levels)) rfl
  | elsePart body => exact fun hn hy hne => (hread hn hy hne).leaves rfl
  | arm a => exact ⟨fun s hs => atCaseLabel_of_arm h hs, fun hn hy => (hread hn hy).leaves rfl⟩
  | arms as =>
    refine ⟨fun hne s hs => ?_, fun hn hy =>
      (hread hn hy).loop (turning_caseArmTurn (unary_sound levels) (statement_sound levels)) rfl⟩
    cases h with
    | noArms => exact absurd rfl hne
    | moreArms ha _ => exact atCaseLabel_of_arm ha hs

/-! ## One lemma for each construct -/

namespace LeftBy

theorem list {sts : List Stmt} (h : (stmts sts).LeftBy levels false rs x y) (hn : Stmt.nestingAll sts ≤ levels)
    (hy : (headKind y).endsStatements = true) :
    LoopLeaves (statementTurn (levelAt levels).statement fun _ => false) x (Stmt.plainAll · = Stmt.plainAll sts) rs y :=
  h hn (.of_ends hy)

theorem ifThen {c : Expr} {body : List Stmt} {branches : List ElsifBranch} {last : Option (List Stmt)} {span : Span}
    {th : Lexeme} (hw : w.kind = .kwIf) (hc : (ExprPhrase.expr 0 c).Spelled x (th :: x₁)) (hth : th.kind = .kwThen)
    (hx₂ : (headKind x₂).endsStatements = true) (hx₃ : (headKind x₃).endsStatements = true)
    (hne : headKind x₃ ≠ .kwElsif) (hend : BlockEnd .kwEndIf x₄ y)
    (hbody : ∀ levels, (stmts body).LeftBy levels false rs₁ x₁ x₂)
    (hbranches : ∀ levels, (elsifs branches).LeftBy levels false rs₂ x₂ x₃)
    (hlast : ∀ levels, (elsePart last).LeftBy levels false rs₃ x₃ x₄) :
    (stmt (.ifThen c body branches last span)).LeftBy levels inArm (rs₃ ++ rs₂ ++ rs₁) (w :: x) y := by
  refine ⟨.of_word hw rfl, fun hn => ?_⟩
  rw [Stmt.nesting] at hn
  obtain ⟨m, hn, hlevel⟩ := ReadBy.exists_levelAt hn
  obtain ⟨hn₁, hn₂⟩ := Nat.max_le.1 hn
  obtain ⟨hn₁, hn₃⟩ := Nat.max_le.1 hn₁
  obtain ⟨hn₂, hn₄⟩ := Nat.max_le.1 hn₂
  have hx₄ : headKind x₄ = .kwEndIf := hend.headKind_eq
  rw [hlevel]
  refine .kind ?_
  simp only [headKind_cons, hw]
  exact ifStatement_leaves (ReadBy.expression hc hn₁ (by rw [headKind_cons, hth]; rfl)) hth ((hbody m).list hn₃ hx₂)
    (hbranches m hn₂ hx₃ hne) (hlast m hn₄ (by rw [hx₄]; rfl) (by rw [hx₄]; decide)) hend

theorem select {e : Expr} {branches : List CaseArm} {last : Option (List Stmt)} {span : Span} {o : Lexeme}
    (hw : w.kind = .kwCase) (he : (ExprPhrase.expr 0 e).Spelled x (o :: x₁)) (ho : o.kind = .kwOf)
    (hx₁ : (headKind x₁).canStartExpr = true) (hx₂ : (headKind x₂).endsStatements = true)
    (hend : BlockEnd .kwEndCase x₃ y) (has : ∀ levels, (arms branches).LeftBy levels false rs₁ x₁ x₂)
    (hlast : ∀ levels, (elsePart last).LeftBy levels false rs₂ x₂ x₃) :
    (stmt (.select e branches last span)).LeftBy levels inArm (rs₂ ++ rs₁) (w :: x) y := by
  refine ⟨.of_word hw rfl, fun hn => ?_⟩
  rw [Stmt.nesting] at hn
  obtain ⟨m, hn, hlevel⟩ := ReadBy.exists_levelAt hn
  obtain ⟨hn₁, hn₂⟩ := Nat.max_le.1 hn
  obtain ⟨hn₂, hn₃⟩ := Nat.max_le.1 hn₂
  have hx₃ : headKind x₃ = .kwEndCase := hend.headKind_eq
  rw [hlevel]
  refine .kind ?_
  simp only [headKind_cons, hw]
  exact caseStatement_leaves (ReadBy.expression he hn₁ (by rw [headKind_cons, ho]; rfl)) ho hx₁ ((has m).2 hn₂ hx₂)
    (hlast m hn₃ (by rw [hx₃]; rfl) (by rw [hx₃]; decide)) hend

theorem forLoop {first last : Expr} {step : Option Expr} {body : List Stmt} {span : Span} {v a u d : Lexeme}
    (hw : w.kind = .kwFor) (hv : v.kind = .ident) (ha : a.kind = .assign)
    (hfirst : (ExprPhrase.expr 0 first).Spelled x (u :: x₁)) (hu : u.kind = .kwTo)
    (hlast : (ExprPhrase.expr 0 last).Spelled x₁ x₂)
    (hstep : Optionally (fun e => (ExprPhrase.expr 0 e).Spelled) .kwBy step x₂ (d :: x₃)) (hd : d.kind = .kwDo)
    (hend : BlockEnd .kwEndFor x₄ y) (hbody : ∀ levels, (stmts body).LeftBy levels false rs x₃ x₄) :
    (stmt (.forLoop v.name first last step body span)).LeftBy levels inArm rs (w :: v :: a :: x) y := by
  refine ⟨.of_word hw rfl, fun hn => ?_⟩
  rw [Stmt.nesting] at hn
  obtain ⟨m, hn, hlevel⟩ := ReadBy.exists_levelAt hn
  obtain ⟨hn₁, hn₂⟩ := Nat.max_le.1 hn
  obtain ⟨hn₁, hn₃⟩ := Nat.max_le.1 hn₁
  obtain ⟨hn₂, hn₄⟩ := Nat.max_le.1 hn₂
  have hx₄ : headKind x₄ = .kwEndFor := hend.headKind_eq
  have hx₂ : (headKind x₂).endsTier 0 = true := by
    cases hstep with
    | none => rw [headKind_cons, hd]; rfl
    | some hb _ => rw [headKind_cons, hb]; rfl
  rw [hlevel]
  refine .kind ?_
  simp only [headKind_cons, hw]
  exact forStatement_leaves hv ha (ReadBy.expression hfirst hn₁ (by rw [headKind_cons, hu]; rfl)) hu
    (ReadBy.expression hlast hn₃ hx₂) (ReadBy.step hstep hn₂ hd) hd ((hbody m).list hn₄ (by rw [hx₄]; rfl)) hend

theorem whileLoop {c : Expr} {body : List Stmt} {span : Span} {d : Lexeme} (hw : w.kind = .kwWhile)
    (hc : (ExprPhrase.expr 0 c).Spelled x (d :: x₁)) (hd : d.kind = .kwDo) (hend : BlockEnd .kwEndWhile x₂ y)
    (hbody : ∀ levels, (stmts body).LeftBy levels false rs x₁ x₂) :
    (stmt (.whileLoop c body span)).LeftBy levels inArm rs (w :: x) y := by
  refine ⟨.of_word hw rfl, fun hn => ?_⟩
  rw [Stmt.nesting] at hn
  obtain ⟨m, hn, hlevel⟩ := ReadBy.exists_levelAt hn
  obtain ⟨hn₁, hn₂⟩ := Nat.max_le.1 hn
  have hx₂ : headKind x₂ = .kwEndWhile := hend.headKind_eq
  rw [hlevel]
  refine .kind ?_
  simp only [headKind_cons, hw]
  exact whileStatement_leaves (ReadBy.expression hc hn₁ (by rw [headKind_cons, hd]; rfl)) hd
    ((hbody m).list hn₂ (by rw [hx₂]; rfl)) hend

theorem repeatLoop {c : Expr} {body : List Stmt} {span : Span} {u : Lexeme} (hw : w.kind = .kwRepeat)
    (hu : u.kind = .kwUntil) (hc : (ExprPhrase.expr 0 c).Spelled x₁ x₂) (hend : BlockEnd .kwEndRepeat x₂ y)
    (hbody : ∀ levels, (stmts body).LeftBy levels false rs x (u :: x₁)) :
    (stmt (.repeatLoop body c span)).LeftBy levels inArm rs (w :: x) y := by
  refine ⟨.of_word hw rfl, fun hn => ?_⟩
  rw [Stmt.nesting] at hn
  obtain ⟨m, hn, hlevel⟩ := ReadBy.exists_levelAt hn
  obtain ⟨hn₁, hn₂⟩ := Nat.max_le.1 hn
  have hx₂ : headKind x₂ = .kwEndRepeat := hend.headKind_eq
  rw [hlevel]
  refine .kind ?_
  simp only [headKind_cons, hw]
  exact repeatStatement_leaves ((hbody m).list hn₂ (by rw [headKind_cons, hu]; rfl)) hu
    (ReadBy.expression hc hn₁ (by rw [hx₂]; rfl)) hend

theorem moreStmts {st : Stmt} {sts : List Stmt} (hlt : y.length < x.length) (h : (stmt st).LeftBy levels inArm rs₁ x y)
    (hs : (stmts sts).LeftBy levels inArm rs₂ y z) : (stmts (st :: sts)).LeftBy levels inArm (rs₂ ++ rs₁) x z := by
  intro hn hz
  rw [Stmt.nestingAll] at hn
  obtain ⟨hn, hns⟩ := Nat.max_le.1 hn
  exact statements_leave (h.2 hn) h.1 hlt (hs hns hz)

theorem moreElsifs {c : Expr} {body : List Stmt} {branches : List ElsifBranch} {span : Span} {th : Lexeme}
    (hw : w.kind = .kwElsif) (hc : (ExprPhrase.expr 0 c).Spelled x (th :: x₁)) (hth : th.kind = .kwThen)
    (hlt : x₂.length ≤ x.length) (hx₂ : (headKind y).endsStatements = true → (headKind x₂).endsStatements = true)
    (hbody : (stmts body).LeftBy levels false rs₁ x₁ x₂) (hbranches : (elsifs branches).LeftBy levels false rs₂ x₂ y) :
    (elsifs (.mk c body span :: branches)).LeftBy levels inArm (rs₂ ++ rs₁) (w :: x) y := by
  intro hn hy hne
  rw [ElsifBranch.nestingAll, ElsifBranch.nesting] at hn
  obtain ⟨hn, hns⟩ := Nat.max_le.1 hn
  obtain ⟨hn₁, hn₂⟩ := Nat.max_le.1 hn
  exact elsifs_leave hw (ReadBy.expression hc hn₁ (by rw [headKind_cons, hth]; rfl)) hth (hbody.list hn₂ (hx₂ hy)) hlt
    (hbranches hns hy hne)

theorem someElse {body : List Stmt} (hw : w.kind = .kwElse) (h : (stmts body).LeftBy levels false rs x y) :
    (elsePart (some body)).LeftBy levels inArm rs (w :: x) y :=
  fun hn hy _ => elseBody_leaves hw (h.list hn hy)

theorem arm {labels : List Expr} {body : List Stmt} {span : Span} {c : Lexeme}
    (hlabels : (ExprPhrase.exprs labels).Spelled x (c :: x₁)) (hc : c.kind = .colon)
    (hbody : (stmts body).LeftBy levels true rs x₁ y) :
    (StmtPhrase.arm (.mk labels body span)).LeftBy levels inArm rs x y := by
  refine ⟨fun s hs => atCaseLabel_of_labels hlabels hc hs, fun hn hy => ?_⟩
  rw [CaseArm.nesting] at hn
  obtain ⟨hn₁, hn₂⟩ := Nat.max_le.1 hn
  exact caseArm_leaves hlabels.canStartExpr
    (hlabels.readBy levels hn₁ (by rw [headKind_cons, hc]; decide) (by rw [headKind_cons, hc]; rfl)) hc (hbody hn₂ hy)

theorem moreArms {a : CaseArm} {as : List CaseArm} (hlt : y.length < x.length) (hx : (headKind x).canStartExpr = true)
    (h : (StmtPhrase.arm a).LeftBy levels inArm rs₁ x y) (has : (arms as).LeftBy levels inArm rs₂ y z)
    (hnil : as = [] → y = z) :
    (arms (a :: as)).LeftBy levels inArm (rs₂ ++ rs₁) x z := by
  refine ⟨fun _ => h.1, fun hn hz => ?_⟩
  rw [CaseArm.nestingAll] at hn
  obtain ⟨hn, hns⟩ := Nat.max_le.1 hn
  have hy : Halts ParserState.atCaseLabel y := by
    by_cases hne : as = []
    · rw [hnil hne]
      exact .of_ends hz
    · exact fun s hs => by rw [has.1 hne s hs, Bool.or_true]
  exact arms_leave hx (h.2 hn hy) hlt (has.2 hns hz)

end LeftBy

/-! ## One statement without its `;` -/

/-- The statements of the phrase, where the last one of a list stands at the given place. -/
def placed (last : Place) : StmtPhrase → List (Place × Stmt)
  | stmt st => (last, st) :: st.inner
  | stmts sts => Stmt.placed last sts
  | elsifs branches => ElsifBranch.placed branches
  | elsePart body => Stmt.placedElse body
  | arm a => a.inner (last == .armEnd)
  | arms as => CaseArm.placed as

/-- What stands behind the statement is no part of it, where the next arm stands behind the last statement of one, and
the statement is not taken for a label. -/
def Ready (place : Place) (st : Stmt) (z : List Lexeme) : Prop :=
  (place = .armEnd → ∃ a u, (StmtPhrase.arm a).Spelled z u) → MarksEnd z ∧ (place.inArm = true → st.isCall = false)

/-- The phrase is read without the `;` of this statement. -/
def Lacking (place : Place) (st : Stmt) (inArm : Bool) (φ : StmtPhrase) (x y : List Lexeme) : Prop :=
  Lacks st.span (Ready place st) (fun r x' => ∀ levels, φ.LeftBy levels inArm [r] x' y) x y

section

variable {place : Place} {st : Stmt}

/-- A statement without a body lacks its own `;`. -/
theorem Lacking.here {last : Place} (h : (stmt st).Spelled x y) (hst : st.isSimple = true)
    (hlast : last = .armEnd → ∃ a u, (StmtPhrase.arm a).Spelled y u) (hinArm : last.inArm = inArm) :
    Lacking last st inArm (stmt st) x y := by
  obtain ⟨e, he, hhead, hspan⟩ := h.exists_head hst
  obtain ⟨x', hx⟩ := Swapped.of_suffix hhead.suffix y
  refine ⟨y, x', ?_, Nat.le_refl _, fun t z hz hready => ?_⟩
  · rw [hspan]
    exact .of_swapped hx he hhead.length_lt hhead.inTimeOfDay
  · obtain ⟨hres, hcall⟩ := hready hlast
    have hnumber : KeepsNumber (e :: y) y := .of_ne (TokenKind.startsAfresh_iff.1 hres.startsAfresh).2.1
    obtain ⟨x'', hx', hhead'⟩ := hhead.swapped hnumber
    obtain rfl := hx.unique hx'
    subst hz
    refine fun levels => ⟨fun s hs => ?_, statement_leaves_head hhead' hres⟩
    have hlabel : listStops inArm s = false := by
      cases inArm with
      | false => rfl
      | true => exact hhead'.not_atCaseLabel (hcall hinArm) hs
    obtain ⟨hends, heof⟩ := hhead'.endsStatements
    obtain ⟨u, w, rfl, -⟩ := exists_of_headKind rfl heof
    rw [hlabel, s.kind_eq_headKind, hs, hends]
    rfl

theorem Lacking.simple {st' : Stmt} {last : Place} (h : (stmt st').Spelled x y) (hinner : st'.inner = [])
    (hmem : (place, st) ∈ (stmt st').placed last) (hst : st.isSimple = true)
    (hlast : last = .armEnd → ∃ a u, (StmtPhrase.arm a).Spelled y u) : Lacking place st last.inArm (stmt st') x y := by
  have heq : (place, st) = (last, st') := by
    rw [placed, hinner] at hmem
    exact List.mem_singleton.1 hmem
  cases heq
  exact .here h hst hlast rfl

/-! ### What stands around the statement -/

namespace Lacking

theorem ifThen {c : Expr} {body : List Stmt} {branches : List ElsifBranch} {last : Option (List Stmt)} {span : Span}
    {th : Lexeme} (hw : w.kind = .kwIf) (hc : (ExprPhrase.expr 0 c).Spelled x (th :: x₁)) (hth : th.kind = .kwThen)
    (hbody : (stmts body).Spelled x₁ x₂) (hbranches : (elsifs branches).Spelled x₂ x₃)
    (hlast : (elsePart last).Spelled x₃ x₄) (hend : BlockEnd .kwEndIf x₄ y)
    (h : Lacking place st false (stmts body) x₁ x₂ ∨ Lacking place st false (elsifs branches) x₂ x₃ ∨
      Lacking place st false (elsePart last) x₃ x₄) :
    Lacking place st inArm (stmt (.ifThen c body branches last span)) (w :: x) y := by
  have hx₄ := hend.headKind_eq
  have hx₃ := hlast.endsStatements_elsePart (by rw [hx₄]; rfl)
  have hne := hlast.ne_kwElsif_elsePart (by rw [hx₄]; decide)
  have hx₂ := hbranches.endsStatements_elsifs hx₃
  have hle₄ := Nat.le_of_lt hend.length_lt
  have hle₃ := Nat.le_trans hle₄ hlast.length_le.1
  have hle₂ := Nat.le_trans hle₃ hbranches.length_le.1
  rcases h with h | h | h
  · refine h.around hle₂ fun z x₁' hx₁ _ => ?_
    obtain ⟨x', hx, hc⟩ := hc.removed hx₁.cons
    exact ⟨_, hx.cons, fun r hr levels => .ifThen hw hc hth hx₂ hx₃ hne hend hr (fun _ => hbranches.leftBy)
      fun _ => hlast.leftBy⟩
  · refine h.around hle₃ fun z x₂' hx₂' _ => ?_
    obtain ⟨x₁', hx₁, hbody⟩ := hbody.removed hx₂'
    obtain ⟨x', hx, hc⟩ := hc.removed hx₁.cons
    exact ⟨_, hx.cons, fun r hr levels => .ifThen hw hc hth (by rwa [hx₂'.headKind_eq]) hx₃ hne hend
      (fun _ => hbody.leftBy) hr fun _ => hlast.leftBy⟩
  · refine h.around hle₄ fun z x₃' hx₃' _ => ?_
    obtain ⟨x₂', hx₂', hbranches⟩ := hbranches.removed hx₃'
    obtain ⟨x₁', hx₁, hbody⟩ := hbody.removed hx₂'
    obtain ⟨x', hx, hc⟩ := hc.removed hx₁.cons
    exact ⟨_, hx.cons, fun r hr levels => .ifThen hw hc hth (by rwa [hx₂'.headKind_eq]) (by rwa [hx₃'.headKind_eq])
      (by rwa [hx₃'.headKind_eq]) hend (fun _ => hbody.leftBy) (fun _ => hbranches.leftBy) hr⟩

theorem select {e : Expr} {branches : List CaseArm} {last : Option (List Stmt)} {span : Span} {o : Lexeme}
    (hw : w.kind = .kwCase) (he : (ExprPhrase.expr 0 e).Spelled x (o :: x₁)) (ho : o.kind = .kwOf) (hne : branches ≠ [])
    (has : (arms branches).Spelled x₁ x₂) (hlast : (elsePart last).Spelled x₂ x₃) (hend : BlockEnd .kwEndCase x₃ y)
    (h : Lacking place st false (arms branches) x₁ x₂ ∨ Lacking place st false (elsePart last) x₂ x₃) :
    Lacking place st inArm (stmt (.select e branches last span)) (w :: x) y := by
  have hx₁ := has.canStartExpr_arms hne
  have hx₂ := hlast.endsStatements_elsePart (by rw [hend.headKind_eq]; rfl)
  have hle₃ := Nat.le_of_lt hend.length_lt
  rcases h with h | h
  · refine h.around (Nat.le_trans hle₃ hlast.length_le.1) fun z x₁' hx₁' _ => ?_
    obtain ⟨x', hx, he⟩ := he.removed hx₁'.cons
    exact ⟨_, hx.cons, fun r hr levels => .select hw he ho (by rwa [hx₁'.headKind_eq]) hx₂ hend hr
      fun _ => hlast.leftBy⟩
  · refine h.around hle₃ fun z x₂' hx₂' _ => ?_
    obtain ⟨x₁', hx₁', has⟩ := has.removed hx₂'
    obtain ⟨x', hx, he⟩ := he.removed hx₁'.cons
    exact ⟨_, hx.cons, fun r hr levels => .select hw he ho (by rwa [hx₁'.headKind_eq]) (by rwa [hx₂'.headKind_eq]) hend
      (fun _ => has.leftBy) hr⟩

theorem forLoop {first last : Expr} {step : Option Expr} {body : List Stmt} {span : Span} {v a u d : Lexeme}
    (hw : w.kind = .kwFor) (hv : v.kind = .ident) (ha : a.kind = .assign)
    (hfirst : (ExprPhrase.expr 0 first).Spelled x (u :: x₁)) (hu : u.kind = .kwTo)
    (hlast : (ExprPhrase.expr 0 last).Spelled x₁ x₂)
    (hstep : Optionally (fun e => (ExprPhrase.expr 0 e).Spelled) .kwBy step x₂ (d :: x₃)) (hd : d.kind = .kwDo)
    (hend : BlockEnd .kwEndFor x₄ y) (h : Lacking place st false (stmts body) x₃ x₄) :
    Lacking place st inArm (stmt (.forLoop v.name first last step body span)) (w :: v :: a :: x) y := by
  refine h.around (Nat.le_of_lt hend.length_lt) fun z x₃' hx₃ _ => ?_
  obtain ⟨x₂', hx₂, hstep⟩ := hstep.removed hx₃.cons fun h => h.swapped (.of_kind hd (by decide))
  obtain ⟨x₁', hx₁, hlast⟩ := hlast.removed hx₂
  obtain ⟨x', hx, hfirst⟩ := hfirst.removed hx₁.cons
  exact ⟨_, hx.cons.cons.cons, fun r hr levels => .forLoop hw hv ha hfirst hu hlast hstep hd hend hr⟩

theorem whileLoop {c : Expr} {body : List Stmt} {span : Span} {d : Lexeme} (hw : w.kind = .kwWhile)
    (hc : (ExprPhrase.expr 0 c).Spelled x (d :: x₁)) (hd : d.kind = .kwDo) (hend : BlockEnd .kwEndWhile x₂ y)
    (h : Lacking place st false (stmts body) x₁ x₂) :
    Lacking place st inArm (stmt (.whileLoop c body span)) (w :: x) y := by
  refine h.around (Nat.le_of_lt hend.length_lt) fun z x₁' hx₁ _ => ?_
  obtain ⟨x', hx, hc⟩ := hc.removed hx₁.cons
  exact ⟨_, hx.cons, fun r hr levels => .whileLoop hw hc hd hend hr⟩

theorem repeatLoop {c : Expr} {body : List Stmt} {span : Span} {u : Lexeme} (hw : w.kind = .kwRepeat)
    (hu : u.kind = .kwUntil) (hc : (ExprPhrase.expr 0 c).Spelled x₁ x₂) (hend : BlockEnd .kwEndRepeat x₂ y)
    (h : Lacking place st false (stmts body) x (u :: x₁)) :
    Lacking place st inArm (stmt (.repeatLoop body c span)) (w :: x) y := by
  have hle := Nat.le_trans (Nat.le_of_lt hend.length_lt) (Nat.le_of_lt hc.length_lt)
  refine h.around (Nat.le_succ_of_le hle) fun z x' hx _ => ?_
  exact ⟨_, hx.cons, fun r hr levels => .repeatLoop hw hu hc hend hr⟩

theorem moreStmts {st' : Stmt} {sts : List Stmt} (hst : (stmt st').Spelled x y) (hsts : (stmts sts).Spelled y z)
    (h : Lacking place st inArm (stmt st') x y ∨ Lacking place st inArm (stmts sts) y z) :
    Lacking place st inArm (stmts (st' :: sts)) x z := by
  rcases h with h | h
  · refine h.around hsts.length_le.1 fun z x' hx hlt => ?_
    exact ⟨x', hx, fun r hr levels => .moreStmts hlt (hr levels) hsts.leftBy⟩
  · refine h.around (Nat.le_refl _) fun z y' hy _ => ?_
    obtain ⟨x', hx, hst⟩ := hst.removed hy
    exact ⟨x', hx, fun r hr levels => .moreStmts (hst.length_lt rfl) hst.leftBy (hr levels)⟩

theorem moreElsifs {c : Expr} {body : List Stmt} {branches : List ElsifBranch} {span : Span} {th : Lexeme}
    (hw : w.kind = .kwElsif) (hc : (ExprPhrase.expr 0 c).Spelled x (th :: x₁)) (hth : th.kind = .kwThen)
    (hbody : (stmts body).Spelled x₁ x₂) (hbranches : (elsifs branches).Spelled x₂ y)
    (h : Lacking place st false (stmts body) x₁ x₂ ∨ Lacking place st false (elsifs branches) x₂ y) :
    Lacking place st inArm (elsifs (.mk c body span :: branches)) (w :: x) y := by
  rcases h with h | h
  · refine h.around hbranches.length_le.1 fun z x₁' hx₁ hlt => ?_
    obtain ⟨x', hx, hc⟩ := hc.removed hx₁.cons
    have hlt' := hc.length_lt
    rw [List.length_cons] at hlt'
    exact ⟨_, hx.cons, fun r hr levels => .moreElsifs hw hc hth (by omega) hbranches.endsStatements_elsifs (hr levels)
      hbranches.leftBy⟩
  · refine h.around (Nat.le_refl _) fun z x₂' hx₂ _ => ?_
    obtain ⟨x₁', hx₁, hbody⟩ := hbody.removed hx₂
    obtain ⟨x', hx, hc⟩ := hc.removed hx₁.cons
    have hle := hbody.length_le.1
    have hlt := hc.length_lt
    rw [List.length_cons] at hlt
    exact ⟨_, hx.cons, fun r hr levels => .moreElsifs hw hc hth (by omega)
      (fun hy => hx₂.headKind_eq ▸ hbranches.endsStatements_elsifs hy) hbody.leftBy (hr levels)⟩

theorem someElse {body : List Stmt} (hw : w.kind = .kwElse) (h : Lacking place st false (stmts body) x y) :
    Lacking place st inArm (elsePart (some body)) (w :: x) y :=
  h.around (Nat.le_refl _) fun _ _ hx _ => ⟨_, hx.cons, fun _ hr levels => .someElse hw (hr levels)⟩

theorem arm {labels : List Expr} {body : List Stmt} {span : Span} {c : Lexeme}
    (hlabels : (ExprPhrase.exprs labels).Spelled x (c :: x₁)) (hc : c.kind = .colon)
    (h : Lacking place st true (stmts body) x₁ y) :
    Lacking place st inArm (StmtPhrase.arm (.mk labels body span)) x y := by
  refine h.around (Nat.le_refl _) fun z x₁' hx₁ _ => ?_
  obtain ⟨x', hx, hlabels⟩ := hlabels.removed hx₁.cons
  exact ⟨x', hx, fun r hr levels => .arm hlabels hc (hr levels)⟩

theorem moreArms {a : CaseArm} {as : List CaseArm} (ha : (StmtPhrase.arm a).Spelled x y) (has : (arms as).Spelled y z)
    (h : Lacking place st inArm (StmtPhrase.arm a) x y ∨ as ≠ [] ∧ Lacking place st inArm (arms as) y z) :
    Lacking place st inArm (arms (a :: as)) x z := by
  rcases h with h | ⟨hne, h⟩
  · refine h.around has.length_le.1 fun z x' hx hlt => ?_
    exact ⟨x', hx, fun r hr levels => .moreArms hlt (by rw [hx.headKind_eq]; exact ha.headKind_arm) (hr levels)
      has.leftBy fun hnil => by subst hnil; cases has; rfl⟩
  · refine h.around (Nat.le_refl _) fun z y' hy _ => ?_
    obtain ⟨x', hx, ha⟩ := ha.removed hy
    exact ⟨x', hx, fun r hr levels => .moreArms (ha.length_lt rfl) ha.headKind_arm ha.leftBy (hr levels)
      fun h => absurd h hne⟩

end Lacking

/-! ### The induction -/

theorem place_inArm {last : Place} (b : Bool) : (if b then last else last.before).inArm = last.inArm := by
  cases b <;> cases last <;> rfl

/-- A statement without a body is not one with a body, but stands in it. -/
theorem mem_inner {st' : Stmt} {last : Place} (h : (place, st) ∈ (stmt st').placed last) (hst : st.isSimple = true)
    (hst' : st'.isSimple = false) : (place, st) ∈ st'.inner := by
  rcases List.mem_cons.1 h with heq | h
  · cases heq
    rw [hst] at hst'
    cases hst'
  · exact h

/-- Every phrase is read without the `;` of one of its statements. -/
theorem Spelled.lacking {φ : StmtPhrase} (h : φ.Spelled x y) (last : Place) (hmem : (place, st) ∈ φ.placed last)
    (hst : st.isSimple = true) (hlast : last = .armEnd → ∃ a u, (StmtPhrase.arm a).Spelled y u) :
    Lacking place st last.inArm φ x y := by
  have hlist {y : List Lexeme} : Place.list = .armEnd → ∃ a u, (StmtPhrase.arm a).Spelled y u := fun h => by cases h
  induction h generalizing last with
  | ifThen hw hc hth hbody hbranches helse hend ihbody ihbranches ihelse =>
    refine .ifThen hw hc hth hbody hbranches helse hend ?_
    exact (List.mem_append.1 (mem_inner hmem hst rfl)).imp (ihbody .list · hlist) fun h =>
      (List.mem_append.1 h).imp (ihbranches .list · hlist) (ihelse .list · hlist)
  | select hw he ho hne has helse hend ihas ihelse =>
    refine .select hw he ho hne has helse hend ?_
    exact (List.mem_append.1 (mem_inner hmem hst rfl)).imp (ihas .list · hlist) (ihelse .list · hlist)
  | forLoop hw hv ha hfirst hu hlastValue hstep hd hbody hend ih =>
    exact .forLoop hw hv ha hfirst hu hlastValue hstep hd hend (ih .list (mem_inner hmem hst rfl) hlist)
  | whileLoop hw hc hd hbody hend ih => exact .whileLoop hw hc hd hend (ih .list (mem_inner hmem hst rfl) hlist)
  | repeatLoop hw hbody hu hc hend ih => exact .repeatLoop hw hu hc hend (ih .list (mem_inner hmem hst rfl) hlist)
  | assign hk htarget ha hvalue he => exact .simple (.assign hk htarget ha hvalue he) rfl hmem hst hlast
  | call hk hcallee he => exact .simple (.call hk hcallee he) rfl hmem hst hlast
  | leave hw he => exact .simple (.leave hw he) rfl hmem hst hlast
  | exit hw he => exact .simple (.exit hw he) rfl hmem hst hlast
  | next hw he => exact .simple (.next hw he) rfl hmem hst hlast
  | nop ht => cases mem_inner hmem hst rfl
  | noStmts | noElsifs | noElse | noArms => cases hmem
  | @moreStmts st' sts x y z h hs ih ihs =>
    -- The last statement of the list stands where the list ends, the others in front of it.
    have hplace : (if sts.isEmpty then last else last.before) = .armEnd → ∃ a u, (StmtPhrase.arm a).Spelled y u := by
      cases hs with
      | noStmts => exact hlast
      | moreStmts _ _ => cases last <;> exact fun h => by cases h
    have hmem' : (place, st) ∈
      (stmt st').placed (if sts.isEmpty then last else last.before) ++ (stmts sts).placed last := hmem
    refine .moreStmts h hs ((List.mem_append.1 hmem').imp (fun hmem => ?_) (ihs last · hlast))
    rw [← place_inArm sts.isEmpty]
    exact ih _ hmem hplace
  | moreElsifs hw hc hth hbody hbranches ihbody ihbranches =>
    refine .moreElsifs hw hc hth hbody hbranches ?_
    exact (List.mem_append.1 hmem).imp (ihbody .list · hlist) (ihbranches .list · hlist)
  | someElse hw hbody ih => exact .someElse hw (ih .list hmem hlist)
  | @arm _ _ _ _ _ y hlabels hc hbody ih =>
    refine .arm hlabels hc ?_
    cases last with
    | armEnd => exact ih .armEnd hmem hlast
    | list | arm => exact ih .arm hmem fun h => by cases h
  | @moreArms a as x y z ha has ih ihas =>
    refine .moreArms ha has ((List.mem_append.1 hmem).imp (fun hmem => ?_) fun hmem => ⟨?_, ihas .list hmem hlist⟩)
    · cases has with
      | noArms => exact ih .arm hmem fun h => by cases h
      | moreArms h _ => exact ih .armEnd hmem fun _ => ⟨_, _, h⟩
    · rintro rfl
      cases hmem

end

end StmtPhrase

end StructuredText
