import StructuredText.Proofs.Complete.Stmt
import StructuredText.Proofs.Leaves
import StructuredText.Proofs.Plain

/-!
# What the rules for statements leave behind

If the statements in a statement are read up to spans, with some reports, then so is the statement, with the reports of
its parts. What stands between the statements is read as it is spelled.
-/

namespace StructuredText.Parser

variable {x y z x₁ x₂ x₃ x₄ : List Lexeme} {rs rs₁ rs₂ rs₃ : List Report} {stops : ParserState → Bool}

/-! ## Lists of statements -/

theorem statementTurn_leaves {statement : Parser Stmt} {P : Stmt → Prop} (h : Leaves statement x P rs y)
    (hgo : ∀ s : ParserState, s.rest = x → (s.rest.isEmpty || s.kind.endsStatements || stops s) = false) :
    Leaves (statementTurn statement stops) x (fun t => ∃ st, t = .more [st] ∧ P st) rs y := by
  refine .get fun s hs => ?_
  rw [hgo s hs]
  exact .recovering h

/-- A list goes on with a statement and the statements behind it. -/
theorem statements_leave {statement : Parser Stmt} {st : Stmt} {sts : List Stmt}
    (h : Leaves statement x (·.plain = st.plain) rs₁ y)
    (hgo : ∀ s : ParserState, s.rest = x → (s.rest.isEmpty || s.kind.endsStatements || stops s) = false)
    (hlt : y.length < x.length)
    (hs : LoopLeaves (statementTurn statement stops) y (Stmt.plainAll · = Stmt.plainAll sts) rs₂ z) :
    LoopLeaves (statementTurn statement stops) x (Stmt.plainAll · = Stmt.plainAll (st :: sts)) (rs₂ ++ rs₁) z := by
  refine .more (P := fun items => Stmt.plainAll items = [st.plain]) ((statementTurn_leaves h hgo).mono ?_) hlt hs ?_
  · rintro _ ⟨st', rfl, hst⟩
    exact ⟨[st'], rfl, congrArg (· :: []) hst⟩
  · intro items sts' hitems hsts
    rw [Stmt.plainAll_append, hitems, hsts]
    rfl

/-! ## Branches -/

section

variable {level : Level} {w : Lexeme}

theorem elseBody_leaves {body : List Stmt} (hw : w.kind = .kwElse)
    (h : LoopLeaves (statementTurn level.statement fun _ => false) x (Stmt.plainAll · = Stmt.plainAll body) rs y) :
    Leaves (elseBody level) (w :: x) (Stmt.plainElse · = Stmt.plainElse (some body)) rs y := by
  refine .eat hw (.before h.collect fun body' hbody => .pure ?_)
  rw [Stmt.plainElse, Stmt.plainElse, hbody]

theorem elsifs_leave {c : Expr} {body : List Stmt} {branches : List ElsifBranch} {span : Span} {th : Lexeme}
    (hw : w.kind = .kwElsif) (hc : Gives (exprOf level.unary) x c (th :: x₁)) (hth : th.kind = .kwThen)
    (hbody : LoopLeaves (statementTurn level.statement fun _ => false) x₁ (Stmt.plainAll · = Stmt.plainAll body) rs₁ x₂)
    (hlt : x₂.length ≤ x.length)
    (hs : LoopLeaves (elsifTurn level) x₂ (ElsifBranch.plainAll · = ElsifBranch.plainAll branches) rs₂ y) :
    LoopLeaves (elsifTurn level) (w :: x)
      (ElsifBranch.plainAll · = ElsifBranch.plainAll (.mk c body span :: branches)) (rs₂ ++ rs₁) y := by
  have hturn : Leaves (elsifTurn level) (w :: x)
      (fun t => ∃ bs, t = .more bs ∧ ∃ body' span, Stmt.plainAll body' = Stmt.plainAll body ∧ bs = [.mk c body' span])
      rs₁ x₂ := by
    refine .sees ?_
    rw [if_pos (by simpa using hw)]
    refine .offset fun start => .skip (.after hc (.after (Gives.expect hth) ?_))
    exact .before hbody.collect fun body' hbody => .spanFrom fun span => .pure ⟨_, rfl, body', span, hbody, rfl⟩
  refine .more hturn (Nat.lt_succ_of_le hlt) hs ?_
  rintro bs branches' ⟨body', span', hbody', rfl⟩ hbranches
  show ElsifBranch.plain _ :: ElsifBranch.plainAll branches' = ElsifBranch.plain _ :: _
  rw [ElsifBranch.plain, ElsifBranch.plain, hbody', hbranches]

theorem caseArm_leaves {labels : List Expr} {body : List Stmt} {span : Span} {c : Lexeme}
    (hx : (headKind x).canStartExpr = true) (hlabels : Gives (sepByComma (exprOf level.unary)) x labels (c :: x₁))
    (hc : c.kind = .colon)
    (hbody : LoopLeaves (statementTurn level.statement ParserState.atCaseLabel) x₁
      (Stmt.plainAll · = Stmt.plainAll body) rs y) :
    Leaves (caseArm level) x (·.plain = (CaseArm.mk labels body span).plain) rs y := by
  refine .offset fun start => .kind ?_
  rw [if_pos hx]
  refine .after hlabels (.after (Gives.expect hc) ?_)
  refine .before hbody.collect fun body' hbody => .spanFrom fun span => .pure ?_
  rw [CaseArm.plain, CaseArm.plain, hbody]

theorem arms_leave {a : CaseArm} {as : List CaseArm} (hx : (headKind x).canStartExpr = true)
    (h : Leaves (caseArm level) x (·.plain = a.plain) rs₁ y) (hlt : y.length < x.length)
    (hs : LoopLeaves (caseArmTurn level) y (CaseArm.plainAll · = CaseArm.plainAll as) rs₂ z) :
    LoopLeaves (caseArmTurn level) x (CaseArm.plainAll · = CaseArm.plainAll (a :: as)) (rs₂ ++ rs₁) z := by
  have hturn : Leaves (caseArmTurn level) x
      (fun t => ∃ as, t = .more as ∧ ∃ a', a'.plain = a.plain ∧ as = [a']) rs₁ y := by
    refine .get fun s hs => ?_
    rw [not_over_of_canStartExpr hx hs]
    refine (Leaves.recovering h).mono ?_
    rintro _ ⟨a', rfl, ha⟩
    exact ⟨_, rfl, a', ha, rfl⟩
  refine .more hturn hlt hs ?_
  rintro _ as' ⟨a', ha, rfl⟩ has
  show CaseArm.plain a' :: CaseArm.plainAll as' = _
  rw [ha, has]
  rfl

/-! ## Statements with a body -/

/-- The word that closes a block is read, whatever the span of the block is. -/
theorem blockEnd_leaves {k : TokenKind} {f : Span → α} {start : Nat} {P : α → Prop} (h : BlockEnd k x y)
    (hP : ∀ span, P (f span)) : Leaves (do expectEnd k; return f (← blockSpan start)) x P [] y := by
  cases h with
  | plain ht hsemi =>
    refine .after (Gives.expectEnd ht) (.before (P := fun _ => True) (.eat_none hsemi ?_)
      fun span _ => .pure (hP span))
    exact fun s hs => ⟨_, s, rfl, trivial, hs, rfl⟩
  | semicolon ht hu =>
    refine .after (Gives.expectEnd ht) (.before (P := fun _ => True) (.eat hu ?_)
      fun span _ => .pure (hP span))
    exact fun s hs => ⟨_, s, rfl, trivial, hs, rfl⟩

theorem ifStatement_leaves {c : Expr} {body : List Stmt} {branches : List ElsifBranch} {last : Option (List Stmt)}
    {span : Span} {th : Lexeme} (hc : Gives (exprOf level.unary) x c (th :: x₁)) (hth : th.kind = .kwThen)
    (hbody : LoopLeaves (statementTurn level.statement fun _ => false) x₁ (Stmt.plainAll · = Stmt.plainAll body) rs₁ x₂)
    (hbranches : LoopLeaves (elsifTurn level) x₂ (ElsifBranch.plainAll · = ElsifBranch.plainAll branches) rs₂ x₃)
    (hlast : Leaves (elseBody level) x₃ (Stmt.plainElse · = Stmt.plainElse last) rs₃ x₄)
    (hend : BlockEnd .kwEndIf x₄ y) :
    Leaves (ifStatement level) (w :: x) (·.plain = (Stmt.ifThen c body branches last span).plain)
      (rs₃ ++ rs₂ ++ rs₁) y := by
  refine .offset fun start => .skip (.after hc (.after (Gives.expect hth) (.bind hbody.collect fun body' hbody => ?_)))
  refine .bind hbranches.collect fun branches' hbranches => ?_
  refine .before hlast fun last' hlast => blockEnd_leaves hend fun span => ?_
  show Stmt.ifThen _ _ _ _ _ = Stmt.ifThen _ _ _ _ _
  rw [hbody, hbranches, hlast]

theorem caseStatement_leaves {e : Expr} {as : List CaseArm} {last : Option (List Stmt)} {span : Span} {o : Lexeme}
    (he : Gives (exprOf level.unary) x e (o :: x₁)) (ho : o.kind = .kwOf) (hx₁ : (headKind x₁).canStartExpr = true)
    (has : LoopLeaves (caseArmTurn level) x₁ (CaseArm.plainAll · = CaseArm.plainAll as) rs₁ x₂)
    (hlast : Leaves (elseBody level) x₂ (Stmt.plainElse · = Stmt.plainElse last) rs₂ x₃)
    (hend : BlockEnd .kwEndCase x₃ y) :
    Leaves (caseStatement level) (w :: x) (·.plain = (Stmt.select e as last span).plain) (rs₂ ++ rs₁) y := by
  rw [caseStatement_eq]
  refine .offset fun start => .skip (.after he (.after (Gives.expect ho) (.kind ?_)))
  have harms : Leaves (caseArms level start e) x₁ (·.plain = (Stmt.select e as last span).plain) (rs₂ ++ rs₁) y := by
    refine .bind has.collect fun as' has => .before hlast fun last' hlast => blockEnd_leaves hend fun span => ?_
    show Stmt.select _ _ _ _ = Stmt.select _ _ _ _
    rw [has, hlast]
  dsimp only
  split
  · next hk => rw [hk] at hx₁; cases hx₁
  · next hk => rw [hk] at hx₁; cases hx₁
  · exact harms

theorem forStatement_leaves {first last : Expr} {step : Option Expr} {body : List Stmt} {span : Span}
    {v a t d : Lexeme} (hv : v.kind = .ident) (ha : a.kind = .assign)
    (hfirst : Gives (exprOf level.unary) x first (t :: x₁)) (ht : t.kind = .kwTo)
    (hlast : Gives (exprOf level.unary) x₁ last x₂) (hstep : Gives (forStatement.step level) x₂ step (d :: x₃))
    (hd : d.kind = .kwDo)
    (hbody : LoopLeaves (statementTurn level.statement fun _ => false) x₃ (Stmt.plainAll · = Stmt.plainAll body) rs x₄)
    (hend : BlockEnd .kwEndFor x₄ y) :
    Leaves (forStatement level) (w :: v :: a :: x) (·.plain = (Stmt.forLoop v.name first last step body span).plain)
      rs y := by
  refine .offset fun start => .skip (.after (ident_complete hv) (.after (Gives.expect ha) (.after hfirst ?_)))
  refine .after (Gives.expect ht) (.after hlast (.after hstep (.after (Gives.expect hd) ?_)))
  refine .before hbody.collect fun body' hbody => blockEnd_leaves hend fun span => ?_
  exact congrArg (Stmt.forLoop _ _ _ _ · _) hbody

theorem whileStatement_leaves {c : Expr} {body : List Stmt} {span : Span} {d : Lexeme}
    (hc : Gives (exprOf level.unary) x c (d :: x₁)) (hd : d.kind = .kwDo)
    (hbody : LoopLeaves (statementTurn level.statement fun _ => false) x₁ (Stmt.plainAll · = Stmt.plainAll body) rs x₂)
    (hend : BlockEnd .kwEndWhile x₂ y) :
    Leaves (whileStatement level) (w :: x) (·.plain = (Stmt.whileLoop c body span).plain) rs y := by
  refine .offset fun start => .skip (.after hc (.after (Gives.expect hd) ?_))
  refine .before hbody.collect fun body' hbody => blockEnd_leaves hend fun span => ?_
  exact congrArg (Stmt.whileLoop _ · _) hbody

theorem repeatStatement_leaves {c : Expr} {body : List Stmt} {span : Span} {u : Lexeme}
    (hbody : LoopLeaves (statementTurn level.statement fun _ => false) x (Stmt.plainAll · = Stmt.plainAll body) rs
      (u :: x₁))
    (hu : u.kind = .kwUntil) (hc : Gives (exprOf level.unary) x₁ c x₂) (hend : BlockEnd .kwEndRepeat x₂ y) :
    Leaves (repeatStatement level) (w :: x) (·.plain = (Stmt.repeatLoop body c span).plain) rs y := by
  refine .offset fun start => .skip (.before hbody.collect fun body' hbody => ?_)
  refine .after (Gives.expect hu) (.after hc (blockEnd_leaves hend fun span => ?_))
  exact congrArg (Stmt.repeatLoop · _ _) hbody

end

end StructuredText.Parser
