import StructuredText.Proofs.Grammar.Expr
import StructuredText.Proofs.Grammar.Parts
import StructuredText.Tree.Stmt

/-!
# The grammar of statements

`StmtPhrase.Spelled` says how statements are written: `φ.Spelled x y` means that the tokens `x` begin with a spelling
of `φ`, and that the tokens `y` stand behind it. A `;` behind the word that closes a block belongs to the block.

No statement begins with a name, `THIS` or `SUPER` and has a colon outside of brackets, so that the labels of a `CASE`
cannot be taken for the statements of the arm before them.
-/

namespace StructuredText

/-! ## Statements -/

/-- What a target of an assignment or a call begins with. -/
def TokenKind.startsTarget : TokenKind → Bool
  | ident | kwThis | kwSuper => true
  | _ => false

theorem TokenKind.startsTarget_iff {k : TokenKind} :
    k.startsTarget = true ↔ k = ident ∨ k = kwThis ∨ k = kwSuper := by
  cases k <;> simp [startsTarget]

/-- The word that closes a block, and the `;` behind it if there is one. -/
inductive BlockEnd (k : TokenKind) : List Lexeme → List Lexeme → Prop
  | plain {t : Lexeme} {y : List Lexeme} : t.kind = k → headKind y ≠ .semicolon → BlockEnd k (t :: y) y
  | semicolon {t u : Lexeme} {y : List Lexeme} : t.kind = k → u.kind = .semicolon → BlockEnd k (t :: u :: y) y

/-- A phrase of statements. -/
inductive StmtPhrase where
  | stmt (st : Stmt)
  | stmts (sts : List Stmt)
  /-- `ELSIF condition THEN …`, any number of times. -/
  | elsifs (branches : List ElsifBranch)
  /-- `ELSE …`, or nothing. -/
  | elsePart (body : Option (List Stmt))
  /-- The labels of an arm and its statements. -/
  | arm (arm : CaseArm)
  | arms (arms : List CaseArm)

/-- The phrase is spelled by the tokens of the first row in front of the second one. -/
inductive StmtPhrase.Spelled : StmtPhrase → List Lexeme → List Lexeme → Prop
  -- Statements with a body
  | ifThen {c : Expr} {body : List Stmt} {branches : List ElsifBranch} {last : Option (List Stmt)} {w th : Lexeme}
      {x x₁ x₂ x₃ x₄ y : List Lexeme} :
      w.kind = .kwIf → (ExprPhrase.expr 0 c).Spelled x (th :: x₁) → th.kind = .kwThen → (stmts body).Spelled x₁ x₂ →
      (elsifs branches).Spelled x₂ x₃ → (elsePart last).Spelled x₃ x₄ → BlockEnd .kwEndIf x₄ y →
      (stmt (.ifThen c body branches last (spanBetween (w :: x) y))).Spelled (w :: x) y
  | select {e : Expr} {branches : List CaseArm} {last : Option (List Stmt)} {w o : Lexeme}
      {x x₁ x₂ x₃ y : List Lexeme} :
      w.kind = .kwCase → (ExprPhrase.expr 0 e).Spelled x (o :: x₁) → o.kind = .kwOf → branches ≠ [] →
      (arms branches).Spelled x₁ x₂ → (elsePart last).Spelled x₂ x₃ → BlockEnd .kwEndCase x₃ y →
      (stmt (.select e branches last (spanBetween (w :: x) y))).Spelled (w :: x) y
  | forLoop {first last : Expr} {step : Option Expr} {body : List Stmt} {w v a t d : Lexeme}
      {x x₁ x₂ x₃ x₄ y : List Lexeme} :
      w.kind = .kwFor → v.kind = .ident → a.kind = .assign → (ExprPhrase.expr 0 first).Spelled x (t :: x₁) →
      t.kind = .kwTo → (ExprPhrase.expr 0 last).Spelled x₁ x₂ →
      Optionally (fun e => (ExprPhrase.expr 0 e).Spelled) .kwBy step x₂ (d :: x₃) → d.kind = .kwDo →
      (stmts body).Spelled x₃ x₄ → BlockEnd .kwEndFor x₄ y →
      (stmt (.forLoop v.name first last step body (spanBetween (w :: v :: a :: x) y))).Spelled (w :: v :: a :: x) y
  | whileLoop {c : Expr} {body : List Stmt} {w d : Lexeme} {x x₁ x₂ y : List Lexeme} :
      w.kind = .kwWhile → (ExprPhrase.expr 0 c).Spelled x (d :: x₁) → d.kind = .kwDo → (stmts body).Spelled x₁ x₂ →
      BlockEnd .kwEndWhile x₂ y →
      (stmt (.whileLoop c body (spanBetween (w :: x) y))).Spelled (w :: x) y
  | repeatLoop {c : Expr} {body : List Stmt} {w u : Lexeme} {x x₁ x₂ y : List Lexeme} :
      w.kind = .kwRepeat → (stmts body).Spelled x (u :: x₁) → u.kind = .kwUntil → (ExprPhrase.expr 0 c).Spelled x₁ x₂ →
      BlockEnd .kwEndRepeat x₂ y →
      (stmt (.repeatLoop body c (spanBetween (w :: x) y))).Spelled (w :: x) y
  -- Statements without a body
  | assign {target value : Expr} {a e : Lexeme} {x x₁ y : List Lexeme} :
      (headKind x).startsTarget = true → (ExprPhrase.access target).Spelled x (a :: x₁) → a.kind = .assign →
      (ExprPhrase.expr 0 value).Spelled x₁ (e :: y) → e.kind = .semicolon →
      (stmt (.assign target value (spanBetween x y))).Spelled x y
  | call {callee : Expr} {e : Lexeme} {x y : List Lexeme} :
      (headKind x).startsTarget = true → (ExprPhrase.access callee).Spelled x (e :: y) → e.kind = .semicolon →
      (stmt (.call callee (spanBetween x y))).Spelled x y
  | leave {w e : Lexeme} {y : List Lexeme} : w.kind = .kwReturn → e.kind = .semicolon →
      (stmt (.leave (spanBetween (w :: e :: y) y))).Spelled (w :: e :: y) y
  | exit {w e : Lexeme} {y : List Lexeme} : w.kind = .kwExit → e.kind = .semicolon →
      (stmt (.exit (spanBetween (w :: e :: y) y))).Spelled (w :: e :: y) y
  | next {w e : Lexeme} {y : List Lexeme} : w.kind = .kwContinue → e.kind = .semicolon →
      (stmt (.next (spanBetween (w :: e :: y) y))).Spelled (w :: e :: y) y
  | nop {t : Lexeme} {y : List Lexeme} : t.kind = .semicolon → (stmt (.nop t.span)).Spelled (t :: y) y
  -- Lists of statements
  | noStmts {x : List Lexeme} : (stmts []).Spelled x x
  | moreStmts {st : Stmt} {sts : List Stmt} {x y z : List Lexeme} :
      (stmt st).Spelled x y → (stmts sts).Spelled y z → (stmts (st :: sts)).Spelled x z
  -- Branches
  | noElsifs {x : List Lexeme} : (elsifs []).Spelled x x
  | moreElsifs {c : Expr} {body : List Stmt} {branches : List ElsifBranch} {w th : Lexeme}
      {x x₁ x₂ y : List Lexeme} :
      w.kind = .kwElsif → (ExprPhrase.expr 0 c).Spelled x (th :: x₁) → th.kind = .kwThen → (stmts body).Spelled x₁ x₂ →
      (elsifs branches).Spelled x₂ y →
      (elsifs (.mk c body (spanBetween (w :: x) x₂) :: branches)).Spelled (w :: x) y
  | noElse {x : List Lexeme} : (elsePart none).Spelled x x
  | someElse {body : List Stmt} {w : Lexeme} {x y : List Lexeme} :
      w.kind = .kwElse → (stmts body).Spelled x y → (elsePart (some body)).Spelled (w :: x) y
  | arm {labels : List Expr} {body : List Stmt} {c : Lexeme} {x x₁ y : List Lexeme} :
      (ExprPhrase.exprs labels).Spelled x (c :: x₁) → c.kind = .colon → (stmts body).Spelled x₁ y →
      (arm (.mk labels body (spanBetween x y))).Spelled x y
  | noArms {x : List Lexeme} : (arms []).Spelled x x
  | moreArms {a : CaseArm} {as : List CaseArm} {x y z : List Lexeme} :
      (StmtPhrase.arm a).Spelled x y → (arms as).Spelled y z → (arms (a :: as)).Spelled x z

/-! ## Nesting -/

mutual

/-- How deep statements with a body stand inside each other, down to the innermost bracket of an expression in them. -/
def Stmt.nesting : Stmt → Nat
  | .ifThen condition thenBody elsifs elseBody _ =>
    max (max condition.nesting (Stmt.nestingAll thenBody))
      (max (ElsifBranch.nestingAll elsifs) (Stmt.nestingElse elseBody)) + 1
  | .select selector arms elseBody _ =>
    max selector.nesting (max (CaseArm.nestingAll arms) (Stmt.nestingElse elseBody)) + 1
  | .forLoop _ first last step body _ =>
    max (max first.nesting last.nesting) (max (depthOf Expr.nesting step) (Stmt.nestingAll body)) + 1
  | .whileLoop condition body _ => max condition.nesting (Stmt.nestingAll body) + 1
  | .repeatLoop body condition _ => max condition.nesting (Stmt.nestingAll body) + 1
  | .assign target value _ => max target.nesting value.nesting
  | .call callee _ => callee.nesting
  | .leave _ => 0
  | .next _ => 0
  | .exit _ => 0
  | .nop _ => 0

/-- The deepest nesting of the statements. -/
def Stmt.nestingAll : List Stmt → Nat
  | [] => 0
  | st :: sts => max st.nesting (Stmt.nestingAll sts)

/-- The deepest nesting of the statements behind an `ELSE`. -/
def Stmt.nestingElse : Option (List Stmt) → Nat
  | none => 0
  | some body => Stmt.nestingAll body

/-- The deepest nesting of the branches. -/
def ElsifBranch.nestingAll : List ElsifBranch → Nat
  | [] => 0
  | b :: bs => max b.nesting (ElsifBranch.nestingAll bs)

/-- The nesting of the branch. -/
def ElsifBranch.nesting : ElsifBranch → Nat
  | .mk condition body _ => max condition.nesting (Stmt.nestingAll body)

/-- The nesting of the arm. -/
def CaseArm.nesting : CaseArm → Nat
  | .mk labels body _ => max (Expr.nestingAll labels) (Stmt.nestingAll body)

/-- The deepest nesting of the arms. -/
def CaseArm.nestingAll : List CaseArm → Nat
  | [] => 0
  | a :: as => max a.nesting (CaseArm.nestingAll as)

end

/-! ## Lengths and first tokens -/

theorem BlockEnd.length_lt {k : TokenKind} {x y : List Lexeme} (h : BlockEnd k x y) : y.length < x.length := by
  cases h <;> simp only [List.length_cons] <;> omega

theorem BlockEnd.headKind_eq {k : TokenKind} {x y : List Lexeme} (h : BlockEnd k x y) : headKind x = k := by
  cases h <;> assumption

namespace StmtPhrase

/-- A phrase that cannot be spelled by nothing. -/
def isSolid : StmtPhrase → Bool
  | stmt _ | arm _ => true
  | _ => false

namespace Spelled

variable {φ : StmtPhrase} {x y : List Lexeme}

theorem length_le (h : φ.Spelled x y) : y.length ≤ x.length ∧ (φ.isSolid = true → y.length < x.length) := by
  induction h with
  | ifThen _ hc _ _ _ _ hend ih₁ ih₂ ih₃ =>
    have := hc.length_lt
    have := hend.length_lt
    simp only [List.length_cons] at *
    omega
  | select _ hc _ _ _ _ hend ih₁ ih₂ =>
    have := hc.length_lt
    have := hend.length_lt
    simp only [List.length_cons] at *
    omega
  | forLoop _ _ _ h₁ _ h₂ h₃ _ _ hend ih =>
    have := h₁.length_lt
    have := h₂.length_lt
    have := h₃.length_le fun h => Nat.le_of_lt h.length_lt
    have := hend.length_lt
    simp only [List.length_cons] at *
    omega
  | whileLoop _ hc _ _ hend ih =>
    have := hc.length_lt
    have := hend.length_lt
    simp only [List.length_cons] at *
    omega
  | repeatLoop _ _ _ hc hend ih =>
    have := hc.length_lt
    have := hend.length_lt
    simp only [List.length_cons] at *
    omega
  | assign _ h₁ _ h₂ _ =>
    have := h₁.length_lt
    have := h₂.length_lt
    simp only [List.length_cons] at *
    omega
  | call _ h _ =>
    have := h.length_lt
    simp only [List.length_cons] at *
    omega
  | moreElsifs _ hc _ _ _ ih₁ ih₂ =>
    have := hc.length_lt
    simp only [List.length_cons, isSolid] at *
    omega
  | arm hl _ _ ih =>
    have := hl.length_lt
    simp only [List.length_cons] at *
    omega
  | moreStmts _ _ ih₁ ih₂ | moreArms _ _ ih₁ ih₂ => exact ⟨by omega, fun h => by cases h⟩
  | _ => simp_all [isSolid] <;> omega

theorem length_lt (h : φ.Spelled x y) (hφ : φ.isSolid = true) : y.length < x.length := h.length_le.2 hφ

/-- No statement begins with a word that ends a list of statements. -/
theorem headKind_stmt {st : Stmt} (h : (stmt st).Spelled x y) :
    (headKind x).endsStatements = false ∧ headKind x ≠ .eof := by
  cases h with
  | assign hk _ _ _ _ | call hk _ _ =>
    revert hk
    generalize headKind x = k
    cases k <;> simp [TokenKind.startsTarget, TokenKind.endsStatements]
  | ifThen hk | select hk | forLoop hk | whileLoop hk | repeatLoop hk | leave hk | exit hk | next hk | nop hk =>
    rw [headKind_cons, hk]
    exact ⟨rfl, by decide⟩

theorem headKind_arm {a : CaseArm} (h : (StmtPhrase.arm a).Spelled x y) : (headKind x).canStartExpr = true := by
  cases h with
  | arm h _ _ => exact h.canStartExpr

theorem headKind_elsifs {branches : List ElsifBranch} (h : (elsifs branches).Spelled x y) :
    x = y ∨ headKind x = .kwElsif := by
  cases h with
  | noElsifs => exact .inl rfl
  | moreElsifs hk => exact .inr hk

theorem headKind_elsePart {body : Option (List Stmt)} (h : (elsePart body).Spelled x y) :
    x = y ∨ headKind x = .kwElse := by
  cases h with
  | noElse => exact .inl rfl
  | someElse hk _ => exact .inr hk

theorem endsStatements_elsePart {body : Option (List Stmt)} (h : (elsePart body).Spelled x y)
    (hy : (headKind y).endsStatements = true) : (headKind x).endsStatements = true := by
  rcases h.headKind_elsePart with rfl | h
  · exact hy
  · rw [h]; rfl

theorem ne_kwElsif_elsePart {body : Option (List Stmt)} (h : (elsePart body).Spelled x y)
    (hy : headKind y ≠ .kwElsif) : headKind x ≠ .kwElsif := by
  rcases h.headKind_elsePart with rfl | h
  · exact hy
  · rw [h]; decide

theorem endsStatements_elsifs {branches : List ElsifBranch} (h : (elsifs branches).Spelled x y)
    (hy : (headKind y).endsStatements = true) : (headKind x).endsStatements = true := by
  rcases h.headKind_elsifs with rfl | h
  · exact hy
  · rw [h]; rfl

theorem canStartExpr_arms {branches : List CaseArm} (h : (arms branches).Spelled x y) (hne : branches ≠ []) :
    (headKind x).canStartExpr = true := by
  cases h with
  | noArms => exact absurd rfl hne
  | moreArms ha _ => exact ha.headKind_arm

end Spelled

end StmtPhrase

end StructuredText
