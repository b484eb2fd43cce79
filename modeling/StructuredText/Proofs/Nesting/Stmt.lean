import StructuredText.Proofs.Complete.Stmt
import StructuredText.Proofs.Nesting.Expr
import StructuredText.Proofs.Nesting.Parts

/-!
# Statements that nest too deeply

Statements that go deeper than `n`, with their first construct inside `n` others: a statement with a body begins at its
word, and what it consists of stands inside it. There is such a construct where the nesting is greater than `n`, and the
rules with `n` levels give up there and report just that.
-/

namespace StructuredText

/-- The word that begins a statement with a body. -/
def Stmt.opener? : Stmt → Option TokenKind
  | .ifThen _ _ _ _ _ => some .kwIf
  | .select _ _ _ _ => some .kwCase
  | .forLoop _ _ _ _ _ _ => some .kwFor
  | .whileLoop _ _ _ => some .kwWhile
  | .repeatLoop _ _ _ => some .kwRepeat
  | _ => none

namespace StmtPhrase

/-- The nesting of the phrase. -/
def nesting : StmtPhrase → Nat
  | stmt st => st.nesting
  | stmts sts => Stmt.nestingAll sts
  | elsifs branches => ElsifBranch.nestingAll branches
  | elsePart body => Stmt.nestingElse body
  | arm a => a.nesting
  | arms as => CaseArm.nestingAll as

/-- Of the constructs in the phrase that begins the tokens, the first one inside `n` others. -/
inductive Exceeds : StmtPhrase → Nat → List Lexeme → Excess → Prop
  -- Statements with a body
  | block {st : Stmt} {w : Lexeme} {x : List Lexeme} :
      st.opener? = some w.kind → (stmt st).Exceeds 0 (w :: x) ⟨"statement", w⟩
  | ifCondition {n : Nat} {c : Expr} {body : List Stmt} {branches : List ElsifBranch} {last : Option (List Stmt)}
      {span : Span} {w : Lexeme} {x : List Lexeme} {f : Excess} :
      w.kind = .kwIf → (ExprPhrase.expr 0 c).Exceeds n x f →
      (stmt (.ifThen c body branches last span)).Exceeds (n + 1) (w :: x) f
  | ifBody {n : Nat} {c : Expr} {body : List Stmt} {branches : List ElsifBranch} {last : Option (List Stmt)}
      {span : Span} {w th : Lexeme} {x x₁ : List Lexeme} {f : Excess} :
      w.kind = .kwIf → (ExprPhrase.expr 0 c).Spelled x (th :: x₁) → c.nesting ≤ n → th.kind = .kwThen →
      (stmts body).Exceeds n x₁ f → (stmt (.ifThen c body branches last span)).Exceeds (n + 1) (w :: x) f
  | ifElsifs {n : Nat} {c : Expr} {body : List Stmt} {branches : List ElsifBranch} {last : Option (List Stmt)}
      {span : Span} {w th : Lexeme} {x x₁ x₂ : List Lexeme} {f : Excess} :
      w.kind = .kwIf → (ExprPhrase.expr 0 c).Spelled x (th :: x₁) → c.nesting ≤ n → th.kind = .kwThen →
      (stmts body).Spelled x₁ x₂ → Stmt.nestingAll body ≤ n → (elsifs branches).Exceeds n x₂ f →
      (stmt (.ifThen c body branches last span)).Exceeds (n + 1) (w :: x) f
  | ifElse {n : Nat} {c : Expr} {body : List Stmt} {branches : List ElsifBranch} {last : Option (List Stmt)}
      {span : Span} {w th : Lexeme} {x x₁ x₂ x₃ : List Lexeme} {f : Excess} :
      w.kind = .kwIf → (ExprPhrase.expr 0 c).Spelled x (th :: x₁) → c.nesting ≤ n → th.kind = .kwThen →
      (stmts body).Spelled x₁ x₂ → Stmt.nestingAll body ≤ n → (elsifs branches).Spelled x₂ x₃ →
      ElsifBranch.nestingAll branches ≤ n → (elsePart last).Exceeds n x₃ f →
      (stmt (.ifThen c body branches last span)).Exceeds (n + 1) (w :: x) f
  | selector {n : Nat} {e : Expr} {branches : List CaseArm} {last : Option (List Stmt)} {span : Span} {w : Lexeme}
      {x : List Lexeme} {f : Excess} :
      w.kind = .kwCase → (ExprPhrase.expr 0 e).Exceeds n x f →
      (stmt (.select e branches last span)).Exceeds (n + 1) (w :: x) f
  | selectArms {n : Nat} {e : Expr} {branches : List CaseArm} {last : Option (List Stmt)} {span : Span} {w o : Lexeme}
      {x x₁ : List Lexeme} {f : Excess} :
      w.kind = .kwCase → (ExprPhrase.expr 0 e).Spelled x (o :: x₁) → e.nesting ≤ n → o.kind = .kwOf →
      (arms branches).Exceeds n x₁ f → (stmt (.select e branches last span)).Exceeds (n + 1) (w :: x) f
  | selectElse {n : Nat} {e : Expr} {branches : List CaseArm} {last : Option (List Stmt)} {span : Span} {w o : Lexeme}
      {x x₁ x₂ : List Lexeme} {f : Excess} :
      w.kind = .kwCase → (ExprPhrase.expr 0 e).Spelled x (o :: x₁) → e.nesting ≤ n → o.kind = .kwOf →
      branches ≠ [] → (arms branches).Spelled x₁ x₂ → CaseArm.nestingAll branches ≤ n →
      (elsePart last).Exceeds n x₂ f → (stmt (.select e branches last span)).Exceeds (n + 1) (w :: x) f
  | forFirst {n : Nat} {name : Name} {first last : Expr} {step : Option Expr} {body : List Stmt} {span : Span}
      {w v a : Lexeme} {x : List Lexeme} {f : Excess} :
      w.kind = .kwFor → v.kind = .ident → a.kind = .assign → (ExprPhrase.expr 0 first).Exceeds n x f →
      (stmt (.forLoop name first last step body span)).Exceeds (n + 1) (w :: v :: a :: x) f
  | forLast {n : Nat} {name : Name} {first last : Expr} {step : Option Expr} {body : List Stmt} {span : Span}
      {w v a t : Lexeme} {x x₁ : List Lexeme} {f : Excess} :
      w.kind = .kwFor → v.kind = .ident → a.kind = .assign → (ExprPhrase.expr 0 first).Spelled x (t :: x₁) →
      first.nesting ≤ n → t.kind = .kwTo → (ExprPhrase.expr 0 last).Exceeds n x₁ f →
      (stmt (.forLoop name first last step body span)).Exceeds (n + 1) (w :: v :: a :: x) f
  | forStep {n : Nat} {name : Name} {first last : Expr} {step : Option Expr} {body : List Stmt} {span : Span}
      {w v a t : Lexeme} {x x₁ x₂ : List Lexeme} {f : Excess} :
      w.kind = .kwFor → v.kind = .ident → a.kind = .assign → (ExprPhrase.expr 0 first).Spelled x (t :: x₁) →
      first.nesting ≤ n → t.kind = .kwTo → (ExprPhrase.expr 0 last).Spelled x₁ x₂ → last.nesting ≤ n →
      OptionExceeds (fun e => (ExprPhrase.expr 0 e).Exceeds) n .kwBy step x₂ f →
      (stmt (.forLoop name first last step body span)).Exceeds (n + 1) (w :: v :: a :: x) f
  | forBody {n : Nat} {name : Name} {first last : Expr} {step : Option Expr} {body : List Stmt} {span : Span}
      {w v a t d : Lexeme} {x x₁ x₂ x₃ : List Lexeme} {f : Excess} :
      w.kind = .kwFor → v.kind = .ident → a.kind = .assign → (ExprPhrase.expr 0 first).Spelled x (t :: x₁) →
      first.nesting ≤ n → t.kind = .kwTo → (ExprPhrase.expr 0 last).Spelled x₁ x₂ → last.nesting ≤ n →
      Optionally (fun e => (ExprPhrase.expr 0 e).Spelled) .kwBy step x₂ (d :: x₃) → depthOf Expr.nesting step ≤ n →
      d.kind = .kwDo → (stmts body).Exceeds n x₃ f →
      (stmt (.forLoop name first last step body span)).Exceeds (n + 1) (w :: v :: a :: x) f
  | whileCondition {n : Nat} {c : Expr} {body : List Stmt} {span : Span} {w : Lexeme} {x : List Lexeme} {f : Excess} :
      w.kind = .kwWhile → (ExprPhrase.expr 0 c).Exceeds n x f →
      (stmt (.whileLoop c body span)).Exceeds (n + 1) (w :: x) f
  | whileBody {n : Nat} {c : Expr} {body : List Stmt} {span : Span} {w d : Lexeme} {x x₁ : List Lexeme} {f : Excess} :
      w.kind = .kwWhile → (ExprPhrase.expr 0 c).Spelled x (d :: x₁) → c.nesting ≤ n → d.kind = .kwDo →
      (stmts body).Exceeds n x₁ f → (stmt (.whileLoop c body span)).Exceeds (n + 1) (w :: x) f
  | repeatBody {n : Nat} {c : Expr} {body : List Stmt} {span : Span} {w : Lexeme} {x : List Lexeme} {f : Excess} :
      w.kind = .kwRepeat → (stmts body).Exceeds n x f → (stmt (.repeatLoop body c span)).Exceeds (n + 1) (w :: x) f
  | repeatCondition {n : Nat} {c : Expr} {body : List Stmt} {span : Span} {w u : Lexeme} {x x₁ : List Lexeme}
      {f : Excess} :
      w.kind = .kwRepeat → (stmts body).Spelled x (u :: x₁) → Stmt.nestingAll body ≤ n → u.kind = .kwUntil →
      (ExprPhrase.expr 0 c).Exceeds n x₁ f → (stmt (.repeatLoop body c span)).Exceeds (n + 1) (w :: x) f
  -- Statements without a body
  | target {n : Nat} {target value : Expr} {span : Span} {x : List Lexeme} {f : Excess} :
      (headKind x).startsTarget = true → (ExprPhrase.access target).Exceeds n x f →
      (stmt (.assign target value span)).Exceeds n x f
  | value {n : Nat} {target value : Expr} {span : Span} {a : Lexeme} {x x₁ : List Lexeme} {f : Excess} :
      (headKind x).startsTarget = true → (ExprPhrase.access target).Spelled x (a :: x₁) → target.nesting ≤ n →
      a.kind = .assign → (ExprPhrase.expr 0 value).Exceeds n x₁ f → (stmt (.assign target value span)).Exceeds n x f
  | callee {n : Nat} {callee : Expr} {span : Span} {x : List Lexeme} {f : Excess} :
      (headKind x).startsTarget = true → (ExprPhrase.access callee).Exceeds n x f →
      (stmt (.call callee span)).Exceeds n x f
  -- Lists of statements
  | firstStmt {n : Nat} {st : Stmt} {sts : List Stmt} {x y : List Lexeme} {f : Excess} :
      (stmt st).Spelled x y → (stmt st).Exceeds n x f → (stmts (st :: sts)).Exceeds n x f
  | laterStmt {n : Nat} {st : Stmt} {sts : List Stmt} {x y : List Lexeme} {f : Excess} :
      (stmt st).Spelled x y → st.nesting ≤ n → (stmts sts).Exceeds n y f → (stmts (st :: sts)).Exceeds n x f
  -- Branches
  | elsifCondition {n : Nat} {c : Expr} {body : List Stmt} {branches : List ElsifBranch} {span : Span} {w : Lexeme}
      {x : List Lexeme} {f : Excess} :
      w.kind = .kwElsif → (ExprPhrase.expr 0 c).Exceeds n x f →
      (elsifs (.mk c body span :: branches)).Exceeds n (w :: x) f
  | elsifBody {n : Nat} {c : Expr} {body : List Stmt} {branches : List ElsifBranch} {span : Span} {w th : Lexeme}
      {x x₁ : List Lexeme} {f : Excess} :
      w.kind = .kwElsif → (ExprPhrase.expr 0 c).Spelled x (th :: x₁) → c.nesting ≤ n → th.kind = .kwThen →
      (stmts body).Exceeds n x₁ f → (elsifs (.mk c body span :: branches)).Exceeds n (w :: x) f
  | laterElsif {n : Nat} {c : Expr} {body : List Stmt} {branches : List ElsifBranch} {span : Span} {w th : Lexeme}
      {x x₁ x₂ : List Lexeme} {f : Excess} :
      w.kind = .kwElsif → (ExprPhrase.expr 0 c).Spelled x (th :: x₁) → c.nesting ≤ n → th.kind = .kwThen →
      (stmts body).Spelled x₁ x₂ → Stmt.nestingAll body ≤ n → (elsifs branches).Exceeds n x₂ f →
      (elsifs (.mk c body span :: branches)).Exceeds n (w :: x) f
  | elseBody {n : Nat} {body : List Stmt} {w : Lexeme} {x : List Lexeme} {f : Excess} :
      w.kind = .kwElse → (stmts body).Exceeds n x f → (elsePart (some body)).Exceeds n (w :: x) f
  | labels {n : Nat} {labels : List Expr} {body : List Stmt} {span : Span} {x : List Lexeme} {f : Excess} :
      (ExprPhrase.exprs labels).Exceeds n x f → (arm (.mk labels body span)).Exceeds n x f
  | armBody {n : Nat} {labels : List Expr} {body : List Stmt} {span : Span} {c : Lexeme} {x x₁ : List Lexeme}
      {f : Excess} :
      (ExprPhrase.exprs labels).Spelled x (c :: x₁) → Expr.nestingAll labels ≤ n → c.kind = .colon →
      (stmts body).Exceeds n x₁ f → (arm (.mk labels body span)).Exceeds n x f
  | firstArm {n : Nat} {a : CaseArm} {as : List CaseArm} {x : List Lexeme} {f : Excess} :
      (arm a).Exceeds n x f → (arms (a :: as)).Exceeds n x f
  | laterArm {n : Nat} {a b : CaseArm} {as : List CaseArm} {x y z : List Lexeme} {f : Excess} :
      (arm a).Spelled x y → a.nesting ≤ n → (arm b).Spelled y z → (arms (b :: as)).Exceeds n y f →
      (arms (a :: b :: as)).Exceeds n x f

variable {φ : StmtPhrase} {n : Nat} {x y z : List Lexeme} {f : Excess}

/-! ## There is such a construct -/

/-- Where the phrase nests more than `n` constructs, one of them is the first inside `n` others. -/
def HasExcess (φ : StmtPhrase) (x : List Lexeme) : Prop := ∀ n, n < φ.nesting → ∃ f, φ.Exceeds n x f

namespace HasExcess

variable {w : Lexeme} {x₁ x₂ x₃ : List Lexeme} {body : List Stmt} {branches : List ElsifBranch} {as : List CaseArm}
  {last : Option (List Stmt)} {c e : Expr} {span : Span}

/-- A statement with a body goes too deep at its word, or else one of its parts does inside it. -/
theorem block {st : Stmt} (hw : st.opener? = some w.kind)
    (h : ∀ n, n + 1 < st.nesting → ∃ f, (stmt st).Exceeds (n + 1) (w :: x) f) : (stmt st).HasExcess (w :: x) := by
  intro n hn
  cases n with
  | zero => exact ⟨_, .block hw⟩
  | succ n => exact h n hn

theorem ifThen {th : Lexeme} (hw : w.kind = .kwIf) (hc : (ExprPhrase.expr 0 c).Spelled x (th :: x₁))
    (hth : th.kind = .kwThen) (hbody : (stmts body).Spelled x₁ x₂) (hbranches : (elsifs branches).Spelled x₂ x₃)
    (ihbody : (stmts body).HasExcess x₁) (ihbranches : (elsifs branches).HasExcess x₂)
    (ihlast : (elsePart last).HasExcess x₃) : (stmt (.ifThen c body branches last span)).HasExcess (w :: x) := by
  refine .block (by rw [hw]; rfl) fun n hn => ?_
  rcases Nat.lt_or_ge n c.nesting with hlt | hle₁
  · obtain ⟨f, h⟩ := hc.exists_exceeds trivial hlt
    exact ⟨f, .ifCondition hw h⟩
  rcases Nat.lt_or_ge n (Stmt.nestingAll body) with hlt | hle₂
  · obtain ⟨f, h⟩ := ihbody n hlt
    exact ⟨f, .ifBody hw hc hle₁ hth h⟩
  rcases Nat.lt_or_ge n (ElsifBranch.nestingAll branches) with hlt | hle₃
  · obtain ⟨f, h⟩ := ihbranches n hlt
    exact ⟨f, .ifElsifs hw hc hle₁ hth hbody hle₂ h⟩
  · rw [Stmt.nesting, Nat.succ_lt_succ_iff, lt_max_iff, lt_max_iff, lt_max_iff] at hn
    obtain ⟨f, h⟩ := ihlast n (by rw [nesting]; omega)
    exact ⟨f, .ifElse hw hc hle₁ hth hbody hle₂ hbranches hle₃ h⟩

theorem select {o : Lexeme} (hw : w.kind = .kwCase) (he : (ExprPhrase.expr 0 e).Spelled x (o :: x₁))
    (ho : o.kind = .kwOf) (hne : as ≠ []) (has : (arms as).Spelled x₁ x₂) (ihas : (arms as).HasExcess x₁)
    (ihlast : (elsePart last).HasExcess x₂) : (stmt (.select e as last span)).HasExcess (w :: x) := by
  refine .block (by rw [hw]; rfl) fun n hn => ?_
  rcases Nat.lt_or_ge n e.nesting with hlt | hle₁
  · obtain ⟨f, h⟩ := he.exists_exceeds trivial hlt
    exact ⟨f, .selector hw h⟩
  rcases Nat.lt_or_ge n (CaseArm.nestingAll as) with hlt | hle₂
  · obtain ⟨f, h⟩ := ihas n hlt
    exact ⟨f, .selectArms hw he hle₁ ho h⟩
  · rw [Stmt.nesting, Nat.succ_lt_succ_iff, lt_max_iff, lt_max_iff] at hn
    obtain ⟨f, h⟩ := ihlast n (by rw [nesting]; omega)
    exact ⟨f, .selectElse hw he hle₁ ho hne has hle₂ h⟩

theorem forLoop {first last : Expr} {step : Option Expr} {v a t d : Lexeme} (hw : w.kind = .kwFor)
    (hv : v.kind = .ident) (ha : a.kind = .assign) (hfirst : (ExprPhrase.expr 0 first).Spelled x (t :: x₁))
    (ht : t.kind = .kwTo) (hlast : (ExprPhrase.expr 0 last).Spelled x₁ x₂)
    (hstep : Optionally (fun e => (ExprPhrase.expr 0 e).Spelled) .kwBy step x₂ (d :: x₃)) (hd : d.kind = .kwDo)
    (ihbody : (stmts body).HasExcess x₃) :
    (stmt (.forLoop v.name first last step body span)).HasExcess (w :: v :: a :: x) := by
  refine .block (by rw [hw]; rfl) fun n hn => ?_
  rcases Nat.lt_or_ge n first.nesting with hlt | hle₁
  · obtain ⟨f, h⟩ := hfirst.exists_exceeds trivial hlt
    exact ⟨f, .forFirst hw hv ha h⟩
  rcases Nat.lt_or_ge n last.nesting with hlt | hle₂
  · obtain ⟨f, h⟩ := hlast.exists_exceeds trivial hlt
    exact ⟨f, .forLast hw hv ha hfirst hle₁ ht h⟩
  rcases Nat.lt_or_ge n (depthOf Expr.nesting step) with hlt | hle₃
  · obtain ⟨f, h⟩ := hstep.exists_exceeds (E := fun e => (ExprPhrase.expr 0 e).Exceeds)
      (fun e x he hlt => he.exists_exceeds trivial hlt) hlt
    exact ⟨f, .forStep hw hv ha hfirst hle₁ ht hlast hle₂ h⟩
  · rw [Stmt.nesting, Nat.succ_lt_succ_iff, lt_max_iff, lt_max_iff, lt_max_iff] at hn
    obtain ⟨f, h⟩ := ihbody n (by rw [nesting]; omega)
    exact ⟨f, .forBody hw hv ha hfirst hle₁ ht hlast hle₂ hstep hle₃ hd h⟩

theorem whileLoop {d : Lexeme} (hw : w.kind = .kwWhile) (hc : (ExprPhrase.expr 0 c).Spelled x (d :: x₁))
    (hd : d.kind = .kwDo) (ihbody : (stmts body).HasExcess x₁) :
    (stmt (.whileLoop c body span)).HasExcess (w :: x) := by
  refine .block (by rw [hw]; rfl) fun n hn => ?_
  rcases Nat.lt_or_ge n c.nesting with hlt | hle
  · obtain ⟨f, h⟩ := hc.exists_exceeds trivial hlt
    exact ⟨f, .whileCondition hw h⟩
  · rw [Stmt.nesting, Nat.succ_lt_succ_iff, lt_max_iff] at hn
    obtain ⟨f, h⟩ := ihbody n (hn.resolve_left (Nat.not_lt.2 hle))
    exact ⟨f, .whileBody hw hc hle hd h⟩

theorem repeatLoop {u : Lexeme} (hw : w.kind = .kwRepeat) (hbody : (stmts body).Spelled x (u :: x₁))
    (hu : u.kind = .kwUntil) (hc : (ExprPhrase.expr 0 c).Spelled x₁ x₂) (ihbody : (stmts body).HasExcess x) :
    (stmt (.repeatLoop body c span)).HasExcess (w :: x) := by
  refine .block (by rw [hw]; rfl) fun n hn => ?_
  rcases Nat.lt_or_ge n (Stmt.nestingAll body) with hlt | hle
  · obtain ⟨f, h⟩ := ihbody n hlt
    exact ⟨f, .repeatBody hw h⟩
  · rw [Stmt.nesting, Nat.succ_lt_succ_iff, lt_max_iff] at hn
    obtain ⟨f, h⟩ := hc.exists_exceeds trivial (hn.resolve_right (Nat.not_lt.2 hle))
    exact ⟨f, .repeatCondition hw hbody hle hu h⟩

theorem assign {target value : Expr} {a : Lexeme} (hk : (headKind x).startsTarget = true)
    (htarget : (ExprPhrase.access target).Spelled x (a :: x₁)) (ha : a.kind = .assign)
    (hvalue : (ExprPhrase.expr 0 value).Spelled x₁ x₂) :
    (stmt (.assign target value span)).HasExcess x := by
  intro n hn
  rcases Nat.lt_or_ge n target.nesting with hlt | hle
  · obtain ⟨f, h⟩ := htarget.exists_exceeds trivial hlt
    exact ⟨f, .target hk h⟩
  · obtain ⟨f, h⟩ := hvalue.exists_exceeds trivial ((lt_max_iff.1 hn).resolve_left (Nat.not_lt.2 hle))
    exact ⟨f, .value hk htarget hle ha h⟩

theorem moreStmts {st : Stmt} {sts : List Stmt} (hst : (stmt st).Spelled x y) (ih : (stmt st).HasExcess x)
    (ihs : (stmts sts).HasExcess y) : (stmts (st :: sts)).HasExcess x := by
  intro n hn
  rcases Nat.lt_or_ge n st.nesting with hlt | hle
  · obtain ⟨f, h⟩ := ih n hlt
    exact ⟨f, .firstStmt hst h⟩
  · obtain ⟨f, h⟩ := ihs n ((lt_max_iff.1 hn).resolve_left (Nat.not_lt.2 hle))
    exact ⟨f, .laterStmt hst hle h⟩

theorem moreElsifs {th : Lexeme} (hw : w.kind = .kwElsif) (hc : (ExprPhrase.expr 0 c).Spelled x (th :: x₁))
    (hth : th.kind = .kwThen) (hbody : (stmts body).Spelled x₁ x₂) (ihbody : (stmts body).HasExcess x₁)
    (ihbranches : (elsifs branches).HasExcess x₂) : (elsifs (.mk c body span :: branches)).HasExcess (w :: x) := by
  intro n hn
  rcases Nat.lt_or_ge n c.nesting with hlt | hle₁
  · obtain ⟨f, h⟩ := hc.exists_exceeds trivial hlt
    exact ⟨f, .elsifCondition hw h⟩
  rcases Nat.lt_or_ge n (Stmt.nestingAll body) with hlt | hle₂
  · obtain ⟨f, h⟩ := ihbody n hlt
    exact ⟨f, .elsifBody hw hc hle₁ hth h⟩
  · rw [nesting, ElsifBranch.nestingAll, ElsifBranch.nesting, lt_max_iff, lt_max_iff] at hn
    obtain ⟨f, h⟩ := ihbranches n (by rw [nesting]; omega)
    exact ⟨f, .laterElsif hw hc hle₁ hth hbody hle₂ h⟩

theorem arm {labels : List Expr} {colon : Lexeme} (hlabels : (ExprPhrase.exprs labels).Spelled x (colon :: x₁))
    (hcolon : colon.kind = .colon) (ih : (stmts body).HasExcess x₁) :
    (StmtPhrase.arm (.mk labels body span)).HasExcess x := by
  intro n hn
  rcases Nat.lt_or_ge n (Expr.nestingAll labels) with hlt | hle
  · obtain ⟨f, h⟩ := hlabels.exists_exceeds trivial hlt
    exact ⟨f, .labels h⟩
  · obtain ⟨f, h⟩ := ih n ((lt_max_iff.1 hn).resolve_left (Nat.not_lt.2 hle))
    exact ⟨f, .armBody hlabels hle hcolon h⟩

theorem moreArms {a : CaseArm} (ha : (StmtPhrase.arm a).Spelled x y) (has : (arms as).Spelled y z)
    (ih : (StmtPhrase.arm a).HasExcess x) (ihs : (arms as).HasExcess y) : (arms (a :: as)).HasExcess x := by
  intro n hn
  rcases Nat.lt_or_ge n a.nesting with hlt | hle
  · obtain ⟨f, h⟩ := ih n hlt
    exact ⟨f, .firstArm h⟩
  · obtain ⟨f, h⟩ := ihs n ((lt_max_iff.1 hn).resolve_left (Nat.not_lt.2 hle))
    cases has with
    | noArms => cases h
    | moreArms hb _ => exact ⟨f, .laterArm ha hle hb h⟩

end HasExcess

namespace Spelled

/-- A phrase that nests more than `n` constructs has a first one that is too deep. -/
theorem exists_exceeds (h : φ.Spelled x y) : φ.HasExcess x := by
  induction h with
  | ifThen hw hc hth hbody hbranches _ _ ihbody ihbranches ihlast =>
    exact .ifThen hw hc hth hbody hbranches ihbody ihbranches ihlast
  | select hw he ho hne has _ _ ihas ihlast => exact .select hw he ho hne has ihas ihlast
  | forLoop hw hv ha hfirst ht hlast hstep hd _ _ ihbody =>
    exact .forLoop hw hv ha hfirst ht hlast hstep hd ihbody
  | whileLoop hw hc hd _ _ ihbody => exact .whileLoop hw hc hd ihbody
  | repeatLoop hw hbody hu hc _ ihbody => exact .repeatLoop hw hbody hu hc ihbody
  | assign hk htarget ha hvalue _ => exact .assign hk htarget ha hvalue
  | call hk hcallee _ =>
    intro n hn
    obtain ⟨f, h⟩ := hcallee.exists_exceeds trivial hn
    exact ⟨f, .callee hk h⟩
  | leave _ _ | exit _ _ | next _ _ | nop _ | noStmts | noElsifs | noElse | noArms =>
    exact fun n hn => absurd hn (Nat.not_lt_zero n)
  | moreStmts hst _ ih ihs => exact .moreStmts hst ih ihs
  | moreElsifs hw hc hth hbody _ ihbody ihbranches => exact .moreElsifs hw hc hth hbody ihbody ihbranches
  | someElse hw _ ih =>
    intro n hn
    obtain ⟨f, h⟩ := ih n hn
    exact ⟨f, .elseBody hw h⟩
  | arm hlabels hc _ ih => exact .arm hlabels hc ih
  | moreArms ha has ih ihs => exact .moreArms ha has ih ihs

end Spelled

/-! ## First tokens -/

namespace Exceeds

theorem headKind_elsifs {branches : List ElsifBranch} (h : (elsifs branches).Exceeds n x f) :
    headKind x = .kwElsif := by
  cases h <;> assumption

theorem headKind_elsePart {body : Option (List Stmt)} (h : (elsePart body).Exceeds n x f) : headKind x = .kwElse := by
  cases h with
  | elseBody hw _ => exact hw

theorem headKind_arm {a : CaseArm} (h : (arm a).Exceeds n x f) : (headKind x).canStartExpr = true := by
  cases h with
  | labels h => exact h.canStartExpr
  | armBody h _ _ _ => exact h.canStartExpr

theorem headKind_arms {as : List CaseArm} (h : (arms as).Exceeds n x f) : (headKind x).canStartExpr = true := by
  cases h with
  | firstArm h => exact h.headKind_arm
  | laterArm h _ _ _ => exact h.headKind_arm

end Exceeds

/-! ## The rules give up -/

open StructuredText.Parser

/-- In front of the phrase, the rules with `n` levels give up and report `f` only. -/
def FailsBy (n : Nat) : StmtPhrase → List Lexeme → Excess → Prop
  | .stmt _, x, f => Fails (statement n) x f
  | .stmts _, x, f => ∀ stops, PassesStatements stops → LoopFails (statementTurn (statement n) stops) x f
  | .elsifs _, x, f => LoopFails (elsifTurn (levelAt n)) x f
  | .elsePart _, x, f => Fails (Parser.elseBody (levelAt n)) x f
  | .arm _, x, f => Fails (caseArm (levelAt n)) x f
  | .arms _, x, f => LoopFails (caseArmTurn (levelAt n)) x f

/-- The rule for a statement with a body, by the word that begins it. -/
def bodyRule? : TokenKind → Option (Level → Parser Stmt)
  | .kwIf => some ifStatement
  | .kwCase => some caseStatement
  | .kwFor => some forStatement
  | .kwWhile => some whileStatement
  | .kwRepeat => some repeatStatement
  | _ => none

namespace FailsBy

variable {w : Lexeme} {x₁ : List Lexeme} {e : Expr} {sts : List Stmt}

theorem list (h : (stmts sts).FailsBy n x f) : Fails (statementList (levelAt n).statement) x f :=
  (h _ passesStatements_false).collect

/-- The expression of a statement with a body. -/
theorem expression (h : (ExprPhrase.expr 0 e).Exceeds n x f) : Fails (exprOf (levelAt n).unary) x f := h.failsBy.read

/-- No level is left for a statement with a body. -/
theorem block {st : Stmt} (hw : st.opener? = some w.kind) : (stmt st).FailsBy 0 (w :: x) ⟨"statement", w⟩ := by
  refine .kind ?_
  cases st with
  | ifThen _ _ _ _ _ | select _ _ _ _ | forLoop _ _ _ _ _ _ | whileLoop _ _ _ | repeatLoop _ _ _ =>
    rw [headKind_cons, ← Option.some.inj hw]
    exact .here
  | _ => cases hw

/-- Where the rule for a statement with a body fails one level deeper, so does the rule for statements. -/
theorem inside {rule : Level → Parser Stmt} (hrule : bodyRule? w.kind = some rule)
    (h : Fails (rule (levelAt n)) (w :: x) f) : Fails (statement (n + 1)) (w :: x) f := by
  refine .kind ?_
  rw [headKind_cons]
  generalize w.kind = k at hrule
  unfold bodyRule? at hrule
  split at hrule <;> cases hrule <;> exact h.nested

/-- Behind an expression and the word that follows it, the rest fails. -/
theorem behindExpr {k : TokenKind} {th : Lexeme} {q : Expr → PUnit → Parser α}
    (he : (ExprPhrase.expr 0 e).Spelled x (th :: x₁)) (hn : e.nesting ≤ n) (hth : th.kind = k)
    (hk : k.endsTier 0 = true) (h : Fails (q e ⟨⟩) x₁ f) :
    Fails (exprOf (levelAt n).unary >>= fun e => expect k >>= q e) x f :=
  .after (ReadBy.expression he hn (by rw [headKind_cons, hth, hk])) (.expect hth h)

/-- Behind the selector, the arms of a `CASE` or what follows them fail. -/
theorem behindSelector {o : Lexeme} (he : (ExprPhrase.expr 0 e).Spelled x (o :: x₁)) (hn : e.nesting ≤ n)
    (ho : o.kind = .kwOf) (hx₁ : (headKind x₁).canStartExpr = true)
    (h : ∀ start, Fails (caseArms (levelAt n) start e) x₁ f) : Fails (caseStatement (levelAt n)) (w :: x) f := by
  rw [caseStatement_eq]
  refine .offset fun start => .skip (behindExpr he hn ho rfl (.kind ?_))
  split
  · next hk => rw [hk] at hx₁; cases hx₁
  · next hk => rw [hk] at hx₁; cases hx₁
  · exact h start

/-- Behind the loop variable and the `:=`, the rest fails. -/
theorem behindVariable {v a : Lexeme} {q : Name → PUnit → Parser α} (hv : v.kind = .ident) (ha : a.kind = .assign)
    (h : Fails (q v.name ⟨⟩) x f) :
    Fails (ident "loop variable" >>= fun v => expect .assign >>= q v) (v :: a :: x) f :=
  .after (ident_complete hv) (.expect ha h)

/-- An assignment or a call fails if its target does, or its value behind it. -/
theorem target {st : Stmt} (hk : (headKind x).startsTarget = true) (h : Fails (assignmentOrCall (deeperLevel n)) x f) :
    (stmt st).FailsBy n x f := by
  show Fails (statement n) x f
  rw [statement_eq]
  refine .kind ?_
  generalize headKind x = k at hk
  cases k <;> first | exact h | cases hk

/-! ### Behind other parts -/

section

variable {x₂ x₃ : List Lexeme} {body : List Stmt} {branches : List ElsifBranch} {as : List CaseArm}
  {last : Option (List Stmt)} {c : Expr} {span : Span}

theorem ifElsifs {th : Lexeme} (hw : w.kind = .kwIf) (hc : (ExprPhrase.expr 0 c).Spelled x (th :: x₁))
    (hn : c.nesting ≤ n) (hth : th.kind = .kwThen) (hbody : (stmts body).Spelled x₁ x₂)
    (hnbody : Stmt.nestingAll body ≤ n) (hx₂ : headKind x₂ = .kwElsif) (ih : (elsifs branches).FailsBy n x₂ f) :
    (stmt (.ifThen c body branches last span)).FailsBy (n + 1) (w :: x) f := by
  have hbody' := (hbody.readBy n).list hnbody (by rw [hx₂]; rfl)
  refine .inside (by rw [hw]; rfl) (.offset fun _ => .skip (behindExpr hc hn hth rfl (.after hbody' ?_)))
  exact .bind ih.collect

theorem ifElse {th : Lexeme} (hw : w.kind = .kwIf) (hc : (ExprPhrase.expr 0 c).Spelled x (th :: x₁))
    (hn : c.nesting ≤ n) (hth : th.kind = .kwThen) (hbody : (stmts body).Spelled x₁ x₂)
    (hnbody : Stmt.nestingAll body ≤ n) (hbranches : (elsifs branches).Spelled x₂ x₃)
    (hnbranches : ElsifBranch.nestingAll branches ≤ n) (hx₃ : headKind x₃ = .kwElse)
    (ih : (elsePart last).FailsBy n x₃ f) : (stmt (.ifThen c body branches last span)).FailsBy (n + 1) (w :: x) f := by
  have hends : (headKind x₃).endsStatements = true := by rw [hx₃]; rfl
  have hbody' := (hbody.readBy n).list hnbody (hbranches.endsStatements_elsifs hends)
  have hbranches' := hbranches.readBy n hnbranches hends (by rw [hx₃]; decide)
  refine .inside (by rw [hw]; rfl) (.offset fun _ => .skip (behindExpr hc hn hth rfl (.after hbody' ?_)))
  exact .after hbranches' (.bind ih)

theorem selectElse {o : Lexeme} (hw : w.kind = .kwCase) (he : (ExprPhrase.expr 0 e).Spelled x (o :: x₁))
    (hn : e.nesting ≤ n) (ho : o.kind = .kwOf) (hne : as ≠ []) (has : (arms as).Spelled x₁ x₂)
    (hnas : CaseArm.nestingAll as ≤ n) (hx₂ : headKind x₂ = .kwElse) (ih : (elsePart last).FailsBy n x₂ f) :
    (stmt (.select e as last span)).FailsBy (n + 1) (w :: x) f := by
  have has' := has.readBy n hnas (by rw [hx₂]; rfl)
  exact .inside (by rw [hw]; rfl)
    (behindSelector he hn ho (has.canStartExpr_arms hne) fun _ => .after has' (.bind ih))

theorem forStep {name : Name} {first last : Expr} {step : Option Expr} {v a t : Lexeme} (hw : w.kind = .kwFor)
    (hv : v.kind = .ident) (ha : a.kind = .assign) (hfirst : (ExprPhrase.expr 0 first).Spelled x (t :: x₁))
    (hnfirst : first.nesting ≤ n) (ht : t.kind = .kwTo) (hlast : (ExprPhrase.expr 0 last).Spelled x₁ x₂)
    (hnlast : last.nesting ≤ n) (h : OptionExceeds (fun e => (ExprPhrase.expr 0 e).Exceeds) n .kwBy step x₂ f) :
    (stmt (.forLoop name first last step body span)).FailsBy (n + 1) (w :: v :: a :: x) f := by
  have hlast' := ReadBy.expression hlast hnlast (by rw [h.headKind_eq]; rfl)
  refine .inside (by rw [hw]; rfl) (.offset fun _ => .skip (behindVariable hv ha ?_))
  refine behindExpr hfirst hnfirst ht rfl (.after hlast' (.bind ?_))
  exact optional_fails h fun _ _ _ => expression

theorem forBody {name : Name} {first last : Expr} {step : Option Expr} {v a t d : Lexeme} (hw : w.kind = .kwFor)
    (hv : v.kind = .ident) (ha : a.kind = .assign) (hfirst : (ExprPhrase.expr 0 first).Spelled x (t :: x₁))
    (hnfirst : first.nesting ≤ n) (ht : t.kind = .kwTo) (hlast : (ExprPhrase.expr 0 last).Spelled x₁ x₂)
    (hnlast : last.nesting ≤ n)
    (hstep : Optionally (fun e => (ExprPhrase.expr 0 e).Spelled) .kwBy step x₂ (d :: x₃))
    (hnstep : depthOf Expr.nesting step ≤ n) (hd : d.kind = .kwDo) (ih : (stmts body).FailsBy n x₃ f) :
    (stmt (.forLoop name first last step body span)).FailsBy (n + 1) (w :: v :: a :: x) f := by
  have hx₂ : (headKind x₂).endsTier 0 = true := by
    rcases hstep.headKind_cases with rfl | hk
    · rw [headKind_cons, hd]; rfl
    · rw [hk]; rfl
  have hlast' := ReadBy.expression hlast hnlast hx₂
  have hstep' := ReadBy.step hstep hnstep hd
  refine .inside (by rw [hw]; rfl) (.offset fun _ => .skip (behindVariable hv ha ?_))
  exact behindExpr hfirst hnfirst ht rfl (.after hlast' (.after hstep' (.expect hd (.bind ih.list))))

theorem repeatCondition {u : Lexeme} (hw : w.kind = .kwRepeat) (hbody : (stmts body).Spelled x (u :: x₁))
    (hn : Stmt.nestingAll body ≤ n) (hu : u.kind = .kwUntil) (h : (ExprPhrase.expr 0 c).Exceeds n x₁ f) :
    (stmt (.repeatLoop body c span)).FailsBy (n + 1) (w :: x) f := by
  have hbody' := (hbody.readBy n).list hn (by rw [headKind_cons, hu]; rfl)
  refine .inside (by rw [hw]; rfl) (.offset fun _ => .skip (.after hbody' (.expect hu ?_)))
  exact .bind (expression h)

theorem value {target value : Expr} {a : Lexeme} (hk : (headKind x).startsTarget = true)
    (htarget : (ExprPhrase.access target).Spelled x (a :: x₁)) (hn : target.nesting ≤ n) (ha : a.kind = .assign)
    (h : (ExprPhrase.expr 0 value).Exceeds n x₁ f) : (stmt (.assign target value span)).FailsBy n x f := by
  have htarget' := access_complete hn htarget (by rw [headKind_cons, ha]; rfl)
  rw [Parser.access, ← map_unary_deeperLevel] at htarget'
  refine .target hk (.offset fun _ => .after htarget' (.eat ha (.bind ?_)))
  rw [map_unary_deeperLevel, ← unary_eq]
  exact h.failsBy.read

theorem laterElsif {th : Lexeme} (hw : w.kind = .kwElsif) (hc : (ExprPhrase.expr 0 c).Spelled x (th :: x₁))
    (hn : c.nesting ≤ n) (hth : th.kind = .kwThen) (hbody : (stmts body).Spelled x₁ x₂)
    (hnbody : Stmt.nestingAll body ≤ n) (hx₂ : headKind x₂ = .kwElsif) (ih : (elsifs branches).FailsBy n x₂ f) :
    (elsifs (.mk c body span :: branches)).FailsBy n (w :: x) f := by
  have hlt : x₂.length ≤ x.length := Nat.le_trans hbody.length_le.1 (Nat.le_of_lt (Nat.lt_of_succ_lt hc.length_lt))
  have hc' := ReadBy.expression hc hn (by rw [headKind_cons, hth]; rfl)
  have hbody' := (hbody.readBy n).list hnbody (by rw [hx₂]; rfl)
  exact .later (elsifTurn_more hw hth hc' hbody' hlt) (Nat.lt_succ_of_le hlt) ih

theorem armBody {labels : List Expr} {colon : Lexeme} (hlabels : (ExprPhrase.exprs labels).Spelled x (colon :: x₁))
    (hn : Expr.nestingAll labels ≤ n) (hcolon : colon.kind = .colon) (ih : (stmts body).FailsBy n x₁ f) :
    (arm (.mk labels body span)).FailsBy n x f := by
  have hlabels' := hlabels.readBy n hn (by rw [headKind_cons, hcolon]; decide) (by rw [headKind_cons, hcolon]; rfl)
  refine .offset fun _ => .kind ?_
  rw [if_pos hlabels.canStartExpr]
  exact .after hlabels' (.expect hcolon (.bind (ih _ passesStatements_atCaseLabel).collect))

end

end FailsBy

/-- Where a phrase goes too deep, the rules give up. -/
theorem Exceeds.failsBy (h : φ.Exceeds n x f) : φ.FailsBy n x f := by
  induction h with
  | block hw => exact .block hw
  | ifCondition hw h | selector hw h | whileCondition hw h =>
    exact .inside (by rw [hw]; rfl) (.offset fun _ => .skip (.bind (FailsBy.expression h)))
  | ifBody hw hc hn hth _ ih | whileBody hw hc hn hth _ ih =>
    exact .inside (by rw [hw]; rfl) (.offset fun _ => .skip (FailsBy.behindExpr hc hn hth rfl (.bind ih.list)))
  | ifElsifs hw hc hn hth hbody hnbody h ih => exact .ifElsifs hw hc hn hth hbody hnbody h.headKind_elsifs ih
  | ifElse hw hc hn hth hbody hnbody hbranches hnbranches h ih =>
    exact .ifElse hw hc hn hth hbody hnbody hbranches hnbranches h.headKind_elsePart ih
  | selectArms hw he hn ho h ih =>
    exact .inside (by rw [hw]; rfl) (FailsBy.behindSelector he hn ho h.headKind_arms fun _ => .bind ih.collect)
  | selectElse hw he hn ho hne has hnas h ih => exact .selectElse hw he hn ho hne has hnas h.headKind_elsePart ih
  | forFirst hw hv ha h =>
    refine .inside (by rw [hw]; rfl) (.offset fun _ => .skip (FailsBy.behindVariable hv ha ?_))
    exact .bind (FailsBy.expression h)
  | forLast hw hv ha hfirst hn ht h =>
    refine .inside (by rw [hw]; rfl) (.offset fun _ => .skip (FailsBy.behindVariable hv ha ?_))
    exact FailsBy.behindExpr hfirst hn ht rfl (.bind (FailsBy.expression h))
  | forStep hw hv ha hfirst hn₁ ht hlast hn₂ h => exact .forStep hw hv ha hfirst hn₁ ht hlast hn₂ h
  | forBody hw hv ha hfirst hn₁ ht hlast hn₂ hstep hn₃ hd _ ih =>
    exact .forBody hw hv ha hfirst hn₁ ht hlast hn₂ hstep hn₃ hd ih
  | repeatBody hw _ ih => exact .inside (by rw [hw]; rfl) (.offset fun _ => .skip (.bind ih.list))
  | repeatCondition hw hbody hn hu h => exact .repeatCondition hw hbody hn hu h
  | target hk h | callee hk h =>
    refine .target hk (.offset fun _ => .bind ?_)
    rw [map_unary_deeperLevel]
    exact h.failsBy
  | value hk htarget hn ha h => exact .value hk htarget hn ha h
  | firstStmt hst _ ih =>
    intro stops hstops
    refine .here (.get fun s hs => ?_)
    rw [not_over_of_stmt hstops hst hs]
    exact .recovering ih
  | laterStmt hst hn _ ih =>
    intro stops hstops
    exact .later (statementTurn_more hstops hst (statement_complete hst hn)) (hst.length_lt rfl) (ih stops hstops)
  | elsifCondition hw h =>
    refine .here (.sees ?_)
    rw [if_pos (by simpa using hw)]
    exact .offset fun _ => .skip (.bind (FailsBy.expression h))
  | elsifBody hw hc hn hth _ ih =>
    refine .here (.sees ?_)
    rw [if_pos (by simpa using hw)]
    exact .offset fun _ => .skip (FailsBy.behindExpr hc hn hth rfl (.bind ih.list))
  | laterElsif hw hc hn hth hbody hnbody h ih => exact .laterElsif hw hc hn hth hbody hnbody h.headKind_elsifs ih
  | elseBody hw _ ih => exact .eat hw (.bind ih.list)
  | labels h =>
    refine .offset fun _ => .kind ?_
    rw [if_pos h.canStartExpr]
    exact .bind h.failsBy.sepByComma
  | armBody hlabels hn hc _ ih => exact .armBody hlabels hn hc ih
  | firstArm h ih =>
    refine .here (.get fun s hs => ?_)
    rw [not_over_of_canStartExpr h.headKind_arm hs]
    exact .recovering ih
  | laterArm ha hn hb _ ih =>
    have hhalts : Halts ParserState.atCaseLabel _ := fun s hs => by rw [atCaseLabel_of_arm hb hs, Bool.or_true]
    exact .later (caseArmTurn_more ha.headKind_arm (ha.readBy _ hn hhalts)) (ha.length_lt rfl) ih

end StmtPhrase

end StructuredText
