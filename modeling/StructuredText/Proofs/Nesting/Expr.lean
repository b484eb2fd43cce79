import Mathlib.Order.MinMax
import StructuredText.Proofs.Complete.Expr
import StructuredText.Proofs.Fails

/-!
# Expressions that nest too deeply

`φ.Exceeds n x f` says where a phrase `φ` that the tokens `x` spell goes deeper than `n`: `f` is the first construct in
the order of the text that stands inside `n` others of the phrase. A phrase that nests more than `n` constructs has one
(`Spelled.exists_exceeds`), and the rules with `n` levels give up there and report just that (`Exceeds.failsBy`).

What the text has in front of `f` is read, so that a chain of operators or suffixes is followed up to the link in which
`f` stands (`Spelled.resumes`).
-/

namespace StructuredText

/-- What the last suffix of an expression stands behind. -/
def Expr.receiver? : Expr → Option Expr
  | .member e _ _ | .part e _ _ _ | .partAt e _ _ _ | .index e _ _ | .call e _ _ => some e
  | _ => none

namespace ExprPhrase

/-- The nesting of the phrase. -/
def nesting : ExprPhrase → Nat
  | expr _ e | unary e | access e | primary e => e.nesting
  | exprs es => Expr.nestingAll es
  | arg a => a.nesting
  | args as => Arg.nestingAll as

/-- Of the constructs in the phrase that begins the tokens, the first one inside `n` others. A unary operator begins at
its operand, an index or a call at its bracket. -/
inductive Exceeds : ExprPhrase → Nat → List Lexeme → Excess → Prop
  -- Binary operators
  | operand {level n : Nat} {e : Expr} {x : List Lexeme} {f : Excess} :
      (unary e).Exceeds n x f → (expr level e).Exceeds n x f
  | left {level n : Nat} {op : BinaryOp} {left right : Expr} {span : Span} {x : List Lexeme} {f : Excess} :
      level ≤ op.tier.level → (expr op.tier.level left).Exceeds n x f →
      (expr level (.binary op left right span)).Exceeds n x f
  | right {level n : Nat} {op : BinaryOp} {left right : Expr} {span : Span} {o : Lexeme} {x y : List Lexeme}
      {f : Excess} :
      level ≤ op.tier.level → (expr op.tier.level left).Spelled x (o :: y) → left.nesting ≤ n →
      BinaryOp.ofToken? o.kind = some op → (expr (op.tier.level + 1) right).Exceeds n y f →
      (expr level (.binary op left right span)).Exceeds n x f
  -- Unary operators
  | access {n : Nat} {e : Expr} {x : List Lexeme} {f : Excess} : (access e).Exceeds n x f → (unary e).Exceeds n x f
  | operator {op : UnaryOp} {e : Expr} {span : Span} {o t : Lexeme} {x : List Lexeme} :
      UnaryOp.ofToken? o.kind = some op → (unary (.unary op e span)).Exceeds 0 (o :: t :: x) ⟨"expression", t⟩
  | inOperand {n : Nat} {op : UnaryOp} {e : Expr} {span : Span} {o : Lexeme} {x : List Lexeme} {f : Excess} :
      UnaryOp.ofToken? o.kind = some op → (unary e).Exceeds n x f →
      (unary (.unary op e span)).Exceeds (n + 1) (o :: x) f
  -- Suffixes
  | primary {n : Nat} {e : Expr} {x : List Lexeme} {f : Excess} :
      (primary e).Exceeds n x f → (ExprPhrase.access e).Exceeds n x f
  | receiver {n : Nat} {e e' : Expr} {x : List Lexeme} {f : Excess} :
      e'.receiver? = some e → (ExprPhrase.access e).Exceeds n x f → (ExprPhrase.access e').Exceeds n x f
  | partAt {e index : Expr} {width : AccessWidth} {span : Span} {d w l : Lexeme} {x y : List Lexeme} :
      (ExprPhrase.access e).Spelled x (d :: w :: l :: y) → e.nesting = 0 → d.kind = .dot → w.kind = .access width →
      l.kind = .lParen → (ExprPhrase.access (.partAt e width index span)).Exceeds 0 x ⟨"expression", l⟩
  | inPartAt {n : Nat} {e index : Expr} {width : AccessWidth} {span : Span} {d w l : Lexeme} {x y : List Lexeme}
      {f : Excess} :
      (ExprPhrase.access e).Spelled x (d :: w :: l :: y) → e.nesting ≤ n + 1 → d.kind = .dot →
      w.kind = .access width → l.kind = .lParen → (expr 0 index).Exceeds n y f →
      (ExprPhrase.access (.partAt e width index span)).Exceeds (n + 1) x f
  | index {e : Expr} {es : List Expr} {span : Span} {l : Lexeme} {x y : List Lexeme} :
      (ExprPhrase.access e).Spelled x (l :: y) → e.nesting = 0 → l.kind = .lBracket →
      (ExprPhrase.access (.index e es span)).Exceeds 0 x ⟨"expression", l⟩
  | inIndex {n : Nat} {e : Expr} {es : List Expr} {span : Span} {l : Lexeme} {x y : List Lexeme} {f : Excess} :
      (ExprPhrase.access e).Spelled x (l :: y) → e.nesting ≤ n + 1 → l.kind = .lBracket → (exprs es).Exceeds n y f →
      (ExprPhrase.access (.index e es span)).Exceeds (n + 1) x f
  | call {e : Expr} {as : List Arg} {span : Span} {l : Lexeme} {x y : List Lexeme} :
      (ExprPhrase.access e).Spelled x (l :: y) → e.nesting = 0 → e.isCallable = true → l.kind = .lParen →
      (ExprPhrase.access (.call e as span)).Exceeds 0 x ⟨"expression", l⟩
  | inCall {n : Nat} {e : Expr} {as : List Arg} {span : Span} {l : Lexeme} {x y : List Lexeme} {f : Excess} :
      (ExprPhrase.access e).Spelled x (l :: y) → e.nesting ≤ n + 1 → e.isCallable = true → l.kind = .lParen →
      (args as).Exceeds n y f → (ExprPhrase.access (.call e as span)).Exceeds (n + 1) x f
  -- Primaries
  | paren {e : Expr} {span : Span} {l : Lexeme} {x : List Lexeme} :
      l.kind = .lParen → (ExprPhrase.primary (.paren e span)).Exceeds 0 (l :: x) ⟨"expression", l⟩
  | inParen {n : Nat} {e : Expr} {span : Span} {l : Lexeme} {x : List Lexeme} {f : Excess} :
      l.kind = .lParen → (expr 0 e).Exceeds n x f → (ExprPhrase.primary (.paren e span)).Exceeds (n + 1) (l :: x) f
  -- Lists
  | firstExpr {n : Nat} {e : Expr} {es : List Expr} {x : List Lexeme} {f : Excess} :
      (expr 0 e).Exceeds n x f → (exprs (e :: es)).Exceeds n x f
  | laterExpr {n : Nat} {e : Expr} {es : List Expr} {c : Lexeme} {x y : List Lexeme} {f : Excess} :
      (expr 0 e).Spelled x (c :: y) → e.nesting ≤ n → c.kind = .comma → (exprs es).Exceeds n y f →
      (exprs (e :: es)).Exceeds n x f
  -- Arguments
  | positional {n : Nat} {e : Expr} {x y : List Lexeme} {f : Excess} :
      (expr 0 e).Spelled x y → (headKind y).namesParam = false → (expr 0 e).Exceeds n x f →
      (arg (.positional e)).Exceeds n x f
  | input {n : Nat} {name : Name} {e : Expr} {span : Span} {p a : Lexeme} {x : List Lexeme} {f : Excess} :
      p.kind = .ident → a.kind = .assign → (expr 0 e).Exceeds n x f →
      (arg (.input name e span)).Exceeds n (p :: a :: x) f
  | output {n : Nat} {name : Name} {e : Expr} {span : Span} {p a : Lexeme} {x : List Lexeme} {f : Excess} :
      p.kind = .ident → a.kind = .arrow → (expr 0 e).Exceeds n x f →
      (arg (.output name false e span)).Exceeds n (p :: a :: x) f
  | negatedOutput {n : Nat} {name : Name} {e : Expr} {span : Span} {w p a : Lexeme} {x : List Lexeme} {f : Excess} :
      w.kind = .kwNot → p.kind = .ident → a.kind = .arrow → (expr 0 e).Exceeds n x f →
      (arg (.output name true e span)).Exceeds n (w :: p :: a :: x) f
  | firstArg {n : Nat} {a : Arg} {as : List Arg} {x : List Lexeme} {f : Excess} :
      (arg a).Exceeds n x f → (args (a :: as)).Exceeds n x f
  | laterArg {n : Nat} {a : Arg} {as : List Arg} {c : Lexeme} {x y : List Lexeme} {f : Excess} :
      (arg a).Spelled x (c :: y) → a.nesting ≤ n → c.kind = .comma → (args as).Exceeds n y f →
      (args (a :: as)).Exceeds n x f

/-! ## There is such a construct -/

/-- What stands behind an argument does not make a parameter of its value. -/
def LeavesValue : ExprPhrase → List Lexeme → Prop
  | arg _, y | args _, y => (headKind y).namesParam = false
  | _, _ => True

namespace Spelled

variable {φ : ExprPhrase} {n : Nat} {x y : List Lexeme}

theorem exists_cons (h : φ.Spelled x y) : ∃ t z, x = t :: z :=
  List.exists_cons_of_length_pos (Nat.zero_lt_of_lt h.length_lt)

/-- With brackets behind it, an access goes too deep in what stands in front of them, with the brackets themselves, or
inside them. -/
theorem exists_exceeds_suffix {e e' : Expr} {m : Nat} (hreceiver : e'.receiver? = some e)
    (hnesting : e'.nesting = max e.nesting (m + 1)) (hn : n < e'.nesting)
    (hbehind : n < e.nesting → ∃ f, (ExprPhrase.access e).Exceeds n x f)
    (hhere : e.nesting = 0 → ∃ f, (ExprPhrase.access e').Exceeds 0 x f)
    (hinside : ∀ k, e.nesting ≤ k + 1 → k < m → ∃ f, (ExprPhrase.access e').Exceeds (k + 1) x f) :
    ∃ f, (ExprPhrase.access e').Exceeds n x f := by
  by_cases he : n < e.nesting
  · obtain ⟨f, h⟩ := hbehind he
    exact ⟨f, .receiver hreceiver h⟩
  · cases n with
    | zero => exact hhere (by omega)
    | succ k => exact hinside k (by omega) (by omega)

/-- A phrase that nests more than `n` constructs has a first one that is too deep. -/
theorem exists_exceeds (h : φ.Spelled x y) (hy : φ.LeavesValue y) (hn : n < φ.nesting) : ∃ f, φ.Exceeds n x f := by
  induction h generalizing n with
  | operand _ ih =>
    obtain ⟨f, h⟩ := ih trivial hn
    exact ⟨f, .operand h⟩
  | @binary _ _ left right _ _ _ _ hle ho hl _ ihl ihr =>
    rcases Nat.lt_or_ge n left.nesting with hleft | hleft
    · obtain ⟨f, h⟩ := ihl trivial hleft
      exact ⟨f, .left hle h⟩
    · obtain ⟨f, h⟩ := ihr (n := n) trivial ((lt_max_iff.1 hn).resolve_left (Nat.not_lt.2 hleft))
      exact ⟨f, .right hle hl hleft ho h⟩
  | access _ ih =>
    obtain ⟨f, h⟩ := ih trivial hn
    exact ⟨f, .access h⟩
  | unary ho he ih =>
    cases n with
    | zero =>
      obtain ⟨t, z, rfl⟩ := he.exists_cons
      exact ⟨_, .operator ho⟩
    | succ n =>
      obtain ⟨f, h⟩ := ih trivial (Nat.lt_of_succ_lt_succ hn)
      exact ⟨f, .inOperand ho h⟩
  | primary _ ih =>
    obtain ⟨f, h⟩ := ih trivial hn
    exact ⟨f, .primary h⟩
  | member _ _ _ ih | part _ _ _ ih | widePart _ _ _ _ ih =>
    obtain ⟨f, h⟩ := ih trivial hn
    exact ⟨f, .receiver rfl h⟩
  | partAt he hd hw hl _ _ ihe ihi =>
    refine exists_exceeds_suffix rfl rfl hn (ihe trivial) (fun hz => ⟨_, .partAt he hz hd hw hl⟩) fun k hle hk => ?_
    obtain ⟨f, h⟩ := ihi trivial hk
    exact ⟨f, .inPartAt he hle hd hw hl h⟩
  | index he hl _ _ ihe ihes =>
    refine exists_exceeds_suffix rfl rfl hn (ihe trivial) (fun hz => ⟨_, .index he hz hl⟩) fun k hle hk => ?_
    obtain ⟨f, h⟩ := ihes trivial hk
    exact ⟨f, .inIndex he hle hl h⟩
  | callEmpty he hc hl _ ihe =>
    exact exists_exceeds_suffix rfl rfl hn (ihe trivial) (fun hz => ⟨_, .call he hz hc hl⟩)
      fun k _ hk => absurd hk (Nat.not_lt_zero k)
  | call he hc hl _ hr ihe ihas =>
    refine exists_exceeds_suffix rfl rfl hn (ihe trivial) (fun hz => ⟨_, .call he hz hc hl⟩) fun k hle hk => ?_
    obtain ⟨f, h⟩ := ihas (by rw [LeavesValue, headKind_cons, hr]; rfl) hk
    exact ⟨f, .inCall he hle hc hl h⟩
  | name _ | this _ | super _ | enumerated _ _ _ | literal _ => exact absurd hn (Nat.not_lt_zero n)
  | paren hl _ _ ih =>
    cases n with
    | zero => exact ⟨_, .paren hl⟩
    | succ n =>
      obtain ⟨f, h⟩ := ih trivial (Nat.lt_of_succ_lt_succ hn)
      exact ⟨f, .inParen hl h⟩
  | lastExpr _ ih =>
    obtain ⟨f, h⟩ := ih trivial ((lt_max_iff.1 hn).resolve_right (Nat.not_lt_zero n))
    exact ⟨f, .firstExpr h⟩
  | @moreExprs e _ _ _ _ _ he hc _ ih ihs =>
    rcases Nat.lt_or_ge n e.nesting with hfirst | hfirst
    · obtain ⟨f, h⟩ := ih trivial hfirst
      exact ⟨f, .firstExpr h⟩
    · obtain ⟨f, h⟩ := ihs (n := n) trivial ((lt_max_iff.1 hn).resolve_left (Nat.not_lt.2 hfirst))
      exact ⟨f, .laterExpr he hfirst hc h⟩
  | positional he ih =>
    obtain ⟨f, h⟩ := ih trivial hn
    exact ⟨f, .positional he hy h⟩
  | input hp ha _ ih =>
    obtain ⟨f, h⟩ := ih trivial hn
    exact ⟨f, .input hp ha h⟩
  | output hp ha _ ih =>
    obtain ⟨f, h⟩ := ih trivial hn
    exact ⟨f, .output hp ha h⟩
  | negatedOutput hw hp ha _ ih =>
    obtain ⟨f, h⟩ := ih trivial hn
    exact ⟨f, .negatedOutput hw hp ha h⟩
  | lastArg _ ih =>
    obtain ⟨f, h⟩ := ih hy ((lt_max_iff.1 hn).resolve_right (Nat.not_lt_zero n))
    exact ⟨f, .firstArg h⟩
  | @moreArgs a _ _ _ _ _ ha hc _ ih ihs =>
    rcases Nat.lt_or_ge n a.nesting with hfirst | hfirst
    · obtain ⟨f, h⟩ := ih (by rw [LeavesValue, headKind_cons, hc]; rfl) hfirst
      exact ⟨f, .firstArg h⟩
    · obtain ⟨f, h⟩ := ihs (n := n) hy ((lt_max_iff.1 hn).resolve_left (Nat.not_lt.2 hfirst))
      exact ⟨f, .laterArg ha hfirst hc h⟩

end Spelled

/-! ## First tokens -/

namespace Exceeds

variable {φ : ExprPhrase} {n : Nat} {x : List Lexeme} {f : Excess}

theorem canStartExpr (h : φ.Exceeds n x f) : (headKind x).canStartExpr = true := by
  induction h with
  | right _ h _ _ _ _ | partAt h _ _ _ _ | inPartAt h _ _ _ _ _ _ | index h _ _ | inIndex h _ _ _ _ | call h _ _ _
  | inCall h _ _ _ _ _ | laterExpr h _ _ _ _ | positional h _ _ _ | laterArg h _ _ _ _ => exact h.canStartExpr
  | operator ho | inOperand ho _ _ => exact canStartExpr_of_ofToken? ho
  | paren hk | inParen hk _ _ | input hk _ _ _ | output hk _ _ _ | negatedOutput hk _ _ _ _ =>
    rw [headKind_cons, hk]
    rfl
  | _ => assumption

theorem ofToken?_eq_none (h : φ.Exceeds n x f) (hφ : φ.isAccess = true) : UnaryOp.ofToken? (headKind x) = none := by
  induction h with
  | primary _ ih | receiver _ _ ih => exact ih rfl
  | partAt h _ _ _ _ | inPartAt h _ _ _ _ _ _ | index h _ _ | inIndex h _ _ _ _ | call h _ _ _
  | inCall h _ _ _ _ _ => exact h.ofToken?_eq_none rfl
  | paren hl | inParen hl _ _ => rw [headKind_cons, hl]; rfl
  | _ => cases hφ

end Exceeds

/-! ## Chains in the middle -/

open StructuredText.Parser

/-- Where an operand or the receiver of a suffix is spelled, the rules come to the turn of their loops behind it. -/
def ResumesBy (levels : Nat) : ExprPhrase → List Lexeme → List Lexeme → Prop
  | .expr level e, x, y => e.nesting ≤ levels → ∀ tier : BinaryTier, tier.level ≤ level →
    (headKind y).endsTier (tier.level + 1) = true →
    Resumes (tiersFrom tier.level (Parser.unary levels)) x
      (tierTurn tier (tiersFrom (tier.level + 1) (Parser.unary levels))) e y
  | .access e, x, y => e.nesting ≤ levels → headKind y ≠ .colonColon → ∀ t x', x = t :: x' →
    Resumes (Parser.primary (deeperUnary levels) >>= fold (suffix? (deeperUnary levels) t.span.start)) x
      (suffix? (deeperUnary levels) t.span.start) e y
  | _, _, _ => True

namespace ResumesBy

variable {levels level : Nat} {e e' : Expr} {x y z : List Lexeme}

/-- What a tighter tier reads is the first operand of a chain. -/
theorem operand {tier : BinaryTier} (h : (expr (tier.level + 1) e).Spelled x y) (hn : e.nesting ≤ levels)
    (hy : (headKind y).endsTier (tier.level + 1) = true) :
    Resumes (tiersFrom tier.level (Parser.unary levels)) x
      (tierTurn tier (tiersFrom (tier.level + 1) (Parser.unary levels))) e y := by
  rw [tiersFrom_level]
  exact .first ((h.readBy levels hn).1 _ (Nat.le_refl _) hy)

theorem binary {op : BinaryOp} {left right : Expr} {o : Lexeme} (hle : level ≤ op.tier.level)
    (ho : BinaryOp.ofToken? o.kind = some op) (hl : (expr op.tier.level left).Spelled x (o :: y))
    (hr : (expr (op.tier.level + 1) right).Spelled y z) (ih : (expr op.tier.level left).ResumesBy levels x (o :: y)) :
    (expr level (.binary op left right (left.span.cover right.span))).ResumesBy levels x z := by
  intro hn tier htier hz
  obtain ⟨hnl, hnr⟩ := Nat.max_le.1 hn
  rcases Nat.lt_or_eq_of_le (Nat.le_trans htier hle) with hlt | heq
  · exact operand (.binary hlt ho hl hr) hn hz
  · obtain rfl := BinaryTier.level_injective heq
    have hright := (hr.readBy levels hnr).1 _ (Nat.le_refl _) hz
    have hleft := ih hnl op.tier (Nat.le_refl _) (TokenKind.endsTier_of_op ho (Nat.lt_succ_self _))
    exact hleft.next (tierTurn_some ho hright).from (Nat.lt_succ_of_lt hr.length_lt)

theorem suffix (h : (access e).ResumesBy levels x y) (hn : e.nesting ≤ e'.nesting) (hy : headKind y ≠ .colonColon)
    (hlt : z.length < y.length) (hle : y.length ≤ x.length)
    (hturn : ∀ t x', x = t :: x' → e'.nesting ≤ levels → z.length < (t :: x').length →
      GivesFrom (t :: x') (suffix? (deeperUnary levels) t.span.start e) y (some e') z) :
    (access e').ResumesBy levels x z := by
  rintro hn' - t x' rfl
  exact (h (Nat.le_trans hn hn') hy t x' rfl).next (hturn t x' rfl hn' (Nat.lt_of_lt_of_le hlt hle)) hlt

end ResumesBy

/-- The rules come to every link of a chain. -/
theorem Spelled.resumesBy {φ : ExprPhrase} {x y : List Lexeme} (h : φ.Spelled x y) (levels : Nat) :
    φ.ResumesBy levels x y := by
  have hdot {k : TokenKind} (hk : k = .dot) : k ≠ .colonColon := by rw [hk]; decide
  have hbracket {k : TokenKind} (hk : k = .lBracket) : k ≠ .colonColon := by rw [hk]; decide
  have hparen {k : TokenKind} (hk : k = .lParen) : k ≠ .colonColon := by rw [hk]; decide
  induction h with
  | operand h _ => exact fun hn tier _ hy => ResumesBy.operand (.operand h) hn hy
  | binary hle ho hl hr ihl _ => exact .binary hle ho hl hr ihl
  | primary h _ => exact fun hn hy _ _ _ => .first (h.readBy levels hn hy)
  | member h hd hn ih =>
    refine ih.suffix (Nat.le_refl _) (hdot hd) (by simp only [List.length_cons]; omega) (Nat.le_of_lt h.length_lt) ?_
    rintro t x' rfl - hlt
    exact suffix?_dot hd (selection_member hn hlt)
  | part h hd hn ih =>
    refine ih.suffix (Nat.le_refl _) (hdot hd) (by simp only [List.length_cons]; omega) (Nat.le_of_lt h.length_lt) ?_
    rintro t x' rfl - hlt
    exact suffix?_dot hd (selection_part hn hlt)
  | widePart h hd hw hn ih =>
    refine ih.suffix (Nat.le_refl _) (hdot hd) (by simp only [List.length_cons]; omega) (Nat.le_of_lt h.length_lt) ?_
    rintro t x' rfl - hlt
    exact suffix?_dot hd (selection_widePart hw hn hlt)
  | partAt h hd hw hl hi hr ih _ =>
    have hlt := hi.length_lt
    refine ih.suffix (Nat.le_max_left _ _) (hdot hd) (by simp only [List.length_cons] at hlt ⊢; omega)
      (Nat.le_of_lt h.length_lt) ?_
    rintro t x' rfl hn hlt
    obtain ⟨m, hm, hdeeper⟩ := exists_deeperUnary (Nat.max_le.1 hn).2
    rw [hdeeper]
    exact suffix?_dot hd (selection_partAt hw hl hr ((hi.readBy m).read hm (by rw [headKind_cons, hr]; rfl)) hlt)
  | index h hl hes hr ih _ =>
    have hlt := hes.length_lt
    refine ih.suffix (Nat.le_max_left _ _) (hbracket hl) (by simp only [List.length_cons] at hlt ⊢; omega)
      (Nat.le_of_lt h.length_lt) ?_
    rintro t x' rfl hn hlt
    obtain ⟨m, hm, hdeeper⟩ := exists_deeperUnary (Nat.max_le.1 hn).2
    rw [hdeeper]
    exact suffix?_index hl hr (hes.readBy m hm (by rw [headKind_cons, hr]; decide) (by rw [headKind_cons, hr]; rfl)) hlt
  | callEmpty h he hl hr ih =>
    refine ih.suffix (Nat.le_max_left _ _) (hparen hl) (by simp only [List.length_cons]; omega)
      (Nat.le_of_lt h.length_lt) ?_
    rintro t x' rfl hn hlt
    obtain ⟨m, hm, hdeeper⟩ := exists_deeperUnary (Nat.max_le.1 hn).2
    rw [hdeeper]
    exact suffix?_call hl he (args_complete_nil hr) hlt
  | call h he hl has hr ih _ =>
    have hlt := has.length_lt
    refine ih.suffix (Nat.le_max_left _ _) (hparen hl) (by simp only [List.length_cons] at hlt ⊢; omega)
      (Nat.le_of_lt h.length_lt) ?_
    rintro t x' rfl hn hlt
    obtain ⟨m, hm, hdeeper⟩ := exists_deeperUnary (Nat.max_le.1 hn).2
    rw [hdeeper]
    have hne : headKind _ ≠ .rParen := fun heq => by
      have := has.canStartExpr
      rw [heq] at this
      cases this
    exact suffix?_call hl he (args_complete hr hne (has.readBy m hm hr)) hlt
  | _ => trivial

/-! ## The rules give up -/

/-- In front of the phrase, the rules with `n` levels give up and report `f` only. -/
def FailsBy (n : Nat) : ExprPhrase → List Lexeme → Excess → Prop
  | .expr level _, x, f => ∀ m ≤ level, Fails (tiersFrom m (Parser.unary n)) x f
  | .unary _, x, f => Fails (Parser.unary n) x f
  | .access _, x, f => Fails (Parser.access n) x f
  | .primary _, x, f => Fails (Parser.primary (deeperUnary n)) x f
  | .exprs _, x, f => ListFails (exprOf (Parser.unary n)) x f
  | .arg _, x, f => Fails (Parser.arg (Parser.unary n)) x f
  | .args _, x, f => ListFails (Parser.arg (Parser.unary n)) x f

namespace FailsBy

variable {n level : Nat} {e : Expr} {x y : List Lexeme} {t : Lexeme} {f : Excess}

/-- Where a tier fails, so do the looser ones. -/
theorem loosen {unary : Parser Expr} {m k : Nat} (h : Fails (tiersFrom k unary) x f) (hle : m ≤ k) :
    Fails (tiersFrom m unary) x f := by
  induction hle with
  | refl => exact h
  | @step k _ ih =>
    refine ih ?_
    by_cases hk : k < 9
    · obtain ⟨tier, rfl⟩ := exists_tier hk
      rw [tiersFrom_level]
      exact h.bind
    · rwa [tiersFrom_of_le (by omega)] at h ⊢

theorem operand (h : (unary e).FailsBy n x f) : (expr level e).FailsBy n x f := by
  intro m _
  have hmax : Fails (tiersFrom (max m 9) (Parser.unary n)) x f := by
    rwa [tiersFrom_of_le (Nat.le_max_right m 9)]
  exact loosen hmax (Nat.le_max_left m 9)

theorem right {op : BinaryOp} {left right : Expr} {span : Span} {o : Lexeme} (hle : level ≤ op.tier.level)
    (hl : (expr op.tier.level left).Spelled x (o :: y)) (hn : left.nesting ≤ n)
    (ho : BinaryOp.ofToken? o.kind = some op) (h : (expr (op.tier.level + 1) right).FailsBy n y f) :
    (expr level (.binary op left right span)).FailsBy n x f := by
  intro m hm
  have hchain := hl.resumesBy n hn op.tier (Nat.le_refl _) (TokenKind.endsTier_of_op ho (Nat.lt_succ_self _))
  refine loosen (hchain.fails (.kind ?_)) (Nat.le_trans hm hle)
  simp only [headKind_cons, BinaryTier.op?_eq_some_iff.2 ⟨ho, rfl⟩]
  exact .skip (.bind (h _ (Nat.le_refl _)))

theorem read (h : (expr 0 e).FailsBy n x f) : Fails (exprOf (Parser.unary n)) x f := h 0 (Nat.le_refl 0)

theorem accessed (h : (access e).FailsBy n x f) (hop : UnaryOp.ofToken? (headKind x) = none) :
    (unary e).FailsBy n x f := by
  show Fails (Parser.unary n) x f
  rw [unary_eq]
  refine .kind ?_
  simp only [hop]
  exact h

/-- Where one more suffix fails behind what is read, so does the access. -/
theorem suffix {e' : Expr} (he : (access e).Spelled x y) (hn : e.nesting ≤ n) (hy : headKind y ≠ .colonColon)
    (h : ∀ start, Fails (suffix? (deeperUnary n) start e) y f) : (access e').FailsBy n x f := by
  intro s hs
  obtain ⟨t, x', rfl⟩ := he.exists_cons
  have hchain := (he.resumesBy n hn hy t x' rfl).fails (h _) s hs
  rwa [Parser.access, accessOf, bind_of_ok (offset_apply s), ParserState.span_of_cons hs]

theorem partAt {e' : Expr} {width : AccessWidth} {d w l : Lexeme} (he : (access e).Spelled x (d :: w :: l :: y))
    (hn : e.nesting ≤ n) (hd : d.kind = .dot) (hw : w.kind = .access width) (hl : l.kind = .lParen)
    (h : Fails (nested "expression" (deeperUnary n) parenthesized) (l :: y) f) : (access e').FailsBy n x f := by
  refine suffix he hn (by rw [headKind_cons, hd]; decide) fun start => .kind ?_
  simp only [headKind_cons, hd]
  refine .skip (.bind (.kind ?_))
  simp only [headKind_cons, hw]
  refine .skip (.kind ?_)
  simp only [headKind_cons, hl]
  exact h.bind

theorem index {e' : Expr} {l : Lexeme} (he : (access e).Spelled x (l :: y)) (hn : e.nesting ≤ n)
    (hl : l.kind = .lBracket) (h : Fails (nested "expression" (deeperUnary n) indices) (l :: y) f) :
    (access e').FailsBy n x f := by
  refine suffix he hn (by rw [headKind_cons, hl]; decide) fun start => .kind ?_
  simp only [headKind_cons, hl]
  exact h.bind

theorem call {e' : Expr} {l : Lexeme} (he : (access e).Spelled x (l :: y)) (hn : e.nesting ≤ n)
    (hc : e.isCallable = true) (hl : l.kind = .lParen)
    (h : Fails (nested "expression" (deeperUnary n) Parser.args) (l :: y) f) : (access e').FailsBy n x f := by
  refine suffix he hn (by rw [headKind_cons, hl]; decide) fun start => .kind ?_
  simp only [headKind_cons, hl, hc, if_true]
  exact h.bind

end FailsBy

/-- Where a phrase goes too deep, the rules give up. -/
theorem Exceeds.failsBy {φ : ExprPhrase} {n : Nat} {x : List Lexeme} {f : Excess} (h : φ.Exceeds n x f) :
    φ.FailsBy n x f := by
  induction h with
  | operand _ ih => exact ih.operand
  | left hle _ ih => exact fun m hm => ih m (Nat.le_trans hm hle)
  | right hle hl hn ho _ ih => exact .right hle hl hn ho ih
  | access h ih => exact ih.accessed (h.ofToken?_eq_none rfl)
  | operator ho =>
    refine .kind ?_
    simp only [headKind_cons, ho]
    exact .offset fun _ => .skip Fails.here.bind
  | inOperand ho _ ih =>
    refine .kind ?_
    simp only [headKind_cons, ho]
    exact .offset fun _ => .skip (.bind (.nested ih))
  | primary _ ih => exact .offset fun _ => .bind ih
  | receiver _ _ ih => exact ih
  | partAt he hn hd hw hl => exact .partAt he (Nat.le_of_eq hn) hd hw hl .here
  | inPartAt he hn hd hw hl _ ih => exact .partAt he hn hd hw hl (.nested (.skip (.bind ih.read)))
  | index he hn hl => exact .index he (Nat.le_of_eq hn) hl .here
  | inIndex he hn hl _ ih => exact .index he hn hl (.nested (.skip ih.sepByComma.bind))
  | call he hn hc hl => exact .call he (Nat.le_of_eq hn) hc hl .here
  | inCall he hn hc hl h ih =>
    refine .call he hn hc hl (.nested (.skip (.eat_none ?_ ih.sepByComma.bind)))
    intro hk
    have := h.canStartExpr
    rw [hk] at this
    cases this
  | paren hl =>
    refine .get fun s hs => ?_
    simp only [(ParserState.kind_of_cons hs).trans hl]
    exact .here
  | inParen hl _ ih =>
    refine .get fun s hs => ?_
    simp only [(ParserState.kind_of_cons hs).trans hl]
    exact .nested (.bind (.skip (.bind ih.read)))
  | firstExpr _ ih => exact .here ih.read
  | laterExpr he hn hc _ ih =>
    exact .later ((he.readBy _).read hn (by rw [headKind_cons, hc]; rfl)) hc ih
  | positional he hy _ ih =>
    intro s hs
    rw [arg_apply_of_spelled he hy hs]
    exact ih.read.bind s hs
  | input hp ha _ ih =>
    refine .get fun s hs => ?_
    simp only [(ParserState.kind_of_cons hs).trans hp, (ParserState.kindAt_one_of_cons hs).trans ha]
    exact .take (.skip (.bind ih.read))
  | output hp ha _ ih =>
    refine .get fun s hs => ?_
    simp only [(ParserState.kind_of_cons hs).trans hp, (ParserState.kindAt_one_of_cons hs).trans ha]
    exact .take (.skip (.bind ih.read))
  | negatedOutput hw hp ha _ ih =>
    refine .get fun s hs => ?_
    simp only [(ParserState.kind_of_cons hs).trans hw, (ParserState.kindAt_one_of_cons hs).trans hp,
      (ParserState.kindAt_two_of_cons hs).trans ha]
    exact .skip (.take (.skip (.bind ih.read)))
  | firstArg _ ih => exact .here ih
  | laterArg ha hn hc _ ih =>
    exact .later (ha.readBy _ hn (by rw [headKind_cons, hc]; rfl) (by rw [headKind_cons, hc]; rfl)) hc ih

end ExprPhrase

end StructuredText
