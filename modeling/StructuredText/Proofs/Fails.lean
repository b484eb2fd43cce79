import StructuredText.Proofs.Gives

/-!
# Where a rule goes too deep

`Fails p x f` says that the rule `p` gives up in front of the tokens `x` since constructs nest too deeply, and that all
it reports on the way is the construct `f` that goes too deep. As with `Gives`, there is one lemma for each way to put
rules together: a rule fails where its first part does, and where a later part does behind the parts that are read.

A loop fails after some good turns (`LoopFails`), and a list after some good items (`ListFails`). Where the turns of a
fold belong to a rule, the rule comes to a turn in the middle (`Resumes`), and fails there if that turn does.
-/

namespace StructuredText

/-- A construct that goes too deep: what it is, and the token where it begins. -/
structure Excess where
  what : String
  token : Lexeme

/-- The report of the construct. -/
def Excess.report (f : Excess) : Report := ⟨.tooDeep f.what, f.token.span⟩

namespace Parser

/-- In front of `x` the rule gives up since `f` goes too deep, and reports nothing else. -/
def Fails (p : Parser α) (x : List Lexeme) (f : Excess) : Prop :=
  ∀ s, s.rest = x → ∃ s', p s = .error .tooDeep s' ∧ s'.reports = f.report :: s.reports

variable {x₀ x y z : List Lexeme} {t : Lexeme} {f : Excess}

/-! ## Rules one after the other -/

namespace Fails

theorem bind {p : Parser α} {q : α → Parser β} (h : Fails p x f) : Fails (p >>= q) x f := by
  intro s hx
  obtain ⟨s', hp, hr⟩ := h s hx
  exact ⟨s', by rw [bind_apply, hp], hr⟩

/-- Behind a part that is read without a report, the next one fails. -/
theorem of_ok {p : Parser α} {q : α → Parser β} (h : ∀ s, s.rest = x → ∃ a s₁, Reads p s a s₁ ∧ s₁.rest = y ∧
    Fails (q a) y f) : Fails (p >>= q) x f := by
  intro s hx
  obtain ⟨a, s₁, h₁, hy, hq⟩ := h s hx
  obtain ⟨s', h', hr⟩ := hq s₁ hy
  exact ⟨s', by rw [bind_of_ok h₁.1, h'], by rw [hr, h₁.2]⟩

theorem after {p : Parser α} {q : α → Parser β} {a : α} (h : Gives p x a y) (hq : Fails (q a) y f) :
    Fails (p >>= q) x f := by
  refine of_ok (y := y) fun s hx => ?_
  obtain ⟨s₁, h₁, hy⟩ := h s hx
  exact ⟨a, s₁, h₁, hy, hq⟩

/-! ### Looking and taking -/

theorem get {q : ParserState → Parser β} (h : ∀ s, s.rest = x → Fails (q s) x f) :
    Fails (MonadState.get >>= q) x f :=
  of_ok fun s hx => ⟨s, s, ⟨rfl, rfl⟩, hx, h s hx⟩

theorem kind {q : TokenKind → Parser β} (h : Fails (q (headKind x)) x f) : Fails (Parser.kind >>= q) x f :=
  of_ok fun s hx => ⟨_, s, ⟨rfl, rfl⟩, hx, by rwa [s.kind_eq_headKind, hx]⟩

theorem sees {k : TokenKind} {q : Bool → Parser β} (h : Fails (q (headKind x == k)) x f) :
    Fails (Parser.sees k >>= q) x f :=
  of_ok fun s hx => ⟨_, s, ⟨rfl, rfl⟩, hx, by rwa [s.kind_eq_headKind, hx]⟩

theorem offset {q : Nat → Parser β} (h : ∀ start, Fails (q start) x f) : Fails (Parser.offset >>= q) x f :=
  of_ok fun s hx => ⟨_, s, ⟨rfl, rfl⟩, hx, h _⟩

theorem skip {q : PUnit → Parser β} (h : Fails (q ⟨⟩) x f) : Fails (Parser.skip >>= q) (t :: x) f :=
  after Gives.skip h

theorem take {q : Name → Parser β} (h : Fails (q t.name) x f) : Fails (Parser.take >>= q) (t :: x) f :=
  after Gives.take h

section

variable {k : TokenKind}

theorem eat {q : Bool → Parser β} (hk : t.kind = k) (h : Fails (q true) x f) : Fails (Parser.eat k >>= q) (t :: x) f :=
  of_ok fun s hx => ⟨true, s.advance, ⟨by rw [eat_apply, if_pos ((ParserState.kind_of_cons hx).trans hk)], by simp⟩,
    ParserState.advance_rest_of_cons hx, h⟩

theorem eat_none {q : Bool → Parser β} (hk : headKind x ≠ k) (h : Fails (q false) x f) :
    Fails (Parser.eat k >>= q) x f :=
  of_ok fun s hx => ⟨false, s, ⟨by rw [eat_apply, if_neg (by rwa [s.kind_eq_headKind, hx])], rfl⟩, hx, h⟩

theorem expect {q : PUnit → Parser β} (hk : t.kind = k) (h : Fails (q ⟨⟩) x f) :
    Fails (Parser.expect k >>= q) (t :: x) f :=
  after (Gives.expect hk) h

end

/-! ### Rules put together -/

/-- No level is left for what begins here. -/
theorem here {what : String} {rule : α → Parser β} : Fails (nested what none rule) (t :: x) ⟨what, t⟩ := by
  intro s hx
  refine ⟨s.report (.tooDeep what) s.span, rfl, ?_⟩
  rw [ParserState.report_reports, ParserState.span_of_cons hx]
  rfl

theorem nested {what : String} {level : α} {rule : α → Parser β} (h : Fails (rule level) x f) :
    Fails (Parser.nested what (some level) rule) x f := h

/-- Nothing recovers from constructs that nest too deeply. -/
theorem orRecover {rule recover : Parser β} (h : Fails rule x f) : Fails (Parser.orRecover rule recover) x f := by
  intro s hx
  obtain ⟨s', h', hr⟩ := h s hx
  exact ⟨s', by rw [orRecover_apply, h'], hr⟩

theorem recovering {part : Parser α} {skipRest : Parser PUnit} (h : Fails part x f) :
    Fails (Parser.recovering part skipRest) x f :=
  .get fun _ _ => .orRecover (.bind h)

end Fails

/-! ## Loops -/

/-- Behind some turns after which the loop goes on, a turn fails. -/
inductive LoopFails (turn : Parser (Turn α)) : List Lexeme → Excess → Prop
  | here {x : List Lexeme} {f : Excess} : Fails turn x f → LoopFails turn x f
  | later {items : List α} {x y : List Lexeme} {f : Excess} :
      Gives turn x (.more items) y → y.length < x.length → LoopFails turn y f → LoopFails turn x f

theorem LoopFails.collectWithin {turn : Parser (Turn α)} (h : LoopFails turn x f) {left : List Lexeme}
    (hle : x.length ≤ left.length) : Fails (collectWithin turn left) x f := by
  induction h generalizing left with
  | here h =>
    cases left with
    | nil => rw [collectWithin_nil]; exact h.bind
    | cons u left => rw [collectWithin_cons]; exact h.bind
  | later h hlt _ ih =>
    cases left with
    | nil => rw [List.length_nil] at hle; omega
    | cons u left =>
      rw [List.length_cons] at hle
      rw [collectWithin_cons]
      exact .after h (.bind (ih (by omega)))

theorem LoopFails.collect {turn : Parser (Turn α)} (h : LoopFails turn x f) : Fails (collect turn) x f :=
  .get fun s hs => h.collectWithin (Nat.le_of_eq (by rw [hs]))

/-- Behind some items and commas, an item fails. -/
inductive ListFails (item : Parser α) : List Lexeme → Excess → Prop
  | here {x : List Lexeme} {f : Excess} : Fails item x f → ListFails item x f
  | later {a : α} {c : Lexeme} {x y : List Lexeme} {f : Excess} :
      Gives item x a (c :: y) → c.kind = .comma → ListFails item y f → ListFails item x f

section

variable {item : Parser α} [Lawful item]

theorem Gives.length_le {a : α} (h : Gives item x a y) : y.length ≤ x.length := by
  obtain ⟨s', h', rfl⟩ := h ⟨[], 0, x, 0, []⟩ rfl
  exact h'.length_le

theorem ListFails.loop (h : ListFails item x f) {c : Lexeme} (hc : c.kind = .comma) :
    LoopFails (commaTurn item) (c :: x) f := by
  induction h generalizing c with
  | here h => exact .here (.eat hc h.bind)
  | later h hc' _ ih =>
    refine .later (GivesFrom.gives (.eat hc (h.from.bind .pure))) ?_ (ih hc')
    exact Nat.lt_succ_of_le h.length_le

theorem ListFails.sepByComma (h : ListFails item x f) : Fails (sepByComma item) x f := by
  rw [sepByComma_eq]
  cases h with
  | here h => exact h.bind
  | later h hc h' => exact .after h (.bind (h'.loop hc).collect)

end

/-! ## Turns of a fold in the middle -/

/-- In front of `x` the rule comes to a turn of the fold with `a` in front of `y`, and has only taken tokens by then. -/
def Resumes (p : Parser α) (x : List Lexeme) (turn : α → Parser (Option α)) (a : α) (y : List Lexeme) : Prop :=
  ∀ s, s.rest = x → ∃ s₁ left, Passed s s₁ ∧ s₁.rest = y ∧ y.length ≤ left.length ∧ p s = foldWithin turn left a s₁

namespace Resumes

variable {p : Parser α} {turn : α → Parser (Option α)} {a a' : α}

/-- The first turn stands behind what the fold begins with. -/
theorem first {q : Parser α} [Lawful q] (h : Gives q x a y) : Resumes (q >>= fold turn) x turn a y := by
  intro s hx
  obtain ⟨s₁, h₁, rfl⟩ := h s hx
  exact ⟨s₁, s₁.rest, h₁.passed, rfl, Nat.le_refl _, by rw [bind_of_ok h₁.1]; rfl⟩

/-- A turn that gives something leads to the next one. -/
theorem next [∀ a, Lawful (turn a)] (h : Resumes p x turn a y) (hturn : GivesFrom x (turn a) y (some a') z)
    (hlt : z.length < y.length) : Resumes p x turn a' z := by
  intro s hx
  obtain ⟨s₁, left, hp, hy, hle, heq⟩ := h s hx
  obtain ⟨s₂, h₂, hz⟩ := hturn s s₁ hx hp hy
  cases left with
  | nil => rw [List.length_nil] at hle; omega
  | cons u left =>
    rw [List.length_cons] at hle
    refine ⟨s₂, left, hp.trans h₂.passed, hz, by omega, ?_⟩
    rw [heq, foldWithin_cons, bind_of_ok h₂.1]
    rfl

/-- Where a turn fails, so does the rule that comes to it. -/
theorem fails (h : Resumes p x turn a y) (hturn : Fails (turn a) y f) : Fails p x f := by
  intro s hx
  obtain ⟨s₁, left, hp, hy, -, heq⟩ := h s hx
  obtain ⟨ts, htook⟩ := hp
  have hreports : s₁.reports = s.reports := by rw [htook.eq]
  have hfold : Fails (foldWithin turn left a) y f := by
    cases left with
    | nil => exact hturn.bind
    | cons u left => exact hturn.bind
  obtain ⟨s', h', hr⟩ := hfold s₁ hy
  exact ⟨s', by rw [heq, h'], by rw [hr, hreports]⟩

end Resumes

end Parser

end StructuredText
