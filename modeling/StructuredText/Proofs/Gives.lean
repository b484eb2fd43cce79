import StructuredText.Proofs.Reads

/-!
# What a rule gives in front of given tokens

`Gives p x a y` says that the rule `p` reads `a` wherever the tokens `x` are to come, and that it stops in front of
`y`. To know the span that a rule gives to its part of the tree, one has to know where it began: `GivesFrom x₀` says
the same of a rule that is run on the way from `x₀`.

There is one lemma for each way to put rules together, so that what a rule gives is put together from what its parts
give. For a loop these are the lemmas about a turn that goes on (`GivesFrom.fold_some`, `GivesFrom.collect_more`) and
about the last one.
-/

namespace StructuredText.Parser

/-- In front of `x` the rule gives `a` and stops in front of `y`. -/
def Gives (p : Parser α) (x : List Lexeme) (a : α) (y : List Lexeme) : Prop :=
  ∀ s, s.rest = x → ∃ s', Reads p s a s' ∧ s'.rest = y

/-- In front of `x`, on the way from `x₀`, the rule gives `a` and stops in front of `y`. -/
def GivesFrom (x₀ : List Lexeme) (p : Parser α) (x : List Lexeme) (a : α) (y : List Lexeme) : Prop :=
  ∀ s₀ s, s₀.rest = x₀ → Passed s₀ s → s.rest = x → ∃ s', Reads p s a s' ∧ s'.rest = y

variable {x₀ x y z : List Lexeme} {t : Lexeme} {b : β}

theorem Gives.from {p : Parser α} {a : α} (h : Gives p x a y) : GivesFrom x₀ p x a y := fun _ s _ _ hx => h s hx

theorem GivesFrom.gives {p : Parser α} {a : α} (h : GivesFrom x p x a y) : Gives p x a y :=
  fun s hx => h s s hx (.refl s) hx

/-- A rule gives one thing only in front of given tokens. -/
theorem Gives.eq {p : Parser α} {a a' : α} {y' : List Lexeme} (h : Gives p x a y) (h' : Gives p x a' y') : a = a' := by
  obtain ⟨s₁, h, -⟩ := h ⟨[], 0, x, 0, []⟩ rfl
  obtain ⟨s₂, h', -⟩ := h' ⟨[], 0, x, 0, []⟩ rfl
  exact (h.eq h').1

theorem GivesFrom.bind {p : Parser α} [Lawful p] {q : α → Parser β} {a : α} (h : GivesFrom x₀ p x a y)
    (h' : GivesFrom x₀ (q a) y b z) : GivesFrom x₀ (p >>= q) x b z := by
  intro s₀ s h₀ hp hx
  obtain ⟨s₁, h₁, hy⟩ := h s₀ s h₀ hp hx
  obtain ⟨s₂, h₂, hz⟩ := h' s₀ s₁ h₀ (hp.trans h₁.passed) hy
  exact ⟨s₂, h₁.bind h₂, hz⟩

theorem Gives.bind {p : Parser α} [Lawful p] {q : α → Parser β} {a : α} (h : Gives p x a y)
    (h' : Gives (q a) y b z) : Gives (p >>= q) x b z := by
  intro s hx
  obtain ⟨s₁, h₁, hy⟩ := h s hx
  obtain ⟨s₂, h₂, hz⟩ := h' s₁ hy
  exact ⟨s₂, h₁.bind h₂, hz⟩

theorem GivesFrom.pure {a : α} : GivesFrom x₀ (Pure.pure a : Parser α) x a x :=
  fun _ s _ _ hx => ⟨s, reads_pure.2 ⟨rfl, rfl⟩, hx⟩

/-! ## Looking and taking -/

section

variable {k : TokenKind}

theorem GivesFrom.get {q : ParserState → Parser β} (h : ∀ s, s.rest = x → GivesFrom x₀ (q s) x b y) :
    GivesFrom x₀ (MonadState.get >>= q) x b y := by
  intro s₀ s h₀ hp hx
  obtain ⟨s', h', hy⟩ := h s hx s₀ s h₀ hp hx
  exact ⟨s', reads_get_bind.2 h', hy⟩

theorem GivesFrom.kind {q : TokenKind → Parser β} (h : GivesFrom x₀ (q (headKind x)) x b y) :
    GivesFrom x₀ (Parser.kind >>= q) x b y := by
  intro s₀ s h₀ hp hx
  obtain ⟨s', h', hy⟩ := h s₀ s h₀ hp hx
  exact ⟨s', reads_kind_bind.2 (by rwa [s.kind_eq_headKind, hx]), hy⟩

theorem GivesFrom.sees {q : Bool → Parser β} (h : GivesFrom x₀ (q (headKind x == k)) x b y) :
    GivesFrom x₀ (Parser.sees k >>= q) x b y := by
  intro s₀ s h₀ hp hx
  obtain ⟨s', h', hy⟩ := h s₀ s h₀ hp hx
  exact ⟨s', reads_sees_bind.2 (by rwa [s.kind_eq_headKind, hx]), hy⟩

/-- Where a part begins, the way to its span begins. -/
theorem Gives.offset {q : Nat → Parser β} (h : GivesFrom (t :: x) (q t.span.start) (t :: x) b y) :
    Gives (Parser.offset >>= q) (t :: x) b y := by
  intro s hx
  obtain ⟨s', h', hy⟩ := h s s hx (.refl s) hx
  exact ⟨s', reads_offset_bind.2 (by rwa [ParserState.span_of_cons hx]), hy⟩

/-- The span of what was read since `x₀`. -/
theorem GivesFrom.spanFrom {q : Span → Parser β} (hlt : x.length < (t :: x₀).length)
    (h : GivesFrom (t :: x₀) (q (spanBetween (t :: x₀) x)) x b y) :
    GivesFrom (t :: x₀) (Parser.spanFrom t.span.start >>= q) x b y := by
  intro s₀ s h₀ hp hx
  obtain ⟨s', h', hy⟩ := h s₀ s h₀ hp hx
  have hspan := hp.spanFrom (by rwa [h₀, hx])
  rw [h₀, hx, ParserState.span_of_cons h₀] at hspan
  exact ⟨s', reads_spanFrom_bind.2 (by rwa [hspan]), hy⟩

theorem GivesFrom.span (hlt : x.length < (t :: x₀).length) :
    GivesFrom (t :: x₀) (Parser.spanFrom t.span.start) x (spanBetween (t :: x₀) x) x := by
  intro s₀ s h₀ hp hx
  have hspan := hp.spanFrom (by rwa [h₀, hx])
  rw [h₀, hx, ParserState.span_of_cons h₀] at hspan
  exact ⟨s, ⟨by rw [spanFrom_apply, hspan], rfl⟩, hx⟩

theorem Gives.skip : Gives Parser.skip (t :: x) ⟨⟩ x :=
  fun s hx => ⟨s.advance, ⟨rfl, by simp⟩, by simp [hx]⟩

theorem GivesFrom.skip {q : PUnit → Parser β} (h : GivesFrom x₀ (q ⟨⟩) x b y) :
    GivesFrom x₀ (Parser.skip >>= q) (t :: x) b y := by
  intro s₀ s h₀ hp hx
  obtain ⟨s', h', hy⟩ := h s₀ s.advance h₀ (hp.trans (.advance s)) (by simp [hx])
  exact ⟨s', reads_skip_bind.2 h', hy⟩

theorem GivesFrom.take {q : Name → Parser β} (h : GivesFrom x₀ (q t.name) x b y) :
    GivesFrom x₀ (Parser.take >>= q) (t :: x) b y := by
  intro s₀ s h₀ hp hx
  obtain ⟨s', h', hy⟩ := h s₀ s.advance h₀ (hp.trans (.advance s)) (by simp [hx])
  exact ⟨s', reads_take_bind.2 (by rwa [ParserState.name_of_cons hx]), hy⟩

theorem Gives.take : Gives Parser.take (t :: x) t.name x := by
  intro s hx
  exact ⟨s.advance, reads_take.2 ⟨(ParserState.name_of_cons hx).symm, rfl⟩, by simp [hx]⟩

theorem GivesFrom.eat {q : Bool → Parser β} (hk : t.kind = k) (h : GivesFrom x₀ (q true) x b y) :
    GivesFrom x₀ (Parser.eat k >>= q) (t :: x) b y := by
  intro s₀ s h₀ hp hx
  obtain ⟨s', h', hy⟩ := h s₀ s.advance h₀ (hp.trans (.advance s)) (by simp [hx])
  exact ⟨s', reads_eat_bind.2 (by rwa [if_pos ((ParserState.kind_of_cons hx).trans hk)]), hy⟩

theorem GivesFrom.eat_none {q : Bool → Parser β} (hk : headKind x ≠ k) (h : GivesFrom x₀ (q false) x b y) :
    GivesFrom x₀ (Parser.eat k >>= q) x b y := by
  intro s₀ s h₀ hp hx
  obtain ⟨s', h', hy⟩ := h s₀ s h₀ hp hx
  exact ⟨s', reads_eat_bind.2 (by rwa [if_neg (by rwa [s.kind_eq_headKind, hx])]), hy⟩

theorem Gives.expect (hk : t.kind = k) : Gives (Parser.expect k) (t :: x) ⟨⟩ x := by
  intro s hx
  exact ⟨s.advance, reads_expect.2 ⟨(ParserState.kind_of_cons hx).trans hk, rfl⟩, by simp [hx]⟩

theorem Gives.expectEnd (hk : t.kind = k) : Gives (Parser.expectEnd k) (t :: x) ⟨⟩ x := by
  intro s hx
  exact ⟨s.advance, reads_expectEnd.2 ⟨(ParserState.kind_of_cons hx).trans hk, rfl⟩, by simp [hx]⟩

end

/-! ## Rules put together -/

theorem Gives.nested {what : String} {level : α} {rule : α → Parser β} (h : Gives (rule level) x b y) :
    Gives (Parser.nested what (some level) rule) x b y := h

theorem Gives.orRecover {rule recover : Parser β} [Lawful rule] [Lawful recover] (h : Gives rule x b y) :
    Gives (Parser.orRecover rule recover) x b y := by
  intro s hx
  obtain ⟨s', h', hy⟩ := h s hx
  exact ⟨s', reads_orRecover.2 h', hy⟩

theorem Gives.recovering {part : Parser α} {skipRest : Parser PUnit} [Lawful part] [Lawful skipRest] {a : α}
    (h : Gives part x a y) : Gives (Parser.recovering part skipRest) x (.more [a]) y := by
  intro s hx
  obtain ⟨s', h', hy⟩ := h s hx
  exact ⟨s', reads_recovering.2 ⟨a, rfl, h'⟩, hy⟩

/-! ## Loops -/

section

variable {turn : α → Parser (Option α)} [∀ a, Lawful (turn a)] {a a' c : α}

theorem GivesFrom.fold_some (hturn : Stepwise turn) (h : GivesFrom x₀ (turn a) x (some a') y)
    (h' : GivesFrom x₀ (fold turn a') y c z) : GivesFrom x₀ (fold turn a) x c z := by
  intro s₀ s h₀ hp hx
  obtain ⟨s₁, h₁, hy⟩ := h s₀ s h₀ hp hx
  obtain ⟨s₂, h₂, hz⟩ := h' s₀ s₁ h₀ (hp.trans h₁.passed) hy
  exact ⟨s₂, (reads_fold_iff hturn).2 (.inl ⟨a', s₁, h₁, h₂⟩), hz⟩

theorem GivesFrom.fold_none (hturn : Stepwise turn) (h : GivesFrom x₀ (turn a) x none y) :
    GivesFrom x₀ (fold turn a) x a y := by
  intro s₀ s h₀ hp hx
  obtain ⟨s₁, h₁, hy⟩ := h s₀ s h₀ hp hx
  exact ⟨s₁, (reads_fold_iff hturn).2 (.inr ⟨h₁, rfl⟩), hy⟩

theorem Gives.fold_some (hturn : Stepwise turn) (h : Gives (turn a) x (some a') y) (h' : Gives (fold turn a') y c z) :
    Gives (fold turn a) x c z :=
  (GivesFrom.fold_some hturn h.from h'.from).gives

theorem Gives.fold_none (hturn : Stepwise turn) (h : Gives (turn a) x none y) : Gives (fold turn a) x a y :=
  (GivesFrom.fold_none hturn h.from).gives

end

section

variable {turn : Parser (Turn α)} [Lawful turn] {items as : List α}

theorem Gives.collect_more (hturn : Turning turn) (h : Gives turn x (.more items) y)
    (h' : Gives (collect turn) y as z) : Gives (collect turn) x (items ++ as) z := by
  intro s hx
  obtain ⟨s₁, h₁, hy⟩ := h s hx
  obtain ⟨s₂, h₂, hz⟩ := h' s₁ hy
  exact ⟨s₂, (reads_collect_iff hturn).2 (.inl ⟨items, s₁, as, h₁, h₂, rfl⟩), hz⟩

theorem Gives.collect_last (hturn : Turning turn) (h : Gives turn x (.last as) y) : Gives (collect turn) x as y := by
  intro s hx
  obtain ⟨s₁, h₁, hy⟩ := h s hx
  exact ⟨s₁, (reads_collect_iff hturn).2 (.inr h₁), hy⟩

end

section

variable {item : Parser α} [Lawful item] {a : α} {as : List α}

theorem Gives.sepByComma_one (h : Gives item x a y) (hy : headKind y ≠ .comma) : Gives (sepByComma item) x [a] y := by
  intro s hx
  obtain ⟨s₁, h₁, hr⟩ := h s hx
  refine ⟨s₁, reads_sepByComma_iff.2 ⟨a, s₁, h₁, .inr ⟨?_, rfl, rfl⟩⟩, hr⟩
  rwa [s₁.kind_eq_headKind, hr]

theorem Gives.sepByComma_more (h : Gives item x a (t :: y)) (ht : t.kind = .comma)
    (h' : Gives (sepByComma item) y as z) : Gives (sepByComma item) x (a :: as) z := by
  intro s hx
  obtain ⟨s₁, h₁, hr⟩ := h s hx
  obtain ⟨s₂, h₂, hz⟩ := h' s₁.advance (by simp [hr])
  refine ⟨s₂, reads_sepByComma_iff.2 ⟨a, s₁, h₁, .inl ⟨?_, as, h₂, rfl⟩⟩, hz⟩
  rw [ParserState.kind_of_cons hr, ht]

end

end StructuredText.Parser
