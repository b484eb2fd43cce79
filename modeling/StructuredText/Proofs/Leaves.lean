import StructuredText.Proofs.Gives

/-!
# What a rule leaves behind

`Leaves p x Q rs y` says that in front of the tokens `x` the rule `p` gives something with the property `Q`, and that it
reports `rs` on the way, the latest first, and stops in front of `y`. What a rule gives without a report (`Gives`) is
one case of it. As there, there is one lemma for each way to put rules together, and the reports of the parts add up.

Spans do not matter here: `Q` is to hold of what is given whatever its spans are.
-/

namespace StructuredText.Parser

/-- In front of `x` the rule gives something of which `Q` holds, reports `rs` and stops in front of `y`. -/
def Leaves (p : Parser α) (x : List Lexeme) (Q : α → Prop) (rs : List Report) (y : List Lexeme) : Prop :=
  ∀ s, s.rest = x → ∃ a s', p s = .ok a s' ∧ Q a ∧ s'.rest = y ∧ s'.reports = rs ++ s.reports

variable {x y z : List Lexeme} {t : Lexeme} {rs rs' : List Report} {P : α → Prop} {Q : β → Prop}

/-! ## Rules one after the other -/

theorem Gives.leaves {p : Parser α} {a : α} (h : Gives p x a y) (ha : P a) : Leaves p x P [] y := by
  intro s hx
  obtain ⟨s', h', hy⟩ := h s hx
  exact ⟨a, s', h'.1, ha, hy, h'.2⟩

namespace Leaves

theorem mono {p : Parser α} {P' : α → Prop} (h : Leaves p x P rs y) (hP : ∀ a, P a → P' a) : Leaves p x P' rs y := by
  intro s hx
  obtain ⟨a, s', h', ha, hy⟩ := h s hx
  exact ⟨a, s', h', hP a ha, hy⟩

theorem bind {p : Parser α} {q : α → Parser β} (h : Leaves p x P rs y) (h' : ∀ a, P a → Leaves (q a) y Q rs' z) :
    Leaves (p >>= q) x Q (rs' ++ rs) z := by
  intro s hx
  obtain ⟨a, s₁, h₁, ha, hy, hr⟩ := h s hx
  obtain ⟨b, s', h₂, hb, hz, hr'⟩ := h' a ha s₁ hy
  exact ⟨b, s', by rw [bind_of_ok h₁, h₂], hb, hz, by rw [hr', hr, List.append_assoc]⟩

/-- In front of a part that adds no report. -/
theorem before {p : Parser α} {q : α → Parser β} (h : Leaves p x P rs y) (h' : ∀ a, P a → Leaves (q a) y Q [] z) :
    Leaves (p >>= q) x Q rs z := h.bind h'

/-- Behind a part that is read without a report. -/
theorem after {p : Parser α} {q : α → Parser β} {a : α} (h : Gives p x a y) (h' : Leaves (q a) y Q rs z) :
    Leaves (p >>= q) x Q rs z := by
  have := bind (h.leaves (P := (· = a)) rfl) fun _ ha => ha ▸ h'
  rwa [List.append_nil] at this

theorem pure {a : α} (ha : P a) : Leaves (Pure.pure a : Parser α) x P [] x := fun s hx => ⟨a, s, rfl, ha, hx, rfl⟩

/-! ### Looking and taking -/

theorem get {q : ParserState → Parser β} (h : ∀ s, s.rest = x → Leaves (q s) x Q rs y) :
    Leaves (MonadState.get >>= q) x Q rs y := fun s hx => h s hx s hx

theorem kind {q : TokenKind → Parser β} (h : Leaves (q (headKind x)) x Q rs y) :
    Leaves (Parser.kind >>= q) x Q rs y := by
  intro s hx
  rw [bind_of_ok (kind_apply s), s.kind_eq_headKind, hx]
  exact h s hx

theorem sees {k : TokenKind} {q : Bool → Parser β} (h : Leaves (q (headKind x == k)) x Q rs y) :
    Leaves (Parser.sees k >>= q) x Q rs y := by
  intro s hx
  rw [bind_of_ok (sees_apply k s), s.kind_eq_headKind, hx]
  exact h s hx

theorem offset {q : Nat → Parser β} (h : ∀ start, Leaves (q start) x Q rs y) : Leaves (Parser.offset >>= q) x Q rs y :=
  fun s hx => h _ s hx

theorem spanFrom {start : Nat} {q : Span → Parser β} (h : ∀ span, Leaves (q span) x Q rs y) :
    Leaves (Parser.spanFrom start >>= q) x Q rs y :=
  fun s hx => h _ s hx

theorem skip {q : PUnit → Parser β} (h : Leaves (q ⟨⟩) x Q rs y) : Leaves (Parser.skip >>= q) (t :: x) Q rs y :=
  after Gives.skip h

section

variable {k : TokenKind}

theorem eat {q : Bool → Parser β} (hk : t.kind = k) (h : Leaves (q true) x Q rs y) :
    Leaves (Parser.eat k >>= q) (t :: x) Q rs y := by
  intro s hx
  rw [bind_of_ok (show Parser.eat k s = .ok true s.advance by
    rw [eat_apply, if_pos ((ParserState.kind_of_cons hx).trans hk)])]
  obtain ⟨b, s', h', hb, hy, hr⟩ := h s.advance (ParserState.advance_rest_of_cons hx)
  exact ⟨b, s', h', hb, hy, by rw [hr, ParserState.advance_reports]⟩

theorem eat_none {q : Bool → Parser β} (hk : headKind x ≠ k) (h : Leaves (q false) x Q rs y) :
    Leaves (Parser.eat k >>= q) x Q rs y := by
  intro s hx
  rw [bind_of_ok (show Parser.eat k s = .ok false s by rw [eat_apply, if_neg (by rwa [s.kind_eq_headKind, hx])])]
  exact h s hx

/-- A problem with `t`. -/
theorem report {problem : Problem} :
    Leaves (Parser.report problem) (t :: x) (fun _ => True) [⟨problem, t.span⟩] (t :: x) := by
  intro s hx
  refine ⟨⟨⟩, s.report problem s.span, rfl, trivial, hx, ?_⟩
  rw [ParserState.report_reports, ParserState.span_of_cons hx]
  rfl

/-- Something is missing in front of `t`. -/
theorem missing {what : String} :
    Leaves (Parser.missing what) (t :: x) (fun _ => True) [⟨.missing what, t.span⟩] (t :: x) := report

end

/-! ### Rules put together -/

theorem orRecover {rule recover : Parser α} (h : Leaves rule x P rs y) :
    Leaves (Parser.orRecover rule recover) x P rs y := by
  intro s hx
  obtain ⟨a, s', h', hs'⟩ := h s hx
  exact ⟨a, s', by rw [orRecover_apply, h'], hs'⟩

theorem recovering {part : Parser α} {skipRest : Parser PUnit} (h : Leaves part x P rs y) :
    Leaves (Parser.recovering part skipRest) x (fun t => ∃ a, t = .more [a] ∧ P a) rs y :=
  .get fun _ _ => .orRecover (.before h fun a ha => .pure ⟨a, rfl, ha⟩)

end Leaves

/-! ## Loops -/

/-- In front of `x` the turns of a loop give items of which `P` holds, report `rs` and stop in front of `y`. -/
def LoopLeaves (turn : Parser (Turn α)) (x : List Lexeme) (P : List α → Prop) (rs : List Report) (y : List Lexeme) :
    Prop :=
  ∀ s, s.rest = x → ∃ as bs s₁ s', Turns turn s as s₁ ∧ turn s₁ = .ok (.last bs) s' ∧ P (as ++ bs) ∧ s'.rest = y ∧
    s'.reports = rs ++ s.reports

namespace LoopLeaves

variable {turn : Parser (Turn α)} {P Q R : List α → Prop}

theorem collect (h : LoopLeaves turn x P rs y) : Leaves (collect turn) x P rs y := by
  intro s hx
  obtain ⟨as, bs, s₁, s', hturns, hlast, has, hs'⟩ := h s hx
  exact ⟨as ++ bs, s', hturns.collect hlast, has, hs'⟩

theorem last (h : Leaves turn x (fun t => ∃ as, t = .last as ∧ P as) rs y) : LoopLeaves turn x P rs y := by
  intro s hx
  obtain ⟨_, s', h', ⟨as, rfl, has⟩, hs'⟩ := h s hx
  exact ⟨[], as, s, s', .done, h', has, hs'⟩

theorem more (h : Leaves turn x (fun t => ∃ as, t = .more as ∧ P as) rs y) (hlt : y.length < x.length)
    (h' : LoopLeaves turn y Q rs' z) (hR : ∀ as bs, P as → Q bs → R (as ++ bs)) :
    LoopLeaves turn x R (rs' ++ rs) z := by
  intro s hx
  obtain ⟨_, s₁, h₁, ⟨items, rfl, hitems⟩, hy, hr⟩ := h s hx
  obtain ⟨as, bs, s₂, s', hturns, hlast, has, hz, hr'⟩ := h' s₁ hy
  refine ⟨items ++ as, bs, s₂, s', .more h₁ (by rwa [hy, hx]) hturns, hlast, ?_, hz, ?_⟩
  · rw [List.append_assoc]
    exact hR _ _ hitems has
  · rw [hr', hr, List.append_assoc]

end LoopLeaves

/-- A loop that is read without a report. -/
theorem Gives.loop {turn : Parser (Turn α)} [Lawful turn] (hturn : Turning turn) {as : List α} {P : List α → Prop}
    (h : Gives (collect turn) x as y) (has : P as) : LoopLeaves turn x P [] y := by
  intro s hx
  obtain ⟨s', h', hy⟩ := h s hx
  have hturns : ∃ bs cs s₁, Turns turn s bs s₁ ∧ turn s₁ = .ok (.last cs) s' ∧ as = bs ++ cs := by
    refine h'.collect_induction hturn
      (L := fun as s s' => ∃ bs cs s₁, Turns turn s bs s₁ ∧ turn s₁ = .ok (.last cs) s' ∧ as = bs ++ cs) ?_ ?_
    · exact fun as s s' h => ⟨[], as, s, .done, h.1, rfl⟩
    · rintro items s s₁ as s' h ⟨bs, cs, s₂, hturns, hlast, rfl⟩
      exact ⟨items ++ bs, cs, s₂, .more h.1 (hturn _ _ _ h) hturns, hlast, (List.append_assoc items bs cs).symm⟩
  obtain ⟨bs, cs, s₁, hturns, hlast, rfl⟩ := hturns
  exact ⟨bs, cs, s₁, s', hturns, hlast, has, hy, h'.2⟩

end StructuredText.Parser
