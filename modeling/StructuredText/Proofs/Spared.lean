import StructuredText.Proofs.Steps

/-!
# The words that open a unit

Whatever goes wrong inside a unit, the word that opens the next one stays where it is. `Spared s s'` says that no such
word was taken on the way from `s` to `s'`, so that a unit ahead of `s` is still ahead of `s'`
(`Spared.exists_append`). A rule spares units at a state if this holds of it there, success or not (`Parser.Spares`),
and it is sparing if it does so at every state (`Parser.Sparing`).

A rule that takes the next token whatever it is spares units only where the token is known; all ways to put rules
together keep what their parts spare.
-/

namespace StructuredText

/-! ## Units ahead -/

/-- The words that open a unit. -/
@[reducible] def TokenKind.opensUnit : TokenKind → Bool
  | kwAlgorithm | kwMethod => true
  | _ => false

theorem TokenKind.opensUnit_iff {k : TokenKind} : k.opensUnit = true ↔ k = kwAlgorithm ∨ k = kwMethod := by
  constructor
  · unfold opensUnit
    split
    · exact fun _ => .inl rfl
    · exact fun _ => .inr rfl
    · exact fun h => absurd h Bool.false_ne_true
  · rintro (rfl | rfl) <;> rfl

/-- What holds of neither word tells all other tokens from them. -/
theorem TokenKind.opensUnit_eq_false {P : TokenKind → Prop} {k : TokenKind} (h : P k) (ha : ¬P kwAlgorithm)
    (hm : ¬P kwMethod) : k.opensUnit = false := by
  rw [Bool.eq_false_iff, ne_eq, opensUnit_iff]
  rintro (rfl | rfl)
  · exact ha h
  · exact hm h

/-- On the way from `s` to `s'`, no word was taken that opens a unit. -/
def Spared (s s' : ParserState) : Prop :=
  ∃ ts, s.rest = ts ++ s'.rest ∧ ∀ t ∈ ts, t.kind.opensUnit = false

namespace Spared

variable {s s₁ s' : ParserState}

theorem of_rest_eq (h : s'.rest = s.rest) : Spared s s' := ⟨[], h.symm, by simp⟩

theorem refl (s : ParserState) : Spared s s := of_rest_eq rfl

theorem trans (h : Spared s s₁) (h' : Spared s₁ s') : Spared s s' := by
  obtain ⟨ts, hr, hts⟩ := h
  obtain ⟨us, hr', hus⟩ := h'
  refine ⟨ts ++ us, by rw [hr, hr', List.append_assoc], ?_⟩
  intro t ht
  rcases List.mem_append.1 ht with ht | ht
  · exact hts t ht
  · exact hus t ht

theorem advance (h : s.kind.opensUnit = false) : Spared s s.advance := by
  cases hr : s.rest with
  | nil =>
    rw [ParserState.advance_of_nil hr]
    exact .refl s
  | cons t ts =>
    rw [ParserState.kind_of_cons hr] at h
    exact ⟨[t], by simp [hr], by simpa using h⟩

/-- Where as many tokens are left as before, the next one is the same. -/
theorem kind_eq_of_length_eq (h : Spared s s') (hlen : s'.rest.length = s.rest.length) : s'.kind = s.kind := by
  obtain ⟨ts, hr, -⟩ := h
  have hts : ts = [] := by
    apply List.eq_nil_of_length_eq_zero
    have := congrArg List.length hr
    rw [List.length_append] at this
    omega
  rw [hts, List.nil_append] at hr
  simp only [ParserState.kind, hr]

/-- A unit that is ahead stays ahead. -/
theorem exists_append {x y : List Lexeme} {k : Lexeme} (h : Spared s s') (hk : k.kind.opensUnit = true)
    (hs : s.rest = x ++ k :: y) : ∃ ts x', x = ts ++ x' ∧ s'.rest = x' ++ k :: y := by
  obtain ⟨ts, hr, hts⟩ := h
  rcases List.append_eq_append_iff.1 (hr.symm.trans hs) with ⟨x', hx, hr'⟩ | ⟨us, hts', hr'⟩
  · exact ⟨ts, x', hx, hr'⟩
  · -- The word would be one of the tokens taken.
    cases us with
    | nil => exact ⟨ts, [], by simpa using hts'.symm, by simpa using hr'.symm⟩
    | cons u us =>
      cases hr'
      have := hts k (by simp [hts'])
      rw [hk] at this
      cases this

end Spared

namespace Parser

variable {s s' : ParserState}

/-! ## Rules -/

/-- At `s`, the rule takes no word that opens a unit. -/
structure Spares (p : Parser α) (s : ParserState) : Prop where
  ok : ∀ {a s'}, p s = .ok a s' → Spared s s'
  error : ∀ {e s'}, p s = .error e s' → Spared s s'

/-- The rule never takes a word that opens a unit. -/
class Sparing (p : Parser α) : Prop where
  spares : ∀ s, Spares p s

/-- The test fails. Instances are found by running it. -/
class IsFalse (b : Bool) : Prop where
  eq_false : b = false

instance isFalse_false : IsFalse false := ⟨rfl⟩

theorem Spares.of_ok {p : Parser α} {a : α} (hp : p s = .ok a s') (h : Spared s s') : Spares p s := by
  constructor
  · intro b s₁ hb
    cases hp.symm.trans hb
    exact h
  · intro e s₁ he
    cases hp.symm.trans he

theorem Spares.of_error {p : Parser α} {e : Abort} (hp : p s = .error e s') (h : Spared s s') : Spares p s := by
  constructor
  · intro b s₁ hb
    cases hp.symm.trans hb
  · intro e₁ s₁ he
    cases hp.symm.trans he
    exact h

/-- A rule spares what another one spares that does the same. -/
theorem Spares.of_eq {p q : Parser α} (h : Spares q s) (hp : p s = q s) : Spares p s :=
  ⟨fun hok => h.ok (hp.symm.trans hok), fun herror => h.error (hp.symm.trans herror)⟩

/-! ### Rules one after the other -/

theorem Spares.bind {p : Parser α} {q : α → Parser β} (h : Spares p s)
    (hq : ∀ a s₁, p s = .ok a s₁ → Spares (q a) s₁) : Spares (p >>= q) s := by
  have hbind := bind_apply p q s
  cases hp : p s with
  | ok a s₁ =>
    have hs₁ := h.ok hp
    rw [hp] at hbind
    cases hr : q a s₁ with
    | ok b s₂ => exact .of_ok (hbind.trans hr) (hs₁.trans ((hq a s₁ hp).ok hr))
    | error e s₂ => exact .of_error (hbind.trans hr) (hs₁.trans ((hq a s₁ hp).error hr))
  | error e s₁ =>
    rw [hp] at hbind
    exact .of_error hbind (h.error hp)

/-- A rule in front of sparing ones. -/
theorem Spares.then {p : Parser α} {q : α → Parser β} [hq : ∀ a, Sparing (q a)] (h : Spares p s) :
    Spares (p >>= q) s :=
  h.bind fun a s₁ _ => (hq a).spares s₁

instance sparing_bind {p : Parser α} {q : α → Parser β} [hp : Sparing p] [∀ a, Sparing (q a)] : Sparing (p >>= q) :=
  ⟨fun s => (hp.spares s).then⟩

/-! ### Looking -/

section

variable {k : TokenKind}

theorem Spares.get {q : ParserState → Parser β} (h : Spares (q s) s) : Spares (MonadState.get >>= q) s :=
  h.of_eq rfl

theorem Spares.kind {q : TokenKind → Parser β} (h : Spares (q s.kind) s) : Spares (Parser.kind >>= q) s :=
  h.of_eq rfl

theorem Spares.offset {q : Nat → Parser β} (h : Spares (q s.span.start) s) : Spares (Parser.offset >>= q) s :=
  h.of_eq rfl

/-- One of two rules, as the next token is of a kind or not. -/
theorem Spares.sees {p q : Parser β} (hp : s.kind = k → Spares p s) (hq : Spares q s) :
    Spares (do if ← Parser.sees k then p else q) s := by
  have hpq : Spares (if (s.kind == k) = true then p else q) s := by
    split
    · next h => exact hp (eq_of_beq h)
    · exact hq
  exact hpq.of_eq rfl

instance sparing_pure (a : α) : Sparing (pure a : Parser α) := ⟨fun s => .of_ok rfl (.refl s)⟩

instance sparing_get : Sparing (get : Parser ParserState) := ⟨fun s => .of_ok rfl (.refl s)⟩

instance sparing_kind : Sparing kind := ⟨fun s => .of_ok rfl (.refl s)⟩

instance sparing_sees : Sparing (sees k) := ⟨fun s => .of_ok rfl (.refl s)⟩

instance sparing_atEnd : Sparing atEnd := ⟨fun s => .of_ok rfl (.refl s)⟩

instance sparing_offset : Sparing offset := ⟨fun s => .of_ok rfl (.refl s)⟩

instance sparing_spanFrom (start : Nat) : Sparing (spanFrom start) := ⟨fun s => .of_ok rfl (.refl s)⟩

/-! ### Taking and reporting -/

theorem Spares.skip (h : s.kind.opensUnit = false) : Spares Parser.skip s :=
  .of_ok rfl (.advance h)

theorem Spares.take (h : s.kind.opensUnit = false) : Spares Parser.take s :=
  .of_ok rfl (.advance h)

theorem Spares.skip_bind {q : PUnit → Parser β} (h : s.kind.opensUnit = false) (hq : Spares (q ⟨⟩) s.advance) :
    Spares (Parser.skip >>= q) s := by
  refine (Spares.skip h).bind fun _ _ h => ?_
  cases h
  exact hq

theorem Spares.take_bind {q : Name → Parser β} (h : s.kind.opensUnit = false)
    (hq : ∀ name, Spares (q name) s.advance) : Spares (Parser.take >>= q) s := by
  refine (Spares.take h).bind fun name _ h => ?_
  cases h
  exact hq _

theorem Spares.report_bind {problem : Problem} {q : PUnit → Parser β} (h : Spares (q ⟨⟩) (s.report problem s.span)) :
    Spares (Parser.report problem >>= q) s := by
  refine (Spares.of_ok (Parser.report_apply problem s) (.of_rest_eq rfl)).bind fun _ _ h' => ?_
  cases h'
  exact h

instance sparing_report (problem : Problem) : Sparing (report problem) := ⟨fun _ => .of_ok rfl (.of_rest_eq rfl)⟩

instance sparing_reportAt (span : Span) (problem : Problem) : Sparing (reportAt span problem) :=
  ⟨fun _ => .of_ok rfl (.of_rest_eq rfl)⟩

instance sparing_missing (what : String) : Sparing (missing what) := sparing_report _

instance sparing_fail (what : String) : Sparing (fail what : Parser α) := by
  constructor
  intro s
  cases hr : s.rest with
  | nil => exact .of_error (fail_of_nil hr what) (.of_rest_eq rfl)
  | cons t ts => exact .of_error (fail_of_cons hr what) (.of_rest_eq rfl)

theorem opensUnit_of_kind [hk : IsFalse k.opensUnit] (h : s.kind = k) : s.kind.opensUnit = false := by
  rw [h, hk.eq_false]

instance sparing_eat [IsFalse k.opensUnit] : Sparing (eat k) :=
  ⟨fun s => .sees (fun h => (Spares.skip (opensUnit_of_kind h)).then) (Sparing.spares s)⟩

instance sparing_expect [IsFalse k.opensUnit] : Sparing (expect k) :=
  ⟨fun s => .sees (fun h => .skip (opensUnit_of_kind h)) (Sparing.spares s)⟩

end

instance sparing_ite {c : Prop} [Decidable c] {p q : Parser α} [hp : Sparing p] [hq : Sparing q] :
    Sparing (if c then p else q) := by
  split <;> assumption

instance sparing_expectEnd {k : TokenKind} [IsFalse k.opensUnit] : Sparing (expectEnd k) :=
  ⟨fun s => .sees (fun h => .skip (opensUnit_of_kind h)) (Sparing.spares s)⟩

theorem Spares.nested {what : String} {deeper : Option α} {rule : α → Parser β}
    (h : ∀ level ∈ deeper, Spares (rule level) s) : Spares (Parser.nested what deeper rule) s := by
  cases deeper with
  | some level => exact h level rfl
  | none => exact .of_error rfl (.of_rest_eq rfl)

/-! ### Recovery -/

theorem Spares.orRecover {rule recover : Parser α} (h : Spares rule s)
    (hr : ∀ s₁, rule s = .error .syntaxError s₁ → Spares recover s₁) : Spares (Parser.orRecover rule recover) s := by
  have happly := orRecover_apply rule recover s
  cases hp : rule s with
  | ok a s₁ =>
    rw [hp] at happly
    exact .of_ok happly (h.ok hp)
  | error e s₁ =>
    have hs₁ := h.error hp
    rw [hp] at happly
    cases e with
    | syntaxError =>
      cases hq : recover s₁ with
      | ok b s₂ => exact .of_ok (happly.trans hq) (hs₁.trans ((hr s₁ hp).ok hq))
      | error e s₂ => exact .of_error (happly.trans hq) (hs₁.trans ((hr s₁ hp).error hq))
    | endOfStream | tooDeep => exact .of_error happly hs₁

instance sparing_orRecover {rule recover : Parser α} [hp : Sparing rule] [hr : Sparing recover] :
    Sparing (orRecover rule recover) :=
  ⟨fun s => (hp.spares s).orRecover fun s₁ _ => hr.spares s₁⟩

theorem spared_skipWhile_go {p : ParserState → Bool} (hp : ∀ s, p s = true → s.kind.opensUnit = false)
    (left : List Lexeme) (s : ParserState) : Spared s (skipWhile.go p left s) := by
  induction left generalizing s with
  | nil => exact .refl s
  | cons _ left ih =>
    unfold skipWhile.go
    split
    · next h => exact (Spared.advance (hp s h)).trans (ih s.advance)
    · exact .refl s

/-- Skipping that stops at the words that open a unit. -/
theorem sparing_skipWhile {p : ParserState → Bool} (hp : ∀ s, p s = true → s.kind.opensUnit = false) :
    Sparing (skipWhile p) :=
  ⟨fun s => .of_ok rfl (spared_skipWhile_go hp s.rest s)⟩

theorem sparing_skipTo {stops : TokenKind → Bool} (ha : stops .kwAlgorithm = true) (hm : stops .kwMethod = true) :
    Sparing (skipTo stops) := by
  have : Sparing (skipWhile fun s => s.kind != .semicolon && !stops s.kind) :=
    sparing_skipWhile fun s h =>
      TokenKind.opensUnit_eq_false (P := fun k => (k != .semicolon && !stops k) = true) h (by simp [ha]) (by simp [hm])
  have : Sparing (do if ← sees .semicolon then skip else pure ()) :=
    ⟨fun s => .sees (fun h => .skip (opensUnit_of_kind h)) (Sparing.spares s)⟩
  unfold skipTo
  infer_instance

instance sparing_skipStatement : Sparing skipStatement := sparing_skipTo rfl rfl

instance sparing_skipDecl : Sparing skipDecl := sparing_skipTo rfl rfl

instance sparing_expectSemicolon : Sparing expectSemicolon :=
  ⟨fun s => .sees (fun h => .skip (opensUnit_of_kind h)) (Sparing.spares s)⟩

/-- After a syntax error at least one token is taken, which is the first one if nothing else was. -/
theorem Spares.recovering {part : Parser α} {skipRest : Parser PUnit} [hp : Sparing part] [hr : Sparing skipRest]
    (h : s.kind.opensUnit = false) : Spares (Parser.recovering part skipRest) s := by
  refine .get (.orRecover (Sparing.spares s) fun s₁ h₁ => ?_)
  have hs₁ : Spared s s₁ := (Sparing.spares s).error h₁
  refine (hr.spares s₁).bind fun _ s₂ h₂ => .get ?_
  have hs₂ : Spared s s₂ := hs₁.trans ((hr.spares s₁).ok h₂)
  split
  · next hlen => exact (Spares.skip (by rw [hs₂.kind_eq_of_length_eq hlen, h])).then
  · exact Sparing.spares s₂

/-! ### Loops -/

theorem closed_sparing : Closed Sparing := ⟨sparing_pure, sparing_get, fun hp hq => @sparing_bind _ _ _ _ hp hq⟩

instance sparing_fold {turn : α → Parser (Option α)} [h : ∀ a, Sparing (turn a)] (a : α) : Sparing (fold turn a) :=
  closed_sparing.fold h a

instance sparing_collect {turn : Parser (Turn α)} [h : Sparing turn] : Sparing (collect turn) :=
  closed_sparing.collect h

instance sparing_sepByComma {item : Parser α} [Sparing item] : Sparing (sepByComma item) := by
  unfold sepByComma
  infer_instance

end Parser

end StructuredText
