import StructuredText.Proofs.Fatal

/-!
# Where the stream ends

A parse looks at where its stream ends only to say that something is missing there. Two states that differ in this are
near (`ParserState.Near`): the same tokens are to come, and the same problems were reported at the same places, but for
those at the end. A rule is blind if it does the same in states that are near (`Parser.Blind`), with the same result.

The next token tells a rule where it begins, and behind the last one this is where the stream ends. So some rules are
blind only where a token is to come (`Parser.BlindInside`), and others because they give up where none is
(`Parser.NeedsToken`), so that it makes no difference where they began (`Parser.Idle`).
-/

namespace StructuredText

/-! ## States that end at different places -/

/-- The same problem at the same place, or at the end of the stream: at `u` for the one and at `u'` for the other. -/
structure Report.Near (u u' : Span) (r r' : Report) : Prop where
  problem : r.problem = r'.problem
  span : r.span = r'.span ∨ r.span = u ∧ r'.span = u'

namespace ParserState

/-- Where it is reported that something is missing at the end of the stream. -/
def endSpan (s : ParserState) : Span := .empty (max s.stop (stopAfter s.lastStop s.rest))

/-- The states differ in where the stream ends, at `u` for the one and at `u'` for the other, and in what is reported
there. -/
structure Near (u u' : Span) (s s' : ParserState) : Prop where
  source : s.source = s'.source
  rest : s.rest = s'.rest
  lastStop : s.lastStop = s'.lastStop
  endSpan_left : s.endSpan = u
  endSpan_right : s'.endSpan = u'
  reports : List.Forall₂ (Report.Near u u') s.reports s'.reports

variable {s s' : ParserState} {u u' v v' : Span}

theorem endSpan_advance (s : ParserState) : s.advance.endSpan = s.endSpan := by
  rw [advance]
  split
  · next hr => rw [endSpan, endSpan, hr]; rfl
  · rfl

theorem span_of_end (h : s.rest = []) : s.span = s.endSpan := by
  rw [span, endSpan, h]
  rfl

/-- A token is to come where its kind is known. -/
theorem rest_ne_nil (hk : s.kind ≠ .eof) : s.rest ≠ [] := fun hr => hk (kind_of_nil hr)

/-- What begins at the end of the stream ends there. -/
theorem spanFrom_of_end (h : s.rest = []) : s.spanFrom s.span.start = s.endSpan := by
  rw [span_of_end h, spanFrom, endSpan, h]
  show (⟨_, max s.lastStop (max s.stop s.lastStop)⟩ : Span) = _
  rw [Nat.max_eq_right (Nat.le_max_right _ _)]
  rfl

namespace Near

theorem exists_eq (h : Near u u' s s') : ∃ stop reports, s' = { s with stop := stop, reports := reports } := by
  obtain ⟨source, stop, rest, lastStop, reports⟩ := s'
  obtain ⟨rfl, rfl, rfl, -, -, -⟩ := h
  exact ⟨stop, reports, rfl⟩

theorem advance (h : Near u u' s s') : Near u u' s.advance s'.advance where
  source := by rw [advance_source, advance_source, h.source]
  rest := by rw [advance_rest, advance_rest, h.rest]
  lastStop := by
    obtain ⟨stop, reports, rfl⟩ := h.exists_eq
    cases hr : s.rest <;> simp [ParserState.advance, hr]
  endSpan_left := by rw [endSpan_advance, h.endSpan_left]
  endSpan_right := by rw [endSpan_advance, h.endSpan_right]
  reports := by rw [advance_reports, advance_reports]; exact h.reports

theorem report {problem : Problem} (h : Near u u' s s') (hspan : v = v' ∨ v = u ∧ v' = u') :
    Near u u' (s.report problem v) (s'.report problem v') :=
  ⟨h.source, h.rest, h.lastStop, h.endSpan_left, h.endSpan_right, .cons ⟨rfl, hspan⟩ h.reports⟩

/-- The next token is at the same place, if there is one. -/
theorem span (h : Near u u' s s') : s.span = s'.span ∨ s.span = u ∧ s'.span = u' := by
  cases hr : s.rest with
  | nil => exact .inr ⟨(span_of_end hr).trans h.endSpan_left, (span_of_end (h.rest ▸ hr)).trans h.endSpan_right⟩
  | cons t ts => exact .inl ((span_of_cons hr).trans (span_of_cons (h.rest ▸ hr)).symm)

theorem span_eq (h : Near u u' s s') (hr : s.rest ≠ []) : s.span = s'.span := by
  obtain ⟨t, ts, hr⟩ := List.exists_cons_of_ne_nil hr
  rw [span_of_cons hr, span_of_cons (h.rest ▸ hr)]

theorem kind (h : Near u u' s s') : s.kind = s'.kind := by
  obtain ⟨_, _, rfl⟩ := h.exists_eq
  rfl

end Near

end ParserState

/-- The outcomes are both there with the same result, or the rules give up for the same reason. -/
inductive NearOutcome (u u' : Span) :
    EStateM.Result Abort ParserState α → EStateM.Result Abort ParserState α → Prop
  | ok {a : α} {s s' : ParserState} : s.Near u u' s' → NearOutcome u u' (.ok a s) (.ok a s')
  | error {e : Abort} {s s' : ParserState} : s.Near u u' s' → NearOutcome u u' (.error e s) (.error e s')

namespace Parser

variable {s s' : ParserState}

/-! ## Rules that need a token -/

/-- Where no token is to come, the rule gives up. -/
class NeedsToken (p : Parser α) : Prop where
  error {s : ParserState} : s.rest = [] → ∃ e s', p s = .error e s'

instance needsToken_bind {p : Parser α} {q : α → Parser β} [hp : NeedsToken p] : NeedsToken (p >>= q) := by
  constructor
  intro s hr
  obtain ⟨e, s', h⟩ := hp.error hr
  exact ⟨e, s', by rw [bind_apply, h]⟩

instance needsToken_then {p : Parser α} {q : α → Parser β} [Lawful p] [hq : ∀ a, NeedsToken (q a)] :
    NeedsToken (p >>= q) := by
  constructor
  intro s hr
  rw [bind_apply]
  cases h : p s with
  | ok a s₁ =>
    have hr₁ : s₁.rest = [] := List.suffix_nil.1 (hr ▸ Lawful.rest_suffix_of_ok h)
    exact (hq a).error hr₁
  | error e s₁ => exact ⟨e, s₁, rfl⟩

instance needsToken_fail (what : String) : NeedsToken (fail what : Parser α) := ⟨fun hr => ⟨_, _, fail_of_nil hr what⟩⟩

/-- A rule that begins with a token of another kind than `eof`. -/
theorem needsToken_sees {k : TokenKind} (hk : k ≠ .eof) {p q : Parser α} [hq : NeedsToken q] :
    NeedsToken (do if ← sees k then p else q) := by
  constructor
  intro s hr
  have hsees : (s.kind == k) = false := by
    rw [ParserState.kind_of_nil hr, beq_eq_false_iff_ne]
    exact hk.symm
  rw [bind_of_ok (sees_apply k s), hsees]
  exact hq.error hr

instance needsToken_sepByComma {item : Parser α} [NeedsToken item] : NeedsToken (sepByComma item) := by
  unfold sepByComma
  infer_instance

/-- Where no token is to come, the rule does the same for all values of its parameter. -/
class Idle (k : α → Parser β) : Prop where
  eq {s : ParserState} : s.rest = [] → ∀ a b, k a s = k b s

instance idle_const (p : Parser β) : Idle fun _ : α => p := ⟨fun _ _ _ => rfl⟩

instance idle_bind {p : Parser α} {q : β → α → Parser γ} [Lawful p] [hq : ∀ a, Idle fun b => q b a] :
    Idle fun b => p >>= q b := by
  constructor
  intro s hr b b'
  rw [bind_apply, bind_apply]
  cases h : p s with
  | ok a s₁ =>
    have hr₁ : s₁.rest = [] := List.suffix_nil.1 (hr ▸ Lawful.rest_suffix_of_ok h)
    exact (hq a).eq hr₁ b b'
  | error e s₁ => rfl

instance idle_bind_needsToken {p : Parser α} {q : β → α → Parser γ} [hp : NeedsToken p] :
    Idle fun b => p >>= q b := by
  constructor
  intro s hr b b'
  obtain ⟨e, s', h⟩ := hp.error hr
  rw [bind_apply, bind_apply, h]

instance idle_ite {c : Prop} [Decidable c] {k k' : α → Parser β} [Idle k] [Idle k'] :
    Idle fun a => if c then k a else k' a := by
  split <;> infer_instance

/-! ## Rules that do not see the end -/

/-- The rule does the same in states that differ in where the stream ends. -/
class Blind (p : Parser α) : Prop where
  outcome {u u' : Span} {s s' : ParserState} : s.Near u u' s' → NearOutcome u u' (p s) (p s')

/-- The rule does so where a token is to come. -/
class BlindInside (p : Parser α) : Prop where
  outcome {u u' : Span} {s s' : ParserState} : s.Near u u' s' → s.rest ≠ [] → NearOutcome u u' (p s) (p s')

instance (priority := low) blindInside_of_blind {p : Parser α} [hp : Blind p] : BlindInside p :=
  ⟨fun h _ => hp.outcome h⟩

section

variable {p : Parser α} {q : α → Parser β}

theorem nearOutcome_bind {u u' : Span} (h : NearOutcome u u' (p s) (p s'))
    (hq : ∀ {a s₁ s₁'}, p s = .ok a s₁ → s₁.Near u u' s₁' → NearOutcome u u' (q a s₁) (q a s₁')) :
    NearOutcome u u' ((p >>= q) s) ((p >>= q) s') := by
  rw [bind_apply, bind_apply]
  revert h hq
  generalize p s = r
  generalize p s' = r'
  rintro (h | h) hq
  · exact hq rfl h
  · exact .error h

instance blind_bind [hp : Blind p] [hq : ∀ a, Blind (q a)] : Blind (p >>= q) :=
  ⟨fun h => nearOutcome_bind (hp.outcome h) fun _ h => (hq _).outcome h⟩

instance blindInside_bind [hp : BlindInside p] [hq : ∀ a, Blind (q a)] : BlindInside (p >>= q) :=
  ⟨fun h hr => nearOutcome_bind (hp.outcome h hr) fun _ h => (hq _).outcome h⟩

end

instance blind_pure (a : α) : Blind (pure a : Parser α) := ⟨.ok⟩

instance blind_ite {c : Prop} [Decidable c] {p q : Parser α} [Blind p] [Blind q] : Blind (if c then p else q) := by
  split <;> infer_instance

instance blindInside_ite {c : Prop} [Decidable c] {p q : Parser α} [BlindInside p] [BlindInside q] :
    BlindInside (if c then p else q) := by
  split <;> infer_instance

/-! ### Looking and taking -/

/-- A rule that looks at the state, but not at where the stream ends. -/
theorem blind_get_bind_at {q : ParserState → Parser β}
    (hq : ∀ s stop reports, q { s with stop := stop, reports := reports } = q s)
    (h : ∀ {u u' : Span} {s s' : ParserState}, s.Near u u' s' → NearOutcome u u' (q s s) (q s s')) :
    Blind (get >>= q) := by
  constructor
  intro u u' s s' hs
  obtain ⟨stop, reports, hs'⟩ := hs.exists_eq
  have heq : q s' = q s := hs' ▸ hq s stop reports
  rw [bind_of_ok (get_apply s), bind_of_ok (get_apply s'), heq]
  exact h hs

theorem blind_get_bind {q : ParserState → Parser β}
    (hq : ∀ s stop reports, q { s with stop := stop, reports := reports } = q s) [hb : ∀ s, Blind (q s)] :
    Blind (get >>= q) :=
  blind_get_bind_at hq fun h => (hb _).outcome h

instance blind_kind : Blind kind := by
  constructor
  intro u u' s s' h
  rw [kind_apply, kind_apply, h.kind]
  exact .ok h

instance blind_sees (k : TokenKind) : Blind (sees k) := by
  constructor
  intro u u' s s' h
  rw [sees_apply, sees_apply, h.kind]
  exact .ok h

instance blind_atEnd : Blind atEnd := by
  constructor
  intro u u' s s' h
  rw [atEnd_apply, atEnd_apply, h.rest]
  exact .ok h

instance blind_spanFrom (start : Nat) : Blind (spanFrom start) := by
  constructor
  intro u u' s s' h
  rw [spanFrom_apply, spanFrom_apply, ParserState.spanFrom, ParserState.spanFrom, h.lastStop]
  exact .ok h

instance blindInside_offset : BlindInside offset := by
  constructor
  intro u u' s s' h hr
  rw [offset_apply, offset_apply, h.span_eq hr]
  exact .ok h

/-- Where a rule gives up without a token, it makes no difference where it began. -/
instance blind_offset_bind {k : Nat → Parser β} [hk : ∀ n, Blind (k n)] [hi : Idle k] : Blind (offset >>= k) := by
  constructor
  intro u u' s s' h
  rw [bind_of_ok (offset_apply s), bind_of_ok (offset_apply s')]
  by_cases hr : s.rest = []
  · rw [hi.eq hr s.span.start s'.span.start]
    exact (hk _).outcome h
  · rw [h.span_eq hr]
    exact (hk _).outcome h

instance blind_skip : Blind skip := ⟨fun h => .ok h.advance⟩

instance blindInside_take : BlindInside take := by
  constructor
  intro u u' s s' h hr
  have htext : s.text = s'.text := by
    obtain ⟨_, _, rfl⟩ := h.exists_eq
    rfl
  rw [take_apply, take_apply, htext, h.span_eq hr]
  exact .ok h.advance

instance blind_eat (k : TokenKind) : Blind (eat k) := by
  unfold eat
  infer_instance

/-- A rule behind a look at the next token, of which there is one unless its kind is `eof`. -/
theorem blind_kind_bind {q : TokenKind → Parser β} (hend : Blind (q .eof)) (hin : ∀ k, k ≠ .eof → BlindInside (q k)) :
    Blind (kind >>= q) := by
  constructor
  intro u u' s s' h
  rw [bind_of_ok (kind_apply s), bind_of_ok (kind_apply s'), ← h.kind]
  by_cases hk : s.kind = .eof
  · rw [hk]
    exact hend.outcome h
  · exact (hin s.kind hk).outcome h (ParserState.rest_ne_nil hk)

theorem blind_sees_bind {k : TokenKind} (hk : k ≠ .eof) {p q : Parser β} [hp : BlindInside p] [hq : Blind q] :
    Blind (do if ← sees k then p else q) := by
  constructor
  intro u u' s s' h
  rw [bind_of_ok (sees_apply k s), bind_of_ok (sees_apply k s'), ← h.kind]
  split
  · next hsees =>
    refine hp.outcome h (ParserState.rest_ne_nil ?_)
    rwa [eq_of_beq hsees]
  · exact hq.outcome h

theorem blind_atEnd_bind {p q : Parser β} [hp : Blind p] [hq : BlindInside q] :
    Blind (do if ← atEnd then p else q) := by
  constructor
  intro u u' s s' h
  rw [bind_of_ok (atEnd_apply s), bind_of_ok (atEnd_apply s'), ← h.rest]
  split
  · exact hp.outcome h
  · next hr => exact hq.outcome h fun hnil => hr (by rw [hnil]; rfl)

/-! ### Reporting and giving up -/

instance blind_reportAt (span : Span) (problem : Problem) : Blind (reportAt span problem) :=
  ⟨fun h => .ok (h.report (.inl rfl))⟩

instance blind_report (problem : Problem) : Blind (report problem) := ⟨fun h => .ok (h.report h.span)⟩

instance blind_missing (what : String) : Blind (missing what) := blind_report _

instance blind_throw (e : Abort) : Blind (throw e : Parser α) := ⟨.error⟩

/-- Reporting takes no token. -/
instance blindInside_report_bind {problem : Problem} {q : PUnit → Parser β} [hq : ∀ a, BlindInside (q a)] :
    BlindInside (report problem >>= q) := by
  constructor
  intro u u' s s' h hr
  rw [bind_of_ok (report_apply problem s), bind_of_ok (report_apply problem s')]
  exact (hq _).outcome (h.report h.span) hr

instance blindInside_missing_bind {what : String} {q : PUnit → Parser β} [∀ a, BlindInside (q a)] :
    BlindInside (missing what >>= q) :=
  blindInside_report_bind

instance blind_fail (what : String) : Blind (fail what : Parser α) := by
  refine @blind_get_bind _ _ (fun s _ _ => rfl) fun s => ?_
  cases s.rest <;> exact inferInstance

instance blind_expect (k : TokenKind) : Blind (expect k) := by
  unfold expect
  infer_instance

instance blind_expectEnd (k : TokenKind) : Blind (expectEnd k) := by
  unfold expectEnd
  infer_instance

theorem blind_nested {what : String} {deeper : Option α} {rule : α → Parser β} (h : ∀ a ∈ deeper, Blind (rule a)) :
    Blind (nested what deeper rule) := by
  cases deeper with
  | some a => exact h a rfl
  | none =>
    unfold nested
    exact inferInstance

theorem blindInside_nested {what : String} {deeper : Option α} {rule : α → Parser β}
    (h : ∀ a ∈ deeper, BlindInside (rule a)) : BlindInside (nested what deeper rule) := by
  cases deeper with
  | some a => exact h a rfl
  | none =>
    unfold nested
    exact inferInstance

instance blind_orRecover {p q : Parser α} [hp : Blind p] [hq : Blind q] : Blind (orRecover p q) := by
  constructor
  intro u u' s s' h
  rw [orRecover_apply, orRecover_apply]
  have hp := hp.outcome h
  revert hp
  generalize p s = r
  generalize p s' = r'
  rintro (hs | @⟨e, t, t', ht⟩)
  · exact .ok hs
  · cases e with
    | syntaxError => exact hq.outcome ht
    | endOfStream | tooDeep => exact .error ht

/-! ### Loops -/

section

variable {turn : α → Parser (Option α)}

theorem blind_foldWithin [ht : ∀ a, Blind (turn a)] (left : List Lexeme) (a : α) : Blind (foldWithin turn left a) := by
  induction left generalizing a with
  | nil =>
    unfold foldWithin
    infer_instance
  | cons t left ih =>
    have (o : Option α) : Blind (foldAfter turn left a o) := by
      cases o with
      | none => exact blind_pure a
      | some b => exact ih b
    rw [foldWithin_cons]
    infer_instance

instance blind_fold [∀ a, Blind (turn a)] (a : α) : Blind (fold turn a) :=
  @blind_get_bind _ _ (fun _ _ _ => rfl) fun s => blind_foldWithin s.rest a

end

section

variable {turn : Parser (Turn α)}

theorem blind_collectWithin [ht : Blind turn] (left : List Lexeme) : Blind (collectWithin turn left) := by
  induction left with
  | nil =>
    rw [collectWithin_nil]
    infer_instance
  | cons t left ih =>
    have (t : Turn α) : Blind (collectAfter turn left t) := by
      cases t <;> unfold collectAfter <;> infer_instance
    rw [collectWithin_cons]
    infer_instance

instance blind_collect [Blind turn] : Blind (collect turn) :=
  @blind_get_bind _ _ (fun _ _ _ => rfl) fun s => blind_collectWithin s.rest

instance blind_sepByComma {item : Parser α} [Blind item] : Blind (sepByComma item) := by
  unfold sepByComma
  infer_instance

end

/-! ### Going on after an error -/

theorem blind_skipWhile {p : ParserState → Bool}
    (hp : ∀ s stop reports, p { s with stop := stop, reports := reports } = p s) : Blind (skipWhile p) := by
  have hgo (left : List Lexeme) {u u' : Span} {s s' : ParserState} (h : s.Near u u' s') :
      (skipWhile.go p left s).Near u u' (skipWhile.go p left s') := by
    induction left generalizing s s' with
    | nil => exact h
    | cons t left ih =>
      obtain ⟨stop, reports, hs'⟩ := h.exists_eq
      have heq : p s' = p s := hs' ▸ hp s stop reports
      rw [skipWhile.go, skipWhile.go, heq]
      split
      · exact ih h.advance
      · exact h
  constructor
  intro u u' s s' h
  have hrest := hgo s.rest h
  show NearOutcome u u' (.ok PUnit.unit (skipWhile.go p s.rest s)) (.ok PUnit.unit (skipWhile.go p s'.rest s'))
  rw [← h.rest]
  exact .ok hrest

instance blind_skipTo (stops : TokenKind → Bool) : Blind (skipTo stops) := by
  have : Blind (skipWhile fun s => s.kind != .semicolon && !stops s.kind) := blind_skipWhile fun _ _ _ => rfl
  unfold skipTo
  infer_instance

instance blind_skipStatement : Blind skipStatement := blind_skipTo _

instance blind_expectSemicolon : Blind expectSemicolon := by
  have : Blind (do if (← get).atSemicolonInsertion then pure () else skipStatement) :=
    @blind_get_bind _ _ (fun _ _ _ => rfl) fun s => inferInstance
  unfold expectSemicolon
  infer_instance

instance blind_expectEndOfInput : Blind expectEndOfInput := by
  have : Blind (skipWhile fun _ => true) := blind_skipWhile fun _ _ _ => rfl
  refine @blind_get_bind _ _ ?_ fun s => ?_
  · rintro ⟨source, stop, rest, lastStop, reports⟩ _ _
    cases rest <;> rfl
  · cases s.rest <;> exact inferInstance

instance blind_recovering {part : Parser α} {skipRest : Parser PUnit} [Blind part] [Blind skipRest] :
    Blind (recovering part skipRest) := by
  have (n : Nat) : Blind (do
      if (← get).rest.length = n then skip else pure ()
      return (Turn.more [] : Turn α)) :=
    @blind_get_bind _ _ (fun _ _ _ => rfl) fun s => inferInstance
  refine @blind_get_bind _ _ (fun _ _ _ => rfl) fun s => ?_
  infer_instance

end Parser

end StructuredText
