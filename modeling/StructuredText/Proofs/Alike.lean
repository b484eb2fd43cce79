import StructuredText.Proofs.Capitals
import StructuredText.Proofs.Lawful

/-!
# Rules regardless of case

On states that are alike, a rule has outcomes that are alike: it never tells a small letter from its capital. Two rules
`Agree` if this holds of the one on one state and the other on the other one; what is put together of rules that agree
agrees, and so each rule of the grammar agrees with itself.
-/

namespace StructuredText

open Cased (capitals)

/-! ## States that are alike -/

namespace ParserState

variable {s s' : ParserState} {u u' : Span} {start : Nat} {problem problem' : Problem}

instance alike_rest [Alike s s'] : Alike s.rest s'.rest := .map rest fun _ => rfl

instance alike_source [Alike s s'] : Alike s.source s'.source := .map source fun _ => rfl

instance alike_kind [Alike s s'] : Alike s.kind s'.kind := .map kind fun s => by
  obtain ⟨source, stop, _ | ⟨t, ts⟩, lastStop, reports⟩ := s <;> rfl

instance alike_kindAt [Alike s s'] (n : Nat) : Alike (s.kindAt n) (s'.kindAt n) := .map (kindAt · n) fun s => by
  show s.kindAt n = s.capitals.kindAt n
  simp only [kindAt, capitals, List.getElem?_map]
  cases s.rest[n]? <;> rfl

instance alike_span [Alike s s'] : Alike s.span s'.span := .map span fun s => by
  obtain ⟨source, stop, _ | ⟨t, ts⟩, lastStop, reports⟩ := s <;> rfl

instance alike_start [Alike u u'] : Alike u.start u'.start := .map Span.start fun _ => rfl

instance alike_text [Alike s s'] : Alike s.text s'.text := .map text fun s => by
  obtain ⟨source, stop, _ | ⟨t, ts⟩, lastStop, reports⟩ := s <;> rfl

instance alike_spanFrom [Alike s s'] : Alike (s.spanFrom start) (s'.spanFrom start) :=
  .map (spanFrom · start) fun _ => rfl

instance alike_advance [Alike s s'] : Alike s.advance s'.advance := .map advance fun s => by
  obtain ⟨source, stop, _ | ⟨t, ts⟩, lastStop, reports⟩ := s <;> rfl

instance alike_report [Alike s s'] [Alike problem problem'] [Alike u u'] :
    Alike (s.report problem u) (s'.report problem' u') :=
  .map₃ report fun _ _ _ => rfl

/-- States that are alike have as many tokens to come. -/
theorem rest_cases (s s' : ParserState) [Alike s s'] :
    (s.rest = [] ∧ s'.rest = []) ∨
      ∃ t ts t' ts', s.rest = t :: ts ∧ s'.rest = t' :: ts' ∧ Alike t t' ∧ Alike ts ts' := by
  have h : s.rest.map Lexeme.capitals = s'.rest.map Lexeme.capitals := capitals_congr s.rest s'.rest
  cases hr : s.rest with
  | nil =>
    rw [hr] at h
    exact .inl ⟨rfl, List.map_eq_nil_iff.1 h.symm⟩
  | cons t ts =>
    rw [hr] at h
    obtain ⟨t', ts', hr', ht, hts⟩ := List.map_eq_cons_iff.1 h.symm
    exact .inr ⟨t, ts, t', ts', rfl, hr', ⟨ht.symm⟩, ⟨hts.symm⟩⟩

end ParserState

section

variable {x x' : String} {what : String} {u u' : Span} {cs cs' : List Char}

instance alike_unexpected [Alike x x'] : Alike (Problem.unexpected what x) (.unexpected what x') :=
  .map (Problem.unexpected what) fun _ => rfl

instance alike_malformedLiteral [Alike x x'] (fault : LiteralFault) :
    Alike (Problem.malformedLiteral x fault) (.malformedLiteral x' fault) :=
  .map (Problem.malformedLiteral · fault) fun _ => rfl

instance alike_stray [Alike x x'] : Alike (Problem.stray x) (.stray x') := .map Problem.stray fun _ => rfl

instance alike_strayOutside [Alike x x'] : Alike (Problem.strayOutside x) (.strayOutside x') :=
  .map Problem.strayOutside fun _ => rfl

end

namespace ParserState

variable {s s' : ParserState}

theorem colonAhead_capitals (parens brackets : Nat) (ts : List Lexeme) :
    colonAhead parens brackets (ts.map Lexeme.capitals) = colonAhead parens brackets ts := by
  induction ts generalizing parens brackets with
  | nil => rfl
  | cons t ts ih => simp only [List.map_cons, colonAhead, Lexeme.capitals, ih]

instance alike_isEmpty [Alike s s'] : Alike s.rest.isEmpty s'.rest.isEmpty :=
  .map (fun s : ParserState => s.rest.isEmpty) fun _ => (List.isEmpty_map (f := Lexeme.capitals)).symm

instance alike_atTimeOfDay [Alike s s'] : Alike s.atTimeOfDay s'.atTimeOfDay := .map atTimeOfDay fun s => by
  obtain ⟨source, stop, rest, lastStop, reports⟩ := s
  rcases rest with _ | ⟨h, _ | ⟨c, _ | ⟨m, _ | ⟨d, _ | ⟨x, ts⟩⟩⟩⟩⟩ <;> rfl

instance alike_atLiteralType [Alike s s'] : Alike s.atLiteralType s'.atLiteralType := by
  rw [atLiteralType, atLiteralType, eq_of_alike s.kind s'.kind,
    ofName?_eq_of_alike (withoutHash s.text) (withoutHash s'.text)]
  exact alike_refl _

instance alike_atCaseLabel [Alike s s'] : Alike s.atCaseLabel s'.atCaseLabel := by
  have hcolon : colonAhead 0 0 s.rest = colonAhead 0 0 s'.rest := by
    have hrest : s.rest.map Lexeme.capitals = s'.rest.map Lexeme.capitals := capitals_congr s.rest s'.rest
    rw [← colonAhead_capitals, hrest, colonAhead_capitals]
  rw [atCaseLabel, atCaseLabel, eq_of_alike s.kind s'.kind, hcolon]
  exact alike_refl _

instance alike_atStatementStart [Alike s s'] : Alike s.atStatementStart s'.atStatementStart := by
  rw [atStatementStart, atStatementStart, eq_of_alike s.kind s'.kind, eq_of_alike (s.kindAt 1) (s'.kindAt 1)]
  exact alike_refl _

instance alike_atSemicolonInsertion [Alike s s'] : Alike s.atSemicolonInsertion s'.atSemicolonInsertion := by
  rw [atSemicolonInsertion, atSemicolonInsertion, eq_of_alike s.kind s'.kind,
    eq_of_alike s.rest.isEmpty s'.rest.isEmpty, eq_of_alike s.atStatementStart s'.atStatementStart,
    eq_of_alike s.atCaseLabel s'.atCaseLabel]
  exact alike_refl _

instance alike_atDeclEnd [Alike s s'] : Alike s.atDeclEnd s'.atDeclEnd := by
  rw [atDeclEnd, atDeclEnd, atDeclStart, atDeclStart, eq_of_alike s.kind s'.kind,
    eq_of_alike (s.kindAt 1) (s'.kindAt 1), eq_of_alike s.rest.isEmpty s'.rest.isEmpty,
    eq_of_alike s.atStatementStart s'.atStatementStart]
  exact alike_refl _

end ParserState

/-! ## Rules that agree -/

/-- Two things that are alike. -/
structure Twins (α : Type) [Cased α] where
  one : α
  other : α
  alike : Alike one other

instance alike_twins [Cased α] (x : Twins α) : Alike x.one x.other := x.alike

/-- The outcomes of the two rules are both there, or both rules give up for one reason. -/
theorem outcome_cases [Cased α] {r r' : EStateM.Result Abort ParserState α} (h : Alike r r') :
    (∃ a t a' t', r = .ok a t ∧ r' = .ok a' t' ∧ Alike a a' ∧ Alike t t') ∨
      ∃ e t t', r = .error e t ∧ r' = .error e t' ∧ Alike t t' := by
  have h := h.capitals_eq
  cases r with
  | ok a t =>
    cases r' with
    | ok a' t' =>
      injection h with ha ht
      exact .inl ⟨a, t, a', t', rfl, rfl, ⟨ha⟩, ⟨ht⟩⟩
    | error e t' => cases h
  | error e t =>
    cases r' with
    | ok a' t' => cases h
    | error e' t' =>
      injection h with he ht
      cases he
      exact .inr ⟨e, t, t', rfl, rfl, ⟨ht⟩⟩

instance alike_ok [Cased α] {a a' : α} {t t' : ParserState} [Alike a a'] [Alike t t'] :
    Alike (EStateM.Result.ok a t : EStateM.Result Abort ParserState α) (.ok a' t') :=
  .map₂ EStateM.Result.ok fun _ _ => rfl

instance alike_error [Cased α] {e : Abort} {t t' : ParserState} [Alike t t'] :
    Alike (EStateM.Result.error e t : EStateM.Result Abort ParserState α) (.error e t') :=
  .map (EStateM.Result.error e) fun _ => rfl

namespace Parser

/-- On states that are alike, the one rule has the outcome of the other one, but for the case of letters. -/
class Agree [Cased α] (p p' : Parser α) : Prop where
  outcome (s s' : ParserState) [Alike s s'] : Alike (p s) (p' s')

section

variable [Cased α] [Cased β]

instance agree_pure {a a' : α} [Alike a a'] : Agree (pure a) (pure a') := ⟨fun _ _ _ => alike_ok⟩

instance agree_bind {p p' : Parser α} {q q' : α → Parser β} [hp : Agree p p']
    [hq : ∀ x : Twins α, Agree (q x.one) (q' x.other)] : Agree (p >>= q) (p' >>= q') := by
  constructor
  intro s s' _
  rw [bind_apply, bind_apply]
  obtain ⟨a, t, a', t', hr, hr', ha, _⟩ | ⟨e, t, t', hr, hr', _⟩ := outcome_cases (hp.outcome s s')
  · rw [hr, hr']
    exact (hq ⟨a, a', ha⟩).outcome t t'
  · rw [hr, hr']
    infer_instance

/-- What has no letters is the same for both rules. -/
instance (priority := high) agree_bind_letterless [Letterless α] {p p' : Parser α} {q q' : α → Parser β}
    [Agree p p'] [hq : ∀ a, Agree (q a) (q' a)] : Agree (p >>= q) (p' >>= q') := by
  have (x : Twins α) : Agree (q x.one) (q' x.other) := by
    rw [eq_of_alike x.one x.other]
    infer_instance
  exact agree_bind

end

instance alike_beq {k k' : TokenKind} [Alike k k'] (l : TokenKind) : Alike (k == l) (k' == l) :=
  .map (· == l) fun _ => rfl

instance agree_get : Agree get get := ⟨fun _ _ _ => alike_ok⟩

instance agree_kind : Agree kind kind := ⟨fun _ _ _ => alike_ok⟩

instance agree_sees (k : TokenKind) : Agree (sees k) (sees k) := ⟨fun _ _ _ => alike_ok⟩

instance agree_atEnd : Agree atEnd atEnd := ⟨fun _ _ _ => alike_ok⟩

instance agree_offset : Agree offset offset := ⟨fun _ _ _ => alike_ok⟩

instance agree_spanFrom {n n' : Nat} [Alike n n'] : Agree (spanFrom n) (spanFrom n') := by
  rw [eq_of_alike n n']
  exact ⟨fun _ _ _ => alike_ok⟩

instance agree_skip : Agree skip skip := ⟨fun _ _ _ => alike_ok⟩

instance agree_take : Agree take take := ⟨fun _ _ _ => alike_ok⟩

instance agree_report {problem problem' : Problem} [Alike problem problem'] :
    Agree (report problem) (report problem') :=
  ⟨fun _ _ _ => alike_ok⟩

instance agree_reportAt {u u' : Span} {problem problem' : Problem} [Alike u u'] [Alike problem problem'] :
    Agree (reportAt u problem) (reportAt u' problem') :=
  ⟨fun _ _ _ => alike_ok⟩

instance agree_missing (what : String) : Agree (missing what) (missing what) := agree_report

instance agree_ite [Cased α] {c : Prop} [Decidable c] {p p' q q' : Parser α} [Agree p p'] [Agree q q'] :
    Agree (if c then p else q) (if c then p' else q') := by
  split <;> infer_instance

instance agree_eat (k : TokenKind) : Agree (eat k) (eat k) := by
  unfold eat
  infer_instance

instance agree_fail [Cased α] (what : String) : Agree (fail what : Parser α) (fail what) := by
  constructor
  intro s s' _
  obtain ⟨hr, hr'⟩ | ⟨t, ts, t', ts', hr, hr', -, -⟩ := ParserState.rest_cases s s'
  · rw [fail_of_nil hr, fail_of_nil hr']
    infer_instance
  · rw [fail_of_cons hr, fail_of_cons hr']
    infer_instance

instance agree_expect (k : TokenKind) : Agree (expect k) (expect k) := by
  unfold expect
  infer_instance

instance agree_expectEnd (k : TokenKind) : Agree (expectEnd k) (expectEnd k) := by
  unfold expectEnd
  infer_instance

theorem agree_nested [Cased β] {what : String} {deeper : Option α} {rule : α → Parser β}
    (h : ∀ a ∈ deeper, Agree (rule a) (rule a)) : Agree (nested what deeper rule) (nested what deeper rule) := by
  cases deeper with
  | some a => exact h a rfl
  | none =>
    constructor
    intro s s' _
    exact alike_error (t := s.report (.tooDeep what) s.span)

instance agree_orRecover [Cased α] {p p' q q' : Parser α} [hp : Agree p p'] [hq : Agree q q'] :
    Agree (orRecover p q) (orRecover p' q') := by
  constructor
  intro s s' _
  rw [orRecover_apply, orRecover_apply]
  obtain ⟨a, t, a', t', hr, hr', _, _⟩ | ⟨e, t, t', hr, hr', _⟩ := outcome_cases (hp.outcome s s')
  · rw [hr, hr']
    infer_instance
  · rw [hr, hr']
    cases e with
    | syntaxError => exact hq.outcome t t'
    | endOfStream | tooDeep => infer_instance

/-! ### Loops -/

section

variable [Cased α]

instance agree_foldAfter {turn turn' : α → Parser (Option α)} {left left' : List Lexeme} {a a' : α} {o o' : Option α}
    [hl : ∀ x : Twins α, Agree (foldWithin turn left x.one) (foldWithin turn' left' x.other)] [Alike a a']
    [ho : Alike o o'] : Agree (foldAfter turn left a o) (foldAfter turn' left' a' o') := by
  have ho := ho.capitals_eq
  cases o with
  | none =>
    cases o' with
    | none => exact agree_pure
    | some b' => cases ho
  | some b =>
    cases o' with
    | none => cases ho
    | some b' => exact hl ⟨b, b', ⟨Option.some.inj ho⟩⟩

theorem agree_foldWithin {turn turn' : α → Parser (Option α)} [ht : ∀ x : Twins α, Agree (turn x.one) (turn' x.other)]
    {left left' : List Lexeme} (hleft : left.length = left'.length) (x : Twins α) :
    Agree (foldWithin turn left x.one) (foldWithin turn' left' x.other) := by
  induction left generalizing left' x with
  | nil =>
    rw [List.length_eq_zero_iff.1 hleft.symm, foldWithin, foldWithin]
    infer_instance
  | cons t left ih =>
    obtain ⟨t', left', rfl⟩ := List.exists_cons_of_length_eq_add_one hleft.symm
    have := fun x => ih (Nat.succ.inj hleft) x
    rw [foldWithin_cons, foldWithin_cons]
    infer_instance

instance agree_fold {turn turn' : α → Parser (Option α)} [∀ x : Twins α, Agree (turn x.one) (turn' x.other)]
    {a a' : α} [h : Alike a a'] : Agree (fold turn a) (fold turn' a') := by
  have (x : Twins ParserState) : Agree (foldWithin turn x.one.rest a) (foldWithin turn' x.other.rest a') :=
    agree_foldWithin (eq_of_alike x.one.rest.length x.other.rest.length) ⟨a, a', h⟩
  unfold fold
  infer_instance

instance alike_more {as as' : List α} [Alike as as'] : Alike (Turn.more as) (.more as') := .map Turn.more fun _ => rfl

instance alike_last {as as' : List α} [Alike as as'] : Alike (Turn.last as) (.last as') := .map Turn.last fun _ => rfl

instance alike_items {t t' : Turn α} [Alike t t'] : Alike t.items t'.items :=
  .map Turn.items fun t => by cases t <;> rfl

theorem agree_collectAfter {turn turn' : Parser (Turn α)} {left left' : List Lexeme}
    [Agree (collectWithin turn left) (collectWithin turn' left')] {t t' : Turn α} (h : Alike t t') :
    Agree (collectAfter turn left t) (collectAfter turn' left' t') := by
  have h := h.capitals_eq
  cases t with
  | more as =>
    cases t' with
    | more as' =>
      have : Alike as as' := ⟨Turn.more.inj h⟩
      rw [collectAfter, collectAfter]
      infer_instance
    | last as' => cases h
  | last as =>
    cases t' with
    | more as' => cases h
    | last as' =>
      have : Alike as as' := ⟨Turn.last.inj h⟩
      exact agree_pure

theorem agree_collectWithin {turn turn' : Parser (Turn α)} [ht : Agree turn turn'] {left left' : List Lexeme}
    (hleft : left.length = left'.length) : Agree (collectWithin turn left) (collectWithin turn' left') := by
  induction left generalizing left' with
  | nil =>
    rw [List.length_eq_zero_iff.1 hleft.symm, collectWithin_nil, collectWithin_nil]
    infer_instance
  | cons t left ih =>
    obtain ⟨t', left', rfl⟩ := List.exists_cons_of_length_eq_add_one hleft.symm
    have := ih (Nat.succ.inj hleft)
    have (x : Twins (Turn α)) : Agree (collectAfter turn left x.one) (collectAfter turn' left' x.other) :=
      agree_collectAfter x.alike
    rw [collectWithin_cons, collectWithin_cons]
    infer_instance

instance agree_collect {turn turn' : Parser (Turn α)} [Agree turn turn'] : Agree (collect turn) (collect turn') := by
  have (x : Twins ParserState) : Agree (collectWithin turn x.one.rest) (collectWithin turn' x.other.rest) :=
    agree_collectWithin (eq_of_alike x.one.rest.length x.other.rest.length)
  unfold collect
  infer_instance

instance agree_sepByComma {item item' : Parser α} [Agree item item'] : Agree (sepByComma item) (sepByComma item') := by
  unfold sepByComma
  infer_instance

end

/-! ### Going on after an error -/

theorem alike_go {p p' : ParserState → Bool} (hp : ∀ x : Twins ParserState, p x.one = p' x.other)
    {left left' : List Lexeme} (hleft : left.length = left'.length) (x : Twins ParserState) :
    Alike (skipWhile.go p left x.one) (skipWhile.go p' left' x.other) := by
  induction left generalizing left' x with
  | nil =>
    rw [List.length_eq_zero_iff.1 hleft.symm]
    exact x.alike
  | cons t left ih =>
    obtain ⟨t', left', rfl⟩ := List.exists_cons_of_length_eq_add_one hleft.symm
    rw [skipWhile.go, skipWhile.go, hp x]
    split
    · exact ih (Nat.succ.inj hleft) ⟨x.one.advance, x.other.advance, inferInstance⟩
    · exact x.alike

instance agree_skipWhile {p p' : ParserState → Bool} [hp : ∀ x : Twins ParserState, Alike (p x.one) (p' x.other)] :
    Agree (skipWhile p) (skipWhile p') := by
  constructor
  intro s s' h
  have : Alike (skipWhile.go p s.rest s) (skipWhile.go p' s'.rest s') :=
    alike_go (fun x => eq_of_alike _ _) (eq_of_alike s.rest.length s'.rest.length) ⟨s, s', h⟩
  exact alike_ok

instance agree_skipTo (stops : TokenKind → Bool) : Agree (skipTo stops) (skipTo stops) := by
  have (x : Twins ParserState) : Alike (x.one.kind != .semicolon && !stops x.one.kind)
      (x.other.kind != .semicolon && !stops x.other.kind) := by
    rw [eq_of_alike x.one.kind x.other.kind]
    infer_instance
  unfold skipTo
  infer_instance

instance agree_skipStatement : Agree skipStatement skipStatement := agree_skipTo _

instance agree_expectSemicolon : Agree expectSemicolon expectSemicolon := by
  have (x : Twins ParserState) : Agree (if x.one.atSemicolonInsertion then pure () else skipStatement)
      (if x.other.atSemicolonInsertion then pure () else skipStatement) := by
    rw [eq_of_alike x.one.atSemicolonInsertion x.other.atSemicolonInsertion]
    infer_instance
  unfold expectSemicolon
  infer_instance

instance agree_expectEndOfInput : Agree expectEndOfInput expectEndOfInput := by
  refine @agree_bind _ _ _ _ _ _ _ _ agree_get fun x => ?_
  obtain ⟨hr, hr'⟩ | ⟨t, ts, t', ts', hr, hr', -, -⟩ := ParserState.rest_cases x.one x.other
  · rw [hr, hr']
    infer_instance
  · rw [hr, hr', eq_of_alike x.one.span x.other.span]
    infer_instance

instance agree_recovering [Cased α] {part part' : Parser α} {skipRest skipRest' : Parser PUnit} [Agree part part']
    [Agree skipRest skipRest'] : Agree (recovering part skipRest) (recovering part' skipRest') := by
  refine @agree_bind _ _ _ _ _ _ _ _ agree_get fun x => @agree_orRecover _ _ _ _ _ _ inferInstance ?_
  refine @agree_bind_letterless _ _ _ _ _ _ _ _ _ inferInstance fun _ => ?_
  refine @agree_bind _ _ _ _ _ _ _ _ agree_get fun y => ?_
  dsimp only
  rw [eq_of_alike x.one.rest.length x.other.rest.length, eq_of_alike y.one.rest.length y.other.rest.length]
  infer_instance

end Parser

end StructuredText
