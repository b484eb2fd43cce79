import StructuredText.Proofs.Loops

/-!
# What a rule of the grammar can do

Whatever a rule reads, it only takes the next token or reports a problem, one step after the other. `Run s ts s'` says
that such steps lead from `s` to `s'` and take the tokens `ts`; a rule that gives up does so with one last report
(`GivesUp`). A rule is lawful if it does nothing else (`Parser.Lawful`), and what one step keeps, every lawful rule
keeps: tokens are only taken from the front (`Run.rest_eq`), and reports are only added (`Run.reports_suffix`).

All ways to put rules together are lawful if their parts are.
-/

namespace StructuredText

/-! ## Steps -/

/-- The constructs that may stand inside each other only so deep. -/
def Problem.limited : List String := ["expression", "statement", "type", "initializer"]

/-- The problems that end a parse. -/
def Problem.isFatal : Problem → Bool
  | .ended _ | .tooDeep _ => true
  | _ => false

/-- The problem is one with tokens that have been taken: a literal together with its type name, the word that opens a
block, or all that stands behind a construct. -/
def Problem.LooksBack : Problem → Prop
  | malformedLiteral _ _ | plainBlock | blockInAlgorithm _ => True
  | unexpected what _ => what = "end of input"
  | _ => False

/-- The places a problem is reported at: the next token, or tokens that were taken. -/
inductive Placed (s : ParserState) (taken : List Lexeme) : Span → Prop
  | here : Placed s taken s.span
  | cover {t u : Lexeme} : t ∈ taken → u ∈ taken → Placed s taken (t.span.cover u.span)
  | since {t : Lexeme} : t ∈ taken → Placed s taken (s.spanFrom t.span.start)

/-- Steps of a parse: the tokens in the middle are taken, and problems that do not end the parse are reported. -/
inductive Run (s : ParserState) : List Lexeme → ParserState → Prop
  | stay : Run s [] s
  | take {ts us : List Lexeme} {s' : ParserState} {t : Lexeme} :
      Run s ts s' → s'.rest = t :: us → Run s (ts ++ [t]) s'.advance
  | report {ts : List Lexeme} {s' : ParserState} {problem : Problem} {span : Span} :
      Run s ts s' → problem.isFatal = false → Placed s' ts span → Run s ts (s'.report problem span)

/-- The last report of a rule that gives up. -/
inductive GivesUp (s : ParserState) : Abort → ParserState → Prop
  | syntaxError (what : String) : s.rest ≠ [] → GivesUp s .syntaxError (s.report (.unexpected what s.text) s.span)
  | endOfStream (what : String) : s.rest = [] → GivesUp s .endOfStream (s.report (.ended what) s.span)
  | tooDeep (what : String) : what ∈ Problem.limited → GivesUp s .tooDeep (s.report (.tooDeep what) s.span)

theorem Placed.mono {s : ParserState} {ts us : List Lexeme} {span : Span} (h : Placed s ts span)
    (hsub : ∀ t ∈ ts, t ∈ us) : Placed s us span := by
  cases h with
  | here => exact .here
  | cover ht hu => exact .cover (hsub _ ht) (hsub _ hu)
  | since ht => exact .since (hsub _ ht)

theorem Placed.taken {s : ParserState} {ts : List Lexeme} {t : Lexeme} (h : t ∈ ts) : Placed s ts t.span := by
  simpa [Span.cover] using Placed.cover (s := s) h h

namespace Run

variable {s s' s'' : ParserState} {ts us : List Lexeme}

theorem trans (h : Run s ts s') (h' : Run s' us s'') : Run s (ts ++ us) s'' := by
  induction h' with
  | stay => simpa using h
  | take _ hrest ih => simpa using ih.take hrest
  | report _ hf hp ih => exact ih.report hf (hp.mono fun _ => List.mem_append_right _)

/-- Tokens are only taken from the front. -/
theorem rest_eq (h : Run s ts s') : s.rest = ts ++ s'.rest := by
  induction h with
  | stay => rfl
  | take _ hrest ih => simp [ih, hrest]
  | report _ _ _ ih => simpa using ih

/-- Reports are only added. -/
theorem reports_suffix (h : Run s ts s') : s.reports <:+ s'.reports := by
  induction h with
  | stay => exact List.suffix_rfl
  | take _ _ ih => simpa using ih
  | report _ _ _ ih => exact ih.trans (List.suffix_cons ..)

theorem rest_suffix (h : Run s ts s') : s'.rest <:+ s.rest := ⟨ts, h.rest_eq.symm⟩

theorem length_le (h : Run s ts s') : s'.rest.length ≤ s.rest.length := h.rest_suffix.length_le

/-- Taking the next token, or nothing at the end of the stream. -/
theorem advance (s : ParserState) : Run s (s.rest.take 1) s.advance := by
  cases hr : s.rest with
  | nil => rw [ParserState.advance_of_nil hr]; exact .stay
  | cons t us => exact Run.stay.take hr

end Run

/-! ## Lawful rules -/

/-- An outcome that steps from `s` lead to, with a last report if it is no success. -/
def Reached (s : ParserState) : EStateM.Result Abort ParserState α → Prop
  | .ok _ s' => ∃ ts, Run s ts s'
  | .error a s' => ∃ ts s₁, Run s ts s₁ ∧ GivesUp s₁ a s'

theorem Reached.after {s s₁ : ParserState} {ts : List Lexeme} {r : EStateM.Result Abort ParserState α}
    (h : Run s ts s₁) (hr : Reached s₁ r) : Reached s r := by
  cases r with
  | ok a s' =>
    obtain ⟨us, hus⟩ := hr
    exact ⟨_, h.trans hus⟩
  | error a s' =>
    obtain ⟨us, s₂, hus, hg⟩ := hr
    exact ⟨_, s₂, h.trans hus, hg⟩

namespace Parser

/-- The rule takes tokens and reports problems, and does nothing else. -/
class Lawful (p : Parser α) : Prop where
  reached : ∀ s, Reached s (p s)

variable {s s' : ParserState}

theorem Lawful.run {p : Parser α} [Lawful p] {a : α} (h : p s = .ok a s') : ∃ ts, Run s ts s' := by
  have := Lawful.reached (p := p) s
  rwa [h] at this

theorem Lawful.reports_suffix {p : Parser α} [Lawful p] {a : α} (h : p s = .ok a s') : s.reports <:+ s'.reports :=
  (Lawful.run h).choose_spec.reports_suffix

theorem Lawful.length_le {p : Parser α} [Lawful p] {a : α} (h : p s = .ok a s') : s'.rest.length ≤ s.rest.length :=
  (Lawful.run h).choose_spec.length_le

theorem Lawful.rest_suffix_of_ok {p : Parser α} [Lawful p] {a : α} (h : p s = .ok a s') : s'.rest <:+ s.rest :=
  (Lawful.run h).choose_spec.rest_suffix

theorem Lawful.rest_suffix_of_error {p : Parser α} [Lawful p] {a : Abort} (h : p s = .error a s') :
    s'.rest <:+ s.rest := by
  have := Lawful.reached (p := p) s
  rw [h] at this
  obtain ⟨ts, s₁, hrun, hg⟩ := this
  cases hg <;> exact hrun.rest_suffix

/-- A rule that gives up has reported something. -/
theorem Lawful.reports_lt {p : Parser α} [Lawful p] {a : Abort} (h : p s = .error a s') :
    s.reports.length < s'.reports.length := by
  have := Lawful.reached (p := p) s
  rw [h] at this
  obtain ⟨ts, s₁, hrun, hg⟩ := this
  have := hrun.reports_suffix.length_le
  cases hg <;> simp <;> omega

/-! ### Looking, taking and reporting -/

instance lawful_pure (a : α) : Lawful (pure a : Parser α) := ⟨fun _ => ⟨[], .stay⟩⟩

instance lawful_get : Lawful (get : Parser ParserState) := ⟨fun _ => ⟨[], .stay⟩⟩

instance lawful_kind : Lawful kind := ⟨fun _ => ⟨[], .stay⟩⟩

instance lawful_sees (k : TokenKind) : Lawful (sees k) := ⟨fun _ => ⟨[], .stay⟩⟩

instance lawful_atEnd : Lawful atEnd := ⟨fun _ => ⟨[], .stay⟩⟩

instance lawful_offset : Lawful offset := ⟨fun _ => ⟨[], .stay⟩⟩

instance lawful_spanFrom (start : Nat) : Lawful (spanFrom start) := ⟨fun _ => ⟨[], .stay⟩⟩

instance lawful_skip : Lawful skip := ⟨fun s => ⟨_, Run.advance s⟩⟩

instance lawful_take : Lawful take := ⟨fun s => ⟨_, Run.advance s⟩⟩

theorem lawful_report {problem : Problem} (h : problem.isFatal = false) : Lawful (report problem) :=
  ⟨fun _ => ⟨[], Run.stay.report h .here⟩⟩

instance lawful_missing (what : String) : Lawful (missing what) := lawful_report rfl

instance lawful_fail (what : String) : Lawful (fail what : Parser α) := by
  constructor
  intro s
  cases hr : s.rest with
  | nil =>
    rw [fail_of_nil hr]
    exact ⟨[], s, .stay, .endOfStream what hr⟩
  | cons t ts =>
    rw [fail_of_cons hr]
    exact ⟨[], s, .stay, .syntaxError what (by simp [hr])⟩

/-! ### Rules put together -/

instance lawful_bind {p : Parser α} {q : α → Parser β} [hp : Lawful p] [hq : ∀ a, Lawful (q a)] :
    Lawful (p >>= q) := by
  constructor
  intro s
  have hs := hp.reached s
  rw [bind_apply]
  cases hr : p s with
  | ok a s₁ =>
    rw [hr] at hs
    obtain ⟨ts, hts⟩ := hs
    exact ((hq a).reached s₁).after hts
  | error e s₁ =>
    rw [hr] at hs
    exact hs

instance lawful_ite {c : Prop} [Decidable c] {p q : Parser α} [hp : Lawful p] [hq : Lawful q] :
    Lawful (if c then p else q) := by
  split <;> assumption

instance lawful_eat (k : TokenKind) : Lawful (eat k) := by
  unfold eat
  infer_instance

instance lawful_expect (k : TokenKind) : Lawful (expect k) := by
  unfold expect
  infer_instance

instance lawful_expectEnd (k : TokenKind) : Lawful (expectEnd k) := by
  unfold expectEnd
  infer_instance

theorem lawful_nested {what : String} (hw : what ∈ Problem.limited) {deeper : Option α} {rule : α → Parser β}
    (h : ∀ level ∈ deeper, Lawful (rule level)) : Lawful (nested what deeper rule) := by
  cases deeper with
  | some level => exact h level rfl
  | none => exact ⟨fun s => ⟨[], s, .stay, .tooDeep what hw⟩⟩

instance lawful_orRecover {rule recover : Parser α} [hr : Lawful rule] [hc : Lawful recover] :
    Lawful (orRecover rule recover) := by
  constructor
  intro s
  have hs := hr.reached s
  rw [orRecover_apply]
  split
  · next s' heq =>
    rw [heq] at hs
    obtain ⟨ts, s₁, hrun, hg⟩ := hs
    cases hg with
    | syntaxError what _ => exact (hc.reached _).after (hrun.report rfl .here)
  · exact hs

/-! ### Loops -/

theorem closed_lawful : Closed Lawful := ⟨lawful_pure, lawful_get, fun hp hq => @lawful_bind _ _ _ _ hp hq⟩

theorem lawful_foldWithin {turn : α → Parser (Option α)} [h : ∀ a, Lawful (turn a)] (left : List Lexeme) (a : α) :
    Lawful (foldWithin turn left a) :=
  closed_lawful.foldWithin h left a

instance lawful_fold {turn : α → Parser (Option α)} [h : ∀ a, Lawful (turn a)] (a : α) : Lawful (fold turn a) :=
  closed_lawful.fold h a

theorem lawful_collectWithin {turn : Parser (Turn α)} [h : Lawful turn] (left : List Lexeme) :
    Lawful (collectWithin turn left) :=
  closed_lawful.collectWithin h left

instance lawful_collect {turn : Parser (Turn α)} [h : Lawful turn] : Lawful (collect turn) := closed_lawful.collect h

instance lawful_sepByComma {item : Parser α} [Lawful item] : Lawful (sepByComma item) := by
  unfold sepByComma
  infer_instance

/-- Tokens are taken while `p` holds. -/
theorem run_skipWhile (p : ParserState → Bool) (left : List Lexeme) (s : ParserState) :
    ∃ ts, Run s ts (skipWhile.go p left s) := by
  induction left generalizing s with
  | nil => exact ⟨[], .stay⟩
  | cons _ left ih =>
    unfold skipWhile.go
    split
    · obtain ⟨ts, hts⟩ := ih s.advance
      exact ⟨_, (Run.advance s).trans hts⟩
    · exact ⟨[], .stay⟩

instance lawful_skipWhile (p : ParserState → Bool) : Lawful (skipWhile p) :=
  ⟨fun s => run_skipWhile p s.rest s⟩

/-! ### Recovery -/

instance lawful_skipTo (stops : TokenKind → Bool) : Lawful (skipTo stops) := by
  unfold skipTo
  infer_instance

instance lawful_skipStatement : Lawful skipStatement := lawful_skipTo _

instance lawful_skipDecl : Lawful skipDecl := lawful_skipTo _

instance lawful_expectSemicolon : Lawful expectSemicolon := by
  unfold expectSemicolon
  infer_instance

instance lawful_recovering {part : Parser α} {skipRest : Parser PUnit} [Lawful part] [Lawful skipRest] :
    Lawful (recovering part skipRest) := by
  unfold recovering
  infer_instance

end Parser

end StructuredText
