import StructuredText.Proofs.Lawful

/-!
# Reading without a report

`Reads p s a s'` says that the rule `p` gives `a` and leads from `s` to `s'` without a report. Such a run only takes
tokens (`Reads.passed`). As the rules of the grammar only add reports, a run of two rules is free of reports just if
both runs are (`reads_bind_iff`), and every way to put rules together is opened by a lemma of this kind.

A loop is opened turn by turn (`reads_fold_iff`, `reads_collect_iff`), as long as a turn that goes on takes a token
(`Stepwise`, `Turning`).
-/

namespace StructuredText

/-! ## Rows of tokens -/

/-- Where a row of tokens ends, and `last` for none. -/
def stopAfter : (last : Nat) → List Lexeme → Nat
  | last, [] => last
  | _, t :: ts => stopAfter t.span.stop ts

/-- The span from the start of the first token to the end of the last one. -/
def spanOf : List Lexeme → Span
  | [] => .empty 0
  | t :: ts => ⟨t.span.start, max (stopAfter t.span.stop ts) t.span.start⟩

/-- The span of the tokens of `x` in front of its tail `y`. -/
def spanBetween (x y : List Lexeme) : Span := spanOf (x.take (x.length - y.length))

theorem stopAfter_append (last : Nat) (ts us : List Lexeme) :
    stopAfter last (ts ++ us) = stopAfter (stopAfter last ts) us := by
  induction ts generalizing last with
  | nil => rfl
  | cons t ts ih => exact ih t.span.stop

theorem spanBetween_append (ts y : List Lexeme) : spanBetween (ts ++ y) y = spanOf ts := by
  simp [spanBetween]

/-- The token as a name. -/
def Lexeme.name (t : Lexeme) : Name := ⟨t.text, t.span⟩

/-- The kind of the first token, and `eof` where there is none. -/
def headKind : List Lexeme → TokenKind
  | t :: _ => t.kind
  | [] => .eof

@[simp] theorem headKind_nil : headKind [] = .eof := rfl

@[simp] theorem headKind_cons (t : Lexeme) (x : List Lexeme) : headKind (t :: x) = t.kind := rfl

theorem exists_of_headKind {x : List Lexeme} {k : TokenKind} (h : headKind x = k) (hk : k ≠ .eof) :
    ∃ t y, x = t :: y ∧ t.kind = k := by
  cases x with
  | nil => exact absurd h.symm hk
  | cons t y => exact ⟨t, y, rfl, h⟩

namespace ParserState

variable {s : ParserState} {t : Lexeme} {x : List Lexeme}

theorem kind_eq_headKind (s : ParserState) : s.kind = headKind s.rest := by
  unfold kind headKind
  split <;> simp [*]

theorem advance_rest_of_cons (h : s.rest = t :: x) : s.advance.rest = x := by simp [h]

theorem kindAt_one_of_cons {u : Lexeme} (h : s.rest = t :: u :: x) : s.kindAt 1 = u.kind := by simp [kindAt, h]

theorem kindAt_two_of_cons {u v : Lexeme} (h : s.rest = t :: u :: v :: x) : s.kindAt 2 = v.kind := by simp [kindAt, h]

theorem name_of_cons (h : s.rest = t :: x) : (⟨s.text, s.span⟩ : Name) = t.name := by
  rw [text_of_cons h, span_of_cons h, Lexeme.name]

/-- A token of another kind than `eof` is there. -/
theorem exists_of_kind {k : TokenKind} (h : s.kind = k) (hk : k ≠ .eof) :
    ∃ t, s.rest = t :: s.advance.rest ∧ t.kind = k := by
  rw [kind_eq_headKind] at h
  obtain ⟨t, y, hr, ht⟩ := exists_of_headKind h hk
  exact ⟨t, by simp [hr], ht⟩

theorem length_advance {k : TokenKind} (h : s.kind = k) (hk : k ≠ .eof) :
    s.advance.rest.length + 1 = s.rest.length := by
  obtain ⟨t, hr, -⟩ := exists_of_kind h hk
  rw [hr, List.length_cons]

end ParserState

/-! ## Taking tokens -/

/-- The tokens `ts` were taken, and nothing else happened. -/
structure Took (s : ParserState) (ts : List Lexeme) (s' : ParserState) : Prop where
  rest : s.rest = ts ++ s'.rest
  eq : s' = { s with rest := s'.rest, lastStop := stopAfter s.lastStop ts }

/-- Some tokens were taken, and nothing else happened. -/
def Passed (s s' : ParserState) : Prop := ∃ ts, Took s ts s'

section

variable {s s₁ s' : ParserState} {t : Lexeme} {ts us : List Lexeme}

theorem Took.trans (h : Took s ts s₁) (h' : Took s₁ us s') : Took s (ts ++ us) s' := by
  refine ⟨by rw [h.rest, h'.rest, List.append_assoc], ?_⟩
  rw [h'.eq, h.eq, stopAfter_append]

theorem Took.advance (h : s.rest = t :: ts) : Took s [t] s.advance := by
  refine ⟨by simp [h], ?_⟩
  unfold ParserState.advance
  simp [h, stopAfter]

namespace Passed

theorem refl (s : ParserState) : Passed s s := ⟨[], rfl, rfl⟩

theorem trans (h : Passed s s₁) (h' : Passed s₁ s') : Passed s s' := by
  obtain ⟨ts, h⟩ := h
  obtain ⟨us, h'⟩ := h'
  exact ⟨ts ++ us, h.trans h'⟩

theorem advance (s : ParserState) : Passed s s.advance := by
  cases hr : s.rest with
  | nil => rw [ParserState.advance_of_nil hr]; exact refl s
  | cons t ts => exact ⟨[t], .advance hr⟩

theorem source (h : Passed s s') : s'.source = s.source := by
  obtain ⟨ts, h⟩ := h
  rw [h.eq]

theorem suffix (h : Passed s s') : s'.rest <:+ s.rest := by
  obtain ⟨ts, h⟩ := h
  exact ⟨ts, h.rest.symm⟩

theorem length_le (h : Passed s s') : s'.rest.length ≤ s.rest.length := h.suffix.length_le

/-- The span from where the first of the tokens begins is the span of the tokens. -/
theorem spanFrom (h : Passed s s') (hlt : s'.rest.length < s.rest.length) :
    s'.spanFrom s.span.start = spanBetween s.rest s'.rest := by
  obtain ⟨_ | ⟨t, ts⟩, h⟩ := h
  · simp [h.rest] at hlt
  · rw [ParserState.spanFrom, h.eq, ParserState.span_of_cons h.rest, h.rest, spanBetween_append]
    rfl

end Passed

/-- Steps without a report only take tokens. -/
theorem Run.passed (h : Run s ts s') (hr : s'.reports = s.reports) : Passed s s' := by
  induction h with
  | stay => exact .refl s
  | take hrun _ ih => exact (ih (by simpa using hr)).trans (.advance _)
  | report hrun _ _ _ =>
    have := hrun.reports_suffix.length_le
    have := congrArg List.length hr
    simp at this
    omega

end

namespace Parser

/-! ## Reading -/

/-- The rule gives `a` and leads to `s'` without a report. -/
def Reads (p : Parser α) (s : ParserState) (a : α) (s' : ParserState) : Prop :=
  p s = .ok a s' ∧ s'.reports = s.reports

variable {s s₁ s' : ParserState} {b : β}

theorem Reads.passed {p : Parser α} [Lawful p] {a : α} (h : Reads p s a s') : Passed s s' := by
  obtain ⟨ts, hrun⟩ := Lawful.run h.1
  exact hrun.passed h.2

theorem Reads.length_le {p : Parser α} [Lawful p] {a : α} (h : Reads p s a s') : s'.rest.length ≤ s.rest.length :=
  h.passed.length_le

/-- A rule gives one thing only. -/
theorem Reads.eq {p : Parser α} {a a' : α} (h : Reads p s a s₁) (h' : Reads p s a' s') : a = a' ∧ s₁ = s' := by
  have := h.1.symm.trans h'.1
  cases this
  exact ⟨rfl, rfl⟩

theorem Reads.bind {p : Parser α} {q : α → Parser β} {a : α} (h : Reads p s a s₁) (h' : Reads (q a) s₁ b s') :
    Reads (p >>= q) s b s' :=
  ⟨by rw [bind_of_ok h.1, h'.1], h'.2.trans h.2⟩

/-- A run of two rules is free of reports just if both are. -/
theorem reads_bind_iff {p : Parser α} {q : α → Parser β} [Lawful p] [∀ a, Lawful (q a)] :
    Reads (p >>= q) s b s' ↔ ∃ a s₁, Reads p s a s₁ ∧ Reads (q a) s₁ b s' := by
  constructor
  · rintro ⟨h, hr⟩
    obtain ⟨a, s₁, h₁, h₂⟩ := ok_bind_iff.1 h
    have hle₁ := Lawful.reports_suffix h₁
    have hle₂ := Lawful.reports_suffix h₂
    have heq : s₁.reports = s.reports := (hle₁.eq_of_length_le (hr ▸ hle₂.length_le)).symm
    exact ⟨a, s₁, ⟨h₁, heq⟩, h₂, hr.trans heq.symm⟩
  · rintro ⟨a, s₁, h₁, h₂⟩
    exact h₁.bind h₂

theorem reads_pure {a b : α} : Reads (pure a) s b s' ↔ b = a ∧ s' = s := by
  constructor
  · rintro ⟨h, -⟩
    cases h
    exact ⟨rfl, rfl⟩
  · rintro ⟨rfl, rfl⟩
    exact ⟨rfl, rfl⟩

/-! ### Looking and taking -/

theorem reads_bind_of_ok {p : Parser α} {q : α → Parser β} {a : α} (h : p s = .ok a s₁)
    (hr : s₁.reports = s.reports) : Reads (p >>= q) s b s' ↔ Reads (q a) s₁ b s' := by
  unfold Reads
  rw [bind_of_ok h, hr]

theorem reads_get_bind {q : ParserState → Parser β} : Reads (get >>= q) s b s' ↔ Reads (q s) s b s' :=
  reads_bind_of_ok rfl rfl

theorem reads_kind_bind {q : TokenKind → Parser β} : Reads (kind >>= q) s b s' ↔ Reads (q s.kind) s b s' :=
  reads_bind_of_ok rfl rfl

theorem reads_sees_bind {k : TokenKind} {q : Bool → Parser β} :
    Reads (sees k >>= q) s b s' ↔ Reads (q (s.kind == k)) s b s' :=
  reads_bind_of_ok rfl rfl

theorem reads_offset_bind {q : Nat → Parser β} : Reads (offset >>= q) s b s' ↔ Reads (q s.span.start) s b s' :=
  reads_bind_of_ok rfl rfl

theorem reads_spanFrom_bind {start : Nat} {q : Span → Parser β} :
    Reads (spanFrom start >>= q) s b s' ↔ Reads (q (s.spanFrom start)) s b s' :=
  reads_bind_of_ok rfl rfl

theorem reads_skip_bind {q : PUnit → Parser β} : Reads (skip >>= q) s b s' ↔ Reads (q ⟨⟩) s.advance b s' :=
  reads_bind_of_ok rfl (by simp)

theorem length_lt_of_skip {k : TokenKind} {q : PUnit → Parser β} [∀ u, Lawful (q u)] (hk : s.kind = k) (hne : k ≠ .eof)
    (h : Reads (skip >>= q) s b s') : s'.rest.length < s.rest.length := by
  have := ParserState.length_advance hk hne
  have := (reads_skip_bind.1 h).length_le
  omega

theorem reads_take {name : Name} : Reads take s name s' ↔ name = ⟨s.text, s.span⟩ ∧ s' = s.advance := by
  constructor
  · rintro ⟨h, -⟩
    cases h
    exact ⟨rfl, rfl⟩
  · rintro ⟨rfl, rfl⟩
    exact ⟨rfl, by simp⟩

theorem reads_take_bind {q : Name → Parser β} :
    Reads (take >>= q) s b s' ↔ Reads (q ⟨s.text, s.span⟩) s.advance b s' :=
  reads_bind_of_ok rfl (by simp)

theorem reads_take_bind_of_cons {t : Lexeme} {x : List Lexeme} {q : Name → Parser β} (h : s.rest = t :: x) :
    Reads (take >>= q) s b s' ↔ Reads (q t.name) s.advance b s' := by
  rw [reads_take_bind, ParserState.name_of_cons h]

theorem reads_eat_bind {k : TokenKind} {q : Bool → Parser β} :
    Reads (eat k >>= q) s b s' ↔ if s.kind = k then Reads (q true) s.advance b s' else Reads (q false) s b s' := by
  split
  · exact reads_bind_of_ok (by simp [eat_apply, *]) (by simp)
  · exact reads_bind_of_ok (by simp [eat_apply, *]) rfl

/-! ### Expecting -/

theorem not_reads_fail {what : String} : ¬Reads (fail what : Parser β) s b s' := by
  rintro ⟨h, -⟩
  cases hr : s.rest with
  | nil => simp [fail_of_nil hr] at h
  | cons t ts => simp [fail_of_cons hr] at h

/-- A rule that reports something does not begin a run without a report. -/
theorem not_reads_bind_of_report {p : Parser α} {q : α → Parser β} [∀ a, Lawful (q a)] {a : α}
    (hp : p s = .ok a s₁) (hr : s.reports.length < s₁.reports.length) : ¬Reads (p >>= q) s b s' := by
  rintro ⟨h, hr'⟩
  rw [bind_of_ok hp] at h
  have := (Lawful.reports_suffix h).length_le
  rw [hr'] at this
  omega

theorem not_reads_report_bind {problem : Problem} {q : PUnit → Parser β} [∀ u, Lawful (q u)] :
    ¬Reads (report problem >>= q) s b s' :=
  not_reads_bind_of_report (report_apply problem s) (by simp)

theorem not_reads_missing_bind {what : String} {q : PUnit → Parser β} [∀ u, Lawful (q u)] :
    ¬Reads (missing what >>= q) s b s' :=
  not_reads_report_bind

theorem not_reads_missing {what : String} {u : PUnit} : ¬Reads (missing what) s u s' := by
  rintro ⟨h, hr⟩
  cases h
  exact List.cons_ne_self _ _ hr

theorem not_reads_reportAt_bind {problem : Problem} {span : Span} {q : PUnit → Parser β} [∀ u, Lawful (q u)] :
    ¬Reads (reportAt span problem >>= q) s b s' :=
  not_reads_bind_of_report (reportAt_apply span problem s) (by simp)

theorem reads_expect {k : TokenKind} {u : PUnit} : Reads (expect k) s u s' ↔ s.kind = k ∧ s' = s.advance := by
  constructor
  · rintro ⟨h, hr⟩
    rw [expect_apply] at h
    split at h
    · next hk => cases h; exact ⟨hk, rfl⟩
    · exact absurd ⟨h, hr⟩ not_reads_fail
  · rintro ⟨hk, rfl⟩
    exact ⟨by rw [expect_apply, if_pos hk], by simp⟩

theorem reads_expect_bind {k : TokenKind} {q : PUnit → Parser β} [∀ u, Lawful (q u)] :
    Reads (expect k >>= q) s b s' ↔ s.kind = k ∧ Reads (q ⟨⟩) s.advance b s' := by
  simp only [reads_bind_iff, reads_expect]
  constructor
  · rintro ⟨_, _, ⟨hk, rfl⟩, h⟩
    exact ⟨hk, h⟩
  · rintro ⟨hk, h⟩
    exact ⟨⟨⟩, _, ⟨hk, rfl⟩, h⟩

theorem reads_expectEnd {k : TokenKind} {u : PUnit} : Reads (expectEnd k) s u s' ↔ s.kind = k ∧ s' = s.advance := by
  constructor
  · rintro ⟨h, hr⟩
    rw [expectEnd_apply] at h
    split at h
    · next hk => cases h; exact ⟨hk, rfl⟩
    · split at h
      · exact absurd ⟨h, hr⟩ not_reads_fail
      · cases h; simp at hr
  · rintro ⟨hk, rfl⟩
    exact ⟨by rw [expectEnd_apply, if_pos hk], by simp⟩

theorem reads_expectEnd_bind {k : TokenKind} {q : PUnit → Parser β} [∀ u, Lawful (q u)] :
    Reads (expectEnd k >>= q) s b s' ↔ s.kind = k ∧ Reads (q ⟨⟩) s.advance b s' := by
  simp only [reads_bind_iff, reads_expectEnd]
  constructor
  · rintro ⟨_, _, ⟨hk, rfl⟩, h⟩
    exact ⟨hk, h⟩
  · rintro ⟨hk, h⟩
    exact ⟨⟨⟩, _, ⟨hk, rfl⟩, h⟩

/-! ### Rules put together -/

theorem reads_nested {what : String} {deeper : Option α} {rule : α → Parser β} :
    Reads (nested what deeper rule) s b s' ↔ ∃ level, deeper = some level ∧ Reads (rule level) s b s' := by
  cases deeper with
  | some level => simp [nested]
  | none =>
    have h : ¬Reads (nested what none rule) s b s' := by
      rintro ⟨h, -⟩
      simp only [nested, bind_of_ok (report_apply _ s)] at h
      cases h
    simp [h]

theorem reads_orRecover {rule recover : Parser β} [Lawful rule] [Lawful recover] :
    Reads (orRecover rule recover) s b s' ↔ Reads rule s b s' := by
  constructor
  · rintro ⟨h, hr⟩
    rw [orRecover_apply] at h
    split at h
    · next s₁ heq =>
      have := Lawful.reports_lt heq
      have := (Lawful.reports_suffix h).length_le
      rw [hr] at this
      omega
    · exact ⟨h, hr⟩
  · rintro ⟨h, hr⟩
    exact ⟨by rw [orRecover_apply, h], hr⟩

/-! ## Loops -/

section

variable {turn : α → Parser (Option α)}

/-- A turn that gives something takes a token. -/
def Stepwise (turn : α → Parser (Option α)) : Prop :=
  ∀ a s a' s', Reads (turn a) s (some a') s' → s'.rest.length < s.rest.length

variable [∀ a, Lawful (turn a)]

theorem reads_foldWithin_nil {a b : α} : Reads (foldWithin turn [] a) s b s' ↔
    ∃ o, Reads (turn a) s o s' ∧ b = o.getD a := by
  simp only [foldWithin, reads_bind_iff, reads_pure]
  constructor
  · rintro ⟨o, _, h, rfl, rfl⟩
    exact ⟨o, h, rfl⟩
  · rintro ⟨o, h, rfl⟩
    exact ⟨o, _, h, rfl, rfl⟩

theorem reads_foldWithin_cons {t : Lexeme} {left : List Lexeme} {a b : α} :
    Reads (foldWithin turn (t :: left) a) s b s' ↔
      (∃ a' s₁, Reads (turn a) s (some a') s₁ ∧ Reads (foldWithin turn left a') s₁ b s') ∨
        Reads (turn a) s none s' ∧ b = a := by
  have := closed_lawful.foldAfter (fun a => lawful_foldWithin left a : ∀ a, Lawful (foldWithin turn left a)) a
  simp only [foldWithin_cons, reads_bind_iff]
  constructor
  · rintro ⟨_ | a', s₁, h₁, h₂⟩
    · obtain ⟨rfl, rfl⟩ := reads_pure.1 h₂
      exact .inr ⟨h₁, rfl⟩
    · exact .inl ⟨a', s₁, h₁, h₂⟩
  · rintro (⟨a', s₁, h₁, h₂⟩ | ⟨h, rfl⟩)
    · exact ⟨some a', s₁, h₁, h₂⟩
    · exact ⟨none, s', h, reads_pure.2 ⟨rfl, rfl⟩⟩

/-- More turns than tokens make no difference. -/
theorem Reads.foldWithin (hturn : Stepwise turn) {left left' : List Lexeme} {a b : α}
    (h : Reads (foldWithin turn left a) s b s') (hle : s.rest.length ≤ left.length)
    (hle' : s.rest.length ≤ left'.length) : Reads (Parser.foldWithin turn left' a) s b s' := by
  induction left generalizing left' a s with
  | nil =>
    obtain ⟨_ | a', h, rfl⟩ := reads_foldWithin_nil.1 h
    · cases left' with
      | nil => exact reads_foldWithin_nil.2 ⟨none, h, rfl⟩
      | cons t left' => exact reads_foldWithin_cons.2 (.inr ⟨h, rfl⟩)
    · have := hturn _ _ _ _ h
      rw [List.length_nil] at hle
      omega
  | cons t left ih =>
    rcases reads_foldWithin_cons.1 h with ⟨a', s₁, h₁, h₂⟩ | ⟨h, rfl⟩
    · have hlt := hturn _ _ _ _ h₁
      cases left' with
      | nil => rw [List.length_nil] at hle'; omega
      | cons t' left' =>
        rw [List.length_cons] at hle hle'
        exact reads_foldWithin_cons.2 (.inl ⟨a', s₁, h₁, ih h₂ (by omega) (by omega)⟩)
    · cases left' with
      | nil => exact reads_foldWithin_nil.2 ⟨none, h, rfl⟩
      | cons t left' => exact reads_foldWithin_cons.2 (.inr ⟨h, rfl⟩)

/-- A fold is a turn and, unless it gives nothing, the fold behind it. -/
theorem reads_fold_iff (hturn : Stepwise turn) {a b : α} : Reads (fold turn a) s b s' ↔
    (∃ a' s₁, Reads (turn a) s (some a') s₁ ∧ Reads (fold turn a') s₁ b s') ∨ Reads (turn a) s none s' ∧ b = a := by
  simp only [fold, reads_get_bind]
  constructor
  · intro h
    rcases hr : s.rest with _ | ⟨t, ts⟩ <;> rw [hr] at h
    · obtain ⟨_ | a', h, rfl⟩ := reads_foldWithin_nil.1 h
      · exact .inr ⟨h, rfl⟩
      · have := hturn _ _ _ _ h
        simp [hr] at this
    · rcases reads_foldWithin_cons.1 h with ⟨a', s₁, h₁, h₂⟩ | h
      · have := hturn _ _ _ _ h₁
        rw [hr, List.length_cons] at this
        exact .inl ⟨a', s₁, h₁, h₂.foldWithin hturn (by omega) (Nat.le_refl _)⟩
      · exact .inr h
  · rintro (⟨a', s₁, h₁, h₂⟩ | ⟨h, rfl⟩)
    · have := hturn _ _ _ _ h₁
      rcases hr : s.rest with _ | ⟨t, ts⟩ <;> simp [hr] at this
      exact reads_foldWithin_cons.2 (.inl ⟨a', s₁, h₁, h₂.foldWithin hturn (Nat.le_refl _) (by omega)⟩)
    · cases s.rest with
      | nil => exact reads_foldWithin_nil.2 ⟨none, h, rfl⟩
      | cons t ts => exact reads_foldWithin_cons.2 (.inr ⟨h, rfl⟩)

/-- What every turn of a fold keeps holds behind it. -/
theorem Reads.fold_invariant (hturn : Stepwise turn) {I : α → ParserState → Prop} {a b : α}
    (h : Reads (fold turn a) s b s') (hI : I a s)
    (hstep : ∀ a s a' s', I a s → Reads (turn a) s (some a') s' → I a' s')
    (hlast : ∀ a s s', I a s → Reads (turn a) s none s' → I a s') : I b s' := by
  induction hn : s.rest.length using Nat.strongRecOn generalizing s a with
  | ind n ih =>
    rcases (reads_fold_iff hturn).1 h with ⟨a', s₁, h₁, h₂⟩ | ⟨h, rfl⟩
    · exact ih _ (hn ▸ hturn _ _ _ _ h₁) h₂ (hstep _ _ _ _ hI h₁) rfl
    · exact hlast _ _ _ hI h

end

section

variable {turn : Parser (Turn α)}

/-- A turn after which the loop goes on takes a token. -/
def Turning (turn : Parser (Turn α)) : Prop :=
  ∀ s items s', Reads turn s (.more items) s' → s'.rest.length < s.rest.length

variable [Lawful turn]

theorem reads_collectWithin_nil {as : List α} : Reads (collectWithin turn []) s as s' ↔
    Reads turn s (.more as) s' ∨ Reads turn s (.last as) s' := by
  simp only [collectWithin_nil, reads_bind_iff]
  constructor
  · rintro ⟨items | items, s₁, h₁, h₂⟩ <;> obtain ⟨rfl, rfl⟩ := reads_pure.1 h₂
    · exact .inl h₁
    · exact .inr h₁
  · rintro (h | h)
    · exact ⟨_, s', h, reads_pure.2 ⟨rfl, rfl⟩⟩
    · exact ⟨_, s', h, reads_pure.2 ⟨rfl, rfl⟩⟩

theorem reads_collectWithin_cons {t : Lexeme} {left : List Lexeme} {as : List α} :
    Reads (collectWithin turn (t :: left)) s as s' ↔
      (∃ items s₁ bs, Reads turn s (.more items) s₁ ∧ Reads (collectWithin turn left) s₁ bs s' ∧ as = items ++ bs) ∨
        Reads turn s (.last as) s' := by
  have : Lawful (collectWithin turn left) := lawful_collectWithin left
  have (t : Turn α) : Lawful (collectAfter turn left t) := closed_lawful.collectAfter this t
  simp only [collectWithin_cons, reads_bind_iff]
  constructor
  · rintro ⟨items | items, s₁, h₁, h₂⟩
    · obtain ⟨bs, s₂, h₂, h₃⟩ := reads_bind_iff.1 h₂
      obtain ⟨rfl, rfl⟩ := reads_pure.1 h₃
      exact .inl ⟨items, s₁, bs, h₁, h₂, rfl⟩
    · obtain ⟨rfl, rfl⟩ := reads_pure.1 h₂
      exact .inr h₁
  · rintro (⟨items, s₁, bs, h₁, h₂, rfl⟩ | h)
    · exact ⟨.more items, s₁, h₁, h₂.bind (reads_pure.2 ⟨rfl, rfl⟩)⟩
    · exact ⟨.last as, s', h, reads_pure.2 ⟨rfl, rfl⟩⟩

/-- More turns than tokens make no difference. -/
theorem Reads.collectWithin (hturn : Turning turn) {left left' : List Lexeme} {as : List α}
    (h : Reads (collectWithin turn left) s as s') (hle : s.rest.length ≤ left.length)
    (hle' : s.rest.length ≤ left'.length) : Reads (Parser.collectWithin turn left') s as s' := by
  induction left generalizing left' as s with
  | nil =>
    rcases reads_collectWithin_nil.1 h with h | h
    · have := hturn _ _ _ h
      rw [List.length_nil] at hle
      omega
    · cases left' with
      | nil => exact reads_collectWithin_nil.2 (.inr h)
      | cons t left' => exact reads_collectWithin_cons.2 (.inr h)
  | cons t left ih =>
    rcases reads_collectWithin_cons.1 h with ⟨items, s₁, bs, h₁, h₂, rfl⟩ | h
    · have hlt := hturn _ _ _ h₁
      cases left' with
      | nil => rw [List.length_nil] at hle'; omega
      | cons t' left' =>
        rw [List.length_cons] at hle hle'
        exact reads_collectWithin_cons.2 (.inl ⟨items, s₁, bs, h₁, ih h₂ (by omega) (by omega), rfl⟩)
    · cases left' with
      | nil => exact reads_collectWithin_nil.2 (.inr h)
      | cons t left' => exact reads_collectWithin_cons.2 (.inr h)

/-- A loop is a turn and, unless it is the last one, the loop behind it. -/
theorem reads_collect_iff (hturn : Turning turn) {as : List α} : Reads (collect turn) s as s' ↔
    (∃ items s₁ bs, Reads turn s (.more items) s₁ ∧ Reads (collect turn) s₁ bs s' ∧ as = items ++ bs) ∨
      Reads turn s (.last as) s' := by
  simp only [collect, reads_get_bind]
  constructor
  · intro h
    rcases hr : s.rest with _ | ⟨t, ts⟩ <;> rw [hr] at h
    · rcases reads_collectWithin_nil.1 h with h | h
      · have := hturn _ _ _ h
        simp [hr] at this
      · exact .inr h
    · rcases reads_collectWithin_cons.1 h with ⟨items, s₁, bs, h₁, h₂, rfl⟩ | h
      · have := hturn _ _ _ h₁
        rw [hr, List.length_cons] at this
        exact .inl ⟨items, s₁, bs, h₁, h₂.collectWithin hturn (by omega) (Nat.le_refl _), rfl⟩
      · exact .inr h
  · rintro (⟨items, s₁, bs, h₁, h₂, rfl⟩ | h)
    · have := hturn _ _ _ h₁
      rcases hr : s.rest with _ | ⟨t, ts⟩ <;> simp [hr] at this
      exact reads_collectWithin_cons.2
        (.inl ⟨items, s₁, bs, h₁, h₂.collectWithin hturn (Nat.le_refl _) (by omega), rfl⟩)
    · cases s.rest with
      | nil => exact reads_collectWithin_nil.2 (.inr h)
      | cons t ts => exact reads_collectWithin_cons.2 (.inr h)

/-- What holds of the items of the last turn, and of more items if it holds of those behind them, holds of a loop. -/
theorem Reads.collect_induction (hturn : Turning turn) {L : List α → ParserState → ParserState → Prop} {as : List α}
    (h : Reads (collect turn) s as s') (hlast : ∀ as s s', Reads turn s (.last as) s' → L as s s')
    (hmore : ∀ items s s₁ as s', Reads turn s (.more items) s₁ → L as s₁ s' → L (items ++ as) s s') : L as s s' := by
  induction hn : s.rest.length using Nat.strongRecOn generalizing s as with
  | ind n ih =>
    rcases (reads_collect_iff hturn).1 h with ⟨items, s₁, bs, h₁, h₂, rfl⟩ | h
    · exact hmore _ _ _ _ _ h₁ (ih _ (hn ▸ hturn _ _ _ h₁) h₂ rfl)
    · exact hlast _ _ _ h

end

/-- A part that may be broken is read if it is not. -/
theorem reads_recovering {part : Parser α} {skipRest : Parser PUnit} [Lawful part] [Lawful skipRest] {t : Turn α} :
    Reads (recovering part skipRest) s t s' ↔ ∃ a, t = .more [a] ∧ Reads part s a s' := by
  rw [recovering, reads_get_bind, reads_orRecover]
  constructor
  · intro h
    obtain ⟨a, s₁, h, h'⟩ := reads_bind_iff.1 h
    obtain ⟨rfl, rfl⟩ := reads_pure.1 h'
    exact ⟨a, rfl, h⟩
  · rintro ⟨a, rfl, h⟩
    exact h.bind (reads_pure.2 ⟨rfl, rfl⟩)

/-! ### Lists with commas -/

/-- A comma and an item, if there is a comma. -/
def commaTurn (item : Parser α) : Parser (Turn α) := do
  if ← eat .comma then return .more [← item] else return .last []

theorem sepByComma_eq (item : Parser α) : sepByComma item = (do
    let first ← item
    let more ← collect (commaTurn item)
    return first :: more) := rfl

instance lawful_commaTurn {item : Parser α} [Lawful item] : Lawful (commaTurn item) := by
  unfold commaTurn
  infer_instance

theorem reads_commaTurn {item : Parser α} [Lawful item] {t : Turn α} : Reads (commaTurn item) s t s' ↔
    (s.kind = .comma ∧ ∃ a, Reads item s.advance a s' ∧ t = .more [a]) ∨
      (s.kind ≠ .comma ∧ t = .last [] ∧ s' = s) := by
  rw [commaTurn, reads_eat_bind]
  split
  · next hk =>
    simp only [if_true, reads_bind_iff, reads_pure, hk, true_and, ne_eq, not_true_eq_false, false_and, or_false]
    constructor
    · rintro ⟨a, _, h, rfl, rfl⟩
      exact ⟨a, h, rfl⟩
    · rintro ⟨a, h, rfl⟩
      exact ⟨a, _, h, rfl, rfl⟩
  · next hk => simp [reads_pure, hk]

theorem turning_commaTurn {item : Parser α} [Lawful item] : Turning (commaTurn item) := by
  intro s items s' h
  rcases reads_commaTurn.1 h with ⟨hk, a, h, -⟩ | ⟨-, h, -⟩
  · have := ParserState.length_advance hk (by decide)
    have := h.length_le
    omega
  · cases h

/-- A list is its first item, and the list behind the comma if there is one. -/
theorem reads_sepByComma_iff {item : Parser α} [Lawful item] {as : List α} : Reads (sepByComma item) s as s' ↔
    ∃ a s₁, Reads item s a s₁ ∧
      ((s₁.kind = .comma ∧ ∃ bs, Reads (sepByComma item) s₁.advance bs s' ∧ as = a :: bs) ∨
        (s₁.kind ≠ .comma ∧ as = [a] ∧ s' = s₁)) := by
  have hopen {s s' : ParserState} {as : List α} : Reads (sepByComma item) s as s' ↔
      ∃ a s₁ bs, Reads item s a s₁ ∧ Reads (collect (commaTurn item)) s₁ bs s' ∧ as = a :: bs := by
    simp only [sepByComma_eq, reads_bind_iff, reads_pure]
    constructor
    · rintro ⟨a, s₁, h, bs, _, h', rfl, rfl⟩
      exact ⟨a, s₁, bs, h, h', rfl⟩
    · rintro ⟨a, s₁, bs, h, h', rfl⟩
      exact ⟨a, s₁, h, bs, _, h', rfl, rfl⟩
  rw [hopen]
  constructor
  · rintro ⟨a, s₁, bs, h, h', rfl⟩
    refine ⟨a, s₁, h, ?_⟩
    rcases (reads_collect_iff turning_commaTurn).1 h' with ⟨items, s₂, cs, h₁, h₂, rfl⟩ | h₁
    · rcases reads_commaTurn.1 h₁ with ⟨hk, b, hb, ht⟩ | ⟨-, ht, -⟩ <;> cases ht
      exact .inl ⟨hk, b :: cs, hopen.2 ⟨b, s₂, cs, hb, h₂, rfl⟩, rfl⟩
    · rcases reads_commaTurn.1 h₁ with ⟨-, b, -, ht⟩ | ⟨hk, ht, rfl⟩ <;> cases ht
      exact .inr ⟨hk, rfl, rfl⟩
  · rintro ⟨a, s₁, h, ⟨hk, bs, h', rfl⟩ | ⟨hk, rfl, rfl⟩⟩
    · obtain ⟨b, s₂, cs, hb, hcs, rfl⟩ := hopen.1 h'
      refine ⟨a, s₁, b :: cs, h, (reads_collect_iff turning_commaTurn).2 (.inl ⟨[b], s₂, cs, ?_, hcs, rfl⟩), rfl⟩
      exact reads_commaTurn.2 (.inl ⟨hk, b, hb, rfl⟩)
    · exact ⟨a, s', [], h,
        (reads_collect_iff turning_commaTurn).2 (.inr (reads_commaTurn.2 (.inr ⟨hk, rfl, rfl⟩))), rfl⟩

/-- If `R` holds of every item and the tokens it takes, and `L` of one item and of an item with a list behind its comma,
then `L` holds of every list and the tokens it takes. -/
theorem Reads.sepByComma_sound {item : Parser α} [Lawful item] {R : α → List Lexeme → List Lexeme → Prop}
    {L : List α → List Lexeme → List Lexeme → Prop} {as : List α} (h : Reads (sepByComma item) s as s')
    (hitem : ∀ {s a s'}, Reads item s a s' → R a s.rest s'.rest) (hone : ∀ {a x y}, R a x y → L [a] x y)
    (hmore : ∀ {a as c x y z}, R a x (c :: y) → c.kind = .comma → L as y z → L (a :: as) x z) :
    L as s.rest s'.rest := by
  induction hn : s.rest.length using Nat.strongRecOn generalizing s as with
  | ind n ih =>
    obtain ⟨a, s₁, h₁, ⟨hk, bs, h₂, rfl⟩ | ⟨-, rfl, rfl⟩⟩ := reads_sepByComma_iff.1 h
    · obtain ⟨c, hr, hc⟩ := ParserState.exists_of_kind hk (by decide)
      have := h₁.length_le
      have := ParserState.length_advance hk (by decide)
      have ha := hitem h₁
      rw [hr] at ha
      exact hmore ha hc (ih _ (by omega) h₂ rfl)
    · exact hone (hitem h₁)

end Parser

end StructuredText
