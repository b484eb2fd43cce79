import StructuredText.Proofs.Steady

/-!
# Where problems are reported

A parse reports a problem at the next token, or at the end of the stream if there is none, or it reports it about the
tokens that it has just taken, with no other report in between. `Course s s'` says that such steps lead from `s` to
`s'`. Since tokens stand in order, so do the reports: no report begins before an earlier one (`Course.sorted`), and each
of them covers a row of tokens or stands at the end of the stream (`Course.located`).

Courses go along every parse of tokens that stand in order (`along_course`).
-/

namespace StructuredText

/-! ## Courses -/

/-- Steps of a parse, and where they report problems. -/
inductive Course (s : ParserState) : ParserState → Prop
  | stay : Course s s
  | advance {s' : ParserState} : Course s s' → Course s s'.advance
  | atToken {s' : ParserState} {problem : Problem} {t : Lexeme} {x : List Lexeme} :
      Course s s' → s'.rest = t :: x → Course s (s'.report problem t.span)
  | atEnd {s' : ParserState} {problem : Problem} :
      Course s s' → s'.rest = [] → Course s (s'.report problem (.empty s'.stop))
  | about {s₁ s' : ParserState} {problem : Problem} {ts : List Lexeme} :
      Course s s₁ → Run s₁ ts s' → s'.reports = s₁.reports → problem.LooksBack → ts ≠ [] →
      Course s (s'.report problem (spanOf ts))

/-- The report covers a row of tokens, one token if the problem does not look back, or stands at the end. -/
def Report.Located (tokens : List Lexeme) (stop : Nat) (r : Report) : Prop :=
  (∃ ts, ts ≠ [] ∧ ts <:+: tokens ∧ (r.problem.LooksBack ∨ ts.length = 1) ∧ r.span = spanOf ts) ∨
    r.span = .empty stop

/-- No report begins before an earlier one, and none behind the next token. The latest one comes first. -/
structure ParserState.Sorted (s : ParserState) : Prop where
  pairwise : s.reports.Pairwise fun r r' => r'.span.start ≤ r.span.start
  le : ∀ r ∈ s.reports, r.span.start ≤ s.span.start

theorem ParserState.Sorted.report {s : ParserState} {span : Span}
    (hs : s.reports.Pairwise fun r r' => r'.span.start ≤ r.span.start) (h : ∀ r ∈ s.reports, r.span.start ≤ span.start)
    (hle : span.start ≤ s.span.start) (problem : Problem) : (s.report problem span).Sorted := by
  refine ⟨List.pairwise_cons.2 ⟨h, hs⟩, List.forall_mem_cons.2 ⟨hle, fun r hr => ?_⟩⟩
  exact Nat.le_trans (h r hr) hle

namespace Course

variable {s s₁ s' : ParserState} {r : Report}

theorem trans (h : Course s s₁) (h' : Course s₁ s') : Course s s' := by
  induction h' with
  | stay => exact h
  | advance _ ih => exact ih.advance
  | atToken _ hr ih => exact ih.atToken hr
  | atEnd _ hr ih => exact ih.atEnd hr
  | about _ hrun hreports hback hts ih => exact ih.about hrun hreports hback hts

/-- A report at the next token or at the end of the stream. -/
theorem here (hs : s.InOrder) (problem : Problem) : Course s (s.report problem s.span) := by
  cases hr : s.rest with
  | nil => exact hs.span_of_nil hr ▸ stay.atEnd hr
  | cons t x => exact ParserState.span_of_cons hr ▸ stay.atToken hr

theorem inOrder (h : Course s s') (hs : s.InOrder) : s'.InOrder := by
  induction h with
  | stay => exact hs
  | advance _ ih => exact (Run.advance _).inOrder ih
  | atToken _ _ ih | atEnd _ _ ih => exact ih.report _ _
  | about _ hrun _ _ _ ih => exact (hrun.inOrder ih).report _ _

theorem stop_eq (h : Course s s') : s'.stop = s.stop := by
  induction h with
  | stay => rfl
  | advance _ ih => rw [ParserState.advance_stop, ih]
  | atToken _ _ ih | atEnd _ _ ih => exact ih
  | about _ hrun _ _ _ ih => exact hrun.stop_eq.trans ih

theorem rest_suffix (h : Course s s') : s'.rest <:+ s.rest := by
  induction h with
  | stay => exact List.suffix_rfl
  | advance _ ih => exact (Run.advance _).rest_suffix.trans ih
  | atToken _ _ ih | atEnd _ _ ih => exact ih
  | about _ hrun _ _ _ ih => exact hrun.rest_suffix.trans ih

/-- No report begins before an earlier one. -/
theorem sorted (h : Course s s') (hs : s.InOrder) (hsorted : s.Sorted) : s'.Sorted := by
  induction h with
  | stay => exact hsorted
  | @advance s' h ih =>
    have hle := (Run.advance s').start_mono (h.inOrder hs)
    refine ⟨?_, fun r hr => ?_⟩
    · rw [ParserState.advance_reports]
      exact ih.pairwise
    · rw [ParserState.advance_reports] at hr
      exact Nat.le_trans (ih.le r hr) hle
  | atToken _ hr ih =>
    rw [← ParserState.span_of_cons hr]
    exact .report ih.pairwise ih.le (Nat.le_refl _) _
  | atEnd h hr ih =>
    rw [← (h.inOrder hs).span_of_nil hr]
    exact .report ih.pairwise ih.le (Nat.le_refl _) _
  | @about s₁ s' problem ts h hrun hreports hback hts ih =>
    obtain ⟨t, ts, rfl⟩ := List.exists_cons_of_ne_nil hts
    have hstart : (spanOf (t :: ts)).start = s₁.span.start := by
      rw [ParserState.span_of_cons hrun.rest_eq]
      rfl
    have hle := hrun.start_mono (h.inOrder hs)
    refine .report ?_ ?_ (hstart ▸ hle) _
    · rw [hreports]
      exact ih.pairwise
    · rw [hreports, hstart]
      exact ih.le

/-- Each report covers tokens in a row, or stands at the end of the stream. -/
theorem located (h : Course s s') (hs : s.InOrder) (hlocated : ∀ r ∈ s.reports, r.Located s.rest s.stop) :
    ∀ r ∈ s'.reports, r.Located s.rest s.stop := by
  induction h with
  | stay => exact hlocated
  | advance _ ih => rwa [ParserState.advance_reports]
  | @atToken s' problem t x h hr ih =>
    have hprefix : [t] <+: s'.rest := ⟨x, hr.symm⟩
    have hcovers := (h.inOrder hs).covers (t := t) (by simp [hr])
    refine List.forall_mem_cons.2 ⟨.inl ⟨[t], List.cons_ne_nil _ _, ?_, .inr rfl, hcovers.spanOf_eq.symm⟩, ih⟩
    exact hprefix.isInfix.trans h.rest_suffix.isInfix
  | atEnd h _ ih => exact List.forall_mem_cons.2 ⟨.inr (by rw [h.stop_eq]), ih⟩
  | @about s₁ s' problem ts h hrun hreports hback hts ih =>
    have hprefix : ts <+: s₁.rest := ⟨s'.rest, hrun.rest_eq.symm⟩
    rw [← hreports] at ih
    have hinfix := hprefix.isInfix.trans h.rest_suffix.isInfix
    exact List.forall_mem_cons.2 ⟨.inl ⟨ts, hts, hinfix, .inl hback, rfl⟩, ih⟩

end Course

/-! ## Parses -/

/-- A problem with tokens that have been taken is reported around them. -/
theorem Problem.About.span_eq {source : List Char} {ts : List Lexeme} {span : Span} {problem : Problem}
    (h : problem.About source ts span) {n : Nat} (hts : StandFrom n ts) : span = spanOf ts := by
  cases h with
  | opening t _ => exact (hts.covers List.mem_cons_self).spanOf_eq.symm
  | malformedLiteral p sign v fault => exact hts.cover_eq
  | trailing t ts => rfl

theorem Problem.About.looksBack {source : List Char} {ts : List Lexeme} {span : Span} {problem : Problem}
    (h : problem.About source ts span) : problem.LooksBack := by
  cases h with
  | opening t h => cases problem <;> trivial
  | malformedLiteral p sign v fault => trivial
  | trailing t ts => rfl

theorem Problem.About.ne_nil {source : List Char} {ts : List Lexeme} {span : Span} {problem : Problem}
    (h : problem.About source ts span) : ts ≠ [] := by
  cases h <;> exact List.cons_ne_nil _ _

/-- Where the tokens stand in order, the steps of a parse make a course. -/
instance along_course : Parser.Along fun s s' => s.InOrder → Course s s' where
  refl _ _ := .stay
  trans h h' hs := (h hs).trans (h' ((h hs).inOrder hs))
  advance _ _ := .advance .stay
  here _ hs := .here hs _
  about hrun hreports habout hs := by
    have hstand := hs.rest
    rw [hrun.rest_eq] at hstand
    rw [habout.span_eq (StandFrom.append_iff.1 hstand).1]
    exact Course.stay.about hrun hreports habout.looksBack habout.ne_nil

end StructuredText
