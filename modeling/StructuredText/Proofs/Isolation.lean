import StructuredText.Proofs.ParseUnits
import StructuredText.Proofs.Resilient
import StructuredText.Proofs.Sparing

/-!
# Units behind broken text

However broken a text is, a unit behind it is read as if it stood alone. A turn of the loop over units takes one token
and goes on with rules that spare the next unit and survive syntax errors (`exists_unitTurn_eq`), so that it either
stops in front of the unit or gives up since constructs nest too deeply (`unitTurn_step`). Turn by turn the parse
comes to the unit (`collectWithin_isolates`), and it has nothing to report behind it.
-/

namespace StructuredText

/-! ## Places of reports -/

/-- Where no token of `x` begins behind the word `k`, no report is placed behind it before `k` is taken. -/
theorem Run.start_le {s s' : ParserState} {ts x x' y : List Lexeme} {k : Lexeme} (h : Run s ts s')
    (hs : s.rest = x ++ k :: y) (hs' : s'.rest = x' ++ k :: y) (hx : ∀ t ∈ x, t.span.start ≤ k.span.start)
    (hr : ∀ r ∈ s.reports, r.span.start ≤ k.span.start) : ∀ r ∈ s'.reports, r.span.start ≤ k.span.start := by
  induction h generalizing x' with
  | stay => exact hr
  | @take ts us s₁ t h hrest ih =>
    rw [ParserState.advance_reports]
    rw [ParserState.advance_rest_of_cons hrest] at hs'
    exact ih (by rw [hrest, hs', List.cons_append])
  | @report ts s₁ problem span h hfatal hp ih =>
    rw [ParserState.report_rest] at hs'
    have htaken : x = ts ++ x' := by
      have := h.rest_eq
      rw [hs, hs', ← List.append_assoc] at this
      exact List.append_cancel_right this
    have hspan : span.start ≤ k.span.start := by
      cases hp with
      | here =>
        cases x' with
        | nil => rw [ParserState.span_of_cons hs']
        | cons t x' =>
          rw [List.cons_append] at hs'
          rw [ParserState.span_of_cons hs']
          exact hx t (by simp [htaken])
      | @cover t u ht _ =>
        have := hx t (by simp [htaken, ht])
        exact Nat.le_trans (Nat.min_le_left _ _) this
      | @since t ht => exact hx t (by simp [htaken, ht])
    rw [ParserState.report_reports]
    intro r hmem
    rcases List.mem_cons.1 hmem with rfl | hmem
    · exact hspan
    · exact ih hs' r hmem

namespace Parser

variable {levels : Nat} {s s' : ParserState}

/-! ## One turn -/

/-- An algorithm behind its first word. -/
def algorithmRest (levels start : Nat) : Parser Algorithm := do
  let name ← unitName
  let body ← body levels .algorithm
  return ⟨name, body, ← spanFrom start⟩

/-- A method behind its first word. -/
def methodRest (levels start : Nat) : Parser Method := do
  let name ← unitName
  let returnType ← returnType? levels
  let body ← body levels .method
  return ⟨name, returnType, body, ← spanFrom start⟩

/-- What stands between units, behind its first token. -/
def strayRest (span : Span) : Parser PUnit := do
  reportAt span (.missing "ALGORITHM or METHOD")
  skipWhile fun s => s.kind != .kwAlgorithm && s.kind != .kwMethod

theorem algorithm_apply (s : ParserState) : algorithm levels s = algorithmRest levels s.span.start s.advance := rfl

theorem method_apply (s : ParserState) : method levels s = methodRest levels s.span.start s.advance := rfl

instance sparing_algorithmRest (start : Nat) : Sparing (algorithmRest levels start) := by
  unfold algorithmRest
  infer_instance

instance sparing_methodRest (start : Nat) : Sparing (methodRest levels start) := by
  unfold methodRest
  infer_instance

instance sparing_strayRest (span : Span) : Sparing (strayRest span) := by
  have : Sparing (skipWhile fun s => s.kind != .kwAlgorithm && s.kind != .kwMethod) :=
    sparing_skipWhile fun s h => TokenKind.opensUnit_eq_false
      (P := fun k => (k != .kwAlgorithm && k != .kwMethod) = true) h (by decide) (by decide)
  unfold strayRest
  infer_instance

instance resilient_algorithmRest (start : Nat) : Resilient (algorithmRest levels start) := by
  unfold algorithmRest
  infer_instance

instance resilient_methodRest (start : Nat) : Resilient (methodRest levels start) := by
  unfold methodRest
  infer_instance

instance resilient_strayRest (span : Span) : Resilient (strayRest span) := by
  unfold strayRest
  infer_instance

/-- What is no unit is reported and passed over. -/
theorem stray_apply {t : Lexeme} {ts : List Lexeme} (hr : s.rest = t :: ts) (ha : s.kind ≠ .kwAlgorithm)
    (hm : s.kind ≠ .kwMethod) :
    (missing "ALGORITHM or METHOD" >>= fun _ => skipWhile fun s => s.kind != .kwAlgorithm && s.kind != .kwMethod) s =
      strayRest s.span s.advance := by
  have hadvance (problem : Problem) : (s.report problem s.span).advance = s.advance.report problem s.span := by
    simp [ParserState.advance, ParserState.report, hr]
  have hrest : s.advance.rest = ts := ParserState.advance_rest_of_cons hr
  show EStateM.Result.ok _ (skipWhile.go _ s.rest _) = EStateM.Result.ok _ (skipWhile.go _ s.advance.rest _)
  rw [hr, hrest, skipWhile.go, if_pos, hadvance]
  exact Bool.and_eq_true_iff.2 ⟨bne_iff_ne.2 ha, bne_iff_ne.2 hm⟩

/-- A turn takes its first token, whatever it is, and goes on with a rule that spares units and survives errors. -/
theorem exists_unitTurn_eq (levels : Nat) {t : Lexeme} {ts : List Lexeme} (hr : s.rest = t :: ts) :
    ∃ p : Parser (List ProgramUnit), Sparing p ∧ Resilient p ∧
      unitTurn levels s = (p >>= fun items => pure (Turn.more items)) s.advance := by
  rw [unitTurn, bind_of_ok (get_apply s), hr]
  dsimp only
  generalize hk : s.kind = k
  split
  · refine ⟨do return [.algorithm (← algorithmRest levels s.span.start)], inferInstance, inferInstance, ?_⟩
    simp only [bind_assoc, pure_bind]
    rw [bind_apply, algorithm_apply, bind_apply]
  · refine ⟨do return [.method (← methodRest levels s.span.start)], inferInstance, inferInstance, ?_⟩
    simp only [bind_assoc, pure_bind]
    rw [bind_apply, method_apply, bind_apply]
  · next ha hm =>
    refine ⟨do strayRest s.span; return [], inferInstance, inferInstance, ?_⟩
    have h := stray_apply hr (fun h => ha (hk.symm.trans h)) (fun h => hm (hk.symm.trans h))
    simp only [bind_assoc, pure_bind]
    rw [← bind_assoc, bind_apply, h, bind_apply]

section

variable {x y : List Lexeme} {k : Lexeme} (hk : k.kind.opensUnit = true)

include hk

/-- In front of the word `k` that opens a unit, a turn goes on and takes a token but not `k`, or the nesting ends it. -/
theorem unitTurn_step {t : Lexeme} (hs : s.rest = (t :: x) ++ k :: y) :
    (∃ items s' x', unitTurn levels s = .ok (.more items) s' ∧ s'.rest = x' ++ k :: y ∧ x'.length ≤ x.length) ∨
      ∃ s₁ s' ts x', unitTurn levels s = .error .tooDeep s' ∧ Run s ts s₁ ∧ GivesUp s₁ .tooDeep s' ∧
        s₁.rest = x' ++ k :: y := by
  obtain ⟨p, hspares, hresilient, heq⟩ := exists_unitTurn_eq levels hs
  have hadvance : s.advance.rest = x ++ k :: y := ParserState.advance_rest_of_cons hs
  rw [bind_apply] at heq
  have hreached := (lawful_unitTurn levels).reached s
  cases hp : p s.advance with
  | ok items s' =>
    rw [hp] at heq
    obtain ⟨ts, x', hx, hrest⟩ := ((hspares.spares _).ok hp).exists_append hk hadvance
    refine .inl ⟨items, s', x', heq, hrest, ?_⟩
    rw [hx, List.length_append]
    omega
  | error e s' =>
    rw [hp] at heq
    rw [heq] at hreached
    obtain ⟨ts, s₁, hrun, hg⟩ := hreached
    obtain ⟨us, x', -, hrest⟩ := ((hspares.spares _).error hp).exists_append hk hadvance
    cases hg with
    | syntaxError what _ => exact absurd hp (hresilient.survives _ _)
    | endOfStream what hnil =>
      rw [ParserState.report_rest, hnil] at hrest
      exact absurd hrest.symm (by simp)
    | tooDeep what hw => exact .inr ⟨s₁, _, ts, x', heq, hrun, .tooDeep what hw, hrest⟩

/-! ## All turns -/

/-- The outcomes of reading units where the units `us` are spelled by the tokens `z` at the end: the parse comes to
them and reads them without a report, or the nesting ends it before. -/
def Isolates (us : List ProgramUnit) (z : List Lexeme) (s : ParserState) :
    EStateM.Result Abort ParserState (List ProgramUnit) → Prop
  | .ok us' s' => ∃ before ts s₁, us' = before ++ us ∧ Run s ts s₁ ∧ s₁.rest = z ∧ s'.reports = s₁.reports
  | .error e s' => e = .tooDeep ∧ ∃ ts s₁ x, Run s ts s₁ ∧ GivesUp s₁ .tooDeep s' ∧ s₁.rest = x ++ z

theorem collectWithin_isolates {us : List ProgramUnit} (hus : SpellsUnits (k :: y) us)
    (hn : deepest ProgramUnit.nesting us ≤ levels) (left : List Lexeme) (hs : s.rest = x ++ k :: y)
    (hle : s.rest.length ≤ left.length) : Isolates us (k :: y) s (collectWithin (unitTurn levels) left s) := by
  induction left generalizing s x with
  | nil =>
    rw [hs] at hle
    simp at hle
  | cons l left ih =>
    cases x with
    | nil =>
      obtain ⟨s', h, -⟩ := units_complete hus hn s hs
      have h := Reads.collectWithin turning_unitTurn (reads_get_bind.1 h) (Nat.le_refl _) hle
      rw [h.1]
      exact ⟨[], [], s, rfl, .stay, hs, h.2⟩
    | cons t x =>
      rw [collectWithin_cons, bind_apply]
      rcases unitTurn_step hk hs with ⟨items, s₁, x', h, hrest, hlen⟩ | ⟨s₁, s', ts, x', h, hrun, hg, hrest⟩
      · have hle₁ : s₁.rest.length ≤ left.length := by
          rw [hs] at hle
          rw [hrest]
          simp only [List.length_append, List.length_cons] at hle ⊢
          omega
        have ih := ih hrest hle₁
        obtain ⟨ts, hrun⟩ := Lawful.run h
        rw [h]
        show Isolates us (k :: y) s ((collectWithin (unitTurn levels) left >>= fun bs => pure (items ++ bs)) s₁)
        rw [bind_apply]
        cases hr : collectWithin (unitTurn levels) left s₁ with
        | ok us' s' =>
          rw [hr] at ih
          obtain ⟨before, ts', s₂, rfl, hrun', hrest', hreports⟩ := ih
          exact ⟨items ++ before, _, s₂, (List.append_assoc ..).symm, hrun.trans hrun', hrest', hreports⟩
        | error e s' =>
          rw [hr] at ih
          obtain ⟨he, ts', s₂, x'', hrun', hg, hrest'⟩ := ih
          exact ⟨he, _, s₂, x'', hrun.trans hrun', hg, hrest'⟩
      · rw [h]
        exact ⟨rfl, ts, s₁, x', hrun, hg, hrest⟩

end

end Parser

/-! ## Sources -/

/-- A unit begins with the word that opens it. -/
theorem UnitSpelled.exists_opensUnit {u : ProgramUnit} {x y : List Lexeme} (h : UnitSpelled u x y) :
    ∃ k x', x = k :: x' ∧ k.kind.opensUnit = true := by
  cases h with
  | algorithm hw _ _ | method hw _ _ _ => exact ⟨_, _, rfl, by rw [hw]⟩

/-- What becomes of a parse where the word `k` opens the unit `u` behind the tokens `x`. -/
structure Isolated (u : ProgramUnit) (x : List Lexeme) (k : Lexeme) (p : Parse SourceFile) : Prop where
  /-- The nesting ends the parse at a token of `x`, or at `k` before it is taken, or `u` is the last unit of the
  tree. -/
  outcome : (p.tree = none ∧ ∃ what, ∃ t ∈ x ++ [k], p.reports.getLast? = some ⟨.tooDeep what, t.span⟩) ∨
    ∃ file, p.tree = some file ∧ file.units.getLast? = some u
  /-- No diagnostic begins behind the beginning of `k`. -/
  start_le : ∀ d ∈ p.diagnostics, d.span.start ≤ k.span.start

theorem Parse.start_le_of_reports {p : Parse α} {n : Nat} (h : ∀ r ∈ p.reports, r.span.start ≤ n) :
    ∀ d ∈ p.diagnostics, d.span.start ≤ n := by
  intro d hd
  obtain ⟨r, hr, rfl⟩ := mem_diagnostics.1 hd
  exact h r hr

theorem Parser.isolated {levels : Nat} {stream : Stream} {u : ProgramUnit} {x y : List Lexeme} {k : Lexeme}
    (hk : k.kind.opensUnit = true) (hs : stream.significant = x ++ k :: y)
    (hx : ∀ t ∈ x, t.span.start ≤ k.span.start) (hu : SpellsUnits (k :: y) [u])
    (hn : deepest ProgramUnit.nesting [u] ≤ levels) : Isolated u x k ((sourceFile levels).run stream) := by
  have hrest : (ParserState.start stream).rest = x ++ k :: y := hs
  have hcollect := collectWithin_isolates hk hu hn _ hrest (Nat.le_refl _)
  cases hr : collectWithin (unitTurn levels) (ParserState.start stream).rest (.start stream) with
  | ok units s' =>
    rw [hr] at hcollect
    obtain ⟨before, ts, s₁, rfl, hrun, hrest₁, hreports⟩ := hcollect
    have hfile : sourceFile levels (.start stream) =
        .ok ⟨before ++ [u], s'.spanFrom (ParserState.start stream).span.start⟩ s' := by
      have hcollect : collect (unitTurn levels) (.start stream) = .ok (before ++ [u]) s' := hr
      rw [sourceFile, bind_of_ok (offset_apply _), bind_of_ok hcollect, bind_of_ok (spanFrom_apply _ _), pure_apply]
    rw [run_of_ok hfile]
    refine ⟨.inr ⟨_, rfl, List.getLast?_concat⟩, Parse.start_le_of_reports fun r hmem => ?_⟩
    have hrest₁ : s₁.rest = [] ++ k :: y := hrest₁
    rw [List.mem_reverse, hreports] at hmem
    exact hrun.start_le hrest hrest₁ hx (by simp [ParserState.start]) r hmem
  | error e s' =>
    rw [hr] at hcollect
    obtain ⟨rfl, ts, s₁, x', hrun, hg, hrest₁⟩ := hcollect
    have hfile : sourceFile levels (.start stream) = .error .tooDeep s' := by
      have hcollect : collect (unitTurn levels) (.start stream) = .error .tooDeep s' := hr
      rw [sourceFile, bind_of_ok (offset_apply _), bind_apply, hcollect]
    have htaken : x = ts ++ x' := by
      have := hrun.rest_eq
      rw [hrest, hrest₁, ← List.append_assoc] at this
      exact List.append_cancel_right this
    obtain ⟨t, ht, hspan⟩ : ∃ t ∈ x ++ [k], s₁.span = t.span := by
      cases x' with
      | nil => exact ⟨k, by simp, ParserState.span_of_cons hrest₁⟩
      | cons t x' => exact ⟨t, by simp [htaken], ParserState.span_of_cons hrest₁⟩
    have hle : t.span.start ≤ k.span.start := by
      rcases List.mem_append.1 ht with ht | ht
      · exact hx t ht
      · rw [List.mem_singleton.1 ht]
    rw [run_of_error hfile]
    cases hg with
    | tooDeep what =>
      rw [ParserState.report_reports, hspan]
      refine ⟨.inl ⟨rfl, what, t, ht, by simp⟩, Parse.start_le_of_reports fun r hmem => ?_⟩
      rcases List.mem_cons.1 (List.mem_reverse.1 hmem) with rfl | hmem
      · exact hle
      · exact hrun.start_le hrest hrest₁ hx (by simp [ParserState.start]) r hmem

/-- Whatever tokens stand in front of a unit that is read without a diagnostic, either the nesting ends the parse among
them, or the unit is the last one of the tree. No diagnostic begins behind the first token of the unit. -/
theorem parseSource_isolates_unit {source : List Char} {ts us : List Token} {file : SourceFile} {u : ProgramUnit}
    (hts : ∀ t ∈ ts, t.kind ≠ .eof ∧ t.span.Ordered) (hsep : ∀ t ∈ ts, ∀ v ∈ us, t.span.stop ≤ v.span.start)
    (hus : (parseSource ⟨us, source⟩).tree = some file ∧ (parseSource ⟨us, source⟩).diagnostics = [])
    (hu : file.units = [u]) :
    ∃ k, (Stream.mk us source).significant.head? = some k ∧
      Isolated u (Stream.mk ts source).significant k (parseSource ⟨ts ++ us, source⟩) := by
  obtain ⟨hunits, hn, -⟩ := Parser.exists_reads_sourceFile_iff.1 (Parser.run_clean_iff.1 hus)
  rw [hu] at hunits hn
  obtain ⟨k, y, hky, hk⟩ : ∃ k y, (Stream.mk us source).significant = k :: y ∧ k.kind.opensUnit = true := by
    cases hunits with
    | cons h _ => exact h.exists_opensUnit
  have hrest : (Stream.mk (ts ++ us) source).significant = (Stream.mk ts source).significant ++ k :: y := by
    rw [← hky]
    exact Stream.significant_append fun t ht => (hts t ht).1
  have hstart : ∀ t ∈ (Stream.mk ts source).significant, t.span.start ≤ k.span.start := by
    intro t ht
    have hkmem : k ∈ (Stream.mk us source).significant := by simp [hky]
    obtain ⟨p, hp, rfl⟩ := Stream.exists_of_mem_significant ht
    obtain ⟨v, hv, rfl⟩ := Stream.exists_of_mem_significant hkmem
    exact Nat.le_trans (hts p hp).2 (hsep p hp v hv)
  exact ⟨k, by rw [hky]; rfl, Parser.isolated hk hrest hstart (hky ▸ hunits) hn⟩

/-- An algorithm that breaks off, and a method behind it. -/
def unfinishedText : List Char := "ALGORITHM a IF ( METHOD m END_METHOD".toList

/-- The tokens of the algorithm. -/
def unfinishedTokens : List Token :=
  [⟨.kwAlgorithm, ⟨0, 9⟩⟩, ⟨.ident, ⟨10, 11⟩⟩, ⟨.kwIf, ⟨12, 14⟩⟩, ⟨.lParen, ⟨15, 16⟩⟩]

/-- The tokens of the method. -/
def methodTokens : List Token := [⟨.kwMethod, ⟨17, 23⟩⟩, ⟨.ident, ⟨24, 25⟩⟩, ⟨.kwEndMethod, ⟨26, 36⟩⟩]

/-- The method. -/
def methodUnit : ProgramUnit := .method ⟨⟨"m", ⟨24, 25⟩⟩, none, ⟨[], []⟩, ⟨17, 36⟩⟩

theorem parseSource_isolates_method :
    (∀ t ∈ unfinishedTokens, t.kind ≠ .eof ∧ t.span.Ordered) ∧
    (∀ t ∈ unfinishedTokens, ∀ v ∈ methodTokens, t.span.stop ≤ v.span.start) ∧
    ((parseSource ⟨methodTokens, unfinishedText⟩).tree = some ⟨[methodUnit], ⟨17, 36⟩⟩ ∧
      (parseSource ⟨methodTokens, unfinishedText⟩).diagnostics = []) ∧
    ∃ k, (Stream.mk methodTokens unfinishedText).significant.head? = some k ∧
      Isolated methodUnit (Stream.mk unfinishedTokens unfinishedText).significant k
        (parseSource ⟨unfinishedTokens ++ methodTokens, unfinishedText⟩) := by
  have hts : ∀ t ∈ unfinishedTokens, t.kind ≠ .eof ∧ t.span.Ordered := by decide
  have hsep : ∀ t ∈ unfinishedTokens, ∀ v ∈ methodTokens, t.span.stop ≤ v.span.start := by decide
  have htree : (parseSource ⟨methodTokens, unfinishedText⟩).tree = some ⟨[methodUnit], ⟨17, 36⟩⟩ := rfl
  have hclean : (parseSource ⟨methodTokens, unfinishedText⟩).diagnostics = [] := rfl
  exact ⟨hts, hsep, ⟨htree, hclean⟩, parseSource_isolates_unit hts hsep ⟨htree, hclean⟩ rfl⟩

end StructuredText
