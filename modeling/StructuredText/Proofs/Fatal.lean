import Mathlib.Data.List.Perm.Basic
import StructuredText.Proofs.Isolation
import StructuredText.Proofs.ParseStatements

/-!
# Problems that end a parse

A parse that runs into the end of the stream inside a construct, or into constructs nested too deeply, has no tree, and
this is the last problem it reports (`Run.not_fatal`, `GivesUp.isFatal`). A row of units and a list of statements
survive all other problems (`parseSource`, `parseStatements`), while a single unit also fails where another word stands
in its place. So a tree without a diagnostic, a parse that is ok and a result that is no failure are one thing.
-/

namespace StructuredText

/-! ## What the diagnostics say -/

/-- The diagnostic says that constructs nest too deeply. -/
def Diagnostic.IsNesting (d : Diagnostic) : Prop :=
  d.code = .syntaxError ∧ ∃ what ∈ Problem.limited, d.message = what ++ " nested too deeply"

/-- The diagnostic says why a parse is over: the stream ended inside a construct, or constructs nest too deeply. -/
def Diagnostic.EndsParse (d : Diagnostic) : Prop := d.code = .unexpectedEndOfStream ∨ d.IsNesting

instance (d : Diagnostic) : Decidable d.IsNesting := inferInstanceAs (Decidable (_ ∧ _))

instance (d : Diagnostic) : Decidable d.EndsParse := inferInstanceAs (Decidable (_ ∨ _))

theorem take_toList_append (s t : String) {n : Nat} (h : n ≤ s.toList.length) :
    (s ++ t).toList.take n = s.toList.take n := by
  rw [String.toList_append, List.take_append_of_le_length h]

/-- What the diagnostics of problems that do not end the parse begin with. -/
theorem Problem.take_message {p : Problem} (hp : p.isFatal = false) :
    p.message.toList.take 4 ∈ ["expe", "malf", "VAR ", "VAR_", "decl", "unex"].map String.toList := by
  cases p with
  | ended what | tooDeep what => cases hp
  | plainBlock | lateBlock => decide
  | blockInAlgorithm kind => cases kind <;> decide
  | missing what | unexpected what found | malformedLiteral text fault | stray found | strayOutside found =>
    unfold message
    simp only [String.append_assoc]
    rw [take_toList_append _ _ (by decide)]
    decide

/-- No other problem is put into the words for deep nesting. -/
theorem Problem.message_ne {p : Problem} (hp : p.isFatal = false) {what : String} (hw : what ∈ limited) :
    p.message ≠ what ++ " nested too deeply" := by
  intro h
  have htake := take_message hp
  rw [h] at htake
  have hnot : ∀ what ∈ limited, (what ++ " nested too deeply").toList.take 4 ∉
      ["expe", "malf", "VAR ", "VAR_", "decl", "unex"].map String.toList := by decide
  exact hnot what hw htake

/-- A problem that does not end the parse is put into other words. -/
theorem Report.not_endsParse {r : Report} (h : r.problem.isFatal = false) : ¬r.diagnostic.EndsParse := by
  rintro (hcode | ⟨-, what, hw, hmessage⟩)
  · obtain ⟨problem, span⟩ := r
    cases problem with
    | ended what => cases h
    | _ => cases hcode
  · exact Problem.message_ne h hw hmessage

/-! ## Tree, failure and result -/

namespace Parse

variable {p : Parse α}

/-- All diagnostics are errors. -/
theorem hasErrors_iff : p.hasErrors = true ↔ ∃ d, d ∈ p.diagnostics := by
  rw [hasErrors, List.any_eq_true]
  refine exists_congr fun d => and_iff_left_of_imp fun hd => ?_
  obtain ⟨r, -, rfl⟩ := mem_diagnostics.1 hd
  rfl

theorem hasErrors_eq_false_iff : p.hasErrors = false ↔ p.diagnostics = [] := by
  rw [List.eq_nil_iff_forall_not_mem, ← Bool.not_eq_true, hasErrors_iff, not_exists]

theorem isOk_iff : p.isOk = true ↔ p.tree.isSome = true ∧ p.diagnostics = [] := by
  rw [isOk, Bool.and_eq_true, Bool.not_eq_true', hasErrors_eq_false_iff]

theorem result_eq_ok_iff {tree : α} : p.result = .ok tree ↔ p.tree = some tree ∧ p.diagnostics = [] := by
  rw [← hasErrors_eq_false_iff, result]
  split
  · next t ht => cases p.hasErrors <;> simp [ht]
  · next ht => simp [ht]

end Parse

/-! ## What a run reports -/

section

variable {s s' : ParserState} {ts : List Lexeme}

theorem Run.stop_eq (h : Run s ts s') : s'.stop = s.stop := by
  induction h with
  | stay => rfl
  | take _ _ ih => rw [ParserState.advance_stop, ih]
  | report _ _ _ ih => exact ih

theorem Run.source_eq (h : Run s ts s') : s'.source = s.source := by
  induction h with
  | stay => rfl
  | take _ _ ih => rw [ParserState.advance_source, ih]
  | report _ _ _ ih => exact ih

theorem Run.lastStop_eq (h : Run s ts s') : s'.lastStop = stopAfter s.lastStop ts := by
  induction h with
  | stay => rfl
  | take _ hrest ih => rw [stopAfter_append, ← ih, ParserState.advance, hrest]; rfl
  | report _ _ _ ih => exact ih

/-- The steps of a run report nothing that ends the parse. -/
theorem Run.not_fatal (h : Run s ts s') (hs : ∀ r ∈ s.reports, r.problem.isFatal = false) :
    ∀ r ∈ s'.reports, r.problem.isFatal = false := by
  induction h with
  | stay => exact hs
  | take _ _ ih => rwa [ParserState.advance_reports]
  | report _ hfatal _ ih => exact List.forall_mem_cons.2 ⟨hfatal, ih⟩

/-- A rule that gives up for another reason than a syntax error ends the parse. -/
theorem GivesUp.exists_report {e : Abort} (h : GivesUp s e s') :
    ∃ r, s'.reports = r :: s.reports ∧ (r.diagnostic.EndsParse ↔ e ≠ .syntaxError) ∧
      (r.diagnostic.code = .unexpectedEndOfStream → s.rest = [] ∧ r.span = s.span) := by
  cases h with
  | syntaxError what _ =>
    refine ⟨_, rfl, ?_, ?_⟩
    · exact iff_of_false (Report.not_endsParse rfl) (not_not_intro rfl)
    · intro hcode
      cases hcode
  | endOfStream what hrest =>
    refine ⟨_, rfl, ?_, fun _ => ⟨hrest, rfl⟩⟩
    exact iff_of_true (.inl rfl) (by decide)
  | tooDeep what hw =>
    refine ⟨_, rfl, ?_, ?_⟩
    · exact iff_of_true (.inr ⟨rfl, what, hw, rfl⟩) (by decide)
    · intro hcode
      cases hcode

end

/-! ## Parses -/

/-- The end of the input, where a parse reports what is missing there. -/
def Stream.endSpan (s : Stream) : Span := .empty (max s.stop (stopAfter 0 s.significant))

/-- Some diagnostic says why the parse is over. -/
def Parse.EndsEarly (p : Parse α) : Prop := ∃ d ∈ p.diagnostics, d.EndsParse

/-- What holds of a parse of the stream, whatever it is read as. -/
structure Parse.Disciplined (stream : Stream) (p : Parse α) : Prop where
  /-- A missing tree is explained. -/
  hasErrors : p.tree = none → p.hasErrors = true
  /-- There is no tree of a parse that is over. -/
  no_tree : p.EndsEarly → p.tree = none
  /-- A parse is over with one report, the last one. -/
  last : ∀ r ∈ p.reports.dropLast, ¬r.diagnostic.EndsParse
  count_le : p.diagnostics.countP (fun d => d.EndsParse) ≤ 1
  /-- The end of the stream is reported where the input ends. -/
  span_eq : ∀ d ∈ p.diagnostics, d.code = .unexpectedEndOfStream → d.span = stream.endSpan
  isOk_iff : p.isOk = true ↔ p.tree.isSome = true ∧ p.diagnostics = []
  result_iff : ∀ tree, p.result = .ok tree ↔ p.tree = some tree ∧ p.diagnostics = []

theorem Diagnostic.insertInOrder_perm (d : Diagnostic) (ds : List Diagnostic) :
    (d.insertInOrder ds).Perm (d :: ds) := by
  induction ds with
  | nil => exact List.Perm.refl _
  | cons e es ih =>
    unfold insertInOrder
    split
    · exact List.Perm.refl _
    · exact (ih.cons e).trans (List.Perm.swap d e es)

theorem Diagnostic.inSourceOrder_perm (ds : List Diagnostic) : (inSourceOrder ds).Perm ds := by
  induction ds with
  | nil => exact List.Perm.refl _
  | cons d ds ih => exact (insertInOrder_perm d _).trans (ih.cons d)

/-- What holds of no element but the last holds of at most one. -/
theorem countP_le_one {l : List α} {p : α → Bool} (h : ∀ a ∈ l.dropLast, ¬p a = true) : l.countP p ≤ 1 := by
  rcases List.eq_nil_or_concat l with rfl | ⟨init, a, rfl⟩
  · exact Nat.zero_le 1
  · rw [List.concat_eq_append, List.dropLast_concat] at h
    rw [List.concat_eq_append, List.countP_append, List.countP_eq_zero.2 h, Nat.zero_add]
    exact List.countP_le_length

namespace Parse.Disciplined

variable {stream : Stream} {p : Parse α}

theorem of_reports (htree : p.tree = none → p.reports ≠ [])
    (hreports : p.tree ≠ none → ∀ r ∈ p.reports, ¬r.diagnostic.EndsParse)
    (hlast : ∀ r ∈ p.reports.dropLast, ¬r.diagnostic.EndsParse)
    (hspan : ∀ r ∈ p.reports, r.diagnostic.code = .unexpectedEndOfStream → r.span = stream.endSpan) :
    Disciplined stream p where
  hasErrors h := by
    obtain ⟨r, hr⟩ := List.exists_mem_of_ne_nil _ (htree h)
    exact hasErrors_iff.2 ⟨r.diagnostic, mem_diagnostics.2 ⟨r, hr, rfl⟩⟩
  no_tree := by
    rintro ⟨d, hd, hends⟩
    obtain ⟨r, hr, rfl⟩ := mem_diagnostics.1 hd
    by_contra h
    exact hreports h r hr hends
  last := hlast
  count_le := by
    rw [diagnostics, (Diagnostic.inSourceOrder_perm _).countP_eq, List.countP_map]
    exact countP_le_one fun r hr => by simpa using hlast r hr
  span_eq := by
    intro d hd hcode
    obtain ⟨r, hr, rfl⟩ := mem_diagnostics.1 hd
    exact hspan r hr hcode
  isOk_iff := Parse.isOk_iff
  result_iff _ := result_eq_ok_iff

/-- A change of the tree changes nothing of it. -/
theorem map (h : Disciplined stream p) (f : α → β) : Disciplined stream (p.map f) where
  hasErrors hnone := h.hasErrors (Option.map_eq_none_iff.1 hnone)
  no_tree hends := Option.map_eq_none_iff.2 (h.no_tree hends)
  last := h.last
  count_le := h.count_le
  span_eq := h.span_eq
  isOk_iff := Parse.isOk_iff
  result_iff _ := result_eq_ok_iff

end Parse.Disciplined

namespace Parser

variable {stream : Stream}

theorem run_disciplined (rule : Parser α) [Lawful rule] (stream : Stream) :
    (rule.run stream).Disciplined stream := by
  have hreached := Lawful.reached (p := rule) (.start stream)
  have hstart : ∀ r ∈ (ParserState.start stream).reports, r.problem.isFatal = false := by simp [ParserState.start]
  cases hr : rule (.start stream) with
  | ok a s' =>
    rw [hr] at hreached
    obtain ⟨ts, hrun⟩ := hreached
    have hnot : ∀ r ∈ s'.reports.reverse, ¬r.diagnostic.EndsParse := fun r hmem =>
      Report.not_endsParse (hrun.not_fatal hstart r (List.mem_reverse.1 hmem))
    rw [run_of_ok hr]
    refine .of_reports (by simp) (fun _ => hnot) (fun r hmem => hnot r (List.dropLast_subset _ hmem)) ?_
    exact fun r hmem hcode => absurd (.inl hcode) (hnot r hmem)
  | error e s' =>
    rw [hr] at hreached
    obtain ⟨ts, s₁, hrun, hgives⟩ := hreached
    obtain ⟨last, hreports, -, hend⟩ := hgives.exists_report
    have hnot : ∀ r ∈ s₁.reports.reverse, ¬r.diagnostic.EndsParse := fun r hmem =>
      Report.not_endsParse (hrun.not_fatal hstart r (List.mem_reverse.1 hmem))
    rw [run_of_error hr, hreports, List.reverse_cons]
    refine .of_reports (fun _ => by simp) (fun h => absurd rfl h) (by rwa [List.dropLast_concat]) ?_
    intro r hmem hcode
    rcases List.mem_append.1 hmem with hmem | hmem
    · exact absurd (.inl hcode) (hnot r hmem)
    · rw [List.mem_singleton.1 hmem] at hcode ⊢
      obtain ⟨hrest, hspan⟩ := hend hcode
      have hts : stream.significant = ts := by
        have := hrun.rest_eq
        rwa [hrest, List.append_nil] at this
      rw [hspan, ParserState.span, hrest, hrun.stop_eq, hrun.lastStop_eq, Stream.endSpan, hts]
      rfl

/-- A rule that survives syntax errors has no tree only where the parse is over. -/
theorem tree_eq_none_iff {rule : Parser α} [Lawful rule] (h : Survives rule (.start stream)) :
    (rule.run stream).tree = none ↔ (rule.run stream).EndsEarly := by
  refine ⟨fun hnone => ?_, (run_disciplined rule stream).no_tree⟩
  have hreached := Lawful.reached (p := rule) (.start stream)
  cases hr : rule (.start stream) with
  | ok a s' =>
    rw [run_of_ok hr] at hnone
    cases hnone
  | error e s' =>
    rw [hr] at hreached
    obtain ⟨ts, s₁, -, hgives⟩ := hreached
    obtain ⟨last, hreports, hends, -⟩ := hgives.exists_report
    have he : e ≠ .syntaxError := by
      rintro rfl
      exact h s' hr
    rw [run_of_error hr, hreports]
    exact ⟨last.diagnostic, Parse.mem_diagnostics.2 ⟨last, by simp, rfl⟩, hends.2 he⟩

/-! ## Roots -/

section

variable (levels : Nat)

instance lawful_sourceFile : Lawful (sourceFile levels) := by
  unfold sourceFile
  infer_instance

instance lawful_statementRoot : Lawful (statementRoot levels) := by
  unfold statementRoot
  infer_instance

instance lawful_algorithmRoot : Lawful (algorithmRoot levels) := by
  unfold algorithmRoot
  infer_instance

instance lawful_methodRoot : Lawful (methodRoot levels) := by
  unfold methodRoot
  infer_instance

instance lawful_expressionRoot : Lawful (expressionRoot levels) := by
  unfold expressionRoot
  infer_instance

instance lawful_initializerRoot : Lawful (initializerRoot levels) := by
  unfold initializerRoot
  infer_instance

instance resilient_algorithm : Resilient (algorithm levels) := by
  unfold algorithm
  infer_instance

instance resilient_method : Resilient (method levels) := by
  unfold method
  infer_instance

instance resilient_unitTurn : Resilient (unitTurn levels) := by
  refine @resilient_bind _ _ _ _ resilient_get fun s => ?_
  split
  · infer_instance
  · split <;> infer_instance

instance resilient_sourceFile : Resilient (sourceFile levels) := by
  unfold sourceFile
  infer_instance

instance resilient_statementsTurn : Resilient (statementsTurn levels) := by
  refine @resilient_bind _ _ _ _ (resilient_statements levels) fun sts =>
    @resilient_bind _ _ _ _ resilient_get fun s => ?_
  split <;> infer_instance

instance resilient_statementRoot : Resilient (statementRoot levels) := by
  unfold statementRoot
  infer_instance

instance resilient_expectEndOfInput : Resilient expectEndOfInput := by
  refine @resilient_bind _ _ _ _ resilient_get fun s => ?_
  split <;> infer_instance

end

/-- A root that asks for a word, and survives syntax errors behind it, also fails where another token stands first. -/
theorem tree_eq_none_iff_of_word {k : TokenKind} {rule : Parser α} [Lawful rule] [Resilient rule] :
    ((do if ← sees k then rule else fail k.spelling).run stream).tree = none ↔
      ((do if ← sees k then rule else fail k.spelling).run stream).EndsEarly ∨ headKind stream.significant ≠ k := by
  have hkind : (ParserState.start stream).kind = headKind stream.significant := ParserState.kind_eq_headKind _
  by_cases hk : headKind stream.significant = k
  · have hroot : (do if ← sees k then rule else fail k.spelling) (.start stream) = rule (.start stream) := by
      rw [bind_of_ok (sees_apply k _), hkind, beq_iff_eq.2 hk, if_pos rfl]
    have hsurvives : Survives (do if ← sees k then rule else fail k.spelling) (.start stream) := by
      rw [Survives, hroot]
      exact Resilient.survives _
    rw [tree_eq_none_iff hsurvives, or_iff_left (not_not_intro hk)]
  · have hroot : (do if ← sees k then rule else fail k.spelling) (.start stream) =
        (fail k.spelling : Parser α) (.start stream) := by
      rw [bind_of_ok (sees_apply k _), hkind, beq_eq_false_iff_ne.2 hk, if_neg Bool.false_ne_true]
    refine iff_of_true ?_ (.inr hk)
    cases hrest : (ParserState.start stream).rest with
    | nil => rw [run_of_error (hroot.trans (fail_of_nil hrest _))]
    | cons t ts => rw [run_of_error (hroot.trans (fail_of_cons hrest _))]

end Parser

/-- A source and a list of statements have no tree just where the parse is over with a fatal problem, and a single unit
also where it does not begin with its word. Whatever a stream is read as, a missing tree is explained by an error, at
most one report ends the parse, and it is the last one. -/
theorem parse_disciplined (s : Stream) :
    ((parseSource s).tree = none ↔ (parseSource s).EndsEarly) ∧
    ((parseStatements s).tree = none ↔ (parseStatements s).EndsEarly) ∧
    ((parseAlgorithm s).tree = none ↔ (parseAlgorithm s).EndsEarly ∨ headKind s.significant ≠ .kwAlgorithm) ∧
    ((parseMethod s).tree = none ↔ (parseMethod s).EndsEarly ∨ headKind s.significant ≠ .kwMethod) ∧
    ∀ entry, (parse entry s).Disciplined s := by
  refine ⟨Parser.tree_eq_none_iff (Parser.Resilient.survives _), Parser.tree_eq_none_iff (Parser.Resilient.survives _),
    Parser.tree_eq_none_iff_of_word, Parser.tree_eq_none_iff_of_word, ?_⟩
  intro entry
  cases entry <;> exact (Parser.run_disciplined _ s).map _

end StructuredText
