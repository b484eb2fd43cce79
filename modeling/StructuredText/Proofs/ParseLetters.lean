import StructuredText.Proofs.Agreeing
import StructuredText.Proofs.Roots

/-!
# The case of letters makes no difference

Texts that differ in the case of letters only are cut into the same tokens and read in the same way: what is read from
the one is in capitals what is read from the other one (`parse_sameLetters`).
-/

namespace StructuredText

open Cased (capitals)

/-! ## Diagnostics in capitals -/

/-- The words for a problem are in capitals those for the problem in capitals. -/
theorem Problem.upper_message (p : Problem) :
    Text.upperString p.capitals.message = Text.upperString p.message := by
  have hupper (x : String) : Text.upperString (Text.upperString x) = Text.upperString x := by
    rw [Text.upperString_eq_iff, Text.toList_upperString, Text.upper_upper]
  have happend {x x' y y' : String} (hx : Text.upperString x = Text.upperString x')
      (hy : Text.upperString y = Text.upperString y') : Text.upperString (x ++ y) = Text.upperString (x' ++ y') := by
    rw [Text.upperString_append, hx, hy, Text.upperString_append]
  cases p with
  | unexpected what found => exact happend (happend rfl (hupper found)) rfl
  | malformedLiteral text fault => exact happend (happend (happend rfl (hupper text)) rfl) rfl
  | stray found | strayOutside found => exact happend (happend rfl (hupper found)) rfl
  | _ => rfl

theorem Report.capitals_diagnostic (r : Report) : r.capitals.diagnostic.capitals = r.diagnostic.capitals := by
  obtain ⟨problem, span⟩ := r
  have hcode : problem.capitals.code = problem.code := by cases problem <;> rfl
  have hexpected : problem.capitals.expected? = problem.expected? := by cases problem <;> rfl
  simp only [Diagnostic.capitals, Report.diagnostic, Report.capitals, Problem.upper_message, hcode, hexpected]

namespace Diagnostic

theorem capitals_insertInOrder (d : Diagnostic) (ds : List Diagnostic) :
    (d.insertInOrder ds).map capitals = d.capitals.insertInOrder (ds.map capitals) := by
  induction ds with
  | nil => rfl
  | cons e es ih =>
    have hspan (d : Diagnostic) : d.capitals.span = d.span := rfl
    simp only [List.map_cons, insertInOrder, hspan]
    split
    · rfl
    · rw [List.map_cons, ih]

theorem capitals_inSourceOrder (ds : List Diagnostic) :
    (inSourceOrder ds).map capitals = inSourceOrder (ds.map capitals) := by
  induction ds with
  | nil => rfl
  | cons d ds ih =>
    show (d.insertInOrder (inSourceOrder ds)).map capitals = d.capitals.insertInOrder (inSourceOrder (ds.map capitals))
    rw [capitals_insertInOrder, ih]

end Diagnostic

/-! ## Parses that are alike -/

/-- The two parses are the same in capitals. -/
structure Parse.Alike [Cased α] (p q : Parse α) : Prop where
  tree : p.tree.map capitals = q.tree.map capitals
  reports : p.reports.map Report.capitals = q.reports.map Report.capitals

namespace Parse.Alike

variable [Cased α] [Cased β] {p q : Parse α}

theorem map {f : α → β} (hf : ∀ a, capitals (f a) = f (capitals a)) (h : Alike p q) : Alike (p.map f) (q.map f) := by
  refine ⟨?_, h.reports⟩
  have hmap (o : Option α) : (o.map f).map capitals = (o.map capitals).map f := by
    rw [Option.map_map, Option.map_map]
    exact congrArg (o.map ·) (funext hf)
  show (p.tree.map f).map capitals = (q.tree.map f).map capitals
  rw [hmap, hmap, h.tree]

theorem diagnostics (h : Alike p q) :
    p.diagnostics.map Diagnostic.capitals = q.diagnostics.map Diagnostic.capitals := by
  have hwords (rs : List Report) : (rs.map Report.diagnostic).map Diagnostic.capitals =
      ((rs.map Report.capitals).map Report.diagnostic).map Diagnostic.capitals := by
    simp only [List.map_map]
    exact List.map_congr_left fun r _ => r.capitals_diagnostic.symm
  rw [Parse.diagnostics, Parse.diagnostics, Diagnostic.capitals_inSourceOrder, Diagnostic.capitals_inSourceOrder,
    hwords, hwords q.reports, h.reports]

end Parse.Alike

/-- A rule that agrees with itself has parses that are alike of streams that are alike. -/
theorem Parser.run_alike [Cased α] (rule : Parser α) [h : Agree rule rule] {s s' : Stream}
    (hs : Alike (ParserState.start s) (.start s')) : (rule.run s).Alike (rule.run s') := by
  have hreports {t t' : ParserState} (ht : Alike t t') :
      t.reports.reverse.map Report.capitals = t'.reports.reverse.map Report.capitals := by
    rw [List.map_reverse, List.map_reverse]
    exact congrArg (fun t => t.reports.reverse) ht.capitals_eq
  obtain ⟨a, t, a', t', hr, hr', ha, ht⟩ | ⟨e, t, t', hr, hr', ht⟩ := outcome_cases (h.outcome (.start s) (.start s'))
  · rw [run_of_ok hr, run_of_ok hr']
    exact ⟨congrArg some ha.capitals_eq, hreports ht⟩
  · rw [run_of_error hr, run_of_error hr']
    exact ⟨rfl, hreports ht⟩

/-- The parses of two texts that differ in the case of letters begin alike. -/
theorem start_alike {a b : String} (h : Text.sameLetters a b = true) :
    Alike (ParserState.start (.ofText a)) (.start (.ofText b)) := by
  have hupper : Text.upper a.toList = Text.upper b.toList := Text.sameLetters_iff.1 h
  have hlex : lex a = lex b := lex_eq_of_sameLetters h
  have hstop : (Stream.ofText a).stop = (Stream.ofText b).stop := by
    rw [Stream.stop, Stream.stop, show (Stream.ofText a).tokens = (Stream.ofText b).tokens from hlex]
    split
    · rfl
    · show min (Text.byteLength a.toList) _ = min (Text.byteLength b.toList) _
      rw [← Text.byteLength_upper, hupper, Text.byteLength_upper]
  have htoken (t : Token) : (t.lexeme a.toList).capitals = (t.lexeme b.toList).capitals := by
    have htext : Text.upperString (t.text a.toList) = Text.upperString (t.text b.toList) := by
      rw [Token.text, Token.text, ← textIn_upper, ← textIn_upper, hupper]
    rw [Token.lexeme, Token.lexeme, Lexeme.capitals, Lexeme.capitals, htext]
  have hrest : (Stream.ofText a).significant.map Lexeme.capitals =
      (Stream.ofText b).significant.map Lexeme.capitals := by
    rw [Stream.significant, Stream.significant, lexemes_eq_map, lexemes_eq_map, List.map_map, List.map_map,
      show (Stream.ofText a).tokens = (Stream.ofText b).tokens from hlex]
    exact List.map_congr_left fun t _ => htoken t
  have hstart (s : Stream) : capitals (ParserState.start s) =
      ⟨Text.upper s.source, s.stop, s.significant.map Lexeme.capitals, 0, []⟩ := rfl
  constructor
  rw [hstart, hstart, hstop, hrest, show Text.upper (Stream.ofText a).source = _ from hupper]
  rfl

/-- Texts that differ in the case of letters only are read in the same way. They are cut into tokens of the same kinds
at the same places, and whatever they are read as, they have the same trees but for the case of letters in names and
values, and the same diagnostics at the same places but for the case of letters in messages. -/
theorem parse_sameLetters {a b : String} (h : Text.sameLetters a b = true) :
    lex a = lex b ∧ ∀ entry,
      (parse entry (.ofText a)).tree.map Tree.capitals = (parse entry (.ofText b)).tree.map Tree.capitals ∧
      (parse entry (.ofText a)).diagnostics.map Diagnostic.capitals =
        (parse entry (.ofText b)).diagnostics.map Diagnostic.capitals := by
  refine ⟨lex_eq_of_sameLetters h, fun entry => ?_⟩
  have hstart := start_alike h
  have hparse : (parse entry (.ofText a)).Alike (parse entry (.ofText b)) := by
    cases entry <;> exact (Parser.run_alike _ hstart).map fun _ => rfl
  exact ⟨hparse.tree, hparse.diagnostics⟩

/-- A text with a word, a name, a type name, escapes and an exponent, and an argument that is missing. -/
def mixedText : String := "If Ab = int#16#fF then s := 'xY$n$4a'; f(1.0e3, end_IF"

/-- The text with other small letters and capitals. -/
def remixedText : String := "iF aB = INT#16#Ff THEN S := 'Xy$N$4A'; F(1.0E3, END_if"

theorem parse_sameLetters_mixed :
    Text.sameLetters mixedText remixedText = true ∧ lex mixedText = lex remixedText ∧ ∀ entry,
      (parse entry (.ofText mixedText)).tree.map Tree.capitals =
        (parse entry (.ofText remixedText)).tree.map Tree.capitals ∧
      (parse entry (.ofText mixedText)).diagnostics.map Diagnostic.capitals =
        (parse entry (.ofText remixedText)).diagnostics.map Diagnostic.capitals := by
  have hsame : Text.sameLetters mixedText remixedText = true := by decide
  exact ⟨hsame, parse_sameLetters hsame⟩

end StructuredText
