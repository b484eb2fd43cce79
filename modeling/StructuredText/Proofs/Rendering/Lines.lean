import StructuredText.Proofs.Rendering.Messages
import StructuredText.Report.Render

/-!
# Lines of diagnostics

A text falls into lines, each ended by a line break (`Text.lines`). Written as text, every diagnostic begins a line of
its own, and it keeps to that line unless its message quotes a line break (`Diagnostic.lines_renderAll`).
-/

namespace StructuredText

/-! ## Lines -/

namespace Text

/-- The lines of a text, without the line breaks that end them. -/
def linesOf : List Char → List (List Char)
  | [] => []
  | c :: cs =>
    if c = '\n' then [] :: linesOf cs
    else
      match linesOf cs with
      | [] => [[c]]
      | l :: ls => (c :: l) :: ls

/-- The lines of a text, without the line breaks that end them. -/
def lines (s : String) : List String := (linesOf s.toList).map String.ofList

theorem linesOf_break (cs : List Char) : linesOf ('\n' :: cs) = [] :: linesOf cs := rfl

/-- A character stands at the front of its line. -/
theorem linesOf_cons {c : Char} (h : c ≠ '\n') (cs : List Char) :
    linesOf (c :: cs) = (c :: (linesOf cs).headD []) :: (linesOf cs).tail := by
  rw [linesOf, if_neg h]
  cases linesOf cs <;> rfl

theorem linesOf_ne_nil {cs : List Char} (h : cs ≠ []) : linesOf cs ≠ [] := by
  cases cs with
  | nil => exact absurd rfl h
  | cons c cs =>
    by_cases hc : c = '\n'
    · rw [hc, linesOf_break]
      exact List.cons_ne_nil _ _
    · rw [linesOf_cons hc]
      exact List.cons_ne_nil _ _

/-- What stands behind a line break begins a new line. -/
theorem linesOf_append_break (cs ds : List Char) :
    linesOf (cs ++ '\n' :: ds) = linesOf (cs ++ ['\n']) ++ linesOf ds := by
  induction cs with
  | nil => rfl
  | cons c cs ih =>
    rw [List.cons_append, List.cons_append]
    by_cases hc : c = '\n'
    · rw [hc, linesOf_break, linesOf_break, ih, List.cons_append]
    · rw [linesOf_cons hc, linesOf_cons hc, ih]
      cases h : linesOf (cs ++ ['\n']) with
      | nil => exact absurd h (linesOf_ne_nil (by simp))
      | cons l ls => rfl

theorem linesOf_line {l : List Char} (h : '\n' ∉ l) : linesOf (l ++ ['\n']) = [l] := by
  induction l with
  | nil => rfl
  | cons c cs ih =>
    rw [List.mem_cons, not_or] at h
    rw [List.cons_append, linesOf_cons (Ne.symm h.1), ih h.2]
    rfl

/-- Lines hold no line breaks. -/
theorem notMem_of_mem_linesOf {cs : List Char} : ∀ l ∈ linesOf cs, '\n' ∉ l := by
  induction cs with
  | nil => exact nofun
  | cons c cs ih =>
    by_cases hc : c = '\n'
    · rw [hc, linesOf_break]
      exact List.forall_mem_cons.2 ⟨List.not_mem_nil, ih⟩
    · rw [linesOf_cons hc]
      cases h : linesOf cs with
      | nil => exact List.forall_mem_singleton.2 (by simpa using Ne.symm hc)
      | cons l ls =>
        rw [h] at ih
        have hl := ih l List.mem_cons_self
        exact List.forall_mem_cons.2 ⟨by simpa using ⟨Ne.symm hc, hl⟩, fun m hm => ih m (List.mem_cons_of_mem _ hm)⟩

theorem lines_line_append (s t : String) : lines (s ++ "\n" ++ t) = lines (s ++ "\n") ++ lines t := by
  have hbreak : (s ++ "\n" ++ t).toList = s.toList ++ '\n' :: t.toList := by simp
  have hline : (s ++ "\n").toList = s.toList ++ ['\n'] := by simp
  rw [lines, lines, lines, hbreak, hline, linesOf_append_break, List.map_append]

theorem lines_line {s : String} (h : '\n' ∉ s.toList) : lines (s ++ "\n") = [s] := by
  have hline : (s ++ "\n").toList = s.toList ++ ['\n'] := by simp
  rw [lines, hline, linesOf_line h, List.map_singleton, String.ofList_toList]

theorem notMem_of_mem_lines {s l : String} (h : l ∈ lines s) : '\n' ∉ l.toList := by
  obtain ⟨m, hm, rfl⟩ := List.mem_map.1 h
  rw [String.toList_ofList]
  exact notMem_of_mem_linesOf m hm

/-- Where every part ends with a line break, every part begins a line. -/
theorem lines_join (ls : List String) (rest : String) :
    lines (String.join (ls.map (· ++ "\n")) ++ rest) = (ls.flatMap fun l => lines (l ++ "\n")) ++ lines rest := by
  induction ls with
  | nil => simp
  | cons l ls ih =>
    rw [List.map_cons, String.join_cons, String.append_assoc, lines_line_append, ih, List.flatMap_cons,
      List.append_assoc]

end Text

/-! ## Diagnostics as text -/

namespace Diagnostic

/-- What is told about a diagnostic: where it is, how bad it is, and what is wrong. -/
def told (path text : String) (d : Diagnostic) : String :=
  let position := Position.ofOffset text.toList d.span.start
  s!"{path}:{position.line}:{position.column}: {d.severity.label}[{d.code.number}]: {d.message}"

/-- What is told about diagnostics that are not shown, if there are any. -/
def toldHidden (path : String) (limit : Nat) (ds : List Diagnostic) : List String :=
  if limit < ds.length then [s!"{path}: {ds.length - limit} more diagnostic(s) not shown"] else []

instance oneLine_toString {s : String} [h : OneLine s] : OneLine (toString s) := h

instance oneLine_number (n : Nat) : OneLine (toString n) := by
  constructor
  rw [Nat.toString_eq_repr, Nat.toList_repr]
  exact fun h => absurd (Nat.isDigit_of_mem_toDigits (by decide) (by decide) h) (by decide)

instance oneLine_severity (severity : Severity) : OneLine severity.label := ⟨by cases severity <;> decide⟩

instance oneLine_code (code : DiagnosticCode) : OneLine code.number := ⟨by cases code <;> decide⟩

instance : OneLine "[" := ⟨by decide⟩
instance : OneLine "]: " := ⟨by decide⟩
instance : OneLine " more diagnostic(s) not shown" := ⟨by decide⟩

section

variable {path : String} (hpath : '\n' ∉ path.toList)

include hpath

theorem lineBreak_mem_told (text : String) (d : Diagnostic) :
    '\n' ∈ (d.told path text).toList ↔ '\n' ∈ d.message.toList := by
  constructor
  · intro h
    by_contra hmessage
    have : OneLine path := ⟨hpath⟩
    have : OneLine d.message := ⟨hmessage⟩
    have htold : OneLine (d.told path text) := by
      unfold told
      dsimp only
      infer_instance
    exact htold.notMem h
  · intro h
    exact (infix_append_right _ _).subset h

end

theorem renderIn_plain (path text : String) (d : Diagnostic) :
    d.renderIn path (LineIndex.ofSource text.toList) ⟨false⟩ = d.told path text ++ "\n" := by
  simp [renderIn, told, Palette.paint, Position.ofOffset, ← String.toList_inj, toString]

/-- Every diagnostic that is shown begins a line of its own, and the number of the others stands on the last line. -/
theorem lines_renderAll_plain {path : String} (hpath : '\n' ∉ path.toList) (text : String) (limit : Nat)
    (ds : List Diagnostic) :
    Text.lines (renderAll path text.toList limit ⟨false⟩ ds) =
      ((ds.take limit).flatMap fun d => Text.lines (d.told path text ++ "\n")) ++ toldHidden path limit ds := by
  have hshown : (ds.take limit).map (renderIn path (LineIndex.ofSource text.toList) ⟨false⟩) =
      ((ds.take limit).map (told path text)).map (· ++ "\n") := by
    rw [List.map_map]
    exact List.map_congr_left fun d _ => renderIn_plain path text d
  rw [renderAll, hshown, Text.lines_join, List.flatMap_map, toldHidden]
  congr 1
  by_cases h : limit < ds.length
  · have : OneLine path := ⟨hpath⟩
    have hline : OneLine s!"{path}: {ds.length - limit} more diagnostic(s) not shown" := inferInstance
    rw [if_pos h, if_neg (by omega)]
    exact Text.lines_line hline.notMem
  · rw [if_neg h, if_pos (by omega)]
    rfl

/-- Read from a text and written as text, every diagnostic that is shown begins a line with the path, its line and its
column, in order, and the number of the others stands on a line of its own. There is one line for each diagnostic unless
one of them quotes a line break: of a text that is no token, or of a malformed literal. -/
theorem lines_renderAll (entry : Entry) (text : String) (limit : Nat) {path : String} (hpath : '\n' ∉ path.toList) :
    let ds := (parse entry (.ofText text)).diagnostics
    let lines := Text.lines (renderAll path text.toList limit ⟨false⟩ ds)
    lines = ((ds.take limit).flatMap fun d => Text.lines (d.told path text ++ "\n")) ++ toldHidden path limit ds ∧
    (lines = (ds.take limit).map (told path text) ++ toldHidden path limit ds ↔
      ∀ d ∈ ds.take limit, ¬d.QuotesLineBreak text) := by
  intro ds lines
  have hlines := lines_renderAll_plain hpath text limit ds
  have hquotes {d : Diagnostic} (hd : d ∈ ds.take limit) :
      '\n' ∈ (d.told path text).toList ↔ d.QuotesLineBreak text :=
    (lineBreak_mem_told hpath text d).trans (lineBreak_mem_message entry text (List.mem_of_mem_take hd))
  refine ⟨hlines, fun h d hd => ?_, fun h => ?_⟩
  · have hmem : d.told path text ∈ lines := h ▸ List.mem_append_left _ (List.mem_map_of_mem hd)
    exact fun hd' => Text.notMem_of_mem_lines hmem ((hquotes hd).2 hd')
  · have hone : (ds.take limit).flatMap (fun d => Text.lines (d.told path text ++ "\n")) =
        (ds.take limit).flatMap fun d => [d.told path text] :=
      List.flatMap_congr fun d hd => Text.lines_line fun hmem => h d hd ((hquotes hd).1 hmem)
    rw [show lines = _ from hlines, hone, ← List.map_eq_flatMap]

/-- One of two diagnostics stands on its line, and the number of the other behind it. -/
theorem lines_renderAll_limited :
    '\n' ∉ "m.st".toList ∧
    Text.lines (renderAll "m.st" "x :=;\ny".toList 1 ⟨false⟩ (parse .statements (.ofText "x :=;\ny")).diagnostics) =
      ["m.st:1:5: error[E001]: expected expression, found ';'", "m.st: 1 more diagnostic(s) not shown"] ∧
    ∀ d ∈ (parse .statements (.ofText "x :=;\ny")).diagnostics.take 1, ¬d.QuotesLineBreak "x :=;\ny" := by
  have hpath : '\n' ∉ "m.st".toList := by decide
  refine ⟨hpath, by decide +kernel, ?_⟩
  exact (lines_renderAll .statements "x :=;\ny" 1 hpath).2.1 (by decide +kernel)

/-- A comment that is never closed is quoted with its line break, and so its diagnostic takes two lines. -/
theorem lines_renderAll_openComment :
    ¬∀ (entry : Entry) (text : String) (limit : Nat) (path : String), '\n' ∉ path.toList →
      let ds := (parse entry (.ofText text)).diagnostics
      (Text.lines (renderAll path text.toList limit ⟨false⟩ ds)).length =
        min ds.length limit + if limit < ds.length then 1 else 0 := by
  intro h
  have hlength := h .statements "(* a\nb" 10 "m.st" (by decide)
  revert hlength
  decide +kernel

end Diagnostic

end StructuredText
