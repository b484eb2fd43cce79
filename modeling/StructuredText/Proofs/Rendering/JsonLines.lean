import StructuredText.Proofs.Rendering.JsonReading
import StructuredText.Proofs.Rendering.Lines

/-!
# Diagnostics as lines of JSON

Written as JSON, every diagnostic takes one line, whatever its message, its hint and the path of its file hold. Read as
JSON, the line is an object that tells all about the diagnostic (`Diagnostic.lines_renderAllJson`). The number of its
code and the word of its severity are read by tables of their own, so that they tell one code from another.

A path is given by the text that is printed for it. Bytes of a path that are no text are replaced there, so that it is
this text that is given back.
-/

namespace StructuredText

/-- Where every line stands on one line, the lines are read back. -/
theorem Text.lines_join_eq {ls : List String} (h : ∀ l ∈ ls, '\n' ∉ l.toList) :
    lines (String.join (ls.map (· ++ "\n"))) = ls := by
  have hlines := lines_join ls ""
  have hone : ls.flatMap (fun l => lines (l ++ "\n")) = ls.flatMap fun l => [l] :=
    List.flatMap_congr fun l hl => lines_line (h l hl)
  rw [String.append_empty, hone, List.flatMap_singleton'] at hlines
  exact hlines.trans (List.append_nil ls)

/-- The code that a number is read as. -/
def DiagnosticCode.ofNumber? : String → Option DiagnosticCode
  | "E001" => some syntaxError
  | "E002" => some malformedLiteral
  | "E003" => some unexpectedEndOfStream
  | _ => none

theorem DiagnosticCode.ofNumber?_number (c : DiagnosticCode) : ofNumber? c.number = some c := by
  cases c <;> rfl

/-- The severity that a word is read as. -/
def Severity.ofLabel? : String → Option Severity
  | "error" => some error
  | "warning" => some warning
  | _ => none

theorem Severity.ofLabel?_label (s : Severity) : ofLabel? s.label = some s := by
  cases s <;> rfl

namespace Diagnostic

/-- The fields of an object tell about a diagnostic of a file: where it is, in lines and columns and in bytes, what it
is, and what was looked for, if anything was. -/
structure IsToldBy (path : String) (source : List Char) (d : Diagnostic) (fields : List (String × Json)) : Prop where
  /-- No name is used twice. -/
  nodup : (fields.map Prod.fst).Nodup
  path : fields.lookup "path" = some (.str path)
  line : fields.lookup "line" = some (.num (Position.ofOffset source d.span.start).line)
  column : fields.lookup "column" = some (.num (Position.ofOffset source d.span.start).column)
  start : fields.lookup "start" = some (.num d.span.start)
  stop : fields.lookup "end" = some (.num d.span.stop)
  code : ∃ number, fields.lookup "code" = some (.str number) ∧ DiagnosticCode.ofNumber? number = some d.code
  severity : ∃ word, fields.lookup "severity" = some (.str word) ∧ Severity.ofLabel? word = some d.severity
  message : fields.lookup "message" = some (.str d.message)
  expected : fields.lookup "expected" = d.expected.map .str

theorem exists_isToldBy (path : String) (source : List Char) (d : Diagnostic) :
    ∃ fields, d.toJson path (LineIndex.ofSource source) = .obj fields ∧ d.IsToldBy path source fields := by
  refine ⟨_, rfl, ?_⟩
  constructor
  · cases d.expected with
    | none =>
      show ["path", "line", "column", "start", "end", "code", "severity", "message"].Nodup
      decide
    | some what =>
      show ["path", "line", "column", "start", "end", "code", "severity", "message", "expected"].Nodup
      decide
  iterate 5 rfl
  · exact ⟨_, rfl, d.code.ofNumber?_number⟩
  · exact ⟨_, rfl, d.severity.ofLabel?_label⟩
  · rfl
  · cases d.expected <;> rfl

/-- Every diagnostic that is shown takes one line, which is not empty, and read as JSON the line is an object that tells
about the diagnostic. -/
theorem lines_renderAllJson (path : String) (source : List Char) (limit : Nat) (ds : List Diagnostic) :
    let lines := Text.lines (renderAllJson path source limit ds)
    lines.length = min limit ds.length ∧ (∀ l ∈ lines, l ≠ "") ∧
      List.Forall₂ (fun l d => ∃ fields, Json.decode l = some (.obj fields) ∧ d.IsToldBy path source fields) lines
        (ds.take limit) := by
  intro lines
  have hlines : lines = (ds.take limit).map fun d => (d.toJson path (LineIndex.ofSource source)).compact := by
    have hbreak : ∀ l ∈ (ds.take limit).map fun d => (d.toJson path (LineIndex.ofSource source)).compact,
        '\n' ∉ l.toList := by
      intro l hl
      obtain ⟨d, -, rfl⟩ := List.mem_map.1 hl
      exact Json.notMem_compact _
    have hjoin := Text.lines_join_eq hbreak
    rwa [List.map_map] at hjoin
  rw [hlines]
  refine ⟨by rw [List.length_map, List.length_take], ?_, ?_⟩
  · intro l hl hempty
    obtain ⟨d, -, rfl⟩ := List.mem_map.1 hl
    obtain ⟨c, cs, hfront, -⟩ := Json.exists_front (d.toJson path (LineIndex.ofSource source))
    rw [hempty] at hfront
    cases hfront
  · rw [List.forall₂_map_left_iff]
    refine List.forall₂_same.2 fun d _ => ?_
    obtain ⟨fields, hfields, htold⟩ := exists_isToldBy path source d
    exact ⟨fields, hfields ▸ Json.decode_compact _, htold⟩

end Diagnostic

end StructuredText
