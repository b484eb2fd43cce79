import StructuredText.Diagnostic
import StructuredText.Json.Value
import StructuredText.Report.Palette
import StructuredText.Report.Position

/-!
# Diagnostics of a file

The diagnostics of a file are written one on a line, as text or as JSON, up to a limit. In text the number of those
left out is told at the end.
-/

namespace StructuredText

/-- The style of a severity. -/
def Severity.style : Severity → Style
  | error => .error
  | warning => .warning

namespace Diagnostic

/-- The line of a diagnostic. -/
def renderIn (path : String) (index : LineIndex) (palette : Palette) (d : Diagnostic) : String :=
  let position := index.position d.span.start
  let location := palette.paint .accent s!"{path}:{position.line}:{position.column}:"
  let label := palette.paint d.severity.style s!"{d.severity.label}[{d.code.number}]:"
  s!"{location} {label} {d.message}\n"

/-- The diagnostics of a file as text, at most `limit` of them and then the number of the others. -/
def renderAll (path : String) (source : List Char) (limit : Nat) (palette : Palette) (ds : List Diagnostic) :
    String :=
  let index := LineIndex.ofSource source
  let hidden := ds.length - limit
  String.join ((ds.take limit).map (renderIn path index palette)) ++
    if hidden = 0 then "" else palette.paint .dim s!"{path}: {hidden} more diagnostic(s) not shown" ++ "\n"

/-- A diagnostic as a JSON object. -/
def toJson (path : String) (index : LineIndex) (d : Diagnostic) : Json :=
  let position := index.position d.span.start
  .obj ([("path", .str path), ("line", .num position.line), ("column", .num position.column),
    ("start", .num d.span.start), ("end", .num d.span.stop), ("code", .str d.code.number),
    ("severity", .str d.severity.label), ("message", .str d.message)] ++
    (d.expected.map fun what => ("expected", .str what)).toList)

/-- The diagnostics of a file as JSON, at most `limit` of them. -/
def renderAllJson (path : String) (source : List Char) (limit : Nat) (ds : List Diagnostic) : String :=
  let index := LineIndex.ofSource source
  String.join ((ds.take limit).map fun d => (d.toJson path index).compact ++ "\n")

end Diagnostic

end StructuredText
