import StructuredText.Command.Session
import StructuredText.Report.Render
import StructuredText.Text.Unprinted

/-!
# Trees and tokens of a file

The tree of a file is written as JSON with the fields of each object in the order of their names. Its tokens are
listed one on a line, with kind, span and text in columns.
-/

namespace StructuredText

/-- The text with blanks behind it, up to a width. -/
def padRight (width : Nat) (text : String) : String :=
  text ++ String.ofList (List.replicate (width - text.length) ' ')

/-- The line of a token. -/
def Lexeme.line (palette : Palette) (t : Lexeme) : String :=
  let span := palette.paint .dim (padRight 9 t.span.render)
  s!"{padRight 20 t.kind.label} {span} " ++ String.ofList (Text.quoted t.text.toList) ++ "\n"

/-- The lines of the tokens of a text, with trivia or without. -/
def tokenListing (text : String) (trivia : Bool) (palette : Palette) : String :=
  let tokens := (lex text).filter fun t => trivia || !t.kind.isTrivia
  String.join ((lexemes text.toList tokens).map (Lexeme.line palette))

/-- The text of a tree. -/
def Tree.listing (tree : Tree) (compact : Bool) : String :=
  (if compact then tree.toJson.sorted.compact else tree.toJson.sorted.pretty) ++ "\n"

/-- Writes the tree of a file, and its diagnostics to the standard error output. -/
def dump (host : Host) (line : LogEntry → String) (settings : Settings) (path : String) (compact : Bool) :
    Session (Parse Tree) := do
  let text ← Session.readText host path
  let p := parse settings.entry (.ofText text)
  Session.note line [.parsed settings.entry text]
  Session.write ((p.tree.map (·.listing compact)).getD "")
  Session.writeError
    (Diagnostic.renderAll path text.toList settings.maxPerFile host.errorPalette p.diagnostics)
  return p

/-- Lists the tokens of a file. -/
def listTokens (host : Host) (line : LogEntry → String) (settings : Settings) (path : String) (trivia : Bool) :
    Session Unit := do
  let text ← Session.readText host path
  Session.note line [.lexed text]
  Session.write (tokenListing text trivia (settings.color.palette host.outputIsTerminal))

end StructuredText
