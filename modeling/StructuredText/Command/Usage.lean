import StructuredText.Command.Arguments

/-!
# Help

The texts that are shown instead of running a command.
-/

namespace StructuredText

/-- The name and the version of the program. -/
def versionLine : String := "stalg 0.3.0\n"

/-- How the program is used. -/
def helpText : String :=
  String.join
    ["Structured Text algorithm and method checker\n\n",
     "Usage: stalg [OPTIONS] <COMMAND>\n\n",
     "Commands:\n",
     "  check [PATHS]...  Parse files and report diagnostics\n",
     "  dump <PATH>       Print the syntax tree of a file as JSON (--compact: on a single line)\n",
     "  tokens <PATH>     Print the token stream of a file (--trivia: with whitespace, comments and pragmas)\n",
     "  help              Print this message\n\n",
     "Options:\n",
     "  -v, --verbose          Show debug logging on stderr\n",
     "      --config <CONFIG>  Config file (defaults to stalg.toml or .stalg.toml in the working directory)\n",
     "      --entry <ENTRY>    Grammar entry point used to parse each file: source, algorithm, method,\n",
     "                         statements, expression or initializer\n",
     "      --format <FORMAT>  Diagnostic output format: text or json\n",
     "      --color <COLOR>    When to colour terminal output: auto, always or never\n",
     "  -h, --help             Print help\n",
     "  -V, --version          Print version\n"]

/-- What is wrong with a command line, in words. -/
def UsageError.message : UsageError → String
  | help => "help requested"
  | version => "version requested"
  | nothingGiven | missingCommand => "a command is required but none was provided"
  | unknownCommand => "unrecognized command"
  | missingPath => "a path is required but none was provided"
  | unknownArgument => "unexpected argument"
  | invalidValue => "an option or a path has no valid value"
  | repeatedOption => "an option cannot be used more than once"
  | unwantedValue => "an option takes no value"

end StructuredText
