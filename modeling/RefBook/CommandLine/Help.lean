import RefBook.Text.Basic

/-!
# RefBook.CommandLine.Help — what is printed on request

* `shortHelp`, `longHelp`: the options, with a line for each or with all their values.
* `versionLine`: the name and the version of the program.
-/

namespace RefBook

/-- Lines with a line feed after each. -/
def printed (lines : List String) : Text :=
  lines.flatMap fun line => line.toList ++ ['\n']

/-- The options with a line for each. -/
def shortHelp : Text := printed [
  "Generate a Markdown API reference from elm-make docs output",
  "",
  "Usage: elmdocs [OPTIONS]",
  "",
  "Options:",
  "  -v, --version",
  "          Print version",
  "  -o, --output <FILE>",
  "          Output file, relative to the project directory [default: DOCS.md]",
  "  -i, --input <FILE>",
  "          Read an existing docs JSON file instead of running the compiler",
  "  -C, --project <DIR>",
  "          Project directory containing `elm-package.json` [default: .]",
  "      --compiler <PROGRAM>",
  "          Compiler program to invoke [default: elm-make]",
  "      --operator-style <OPERATOR_STYLE>",
  "          How operator names are displayed [default: bare] [possible values: bare, decorated]",
  "      --verbose...",
  "          Increase log verbosity (--verbose info, twice debug, three times trace)",
  "  -q, --quiet",
  "          Suppress all log output",
  "      --color <COLOR>",
  "          Color output control [default: auto] [possible values: auto, always, never]",
  "      --log-format <LOG_FORMAT>",
  "          Log output format [default: human] [possible values: human, json]",
  "  -h, --help",
  "          Print help (see more with '--help')"]

/-- The options with all their values. -/
def longHelp : Text := printed [
  "Generate a Markdown API reference for an Elm package.",
  "",
  "Runs the compiler in docs mode inside the project directory and writes every exposed module's documentation into one Markdown file.",
  "",
  "Usage: elmdocs [OPTIONS]",
  "",
  "Options:",
  "  -v, --version",
  "          Print version",
  "",
  "  -o, --output <FILE>",
  "          Output file, relative to the project directory",
  "          ",
  "          [default: DOCS.md]",
  "",
  "  -i, --input <FILE>",
  "          Read an existing docs JSON file instead of running the compiler",
  "",
  "  -C, --project <DIR>",
  "          Project directory containing `elm-package.json`",
  "          ",
  "          [default: .]",
  "",
  "      --compiler <PROGRAM>",
  "          Compiler program to invoke",
  "          ",
  "          [default: elm-make]",
  "",
  "      --operator-style <OPERATOR_STYLE>",
  "          How operator names are displayed",
  "",
  "          Possible values:",
  "          - bare:      Render operators as written in `@docs` after sanitizing: `::`",
  "          - decorated: Render operators in their prefix form: `(::)`",
  "          ",
  "          [default: bare]",
  "",
  "      --verbose...",
  "          Increase log verbosity (--verbose info, twice debug, three times trace)",
  "",
  "  -q, --quiet",
  "          Suppress all log output",
  "",
  "      --color <COLOR>",
  "          Color output control",
  "",
  "          Possible values:",
  "          - auto:   Auto-detect terminal support",
  "          - always: Always use color",
  "          - never:  Never use color",
  "          ",
  "          [default: auto]",
  "",
  "      --log-format <LOG_FORMAT>",
  "          Log output format",
  "",
  "          Possible values:",
  "          - human: Human-readable format with optional ANSI colors",
  "          - json:  Newline-delimited JSON for machine consumption",
  "          ",
  "          [default: human]",
  "",
  "  -h, --help",
  "          Print help (see a summary with '-h')"]

/-- The name and the version of the program. -/
def versionLine : Text := printed ["elmdocs 0.3.0"]

end RefBook
