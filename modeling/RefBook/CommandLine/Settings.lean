import RefBook.Page.Document

/-!
# RefBook.CommandLine.Settings — what a command line settles

* `Settings`: where to read and write, what to run, and how to render and log.
* `Settings.renderOptions`: the part that a document depends on.
-/

namespace RefBook

/-- When log lines are coloured. -/
inductive ColorChoice where
  /-- When they go to a terminal. -/
  | auto
  /-- In any case. -/
  | always
  /-- In no case. -/
  | never
deriving DecidableEq, Repr

/-- The form of log lines. -/
inductive LogFormat where
  /-- For people. -/
  | human
  /-- One object on each line. -/
  | json
deriving DecidableEq, Repr

/-- The settings of one run. -/
structure Settings where
  /-- Where the reference goes, from the project directory on. -/
  output : Text := "DOCS.md".toList
  /-- A file that describes the modules, instead of running the compiler. -/
  input : Option Text := none
  /-- The project directory. -/
  project : Text := ".".toList
  /-- The compiler to run. -/
  compiler : Text := "elm-make".toList
  /-- How operators are shown. -/
  style : OperatorStyle := .bare
  /-- How often more log lines were asked for. -/
  verbose : Nat := 0
  /-- Whether there are no log lines at all. -/
  quiet : Bool := false
  /-- When log lines are coloured. -/
  color : ColorChoice := .auto
  /-- The form of log lines. -/
  logFormat : LogFormat := .human
deriving DecidableEq, Repr

/-- How the reference is rendered.  The footer names the usual compiler, whichever is run. -/
def Settings.renderOptions (s : Settings) : RenderOptions :=
  { style := s.style }

/-- The least severe log lines shown at a verbosity. -/
def logLevel : Nat → Text
  | 0 => "warn".toList
  | 1 => "info".toList
  | 2 => "debug".toList
  | _ => "trace".toList

end RefBook
