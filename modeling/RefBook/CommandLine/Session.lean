import RefBook.Build.Run
import RefBook.CommandLine.Help
import RefBook.CommandLine.Reader

/-!
# RefBook.CommandLine.Session — one run of the program

* `Report`: what a run leaves behind: its status, its outputs, and the site afterwards.
* `run`: the report of a command line at a site.
-/

namespace RefBook

/-- The status after a command line that cannot be read. -/
def usageStatus : Nat := 64

/-- What a run leaves behind. -/
structure Report where
  /-- The status that the process ends with. -/
  status : Nat
  /-- What is printed. -/
  stdout : Text := []
  /-- What is printed on standard error, log lines apart. -/
  stderr : Text := []
  /-- The site afterwards. -/
  site : Site

/-- What is printed on standard error about a command line that cannot be read. -/
def Interrupt.message : Interrupt → Text
  | help _ => []
  | version => []
  | unknownArgument => "error: unexpected argument\n".toList
  | invalidValue => "error: invalid or missing value\n".toList
  | argumentConflict => "error: an option is given more than once\n".toList
  | tooManyValues => "error: unexpected value for an option without one\n".toList

/-- The report of a command line that asks for something else than a build, or cannot be read. -/
def Interrupt.report (i : Interrupt) (site : Site) : Report :=
  match i with
  | help true => { status := 0, stdout := longHelp, site }
  | help false => { status := 0, stdout := shortHelp, site }
  | version => { status := 0, stdout := versionLine, site }
  | i => { status := usageStatus, stderr := i.message, site }

/-- What is printed on standard error about a build that failed.  A missing descriptor is told
without calling it an error. -/
def Failure.line (f : Failure) : Text :=
  match f with
  | noDescriptor _ => f.message ++ ['\n']
  | _ => "error: ".toList ++ f.message ++ ['\n']

/-- One run of the program. -/
def run (args : List Text) (site : Site) : Report :=
  match readArguments args with
  | .error i => i.report site
  | .ok settings =>
    match generate settings site with
    | (.ok _, site) => { status := 0, site }
    | (.error f, site) => { status := f.exitStatus, stderr := f.line, site }

end RefBook
