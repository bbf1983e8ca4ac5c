import RefBook.CommandLine.Settings

/-!
# RefBook.CommandLine.Reader — reading the arguments

* `ValuedOption` and `Flag`: the options with and without a value, by their names and letters.
* `Interrupt`: what keeps a command line from being settings: a request for help or for the version,
  or the first thing wrong with it.
* `readArguments` reads arguments from left to right.

The value of an option may be the next argument.  Such a value is **pending**: it is judged when the
next option takes effect or the arguments end, so an unknown argument right after it comes first.
-/

namespace RefBook

/-! ## Options -/

/-- An option with a value. -/
inductive ValuedOption where
  /-- Where the reference goes. -/
  | output
  /-- The file that describes the modules. -/
  | input
  /-- The project directory. -/
  | project
  /-- The compiler. -/
  | compiler
  /-- How operators are shown. -/
  | operatorStyle
  /-- When log lines are coloured. -/
  | color
  /-- The form of log lines. -/
  | logFormat
deriving DecidableEq, Repr

/-- An option without a value. -/
inductive Flag where
  /-- More log lines. -/
  | verbose
  /-- No log lines. -/
  | quiet
  /-- What the options are. -/
  | help
  /-- Which version this is. -/
  | version
deriving DecidableEq, Repr

/-- An option of either kind. -/
inductive Switch where
  /-- With a value. -/
  | valued (o : ValuedOption)
  /-- Without one. -/
  | flag (f : Flag)
deriving DecidableEq, Repr

/-- The name of an option with a value. -/
def ValuedOption.name : ValuedOption → Text
  | output => "output".toList
  | input => "input".toList
  | project => "project".toList
  | compiler => "compiler".toList
  | operatorStyle => "operator-style".toList
  | color => "color".toList
  | logFormat => "log-format".toList

/-- The name of an option without a value. -/
def Flag.name : Flag → Text
  | verbose => "verbose".toList
  | quiet => "quiet".toList
  | help => "help".toList
  | version => "version".toList

/-- The name of an option. -/
def Switch.name : Switch → Text
  | valued o => o.name
  | flag f => f.name

/-- The letter of an option, if it has one. -/
def Switch.letter? : Switch → Option Char
  | valued .output => some 'o'
  | valued .input => some 'i'
  | valued .project => some 'C'
  | flag .quiet => some 'q'
  | flag .help => some 'h'
  | flag .version => some 'v'
  | _ => none

/-- All options. -/
def Switch.all : List Switch :=
  [.valued .output, .valued .input, .valued .project, .valued .compiler, .valued .operatorStyle,
    .valued .color, .valued .logFormat, .flag .verbose, .flag .quiet, .flag .help, .flag .version]

/-- The option of a name. -/
def Switch.ofName? (name : Text) : Option Switch :=
  all.find? fun s => s.name = name

/-- The option of a letter. -/
def Switch.ofLetter? (c : Char) : Option Switch :=
  all.find? fun s => s.letter? = some c

/-! ## What was read so far -/

/-- What keeps a command line from being settings. -/
inductive Interrupt where
  /-- Help is asked for, in the long form or the short one. -/
  | help (long : Bool)
  /-- The version is asked for. -/
  | version
  /-- No option of that name or letter, or an argument that belongs to none. -/
  | unknownArgument
  /-- A value that is missing, empty or not among those allowed. -/
  | invalidValue
  /-- An option that is given twice. -/
  | argumentConflict
  /-- A value for an option that takes none. -/
  | tooManyValues
deriving DecidableEq, Repr

/-- The options read so far. -/
structure Given where
  /-- Where the reference goes. -/
  output : Option Text := none
  /-- The file that describes the modules. -/
  input : Option Text := none
  /-- The project directory. -/
  project : Option Text := none
  /-- The compiler. -/
  compiler : Option Text := none
  /-- How operators are shown. -/
  style : Option OperatorStyle := none
  /-- How often more log lines were asked for. -/
  verbose : Nat := 0
  /-- Whether there are no log lines at all. -/
  quiet : Bool := false
  /-- When log lines are coloured. -/
  color : Option ColorChoice := none
  /-- The form of log lines. -/
  logFormat : Option LogFormat := none
deriving DecidableEq, Repr

/-- The settings of the options read, with the usual ones for the others. -/
def Given.settings (g : Given) : Settings :=
  let usual : Settings := {}
  { output := g.output.getD usual.output
    input := g.input
    project := g.project.getD usual.project
    compiler := g.compiler.getD usual.compiler
    style := g.style.getD usual.style
    verbose := g.verbose
    quiet := g.quiet
    color := g.color.getD usual.color
    logFormat := g.logFormat.getD usual.logFormat }

/-- The most that verbosity counts to. -/
def verboseMax : Nat := 255

/-- The operator style of a word. -/
def OperatorStyle.ofWord? (word : Text) : Option OperatorStyle :=
  if word = "bare".toList then some .bare
  else if word = "decorated".toList then some .decorated
  else none

/-- The colour choice of a word. -/
def ColorChoice.ofWord? (word : Text) : Option ColorChoice :=
  if word = "auto".toList then some .auto
  else if word = "always".toList then some .always
  else if word = "never".toList then some .never
  else none

/-- The log format of a word. -/
def LogFormat.ofWord? (word : Text) : Option LogFormat :=
  if word = "human".toList then some .human
  else if word = "json".toList then some .json
  else none

/-- A path is any text but the empty one. -/
def pathOfWord? (word : Text) : Option Text :=
  if word.isEmpty then none else some word

/-- A value for an option that must not have one yet. -/
def once {α : Type} (earlier value : Option α) : Except Interrupt (Option α) :=
  match earlier, value with
  | some _, _ => .error .argumentConflict
  | none, none => .error .invalidValue
  | none, some a => .ok (some a)

/-- The value of an option takes effect. -/
def Given.set (g : Given) (o : ValuedOption) (value : Text) : Except Interrupt Given :=
  match o with
  | .output => do return { g with output := ← once g.output (pathOfWord? value) }
  | .input => do return { g with input := ← once g.input (pathOfWord? value) }
  | .project => do return { g with project := ← once g.project (pathOfWord? value) }
  | .compiler => do return { g with compiler := ← once g.compiler (some value) }
  | .operatorStyle => do
    return { g with style := ← once g.style (OperatorStyle.ofWord? value) }
  | .color => do return { g with color := ← once g.color (ColorChoice.ofWord? value) }
  | .logFormat => do
    return { g with logFormat := ← once g.logFormat (LogFormat.ofWord? value) }

/-! ## Reading -/

/-- An option whose value may be the next argument. -/
structure Pending where
  /-- The option. -/
  option : ValuedOption
  /-- Its value, once the next argument has been taken. -/
  value : Option Text
deriving DecidableEq, Repr

/-- Where a reader stands between two arguments. -/
structure Progress where
  /-- The options that have taken effect. -/
  given : Given := {}
  /-- The option that has not. -/
  pending : Option Pending := none
  /-- Whether the mark that ends the options was read. -/
  ended : Bool := false
deriving DecidableEq, Repr

/-- The pending option takes effect. -/
def Progress.settle (p : Progress) : Except Interrupt Given :=
  match p.pending with
  | none => .ok p.given
  | some ⟨_, none⟩ => .error .invalidValue
  | some ⟨o, some value⟩ => p.given.set o value

/-- A flag takes effect; `long` says that it was given by its name. -/
def Progress.raise (p : Progress) (f : Flag) (long : Bool) : Except Interrupt Progress := do
  let g ← p.settle
  match f with
  | .help => .error (.help long)
  | .version => .error .version
  | .verbose => .ok { given := { g with verbose := min (g.verbose + 1) verboseMax } }
  | .quiet => if g.quiet then .error .argumentConflict else .ok { given := { g with quiet := true } }

/-- An option with its value takes effect. -/
def Progress.assign (p : Progress) (o : ValuedOption) (value : Text) :
    Except Interrupt Progress := do
  let g ← p.settle
  return { given := ← g.set o value }

/-- An option waits for its value. -/
def Progress.await (p : Progress) (o : ValuedOption) : Except Interrupt Progress := do
  let g ← p.settle
  return { given := g, pending := some ⟨o, none⟩ }

/-- Reads an argument that begins with two hyphens, without these. -/
def Progress.readLong (p : Progress) (arg : Text) : Except Interrupt Progress :=
  let name := arg.takeWhile (· ≠ '=')
  let value? := match arg.dropWhile (· ≠ '=') with
    | _ :: value => some value
    | [] => none
  match Switch.ofName? name, value? with
  | none, _ => .error .unknownArgument
  | some (.valued o), some value => p.assign o value
  | some (.valued o), none => p.await o
  | some (.flag _), some _ => .error .tooManyValues
  | some (.flag f), none => p.raise f true

/-- Reads the letters of an argument that begins with one hyphen.  A letter that takes a value takes
all that follows it, less one equals sign. -/
def Progress.readLetters (p : Progress) : Text → Except Interrupt Progress
  | [] => .ok p
  | c :: rest =>
    match Switch.ofLetter? c, rest with
    | none, _ => .error .unknownArgument
    | some (.flag f), rest => do (← p.raise f false).readLetters rest
    | some (.valued o), [] => p.await o
    | some (.valued o), '=' :: value => p.assign o value
    | some (.valued o), value => p.assign o value

/-- Reads an argument that is no option: only an option that waits for its value can take it. -/
def Progress.readPlain (p : Progress) (arg : Text) : Except Interrupt Progress :=
  match p.pending with
  | some ⟨o, none⟩ => .ok { p with pending := some ⟨o, some arg⟩ }
  | _ => .error .unknownArgument

/-- Reads one argument. -/
def Progress.read (p : Progress) (arg : Text) : Except Interrupt Progress :=
  if p.ended then .error .unknownArgument
  else
    match arg with
    | ['-', '-'] => .ok { p with ended := true }
    | '-' :: '-' :: rest => p.readLong rest
    | '-' :: c :: rest => p.readLetters (c :: rest)
    | arg => p.readPlain arg

/-- Reads arguments from left to right. -/
def Progress.readAll (p : Progress) : List Text → Except Interrupt Progress
  | [] => .ok p
  | arg :: args => do (← p.read arg).readAll args

/-- The settings that arguments spell, or what interrupts reading them. -/
def readArguments (args : List Text) : Except Interrupt Settings := do
  let p ← ({} : Progress).readAll args
  return (← p.settle).settings

end RefBook
