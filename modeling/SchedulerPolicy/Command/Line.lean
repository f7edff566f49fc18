import SchedulerPolicy.Command.Import

/-!
# Command lines

A command line names a command and options, and means an invocation, a question for help or for the
version, or nothing (`CommandLine.ofArguments?`).

Options are told by their names, `--dir` or `-d`. What an option takes follows it, as an argument
of its own or attached: `--dir=res`, `-dres`, `-d=res`. One-letter options may share a hyphen. An
argument that begins with a hyphen is never what an option takes unless it is attached, except for
the hyphen alone. On each side of the command an option may stand once. Everything is refused that
is not foreseen, and arguments are looked at in their order, so that a question for help counts
only when nothing before it is refused.
-/

namespace SchedulerPolicy

/-! ### Options -/

/-- What an option takes. -/
inductive OptionKind where
  /-- Nothing. -/
  | flag
  /-- A text, which may be empty. -/
  | text
  /-- A path, which is never empty. -/
  | path
  /-- Nothing; the command line asks for help or for the version. -/
  | question
deriving DecidableEq, Repr

/-- An option: its names and what it takes. -/
structure OptionForm where
  long : String
  short : Option Char := none
  kind : OptionKind
deriving DecidableEq

/-- What an argument in front of the command or behind it means. -/
inductive ArgumentScan where
  /-- The options that are given when the argument is read, with what they take. -/
  | given (options : List (String × String))
  /-- The next argument is what an option takes. -/
  | wants (form : OptionForm) (options : List (String × String))
  /-- The name of the option that asks for help or for the version. -/
  | question (long : String)
  /-- No option. -/
  | word
  /-- Two hyphens, after which no option follows. -/
  | ending

/-- The options of a part of a command line that ends at a word, at the end or at a question. -/
inductive OptionScan where
  /-- The options that are given, with what they take, and the arguments from the first word on. -/
  | given (options : List (String × String)) (rest : List String)
  | question (long : String)
deriving DecidableEq

namespace OptionForm

/-- Notes what an option takes; an option that is given already, or a path that is empty, is
refused. -/
def note? (form : OptionForm) (value : String) (given : List (String × String)) :
    Option (List (String × String)) :=
  if (given.lookup form.long).isSome || (form.kind = .path && value.isEmpty) then none
  else some (given ++ [(form.long, value)])

end OptionForm

/-- Reads the letters of a bundle of one-letter options. -/
def readBundle? (forms : List OptionForm) (given : List (String × String)) :
    List Char → Option ArgumentScan
  | [] => some (.given given)
  | c :: cs => do
    let form ← forms.find? (·.short == some c)
    match form.kind, cs with
    | .flag, _ => readBundle? forms (← form.note? "" given) cs
    | .question, _ => return .question form.long
    | _, [] => return .wants form given
    | _, '=' :: value => return .given (← form.note? (String.ofList value) given)
    | _, value => return .given (← form.note? (String.ofList value) given)

/-- The name of a long option without its hyphens, and what is attached behind `=`. -/
def splitAttached (cs : List Char) : String × Option String :=
  match cs.dropWhile (· != '=') with
  | '=' :: value => (String.ofList (cs.takeWhile (· != '=')), some (String.ofList value))
  | _ => (String.ofList cs, none)

/-- Reads a long option without its hyphens. -/
def readLong? (forms : List OptionForm) (given : List (String × String)) (cs : List Char) :
    Option ArgumentScan := do
  let (long, attached) := splitAttached cs
  let form ← forms.find? (·.long == long)
  match form.kind, attached with
  | .flag, none => return .given (← form.note? "" given)
  | .question, none => return .question form.long
  | .flag, some _ => none
  | .question, some _ => none
  | _, some value => return .given (← form.note? value given)
  | _, none => return .wants form given

/-- Reads an argument that is not what an option takes. -/
def readArgument? (forms : List OptionForm) (given : List (String × String)) (argument : String) :
    Option ArgumentScan :=
  match argument.toList with
  | ['-', '-'] => some .ending
  | '-' :: '-' :: cs => readLong? forms given cs
  | '-' :: c :: cs => readBundle? forms given (c :: cs)
  | _ => some .word

/-- Whether an argument of its own can be what an option takes. -/
def canBeTaken (argument : String) : Bool :=
  argument == "-" || argument.toList.head? != some '-'

/-- Reads options up to the first word. The option that is pending takes the next argument. -/
def scanOptions? (forms : List OptionForm) (given : List (String × String))
    (pending : Option OptionForm) : List String → Option OptionScan
  | [] => if pending.isNone then some (.given given []) else none
  | argument :: rest =>
    match pending with
    | some form =>
      if canBeTaken argument then
        match form.note? argument given with
        | some options => scanOptions? forms options none rest
        | none => none
      else none
    | none =>
      match readArgument? forms given argument with
      | none => none
      | some (.given options) => scanOptions? forms options none rest
      | some (.wants form options) => scanOptions? forms options (some form) rest
      | some (.question long) => some (.question long)
      | some .word => some (.given given (argument :: rest))
      | some .ending => if rest.isEmpty then some (.given given []) else none

/-! ### Commands -/

/-- What is to be done. -/
inductive Command where
  | generate (dir output : Option String)
  | explain (repo : String) (dir : Option String) (json : Bool)
  | importDocuments (paths : ImportPaths)
deriving DecidableEq

/-- A command, and the options that every command has. -/
structure Invocation where
  /-- Whether more is to be logged. -/
  verbose : Bool := false
  /-- The path of the repository's settings. -/
  config : Option String := none
  command : Command
deriving DecidableEq

/-- What a command line means. -/
inductive CommandLine where
  | run (i : Invocation)
  | help
  | version
deriving DecidableEq

namespace CommandLine

/-- The options that may stand on either side of the command. -/
def commonForms : List OptionForm := [
  { long := "verbose", short := some 'v', kind := .flag },
  { long := "config", short := some 'c', kind := .path },
  { long := "help", short := some 'h', kind := .question }]

/-- The options in front of the command. -/
def leadingForms : List OptionForm :=
  commonForms ++ [{ long := "version", short := some 'V', kind := .question }]

/-- The names of the commands. -/
def commandNames : List String := ["generate", "explain", "import"]

/-- The options behind a command. -/
def formsOf? (command : String) : Option (List OptionForm) :=
  let dir : OptionForm := { long := "dir", short := some 'd', kind := .path }
  let output : OptionForm := { long := "output", short := some 'o', kind := .path }
  match command with
  | "generate" => some ([dir, output] ++ commonForms)
  | "explain" =>
    some ([{ long := "repo", short := some 'r', kind := .text }, dir,
      { long := "json", kind := .flag }] ++ commonForms)
  | "import" =>
    some ([{ long := "config-yaml", kind := .path }, { long := "plugins-yaml", kind := .path },
      output, { long := "environment", kind := .path }] ++ commonForms)
  | _ => none

/-- The command that a name and options make up, unless a required option is missing. -/
def command? (name : String) (options : List (String × String)) : Option Command :=
  let value? (long : String) : Option String := options.lookup long
  match name with
  | "generate" => some (.generate (value? "dir") (value? "output"))
  | "explain" =>
    (value? "repo").map fun repo => .explain repo (value? "dir") (value? "json").isSome
  | "import" => do
    return .importDocuments {
      jobs := ← value? "config-yaml"
      plugins := ← value? "plugins-yaml"
      output := (value? "output").getD "."
      environment := value? "environment" }
  | _ => none

/-- The answer to a question. -/
def ofQuestion (long : String) : CommandLine := if long = "version" then .version else .help

/-- What a command with the arguments behind it means, with the options in front of it. A common
option behind the command has its way. -/
def ofCommand? (leading : List (String × String)) (name : String) (rest : List String) :
    Option CommandLine := do
  let forms ← formsOf? name
  match ← scanOptions? forms [] none rest with
  | .question long => return ofQuestion long
  | .given options [] =>
    return .run {
      verbose := ((options ++ leading).lookup "verbose").isSome
      config := (options ++ leading).lookup "config"
      command := ← command? name options }
  | .given _ (_ :: _) => none

/-- What a command line means; `none` when it is refused. -/
def ofArguments? (arguments : List String) : Option CommandLine := do
  match ← scanOptions? leadingForms [] none arguments with
  | .question long => return ofQuestion long
  | .given _ [] => none
  | .given _ ["help"] => return .help
  | .given _ ["help", topic] =>
    if ("help" :: commandNames).contains topic then return .help else none
  | .given options (name :: rest) => ofCommand? options name rest

end CommandLine

end SchedulerPolicy
