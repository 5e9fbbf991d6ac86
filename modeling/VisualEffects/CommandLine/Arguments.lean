import VisualEffects.Pipeline.Shape

namespace VisualEffects.CommandLine

/-! The arguments of the program.

The first argument that is no flag names a command; what follows are its options.  An option with a value is
written as two arguments, or as one with an equals sign between, and is given once at most.  Every command
asks for its input file.  Arguments are read from left to right, so a wrong one counts as misuse only when it
stands before a request for help or for the version.
-/

inductive Command where
  | compile (input : String) (output : Option String) (maxDepth : Nat)
  | validate (input : String) (maxDepth : Nat)
  | animate (input : String) (durationMs : Option UInt64) (output : Option String)
deriving DecidableEq, Repr

inductive Invocation where
  | run (command : Command)
  | version
  | help
  | misuse
deriving DecidableEq, Repr

inductive CommandName where
  | compile
  | validate
  | animate
deriving DecidableEq, Repr

def CommandName.ofString? (name : String) : Option CommandName :=
  if name = "compile" then some .compile
  else if name = "validate" then some .validate
  else if name = "animate" then some .animate
  else none

inductive OptionName where
  | input
  | output
  | maxDepth
  | durationMs
deriving DecidableEq, Repr

def OptionName.spelling : OptionName → String
  | input => "in"
  | output => "out"
  | maxDepth => "max-depth"
  | durationMs => "duration-ms"

def CommandName.options : CommandName → List OptionName
  | compile => [.input, .output, .maxDepth]
  | validate => [.input, .maxDepth]
  | animate => [.input, .durationMs, .output]

abbrev Given := List (OptionName × String)

def Given.value? (given : Given) (name : OptionName) : Option String :=
  (given.find? (·.1 == name)).map (·.2)

/-- A natural number below `2 ^ 64`, in digits after an optional plus sign. -/
def number? (text : String) : Option Nat :=
  let digits := match text.toList with
    | '+' :: rest => rest
    | rest => rest
  if digits.isEmpty || !digits.all Char.isDigit then none
  else
    let value := digits.foldl (fun sum c => sum * 10 + (c.toNat - '0'.toNat)) 0
    if value < UInt64.size then some value else none

def Given.number? (given : Given) (name : OptionName) : Option Nat :=
  (given.value? name).bind CommandLine.number?

def CommandName.command? (name : CommandName) (given : Given) : Option Command := do
  let input ← given.value? .input
  let output := given.value? .output
  let depth := (given.number? .maxDepth).getD ({} : CompileOptions).maxBranchDepth
  match name with
  | .compile => return .compile input output depth
  | .validate => return .validate input depth
  | .animate => return .animate input ((given.number? .durationMs).map Nat.toUInt64) output

/-- What a group of one-letter flags asks for. -/
inductive Flags where
  | verbose
  | version
  | help
  | unknown
deriving DecidableEq, Repr

/-- The flags after a single dash: the first that is not `v` decides. -/
def Flags.ofLetters : List Char → Flags
  | [] => .verbose
  | 'v' :: rest => ofLetters rest
  | 'V' :: _ => .version
  | 'h' :: _ => .help
  | _ => .unknown

def splitLong (letters : List Char) : String × Option String :=
  match letters.dropWhile (· != '=') with
  | [] => (String.ofList letters, none)
  | _ :: value => (String.ofList (letters.takeWhile (· != '=')), some (String.ofList value))

inductive Argument where
  | plain (text : String)
  | separator
  | short (letters : List Char)
  | long (name : String) (value : Option String)

def Argument.ofString (text : String) : Argument :=
  match text.toList with
  | ['-', '-'] => .separator
  | '-' :: '-' :: letters => .long (splitLong letters).1 (splitLong letters).2
  | ['-'] => .plain text
  | '-' :: letters => .short letters
  | _ => .plain text

/-- Whether an option can have a value: paths are not empty, and numbers are numbers. -/
def OptionName.accepts (name : OptionName) (value : String) : Bool :=
  match name with
  | input | output => !value.isEmpty
  | maxDepth | durationMs => (number? value).isSome

/-- Adds a value that an option can have, if the option was not given before. -/
def Given.add? (given : Given) (name : OptionName) (value : String) : Option Given :=
  if name.accepts value && (given.value? name).isNone then some ((name, value) :: given) else none

def CommandName.invocation (name : CommandName) (given : Given) : Invocation :=
  match name.command? given with
  | some command => .run command
  | none => .misuse

/-- Reads the options of a command; `pending` is the option whose value comes next. -/
def readOptions (name : CommandName) (pending : Option OptionName) (given : Given) : List String → Invocation
  | [] => if pending.isSome then .misuse else name.invocation given
  | text :: rest =>
      match pending, Argument.ofString text with
      | some option, .plain value =>
          match given.add? option value with
          | some given => readOptions name none given rest
          | none => .misuse
      | some _, _ => .misuse
      | none, .plain _ => .misuse
      | none, .separator => if rest.isEmpty then name.invocation given else .misuse
      | none, .short letters =>
          match Flags.ofLetters letters with
          | .verbose => readOptions name none given rest
          | .help => .help
          | _ => .misuse
      | none, .long spelling value =>
          match name.options.find? (·.spelling == spelling), value with
          | some option, none => readOptions name (some option) given rest
          | some option, some value =>
              match given.add? option value with
              | some given => readOptions name none given rest
              | none => .misuse
          | none, none =>
              if spelling = "verbose" then readOptions name none given rest
              else if spelling = "help" then .help
              else .misuse
          | none, some _ => .misuse

def readHelp : List String → Invocation
  | [] => .help
  | [name] => if name = "help" || (CommandName.ofString? name).isSome then .help else .misuse
  | _ => .misuse

def Invocation.ofArguments : List String → Invocation
  | [] => .misuse
  | text :: rest =>
      match Argument.ofString text with
      | .plain name =>
          match CommandName.ofString? name with
          | some name => readOptions name none [] rest
          | none => if name = "help" then readHelp rest else .misuse
      | .separator => .misuse
      | .short letters =>
          match Flags.ofLetters letters with
          | .verbose => ofArguments rest
          | .version => .version
          | .help => .help
          | .unknown => .misuse
      | .long "verbose" none => ofArguments rest
      | .long "version" none => .version
      | .long "help" none => .help
      | .long _ _ => .misuse

end VisualEffects.CommandLine
