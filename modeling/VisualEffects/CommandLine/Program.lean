import VisualEffects.CommandLine.Arguments
import VisualEffects.CommandLine.Files
import VisualEffects.Graph.Json

namespace VisualEffects

/-! What the program does with its arguments: the exit code, and what it prints and writes. -/

def Error.during (error : Error) (activity : String) : Error :=
  .other activity (error.message :: error.causes)

/-- The animations of a script on a recording backend.  The duration is the given one, else that of the
script, else that of new builders. -/
def AnimationScript.animations (script : AnimationScript) (durationMs : Option UInt64) :
    Except Error (List (TimedTrack Float)) := do
  let (builder, outcome) := script.configure (AnimationBuilder.ofTarget script.target)
  outcome
  let count := (durationMs <|> script.durationMs).getD ({} : AnimationOptions).durationMs
  let group ← ((builder.materialize Timeline.record (.ofMilliseconds count)).run.run {}).1
  return group.animations

namespace CommandLine

structure Report where
  exitCode : UInt32 := 0
  output : String := ""
  /-- What is printed on the error output, each on a line of its own. -/
  errors : List String := []
deriving DecidableEq, Inhabited

/-- The lines of a text after a mark, the further ones indented as far as `indent`. -/
private def indented (mark indent text : String) : List String :=
  match text.splitOn "\n" with
  | [] => []
  | first :: rest => (mark ++ first) :: rest.map (indent ++ ·)

private def numbered (index : Nat) : String :=
  let digits := toString index
  String.ofList (List.replicate (5 - digits.length) ' ') ++ digits ++ ": "

/-- The lines that show what lies behind an error; causes are numbered when there are several. -/
def causeLines : List String → List String
  | [] => []
  | [cause] => "" :: "Caused by:" :: indented "    " "    " cause
  | causes =>
      "" :: "Caused by:" ::
        (causes.mapIdx fun index cause => indented (numbered index) "       " cause).flatten

def Report.ofError (error : Error) : Report where
  exitCode := 1
  errors := ("Error: " ++ error.message) :: causeLines error.causes

/-- Takes slashes from the end of a path whose characters are given last first, and with them the dots that
stay where they are. -/
private def withoutStays : List Char → List Char
  | '/' :: rest => withoutStays rest
  | '.' :: '/' :: rest => withoutStays rest
  | rest => rest

/-- The path of the directory around a path; a name alone stands in the directory with the empty path, and a
path without any name has no directory around it. -/
def parent? (path : String) : Option String :=
  match withoutStays path.toList.reverse with
  | [] => none
  | whole =>
      let around := whole.dropWhile (· != '/')
      let directory := withoutStays around
      some (String.ofList (if directory.isEmpty then around.take 1 else directory.reverse))

variable {m : Type → Type} [Monad m] (files : FileAccess m)

/-- Prints a value, or writes it to a file whose directories are created first. -/
def deliver (output : Option String) (value : Json.Value) : m Report := do
  let page := value.page ++ "\n"
  match output with
  | none => return { output := page }
  | some path =>
      if let some directory := parent? path then
        if let .error fault ← files.createDirectory directory then
          return .ofError (fault.during "create output dir" directory)
      match ← files.write path page with
      | .ok _ => return { errors := ["wrote " ++ path] }
      | .error fault => return .ofError (fault.during "write" path)

def quotedPath (path : String) : String := "'" ++ path ++ "'"

def Command.run : Command → m Report
  | .compile input output maxDepth => do
      match ← Pipeline.ofFile files input with
      | .error error => return .ofError error
      | .ok pipeline =>
          match compileGraph ⟨maxDepth⟩ pipeline.effects with
          | .error error => return .ofError (error.during ("compile pipeline " ++ quotedPath input))
          | .ok compiled => deliver files output compiled.toValue
  | .validate input maxDepth => do
      match ← Pipeline.ofFile files input with
      | .error error => return .ofError error
      | .ok pipeline =>
          match pipeline.validate ⟨maxDepth⟩ with
          | .error error => return .ofError (error.during ("validate pipeline " ++ quotedPath input))
          | .ok shape => deliver files none shape.toValue
  | .animate input durationMs output => do
      match ← AnimationScript.ofFile files input with
      | .error error => return .ofError error
      | .ok script =>
          match script.animations durationMs with
          | .error error => return .ofError (error.during ("apply animation script " ++ quotedPath input))
          | .ok animations => deliver files output (.list (animations.map TimedTrack.toValue))

def usage : String :=
  "Usage: fxgraph [-v] compile --in FILE [--out FILE] [--max-depth N]\n" ++
  "       fxgraph [-v] validate --in FILE [--max-depth N]\n" ++
  "       fxgraph [-v] animate --in FILE [--duration-ms N] [--out FILE]\n"

def run (arguments : List String) : m Report :=
  match Invocation.ofArguments arguments with
  | .run command => command.run files
  | .version => return { output := "fxgraph 0.1.0\n" }
  | .help => return { output := usage }
  | .misuse => return { exitCode := 2, errors := (usage.splitOn "\n").filter (!·.isEmpty) }

end CommandLine

end VisualEffects
