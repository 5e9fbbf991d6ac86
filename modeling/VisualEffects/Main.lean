import VisualEffects.CommandLine.Program

/-! The program on real files. -/

open VisualEffects

def faultOfIOError : IO.Error → FileFault
  | .noFileOrDirectory .. => .notFound
  | .alreadyExists .. => .alreadyExists
  | .inappropriateType .. => .isADirectory
  | .invalidArgument _ 36 _ => .nameTooLong
  | error => .system error.toString

def guarded (action : IO α) : IO (Except FileFault α) := do
  try
    return .ok (← action)
  catch error =>
    return .error (faultOfIOError error)

def realFiles : FileAccess IO where
  read path := guarded (IO.FS.readBinFile path)
  createDirectory path := guarded (if path.isEmpty then pure () else IO.FS.createDirAll path)
  write path text := guarded (IO.FS.writeFile path text)

def main (arguments : List String) : IO UInt32 := do
  let report ← CommandLine.run realFiles arguments
  IO.print report.output
  for line in report.errors do
    IO.eprintln line
  return report.exitCode
