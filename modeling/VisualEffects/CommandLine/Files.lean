import VisualEffects.Animation.Script
import VisualEffects.Pipeline.Basic

namespace VisualEffects

/-! Files, as far as the program uses them, and reading pipelines and scripts from them.

Access to files is a parameter, so that the program can be run on real files and on a tree of files that is
a plain value.
-/

inductive FileFault where
  | notFound
  | alreadyExists
  | notADirectory
  | isADirectory
  | nameTooLong
  | notText
  /-- Another failure, in the words of the system. -/
  | system (reason : String)
deriving DecidableEq, Repr

def FileFault.message : FileFault → String
  | notFound => "No such file or directory (os error 2)"
  | alreadyExists => "File exists (os error 17)"
  | notADirectory => "Not a directory (os error 20)"
  | isADirectory => "Is a directory (os error 21)"
  | nameTooLong => "File name too long (os error 36)"
  | notText => "stream did not contain valid UTF-8"
  | system reason => reason

structure FileAccess (m : Type → Type) where
  read : String → m (Except FileFault ByteArray)
  /-- Creates a directory and those around it, unless they exist. -/
  createDirectory : String → m (Except FileFault Unit)
  write : String → String → m (Except FileFault Unit)

def FileFault.during (fault : FileFault) (action path : String) : Error :=
  .other (action ++ " '" ++ path ++ "'") [fault.message]

/-- The text of a file; `action` says what it is read as. -/
def FileAccess.readText [Monad m] (files : FileAccess m) (action path : String) : m (Except Error String) := do
  match ← files.read path with
  | .error fault => return .error (fault.during action path)
  | .ok bytes =>
      match String.fromUTF8? bytes with
      | some text => return .ok text
      | none => return .error (FileFault.notText.during action path)

def Pipeline.ofFile [Monad m] (files : FileAccess m) (path : String) : m (Except Error Pipeline) := do
  return (← files.readText "read pipeline" path) >>= Pipeline.ofText

def AnimationScript.ofFile [Monad m] (files : FileAccess m) (path : String) :
    m (Except Error AnimationScript) := do
  return (← files.readText "read animation script" path) >>= AnimationScript.ofText

end VisualEffects
