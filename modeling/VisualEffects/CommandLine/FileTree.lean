import VisualEffects.CommandLine.Files

namespace VisualEffects

/-! A tree of files as a value, with the faults that paths into it have.

Entries are kept under the names that lead to them from the root.  The directory in which the program runs
has the empty name there: no path can spell that name, so this directory is only reached by starting in it,
and stepping out of it leads to the root.
-/

inductive FileTree.Entry where
  | file (content : ByteArray)
  | directory
deriving Inhabited

structure FileTree where
  entries : List (List String × FileTree.Entry) := []
deriving Inhabited

namespace FileTree

/-- The greatest number of bytes in a name. -/
def nameLimit : Nat := 255

/-- Paths have fewer bytes than this. -/
def pathLimit : Nat := 4096

/-- The place of the directory in which the program runs. -/
def home : List String := [""]

def origin (path : String) : List String := if path.startsWith "/" then [] else home

def steps (path : String) : List String := path.splitOn "/"

def entry? (tree : FileTree) : List String → Option Entry
  | [] => some .directory
  | names => if names = home then some .directory else (tree.entries.find? (·.1 == names)).map (·.2)

def isDirectory (tree : FileTree) (place : List String) : Bool :=
  match tree.entry? place with
  | some .directory => true
  | _ => false

def put (tree : FileTree) (place : List String) (entry : Entry) : FileTree :=
  ⟨(place, entry) :: tree.entries.filter (·.1 != place)⟩

/-- One step from a directory: the empty name and a dot stay there, two dots lead back.  There need not be
anything where another name leads. -/
def descend (tree : FileTree) (place : List String) (step : String) : Except FileFault (List String) :=
  match tree.entry? place with
  | none => .error .notFound
  | some (.file _) => .error .notADirectory
  | some .directory =>
      if step = "" ∨ step = "." then .ok place
      else if step = ".." then .ok place.dropLast
      else if nameLimit < step.utf8ByteSize then .error .nameTooLong
      else .ok (place ++ [step])

/-- Where steps lead; everything before the last step must be a directory. -/
def locate (tree : FileTree) (origin steps : List String) : Except FileFault (List String) :=
  steps.foldlM tree.descend origin

def checkPath (path : String) : Except FileFault Unit :=
  if path.isEmpty then .error .notFound
  else if pathLimit ≤ path.utf8ByteSize then .error .nameTooLong
  else .ok ()

def read (tree : FileTree) (path : String) : Except FileFault ByteArray := do
  checkPath path
  match tree.entry? (← tree.locate (origin path) (steps path)) with
  | some (.file content) => return content
  | some .directory => throw .isADirectory
  | none => throw .notFound

/-- Writes a file.  What ends in a slash or in dots can only be a directory. -/
def write (tree : FileTree) (path text : String) : Except FileFault FileTree := do
  checkPath path
  match (steps path).reverse.dropWhile (·.isEmpty) with
  | [] => throw .isADirectory
  | last :: before =>
      let around ← tree.locate (origin path) (before.reverse ++ ["."])
      if path.endsWith "/" || last == "." || last == ".." then throw .isADirectory
      let place ← tree.descend around last
      if tree.isDirectory place then throw .isADirectory
      return tree.put place (.file text.toUTF8)

def createOne (tree : FileTree) (origin before : List String) (last : String) : Except FileFault FileTree := do
  let place ← tree.descend (← tree.locate origin before) last
  match tree.entry? place with
  | some _ => throw .alreadyExists
  | none => return tree.put place .directory

def ensureOne (tree : FileTree) (origin before : List String) (last : String) : Except FileFault FileTree :=
  match tree.createOne origin before last, tree.locate origin (before ++ [last]) with
  | .error .alreadyExists, .ok place => if tree.isDirectory place then .ok tree else .error .alreadyExists
  | result, _ => result

/-- Creates a directory and those around it; its steps are given last first.  The directories around it are
looked at only when it cannot be created because one of them is missing. -/
def ensureAll (tree : FileTree) (origin : List String) : List String → Except FileFault FileTree
  | [] => .ok tree
  | last :: before =>
      match tree.ensureOne origin before.reverse last with
      | .error .notFound => do (← tree.ensureAll origin before).ensureOne origin before.reverse last
      | result => result

def createDirectory (tree : FileTree) (path : String) : Except FileFault FileTree := do
  if pathLimit ≤ path.utf8ByteSize then throw .nameTooLong
  tree.ensureAll (origin path) ((steps path).filter fun step => step != "" && step != ".").reverse

/-- A tree with one more file, and the directories it needs. -/
def withFile (tree : FileTree) (path : String) (content : ByteArray) : Except FileFault FileTree := do
  let tree ← tree.ensureAll (origin path) (steps path).dropLast.reverse
  return tree.put (← tree.locate (origin path) (steps path)) (.file content)

/-- Access to the files of a tree that is the state. -/
def access : FileAccess (StateM FileTree) where
  read path := do return (← get).read path
  createDirectory path := do
    match (← get).createDirectory path with
    | .ok tree => set tree; return .ok ()
    | .error fault => return .error fault
  write path text := do
    match (← get).write path text with
    | .ok tree => set tree; return .ok ()
    | .error fault => return .error fault

end FileTree

end VisualEffects
