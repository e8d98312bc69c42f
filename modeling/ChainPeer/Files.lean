import ChainPeer.Bytes

/-!
# Files

The few operations on files that are needed, in any monad, and what is built from them. Paths are
texts whose parts are separated by slashes.
-/

namespace ChainPeer

inductive FileError where
  | notFound
  | alreadyExists
  | notDirectory
  | isDirectory
  | nameTooLong
  | nulInPath
  | other (reason : String)
deriving DecidableEq

def FileError.message : FileError → String
  | notFound => "No such file or directory (os error 2)"
  | alreadyExists => "File exists (os error 17)"
  | notDirectory => "Not a directory (os error 20)"
  | isDirectory => "Is a directory (os error 21)"
  | nameTooLong => "File name too long (os error 36)"
  | nulInPath => "file name contained an unexpected NUL byte"
  | other reason => reason

/-- The operations on files. `restrict` leaves a file to its owner alone. -/
structure FileSystem (m : Type → Type) where
  makeDir : String → m (Except FileError Unit)
  isDir : String → m Bool
  isPresent : String → m Bool
  read : String → m (Except FileError Bytes)
  write : String → Bytes → m (Except FileError Unit)
  restrict : String → m (Except FileError Unit)
  rename : String → String → m (Except FileError Unit)

namespace Path

def maxLength : Nat := 4095

def maxPartLength : Nat := 255

/-- Why a path leads nowhere, whatever there is: it holds a NUL, or is too long as a whole. -/
def refusal? (path : String) : Option FileError :=
  if '\x00' ∈ path.toList then some .nulInPath
  else if maxLength < path.utf8ByteSize then some .nameTooLong
  else none

def isTooLong (part : String) : Bool :=
  maxPartLength < part.utf8ByteSize

def join (dir name : String) : String :=
  if dir = "" ∨ dir.toList.getLast? = some '/' then dir ++ name else dir ++ "/" ++ name

/-- The parts of a path; a dot that is not the first part stands for nothing. -/
def parts (path : String) : List String :=
  match path.splitOn "/" with
  | [] => []
  | first :: rest =>
    [first].filter (· ≠ "") ++ rest.filter fun part => part ≠ "" && part ≠ "."

def isAbsolute (path : String) : Bool :=
  path.toList.head? = some '/'

/-- The path without its last part, if it has one. -/
def parent? (path : String) : Option String :=
  match parts path with
  | [] => none
  | ps => some ((if isAbsolute path then "/" else "") ++ "/".intercalate ps.dropLast)

end Path

namespace FileSystem

variable {m : Type → Type} [Monad m]

def ensureDir (fs : FileSystem m) (path : String) : m (Except FileError Unit) := do
  match ← fs.makeDir path with
  | .ok () => pure (.ok ())
  | .error e => if ← fs.isDir path then pure (.ok ()) else pure (.error e)

/-- Makes a directory, and those that lead to it, unless they are there. Of the parents no more
than `depth` are made. -/
def ensureDirs (fs : FileSystem m) : (depth : Nat) → String → m (Except FileError Unit)
  | 0, path => fs.ensureDir path
  | depth + 1, path => do
    if path = "" then pure (.ok ())
    else
      match ← fs.makeDir path with
      | .ok () => pure (.ok ())
      | .error .notFound =>
        match Path.parent? path with
        | none => pure (.error (.other "failed to create whole tree"))
        | some parent =>
          match ← fs.ensureDirs depth parent with
          | .error e => pure (.error e)
          | .ok () => fs.ensureDir path
      | .error e => if ← fs.isDir path then pure (.ok ()) else pure (.error e)

/-- Makes a directory and all those that lead to it, unless they are there. -/
def makeDirs (fs : FileSystem m) (path : String) : m (Except FileError Unit) :=
  fs.ensureDirs (path.length + 1) path

end FileSystem

end ChainPeer
