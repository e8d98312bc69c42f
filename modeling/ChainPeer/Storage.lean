import ChainPeer.Files
import Std.Data.ExtTreeMap

/-!
# Storage in memory

A tree of directories and files under one root, with the file operations on it.
-/

namespace ChainPeer

inductive StorageEntry where
  | dir
  | file (mode : Nat) (content : Bytes)
deriving DecidableEq

/-- A tree of directories and files, by the parts of their paths from the root. -/
structure Storage where
  entries : Std.ExtTreeMap (List String) StorageEntry

namespace Storage

def empty : Storage := ⟨∅⟩

def defaultMode : Nat := 0o644

def ownerMode : Nat := 0o600

/-- The entry at a place. The root is a directory. -/
def get? (s : Storage) (place : List String) : Option StorageEntry :=
  if place = [] then some .dir else s.entries[place]?

def put (s : Storage) (place : List String) (entry : StorageEntry) : Storage :=
  ⟨s.entries.insert place entry⟩

def leadTo (s : Storage) (place : List String) : Storage :=
  ((List.range place.length).map place.take).foldl
    (fun s dir => if dir = [] then s else s.put dir .dir) s

def toList (s : Storage) : List (String × StorageEntry) :=
  (s.entries.toList.map fun (place, entry) => ("/".intercalate place, entry)).mergeSort
    fun a b => a.1 ≤ b.1

/-- The place of the directory that a list of parts leads to from another directory. -/
def enter (s : Storage) : List String → List String → Except FileError (List String)
  | place, [] => .ok place
  | place, part :: rest =>
    if part = "." then s.enter place rest
    else if part = ".." then s.enter place.dropLast rest
    else if Path.isTooLong part then .error .nameTooLong
    else
      match s.get? (place ++ [part]) with
      | none => .error .notFound
      | some (.file ..) => .error .notDirectory
      | some .dir => s.enter (place ++ [part]) rest

/-- The place that a path leads to; its last part need not be there. -/
def locate (s : Storage) (path : String) : Except FileError (List String) := do
  if let some e := Path.refusal? path then throw e
  let parts := (path.splitOn "/").filter (· ≠ "")
  match parts.getLast? with
  | none => if path = "" then .error .notFound else .ok []
  | some last =>
    let place ← s.enter [] parts.dropLast
    if last = "." then .ok place
    else if last = ".." then .ok place.dropLast
    else if Path.isTooLong last then .error .nameTooLong
    else .ok (place ++ [last])

def find (s : Storage) (path : String) : Except FileError (List String × StorageEntry) := do
  let place ← s.locate path
  match s.get? place with
  | some entry => .ok (place, entry)
  | none => .error .notFound

/-- Makes a directory where nothing is yet. -/
def makeDir (s : Storage) (path : String) : Except FileError Storage := do
  let place ← s.locate path
  match s.get? place with
  | some _ => .error .alreadyExists
  | none => .ok (s.put place .dir)

def read (s : Storage) (path : String) : Except FileError Bytes := do
  match ← s.find path with
  | (_, .file _ content) => .ok content
  | (_, .dir) => .error .isDirectory

/-- Writes a file, which keeps its permissions if it was there. -/
def write (s : Storage) (path : String) (content : Bytes) : Except FileError Storage := do
  let place ← s.locate path
  match s.get? place with
  | some .dir => .error .isDirectory
  | some (.file mode _) => .ok (s.put place (.file mode content))
  | none => .ok (s.put place (.file defaultMode content))

/-- Leaves a file to its owner alone. -/
def restrict (s : Storage) (path : String) : Except FileError Storage := do
  match ← s.find path with
  | (place, .file _ content) => .ok (s.put place (.file ownerMode content))
  | (_, .dir) => .ok s

/-- Moves a file to another path, in place of what is there unless that is a directory. -/
def rename (s : Storage) (old new : String) : Except FileError Storage := do
  let (place, entry) ← s.find old
  let target ← s.locate new
  match s.get? target with
  | some .dir => .error .isDirectory
  | _ => .ok (Storage.put ⟨s.entries.erase place⟩ target entry)

def change (f : Storage → Except FileError Storage) : StateM Storage (Except FileError Unit) :=
  fun s =>
    match f s with
    | .ok s => (.ok (), s)
    | .error e => (.error e, s)

def fileSystem : FileSystem (StateM Storage) where
  makeDir path := change (·.makeDir path)
  isDir path := fun s => ((match s.find path with | .ok (_, .dir) => true | _ => false), s)
  isPresent path := fun s => ((s.find path).toOption.isSome, s)
  read path := fun s => (s.read path, s)
  write path content := change (·.write path content)
  restrict path := change (·.restrict path)
  rename old new := change (·.rename old new)

end Storage

end ChainPeer
