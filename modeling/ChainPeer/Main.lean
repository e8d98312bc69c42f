import ChainPeer.Keygen

/-!
# The command line of the key generator

The file operations of the system, a fresh key pair from its random bytes, and the command itself.
-/

namespace ChainPeer.Main

/-- The number of a system error; some calls give it negated. -/
def errorNumber (code : UInt32) : Nat :=
  (if code < 0x80000000 then code else 0 - code).toNat

def fileError (e : IO.Error) : FileError :=
  match e with
  | .noFileOrDirectory .. => .notFound
  | .alreadyExists .. => .alreadyExists
  | .permissionDenied _ code _ =>
    if errorNumber code = 13 then .other "Permission denied (os error 13)"
    else .other (toString e)
  | .inappropriateType _ code _ =>
    if errorNumber code = 20 then .notDirectory
    else if errorNumber code = 21 then .isDirectory
    else .other (toString e)
  | .invalidArgument _ code _ =>
    if errorNumber code = 36 then .nameTooLong else .other (toString e)
  | e => .other (toString e)

/-- The result of a call to the system on a path, or why it failed. -/
def attempt {α : Type} (path : String) (act : IO α) : IO (Except FileError α) := do
  match Path.refusal? path with
  | some e => pure (.error e)
  | none =>
    match ← act.toBaseIO with
    | .ok a => pure (.ok a)
    | .error e => pure (.error (fileError e))

def read (path : String) : IO (Except FileError Bytes) :=
  attempt path do
    let content ← IO.FS.readBinFile path
    pure content.toList

/-- The permissions that leave a file to its owner. -/
def ownerOnly : IO.FileRight :=
  { user := { read := true, write := true } }

def files : FileSystem IO where
  makeDir path := attempt path (IO.FS.createDir path)
  isDir path := do
    match ← read path with
    | .error .isDirectory => pure true
    | _ => pure false
  isPresent path := do
    match ← read path with
    | .error .notFound | .error .notDirectory | .error .nameTooLong | .error .nulInPath =>
      pure false
    | _ => pure true
  read := read
  write path content := attempt path (IO.FS.writeBinFile path ⟨content.toArray⟩)
  restrict path := attempt path (IO.setAccessRights path ownerOnly)
  rename old new := attempt old (IO.FS.rename old new)

/-- A key pair from random bytes. -/
def freshKeyPair : IO KeyPair := do
  let seed ← IO.getRandomBytes 32
  if h : seed.toList.length = 32 then pure ⟨seed.toList, h⟩
  else throw (IO.userError "too few random bytes")

end ChainPeer.Main

open ChainPeer in
def main (arguments : List String) : IO UInt32 := do
  let fresh ← Main.freshKeyPair
  let outcome := Keygen.outcome (← Keygen.keyPair Main.files fresh arguments)
  IO.print outcome.output
  IO.eprint outcome.errors
  pure outcome.code
