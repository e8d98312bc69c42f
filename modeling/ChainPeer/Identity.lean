import ChainPeer.Files
import ChainPeer.Identity.KeyPair

/-!
# Identities

The identity of a node is the key pair in its data directory. It is made once: written beside its
place, left to its owner alone, and then moved there, so that the file is never half written.
-/

namespace ChainPeer

inductive IdentityError where
  | file (e : FileError)
  | invalid (path : String)
deriving DecidableEq

def IdentityError.message : IdentityError → String
  | file e => s!"identity io: {e.message}"
  | invalid path => s!"identity file {path} is not a valid keypair"

def IdentityError.cause? : IdentityError → Option String
  | file e => some e.message
  | invalid _ => none

namespace Identity

def fileName : String := "p2p_identity.key"

def path (dataDir : String) : String :=
  Path.join dataDir fileName

/-- The path at which a new key pair is written. -/
def draftPath (dataDir : String) : String :=
  Path.join dataDir (fileName ++ ".tmp")

variable {m : Type → Type} [Monad m]

def load (fs : FileSystem m) (path : String) : m (Except IdentityError KeyPair) := do
  match ← fs.read path with
  | .error e => pure (.error (.file e))
  | .ok bytes =>
    match KeyPair.ofBytes? bytes with
    | none => pure (.error (.invalid path))
    | some k => pure (.ok k)

/-- Stores a key pair in a data directory. -/
def store (fs : FileSystem m) (dataDir : String) (k : KeyPair) :
    m (Except FileError Unit) := do
  match ← fs.write (draftPath dataDir) k.toBytes with
  | .error e => pure (.error e)
  | .ok () =>
    match ← fs.restrict (draftPath dataDir) with
    | .error e => pure (.error e)
    | .ok () => fs.rename (draftPath dataDir) (path dataDir)

/-- Loads the key pair in a data directory; if there is none, a fresh one is stored there. -/
def loadOrCreate (fs : FileSystem m) (fresh : KeyPair) (dataDir : String) :
    m (Except IdentityError KeyPair) := do
  match ← fs.makeDirs dataDir with
  | .error e => pure (.error (.file e))
  | .ok () =>
    if ← fs.isPresent (path dataDir) then load fs (path dataDir)
    else
      match ← store fs dataDir fresh with
      | .error e => pure (.error (.file e))
      | .ok () => pure (.ok fresh)

end Identity

end ChainPeer
