import ChainPeer.Config
import ChainPeer.Identity

/-!
# The key generator

A command that shows the identity in a data directory, and makes one if there is none. Its first
argument is a configuration, if it ends in `.toml`, or else the data directory itself.
-/

namespace ChainPeer

inductive KeygenError where
  | config (path : String) (e : ConfigError)
  | identity (dataDir : String) (e : IdentityError)
deriving DecidableEq

namespace KeygenError

def context : KeygenError → String
  | config path _ => s!"loading {path}"
  | identity dataDir _ => s!"identity in {dataDir}"

/-- The causes, each the cause of the one before. -/
def causes : KeygenError → List String
  | config _ (.unreadable reason) => [(ConfigError.unreadable reason).message, reason]
  | config _ e => [e.message]
  | identity _ e => e.message :: e.cause?.toList

/-- A cause behind a label. Its further lines are indented by the width of the label. -/
def causeLines (label cause : String) : String :=
  let indent := String.ofList (List.replicate label.length ' ')
  label ++ ("\n" ++ indent).intercalate (cause.splitOn "\n")

/-- The text shown on failure. Several causes are numbered. -/
def report (e : KeygenError) : String :=
  let causes := match e.causes with
    | [cause] => [causeLines "    " cause]
    | causes => causes.zipIdx.map fun (cause, i) => causeLines s!"    {i}: " cause
  "\n".intercalate (s!"Error: {e.context}" :: "" :: "Caused by:" :: causes ++ [""])

end KeygenError

structure Outcome where
  code : UInt32
  output : String
  errors : String
deriving DecidableEq

namespace Keygen

variable {m : Type → Type} [Monad m]

def namesConfig (argument : String) : Bool :=
  argument.toList.reverse.take 5 = ['l', 'm', 'o', 't', '.']

def loadConfig (fs : FileSystem m) (path : String) : m (Except ConfigError Config) := do
  match ← fs.read path with
  | .error e => pure (.error (.unreadable e.message))
  | .ok bytes => pure (Config.ofBytes bytes)

def dataDir (fs : FileSystem m) (arguments : List String) : m (Except KeygenError String) := do
  match arguments with
  | [] => pure (.ok Config.default.dataDir)
  | argument :: _ =>
    if namesConfig argument then
      match ← loadConfig fs argument with
      | .error e => pure (.error (.config argument e))
      | .ok c => pure (.ok c.dataDir)
    else pure (.ok argument)

def keyPair (fs : FileSystem m) (fresh : KeyPair) (arguments : List String) :
    m (Except KeygenError KeyPair) := do
  match ← dataDir fs arguments with
  | .error e => pure (.error e)
  | .ok dir =>
    match ← Identity.loadOrCreate fs fresh dir with
    | .error e => pure (.error (.identity dir e))
    | .ok k => pure (.ok k)

def outcome (result : Except KeygenError KeyPair) : Outcome :=
  match result with
  | .ok k => ⟨0, k.peer.text ++ "\n", ""⟩
  | .error e => ⟨1, "", e.report⟩

end Keygen

end ChainPeer
