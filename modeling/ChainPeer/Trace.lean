import ChainPeer.World

/-!
# Traces

A traced world behaves like the world it is made from and keeps the list of all calls to it, the
latest first.
-/

namespace ChainPeer

inductive Event where
  | sent (peer : PeerId) (channel : Channel) (payload : Bytes)
  | notSent (peer : PeerId) (channel : Channel) (payload : Bytes)
  | accepting (channel : Channel)
  | watching
  | bootstrapSet (addresses : List Multiaddr)
  | bootstrapped
  | closed
  | announced (peer : PeerId) (m : Announce)
  | answered (peer : PeerId) (m : BlockResponse)
  | served (m : BlockRequest) (refusal : Option Refusal)
  | seen (number : BlockNumber)
  | delivered (peer : PeerId) (m : Message)
deriving DecidableEq

def refusal? : Except Refusal BlockResponse → Option Refusal
  | .error e => some e
  | .ok _ => none

variable {σ : Type}

/-- The transport that also keeps the list of the calls to it. -/
def Transport.traced (t : Transport σ) : Transport (σ × List Event) where
  localPeer s := t.localPeer s.1
  connected s := t.connected s.1
  listening s := t.listening s.1
  send p c payload s :=
    match t.send p c payload s.1 with
    | (.ok (), a) => (.ok (), a, .sent p c payload :: s.2)
    | (.error e, a) => (.error e, a, .notSent p c payload :: s.2)
  accept c s := (t.accept c s.1, .accepting c :: s.2)
  watch s := (t.watch s.1, .watching :: s.2)
  setBootstrap addresses s := (t.setBootstrap addresses s.1, .bootstrapSet addresses :: s.2)
  bootstrap s := let (r, a) := t.bootstrap s.1; (r, a, .bootstrapped :: s.2)
  close s := let (r, a) := t.close s.1; (r, a, .closed :: s.2)

def Subsystems.traced (u : Subsystems σ) : Subsystems (σ × List Event) where
  genesis s := let (r, a) := u.genesis s.1; (r, a, s.2)
  head s := u.head s.1
  isSynced s := u.isSynced s.1
  announced p m s := let (r, a) := u.announced p m s.1; (r, a, .announced p m :: s.2)
  answered p m s := let (r, a) := u.answered p m s.1; (r, a, .answered p m :: s.2)
  serve m s := let (r, a) := u.serve m s.1; (r, a, .served m (refusal? r) :: s.2)
  seen n s := let (r, a) := u.seen n s.1; (r, a, .seen n :: s.2)
  deliver := u.deliver.map fun d p m s => (d p m s.1, .delivered p m :: s.2)

/-- The world that also keeps the list of all calls to it. -/
def World.traced (w : World σ) : World (σ × List Event) :=
  { w.toTransport.traced, w.toSubsystems.traced with }

end ChainPeer
