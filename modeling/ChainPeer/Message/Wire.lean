import ChainPeer.Message

/-!
# Messages on the wire

The encoding of each kind of message, bare or behind its tag. Handshakes and announcements travel
bare: what a peer sends next is known from how far the exchange with it has come. All other
messages travel behind their tags.
-/

namespace ChainPeer

open Codec

def Handshake.codec : Codec Handshake :=
  (byte.pair (word64.pair (hash.pair hash))).map
    (fun (roles, bestNumber, bestHash, genesis) => ⟨roles, bestNumber, bestHash, genesis⟩)
    (fun m => (m.roles, m.bestNumber, m.bestHash, m.genesis))

def Announce.codec : Codec Announce :=
  (hash.pair (word64.pair (hash.pair (hash.pair (bytes.list.pair bool))))).map
    (fun (parent, number, stateRoot, extrinsicsRoot, digest, isBest) =>
      ⟨parent, number, stateRoot, extrinsicsRoot, digest, isBest⟩)
    (fun m => (m.parent, m.number, m.stateRoot, m.extrinsicsRoot, m.digest, m.isBest))

/-- A hash or a number, by its index. -/
def StartBlock.codec : Codec StartBlock :=
  (Codec.hash.either word64).map
    (fun | .inl h => .hash h | .inr n => .number n)
    (fun | .hash h => .inl h | .number n => .inr n)

def Direction.codec : Codec Direction :=
  (unit.either unit).map
    (fun | .inl _ => .ascending | .inr _ => .descending)
    (fun | .ascending => .inl () | .descending => .inr ())

def BlockRequest.codec : Codec BlockRequest :=
  (word64.pair (byte.pair (StartBlock.codec.pair (hash.option.pair
      (Direction.codec.pair word32.option))))).map
    (fun (id, parts, start, last, direction, limit) => ⟨id, parts, start, last, direction, limit⟩)
    (fun m => (m.id, m.parts, m.start, m.last, m.direction, m.limit))

def BlockData.codec : Codec BlockData :=
  (Codec.hash.pair (bytes.option.pair (bytes.list.option.pair bytes.option))).map
    (fun (hash, header, body, justification) => ⟨hash, header, body, justification⟩)
    (fun m => (m.hash, m.header, m.body, m.justification))

def BlockResponse.codec : Codec BlockResponse :=
  (word64.pair BlockData.codec.list).map
    (fun (id, blocks) => ⟨id, blocks⟩)
    (fun m => (m.id, m.blocks))

def Status.codec : Codec Status :=
  (word32.pair (word32.pair (byte.pair (word64.pair (hash.pair (hash.pair bytes)))))).map
    (fun (protocolVersion, minSupportedVersion, roles, bestNumber, bestHash, genesis,
      chainStatus) =>
      ⟨protocolVersion, minSupportedVersion, roles, bestNumber, bestHash, genesis, chainStatus⟩)
    (fun m => (m.protocolVersion, m.minSupportedVersion, m.roles, m.bestNumber, m.bestHash,
      m.genesis, m.chainStatus))

def Transactions.codec : Codec Transactions :=
  bytes.list.map Transactions.mk Transactions.extrinsics

def Announce.headerHash (m : Announce) : Hash :=
  Hash.sha256 (Announce.codec.encode m)

namespace Message

/-- The encoding of a message without its tag. -/
def encodeBare : Message → Bytes
  | handshake m => Handshake.codec.encode m
  | announce m => Announce.codec.encode m
  | request m => BlockRequest.codec.encode m
  | response m => BlockResponse.codec.encode m
  | status m => Status.codec.encode m
  | transactions m => Transactions.codec.encode m

/-- Reads a message of a known kind from at most `limit` bytes. -/
def decodeBare (kind : MessageKind) (bytes : Bytes) (limit : Nat) : Except CodecError Message :=
  match kind with
  | .handshake => handshake <$> Handshake.codec.decodeWithin limit bytes
  | .announce => announce <$> Announce.codec.decodeWithin limit bytes
  | .request => request <$> BlockRequest.codec.decodeWithin limit bytes
  | .response => response <$> BlockResponse.codec.decodeWithin limit bytes
  | .status => status <$> Status.codec.decodeWithin limit bytes
  | .transactions => transactions <$> Transactions.codec.decodeWithin limit bytes

def encodeTagged (m : Message) : Bytes :=
  m.kind.tag :: m.encodeBare

/-- Reads a message behind its tag, from at most `limit` bytes after the tag. -/
def decodeTagged (bytes : Bytes) (limit : Nat) : Except CodecError Message :=
  match bytes with
  | [] => .error .empty
  | tag :: body =>
    match MessageKind.ofTag tag with
    | .error e => .error e
    | .ok kind => decodeBare kind body limit

/-- The bytes that stand for a message on its channel. -/
def payload (m : Message) : Bytes :=
  if m.channel = .blockAnnounces then m.encodeBare else m.encodeTagged

end Message

end ChainPeer
