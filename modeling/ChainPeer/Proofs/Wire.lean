import ChainPeer.Message.Wire
import ChainPeer.Proofs.Codec

/-!
# Messages and their encodings

The encodings of messages are canonical: with and without the tag, a byte string is decoded to a
message exactly if it is the encoding of that message and within the limit. Handshakes and
announcements, which travel without a tag, are told apart by their lengths.
-/

namespace ChainPeer

open Codec

/-! ## Messages that can be written

All lengths inside a message have to be below `2 ^ 64`, the range of the counts in front of its
sequences. -/

/-- All lengths inside an announcement can be written. -/
def Announce.Sized (m : Announce) : Prop := Counted Codec.Sized m.digest

/-- All lengths inside one block of a response can be written. -/
def BlockData.Sized (m : BlockData) : Prop :=
  Optional Codec.Sized m.header ∧ Optional (Counted Codec.Sized) m.body ∧
    Optional Codec.Sized m.justification

/-- All lengths inside a message can be written. -/
def Message.Sized : Message → Prop
  | .handshake _ | .request _ => True
  | .announce m => m.Sized
  | .response m => Counted BlockData.Sized m.blocks
  | .status m => Codec.Sized m.chainStatus
  | .transactions m => Counted Codec.Sized m.extrinsics

/-! ## The codec of each kind of message -/

theorem Handshake.lawful_codec : Handshake.codec.Lawful fun _ => True := by
  have hfields := lawful_byte.pair (lawful_word64.pair (lawful_hash.pair lawful_hash))
  refine (hfields.map _ _ (fun _ => rfl) fun _ _ => rfl).congr fun m => ?_
  simp

theorem Announce.lawful_codec : Announce.codec.Lawful Announce.Sized := by
  have hfields := lawful_hash.pair (lawful_word64.pair (lawful_hash.pair (lawful_hash.pair
    (lawful_bytes.list.pair lawful_bool))))
  refine (hfields.map _ _ (fun _ => rfl) fun _ _ => rfl).congr fun m => ?_
  simp [Announce.Sized]

theorem StartBlock.lawful_codec : StartBlock.codec.Lawful fun _ => True := by
  have hindex := lawful_hash.either lawful_word64
  refine (hindex.map _ _ (fun start => by cases start <;> rfl)
    (fun index _ => by cases index <;> rfl)).congr fun start => ?_
  cases start <;> simp

theorem Direction.lawful_codec : Direction.codec.Lawful fun _ => True := by
  have hindex := lawful_unit.either lawful_unit
  refine (hindex.map _ _ (fun direction => by cases direction <;> rfl)
    (fun index _ => by cases index <;> rfl)).congr fun direction => ?_
  cases direction <;> simp

theorem BlockRequest.lawful_codec : BlockRequest.codec.Lawful fun _ => True := by
  have hfields := lawful_word64.pair (lawful_byte.pair (StartBlock.lawful_codec.pair
    (lawful_hash.option.pair (Direction.lawful_codec.pair lawful_word32.option))))
  refine (hfields.map _ _ (fun _ => rfl) fun _ _ => rfl).congr fun m => ?_
  simp [Optional]

theorem BlockData.lawful_codec : BlockData.codec.Lawful BlockData.Sized := by
  have hfields := lawful_hash.pair (lawful_bytes.option.pair (lawful_bytes.list.option.pair
    lawful_bytes.option))
  refine (hfields.map _ _ (fun _ => rfl) fun _ _ => rfl).congr fun m => ?_
  simp [BlockData.Sized]

theorem BlockResponse.lawful_codec :
    BlockResponse.codec.Lawful fun m => Counted BlockData.Sized m.blocks := by
  have hfields := lawful_word64.pair BlockData.lawful_codec.list
  refine (hfields.map _ _ (fun _ => rfl) fun _ _ => rfl).congr fun m => ?_
  simp

theorem Status.lawful_codec : Status.codec.Lawful fun m => Codec.Sized m.chainStatus := by
  have hfields := lawful_word32.pair (lawful_word32.pair (lawful_byte.pair (lawful_word64.pair
    (lawful_hash.pair (lawful_hash.pair lawful_bytes)))))
  refine (hfields.map _ _ (fun _ => rfl) fun _ _ => rfl).congr fun m => ?_
  simp

theorem Transactions.lawful_codec :
    Transactions.codec.Lawful fun m => Counted Codec.Sized m.extrinsics :=
  lawful_bytes.list.map _ _ (fun _ => rfl) fun _ _ => rfl

namespace Message

/-! ## Messages without a tag -/

/-- Decoding as one kind of message accepts the encodings of the messages of that kind. -/
theorem map_decodeWithin_eq_ok_iff {α : Type} {c : Codec α} {fits : α → Prop} (hc : c.Lawful fits)
    (f : α → Message) {limit : Nat} {b : Bytes} {m : Message} :
    f <$> c.decodeWithin limit b = .ok m ↔
      ∃ a, f a = m ∧ b.length ≤ limit ∧ fits a ∧ b = c.encode a := by
  constructor
  · intro h
    cases hdecode : c.decodeWithin limit b with
    | error e => rw [hdecode] at h; exact nomatch h
    | ok a =>
        rw [hdecode] at h
        exact ⟨a, Except.ok.inj h, hc.decodeWithin_eq_ok_iff.1 hdecode⟩
  · rintro ⟨a, rfl, ha⟩
    rw [hc.decodeWithin_eq_ok_iff.2 ha]
    rfl

theorem decodeBare_eq_ok_iff {kind : MessageKind} {b : Bytes} {limit : Nat} {m : Message} :
    decodeBare kind b limit = .ok m ↔
      m.kind = kind ∧ b.length ≤ limit ∧ m.Sized ∧ b = m.encodeBare := by
  cases kind with
  | status =>
      rw [decodeBare, map_decodeWithin_eq_ok_iff Status.lawful_codec]
      cases m <;> simp [Message.kind, Message.Sized, encodeBare]
  | request =>
      rw [decodeBare, map_decodeWithin_eq_ok_iff BlockRequest.lawful_codec]
      cases m <;> simp [Message.kind, Message.Sized, encodeBare]
  | response =>
      rw [decodeBare, map_decodeWithin_eq_ok_iff BlockResponse.lawful_codec]
      cases m <;> simp [Message.kind, Message.Sized, encodeBare]
  | announce =>
      rw [decodeBare, map_decodeWithin_eq_ok_iff Announce.lawful_codec]
      cases m <;> simp [Message.kind, Message.Sized, encodeBare]
  | transactions =>
      rw [decodeBare, map_decodeWithin_eq_ok_iff Transactions.lawful_codec]
      cases m <;> simp [Message.kind, Message.Sized, encodeBare]
  | handshake =>
      rw [decodeBare, map_decodeWithin_eq_ok_iff Handshake.lawful_codec]
      cases m <;> simp [Message.kind, Message.Sized, encodeBare]

theorem decodeBare_of_lt (kind : MessageKind) {b : Bytes} {limit : Nat} (h : limit < b.length) :
    decodeBare kind b limit = .error .tooLarge := by
  cases kind <;> rw [decodeBare, decodeWithin_of_lt h] <;> rfl

theorem decodeBare_encodeBare {m : Message} (hm : m.Sized) (limit : Nat) :
    decodeBare m.kind m.encodeBare limit =
      if m.encodeBare.length ≤ limit then .ok m else .error .tooLarge := by
  by_cases h : m.encodeBare.length ≤ limit
  · rw [if_pos h]
    exact decodeBare_eq_ok_iff.2 ⟨rfl, h, hm, rfl⟩
  · rw [if_neg h]
    exact decodeBare_of_lt m.kind (Nat.lt_of_not_le h)

theorem encodeBare_injective {m m' : Message} (hm : m.Sized) (hm' : m'.Sized)
    (hkind : m.kind = m'.kind) (h : m.encodeBare = m'.encodeBare) : m = m' := by
  have hread : decodeBare m.kind m.encodeBare m.encodeBare.length = .ok m :=
    decodeBare_eq_ok_iff.2 ⟨rfl, Nat.le_refl _, hm, rfl⟩
  have hread' : decodeBare m.kind m.encodeBare m.encodeBare.length = .ok m' :=
    decodeBare_eq_ok_iff.2 ⟨hkind.symm, Nat.le_refl _, hm', h⟩
  rw [hread] at hread'
  exact Except.ok.inj hread'

theorem eq_nil_of_encodeBare_append {m m' : Message} {rest : Bytes} (hm : m.Sized) (hm' : m'.Sized)
    (hkind : m.kind = m'.kind) (h : m.encodeBare ++ rest = m'.encodeBare) : rest = [] := by
  cases m <;> cases m' <;> simp only [Message.kind, reduceCtorEq] at hkind
  case handshake => exact Handshake.lawful_codec.eq_nil_of_encode_append trivial trivial h
  case announce => exact Announce.lawful_codec.eq_nil_of_encode_append hm hm' h
  case request => exact BlockRequest.lawful_codec.eq_nil_of_encode_append trivial trivial h
  case response => exact BlockResponse.lawful_codec.eq_nil_of_encode_append hm hm' h
  case status => exact Status.lawful_codec.eq_nil_of_encode_append hm hm' h
  case transactions => exact Transactions.lawful_codec.eq_nil_of_encode_append hm hm' h

/-- A message with anything behind it is not a message. -/
theorem decodeBare_append {kind : MessageKind} {b rest : Bytes} {limit : Nat} {m : Message}
    (h : decodeBare kind b limit = .ok m) (hrest : rest ≠ []) (limit' : Nat) (m' : Message) :
    decodeBare kind (b ++ rest) limit' ≠ .ok m' := by
  intro h'
  obtain ⟨hkind, -, hm, rfl⟩ := decodeBare_eq_ok_iff.1 h
  obtain ⟨hkind', -, hm', heq⟩ := decodeBare_eq_ok_iff.1 h'
  exact hrest (eq_nil_of_encodeBare_append hm hm' (hkind.trans hkind'.symm) heq)

/-! ## Handshakes and announcements -/

theorem length_encodeBare_handshake (h : Handshake) : (handshake h).encodeBare.length = 73 := by
  have hword : (Codec.word64.encode h.bestNumber).length = 8 := Bytes.length_littleEndian 8 _
  have hhash := h.bestHash.length_bytes
  have hgenesis := h.genesis.length_bytes
  calc
    _ = (Codec.byte.encode h.roles ++ (Codec.word64.encode h.bestNumber ++
        (h.bestHash.bytes ++ h.genesis.bytes))).length := rfl
    _ = 73 := by
      simp only [List.length_append, hword, hhash, hgenesis]
      rfl

theorem lt_length_encodeBare_announce (a : Announce) : 73 < (announce a).encodeBare.length := by
  have hparent := a.parent.length_bytes
  have hroot := a.stateRoot.length_bytes
  have hextrinsics := a.extrinsicsRoot.length_bytes
  calc
    73 < a.parent.bytes.length + a.stateRoot.bytes.length + a.extrinsicsRoot.bytes.length := by
      omega
    _ ≤ (a.parent.bytes ++ (Codec.word64.encode a.number ++ (a.stateRoot.bytes ++
        (a.extrinsicsRoot.bytes ++
          (Codec.bytes.list.encode a.digest ++ Codec.bool.encode a.isBest))))).length := by
      simp only [List.length_append]
      omega
    _ = (announce a).encodeBare.length := rfl

/-- No byte string is both a handshake and an announcement. -/
theorem encodeBare_handshake_ne_announce (h : Handshake) (a : Announce) :
    (handshake h).encodeBare ≠ (announce a).encodeBare := by
  intro heq
  have hlong := lt_length_encodeBare_announce a
  rw [← heq, length_encodeBare_handshake] at hlong
  omega

/-- On the channel of announcements, the bytes alone tell which message they stand for. -/
theorem encodeBare_injective_of_blockAnnounces {m m' : Message}
    (hchannel : m.channel = .blockAnnounces) (hchannel' : m'.channel = .blockAnnounces)
    (hm : m.Sized) (hm' : m'.Sized) (h : m.encodeBare = m'.encodeBare) : m = m' := by
  refine encodeBare_injective hm hm' ?_ h
  cases m <;> simp only [Message.channel, Message.kind, MessageKind.channel, reduceCtorEq]
    at hchannel <;>
  cases m' <;> simp only [Message.channel, Message.kind, MessageKind.channel, reduceCtorEq]
    at hchannel'
  case handshake.handshake => rfl
  case handshake.announce x a => exact absurd h (encodeBare_handshake_ne_announce x a)
  case announce.handshake a x => exact absurd h.symm (encodeBare_handshake_ne_announce x a)
  case announce.announce => rfl

/-! ## Messages behind their tags -/

theorem ofTag_eq_ok_iff {t : UInt8} {kind : MessageKind} :
    MessageKind.ofTag t = .ok kind ↔ t = kind.tag := by
  constructor
  · intro h
    unfold MessageKind.ofTag at h
    split at h <;> first | (obtain rfl := Except.ok.inj h; rfl) | exact nomatch h
  · rintro rfl
    cases kind <;> rfl

theorem decodeTagged_cons (kind : MessageKind) (body : Bytes) (limit : Nat) :
    decodeTagged (kind.tag :: body) limit = decodeBare kind body limit := by
  rw [decodeTagged, ofTag_eq_ok_iff.2 rfl]

theorem decodeTagged_eq_ok_iff {b : Bytes} {limit : Nat} {m : Message} :
    decodeTagged b limit = .ok m ↔
      m.encodeBare.length ≤ limit ∧ m.Sized ∧ b = m.encodeTagged := by
  constructor
  · intro h
    cases b with
    | nil => exact nomatch h
    | cons t body =>
        rw [decodeTagged] at h
        cases hkind : MessageKind.ofTag t with
        | error e => rw [hkind] at h; exact nomatch h
        | ok kind =>
            rw [hkind] at h
            obtain ⟨rfl, hlen, hm, rfl⟩ := decodeBare_eq_ok_iff.1 h
            rw [ofTag_eq_ok_iff] at hkind
            exact ⟨hlen, hm, by rw [hkind, encodeTagged]⟩
  · rintro ⟨hlen, hm, rfl⟩
    rw [encodeTagged, decodeTagged_cons]
    exact decodeBare_eq_ok_iff.2 ⟨rfl, hlen, hm, rfl⟩

theorem decodeTagged_append {b rest : Bytes} {limit : Nat} {m : Message}
    (h : decodeTagged b limit = .ok m) (hrest : rest ≠ []) (limit' : Nat) (m' : Message) :
    decodeTagged (b ++ rest) limit' ≠ .ok m' := by
  intro h'
  obtain ⟨-, hm, rfl⟩ := decodeTagged_eq_ok_iff.1 h
  obtain ⟨-, hm', heq⟩ := decodeTagged_eq_ok_iff.1 h'
  rw [encodeTagged, encodeTagged, List.cons_append] at heq
  obtain ⟨htag, hbody⟩ := List.cons.inj heq
  have hkind : m.kind = m'.kind := by
    have hofTag : MessageKind.ofTag m.kind.tag = .ok m'.kind := ofTag_eq_ok_iff.2 htag
    rw [ofTag_eq_ok_iff.2 rfl] at hofTag
    exact Except.ok.inj hofTag
  exact hrest (eq_nil_of_encodeBare_append hm hm' hkind hbody)

/-! ## Canonical encodings -/

theorem bytes_encode_ne_nil (b : Bytes) : Codec.bytes.encode b ≠ [] := by
  have hlen : ((Codec.nat 8).encode b.length).length = 8 := Bytes.length_littleEndian 8 b.length
  intro h
  obtain ⟨hnat, -⟩ := List.append_eq_nil_iff.1 h
  rw [hnat] at hlen
  exact absurd hlen (by decide)

theorem block_encode_ne_nil (m : BlockData) : BlockData.codec.encode m ≠ [] := by
  have hlen := m.hash.length_bytes
  intro h
  obtain ⟨hhash, -⟩ := List.append_eq_nil_iff.1 h
  rw [show m.hash.bytes = [] from hhash] at hlen
  exact absurd hlen (by decide)

/-- Both encodings of messages are canonical. Decoding accepts exactly the encodings of messages
within the limit and gives the message back, so that no two byte strings are decoded to the same
message and nothing may follow a message. Of the parts of a message, a truth value or the mark of
an optional value that is neither zero nor one, an index of an alternative that does not exist, and
a length or a count beyond what is left of the input are refused. -/
theorem encodings_canonical :
    (∀ kind b limit m, decodeBare kind b limit = .ok m →
      m.kind = kind ∧ b.length ≤ limit ∧ m.Sized ∧ m.encodeBare = b) ∧
    (∀ m limit, m.Sized → decodeBare m.kind m.encodeBare limit =
      if m.encodeBare.length ≤ limit then .ok m else .error .tooLarge) ∧
    (∀ b limit m, decodeTagged b limit = .ok m → m.Sized ∧ m.encodeTagged = b) ∧
    (∀ m limit, m.Sized →
      (decodeTagged m.encodeTagged limit = .ok m ↔ m.encodeBare.length ≤ limit)) ∧
    (∀ kind kind' b b' limit limit' m, decodeBare kind b limit = .ok m →
      decodeBare kind' b' limit' = .ok m → b = b') ∧
    (∀ b b' limit limit' m, decodeTagged b limit = .ok m →
      decodeTagged b' limit' = .ok m → b = b') ∧
    (∀ kind b rest limit limit' m m', decodeBare kind b limit = .ok m → rest ≠ [] →
      decodeBare kind (b ++ rest) limit' ≠ .ok m') ∧
    (∀ b rest limit limit' m m', decodeTagged b limit = .ok m → rest ≠ [] →
      decodeTagged (b ++ rest) limit' ≠ .ok m') ∧
    (∀ (t : UInt8) rest, t ≠ 0 → t ≠ 1 →
      Codec.bool.read (t :: rest) = none ∧ Codec.hash.option.read (t :: rest) = none ∧
      Codec.word32.option.read (t :: rest) = none ∧ Codec.bytes.option.read (t :: rest) = none ∧
      Codec.bytes.list.option.read (t :: rest) = none) ∧
    (∀ index rest, 2 ≤ index → index < 2 ^ 32 →
      StartBlock.codec.read ((Codec.nat 4).encode index ++ rest) = none ∧
      Direction.codec.read ((Codec.nat 4).encode index ++ rest) = none) ∧
    (∀ count rest, count < 2 ^ 64 → rest.length < count →
      Codec.bytes.read ((Codec.nat 8).encode count ++ rest) = none ∧
      Codec.bytes.list.read ((Codec.nat 8).encode count ++ rest) = none ∧
      BlockData.codec.list.read ((Codec.nat 8).encode count ++ rest) = none) := by
  refine ⟨?_, ?_, ?_, ?_, ?_, ?_, ?_, ?_, ?_, ?_, ?_⟩
  · intro kind b limit m h
    obtain ⟨hkind, hlen, hm, rfl⟩ := decodeBare_eq_ok_iff.1 h
    exact ⟨hkind, hlen, hm, rfl⟩
  · intro m limit hm
    exact decodeBare_encodeBare hm limit
  · intro b limit m h
    obtain ⟨-, hm, rfl⟩ := decodeTagged_eq_ok_iff.1 h
    exact ⟨hm, rfl⟩
  · intro m limit hm
    rw [decodeTagged_eq_ok_iff]
    exact ⟨fun h => h.1, fun h => ⟨h, hm, rfl⟩⟩
  · intro kind kind' b b' limit limit' m h h'
    rw [(decodeBare_eq_ok_iff.1 h).2.2.2, (decodeBare_eq_ok_iff.1 h').2.2.2]
  · intro b b' limit limit' m h h'
    rw [(decodeTagged_eq_ok_iff.1 h).2.2, (decodeTagged_eq_ok_iff.1 h').2.2]
  · intro kind b rest limit limit' m m' h hrest
    exact decodeBare_append h hrest limit' m'
  · intro b rest limit limit' m m' h hrest
    exact decodeTagged_append h hrest limit' m'
  · intro t rest h₀ h₁
    exact ⟨read_bool_eq_none h₀ h₁ rest, read_option_eq_none _ h₀ h₁ rest,
      read_option_eq_none _ h₀ h₁ rest, read_option_eq_none _ h₀ h₁ rest,
      read_option_eq_none _ h₀ h₁ rest⟩
  · intro index rest h₂ hindex
    rw [StartBlock.codec, Direction.codec, Codec.map, Codec.map]
    simp only [read_either_eq_none _ _ h₂ hindex rest, Option.map_none, and_self]
  · intro count rest hcount hrest
    exact ⟨read_bytes_eq_none hcount hrest,
      lawful_bytes.read_list_eq_none bytes_encode_ne_nil hcount hrest,
      BlockData.lawful_codec.read_list_eq_none block_encode_ne_nil hcount hrest⟩

end Message

end ChainPeer
