import ChainPeer.Proofs.Line

/-!
# Decoding on each protocol

The decoder that a node has registered for a protocol accepts exactly the payloads of the messages
that travel on it, and on the protocol of announcements only those of the kind that the peer must
send next. What travels on another protocol is told apart from what is no message at all. A
handshake and an announcement are never mistaken for each other: the payload of one that is read
where the other is due is dropped.
-/

namespace ChainPeer

theorem Message.payload_of_ne_blockAnnounces {m : Message} (h : m.channel ≠ .blockAnnounces) :
    m.payload = m.encodeTagged := if_neg h

theorem Message.channel_eq_blockAnnounces_iff {m : Message} :
    m.channel = .blockAnnounces ↔ m.kind = .handshake ∨ m.kind = .announce := by
  rw [channel]
  cases m.kind <;> decide

/-! ## Handshakes and announcements without a tag -/

/-- No payload is both a handshake and an announcement, whatever the limits. -/
theorem Message.decodeBare_announce_of_handshake {b : Bytes} {limit : Nat} {m : Message}
    (h : decodeBare .handshake b limit = .ok m) (limit' : Nat) (m' : Message) :
    decodeBare .announce b limit' ≠ .ok m' := by
  intro h'
  obtain ⟨hkind, -, -, rfl⟩ := decodeBare_eq_ok_iff.1 h
  obtain ⟨hkind', -, -, heq⟩ := decodeBare_eq_ok_iff.1 h'
  cases m <;> simp only [Message.kind, reduceCtorEq] at hkind
  cases m' <;> simp only [Message.kind, reduceCtorEq] at hkind'
  exact encodeBare_handshake_ne_announce _ _ heq

namespace Node

variable {n : Node} {p : PeerId} {b : Bytes} {c : Channel} {m : Message}

/-! ## Registered decoders -/

theorem registry_has_iff (n : Node) (protocol : Protocol) :
    n.registry.has protocol = true ↔ ∃ c : Channel, c.protocol = protocol := by
  have hmem : ∀ c : Channel, c ∈ Channel.all := by
    intro c
    cases c <;> decide
  rw [Registry.has, registry, Std.ExtTreeMap.contains_ofList]
  simp [Function.comp_def, hmem]

theorem registry_decode (n : Node) (c : Channel) : n.registry.decode c.protocol = n.decode c := by
  have hdecoder : n.registry.decoders[c.protocol]? = some (n.decode c) := by
    rw [registry]
    apply Std.ExtTreeMap.getElem?_ofList_of_mem Std.ReflCmp.compare_self
    · rw [List.pairwise_map]
      exact (show Channel.all.Pairwise fun c d => ¬ compare c.protocol d.protocol = .eq by decide)
    · cases c <;> simp [Channel.all]
  funext p b
  rw [Registry.decode, hdecoder]

/-! ## What is accepted -/

/-- What a peer has to send next on the protocol of announcements: its handshake, until that was
received. -/
def awaitedKind (n : Node) (p : PeerId) : MessageKind :=
  match n.exchanges.get? p with
  | none => .handshake
  | some x => if x.isReceived then .announce else .handshake

theorem awaitedKind_eq : n.awaitedKind p =
    if n.exchanges.expectsHandshake p then .handshake else .announce := by
  rw [awaitedKind, ExchangeTable.expectsHandshake]
  cases n.exchanges.get? p with
  | none => rfl
  | some x => cases x <;> rfl

theorem decode_of_ne_blockAnnounces (hc : c ≠ .blockAnnounces) :
    n.decode c p b =
      match Message.decodeTagged b n.config.maxMessageLength with
      | .error e => .error (.codec e)
      | .ok m => if m.channel = c then .ok m else .error (.unexpectedKind c.protocol m.kind) := by
  cases c with
  | blockAnnounces => exact absurd rfl hc
  | sync | legacy => rfl

theorem decode_eq_ok_iff : n.decode c p b = .ok m ↔
    m.channel = c ∧ m.Sized ∧ b = m.payload ∧ m.encodeBare.length ≤ n.config.maxMessageLength ∧
      (c = .blockAnnounces → m.kind = n.awaitedKind p) := by
  by_cases hc : c = .blockAnnounces
  · subst hc
    rw [decode_blockAnnounces_eq_ok_iff, ← awaitedKind_eq]
    constructor
    · rintro ⟨hkind, hlen, hsized, rfl⟩
      have hchannel : m.channel = .blockAnnounces := by
        rw [Message.channel_eq_blockAnnounces_iff, hkind, awaitedKind_eq]
        split
        · exact .inl rfl
        · exact .inr rfl
      exact ⟨hchannel, hsized, (Message.payload_of_blockAnnounces hchannel).symm, hlen,
        fun _ => hkind⟩
    · rintro ⟨hchannel, hsized, rfl, hlen, hkind⟩
      rw [Message.payload_of_blockAnnounces hchannel]
      exact ⟨hkind rfl, hlen, hsized, rfl⟩
  · rw [decode_of_ne_blockAnnounces hc]
    constructor
    · intro h
      split at h
      · exact nomatch h
      · next m' hread =>
        split at h
        · next hchannel =>
          obtain rfl := Except.ok.inj h
          obtain ⟨hlen, hsized, rfl⟩ := Message.decodeTagged_eq_ok_iff.1 hread
          have hpayload := Message.payload_of_ne_blockAnnounces (hchannel ▸ hc)
          exact ⟨hchannel, hsized, hpayload.symm, hlen, fun h => absurd h hc⟩
        · exact nomatch h
    · rintro ⟨hchannel, hsized, rfl, hlen, -⟩
      rw [Message.payload_of_ne_blockAnnounces (hchannel ▸ hc),
        Message.decodeTagged_eq_ok_iff.2 ⟨hlen, hsized, rfl⟩]
      exact if_pos hchannel

/-! ## What is refused -/

theorem decode_blockAnnounces_error {e : DecodeError}
    (h : n.decode .blockAnnounces p b = .error e) : ∃ fault, e = .codec fault := by
  unfold decode at h
  dsimp only at h
  generalize Message.decodeBare _ b _ = result at h
  cases result with
  | error fault => exact ⟨fault, (Except.error.inj h).symm⟩
  | ok m => exact nomatch h

/-- Behind a tag, a message of another protocol is told apart from bytes that are no message. -/
theorem decode_eq_error_iff (hc : c ≠ .blockAnnounces) {e : DecodeError} :
    n.decode c p b = .error e ↔
      (∃ m : Message, m.channel ≠ c ∧ m.Sized ∧ b = m.encodeTagged ∧
        m.encodeBare.length ≤ n.config.maxMessageLength ∧
          e = .unexpectedKind c.protocol m.kind) ∨
      ∃ fault, Message.decodeTagged b n.config.maxMessageLength = .error fault ∧
        e = .codec fault := by
  rw [decode_of_ne_blockAnnounces hc]
  constructor
  · intro h
    split at h
    · next fault hread => exact .inr ⟨fault, hread, (Except.error.inj h).symm⟩
    · next m hread =>
      split at h
      · exact nomatch h
      · next hchannel =>
        obtain ⟨hlen, hsized, hb⟩ := Message.decodeTagged_eq_ok_iff.1 hread
        exact .inl ⟨m, hchannel, hsized, hb, hlen, (Except.error.inj h).symm⟩
  · rintro (⟨m, hchannel, hsized, rfl, hlen, rfl⟩ | ⟨fault, hread, rfl⟩)
    · rw [Message.decodeTagged_eq_ok_iff.2 ⟨hlen, hsized, rfl⟩]
      exact if_neg hchannel
    · rw [hread]

/-- Each registered decoder accepts exactly the payloads of its own messages within the limit, on
the protocol of announcements only those of the kind that is awaited from the peer, and gives the
message back. Where messages have tags, it names the kind of a message of another protocol and finds
anything else malformed; on the protocol of announcements it finds all that it refuses malformed. -/
theorem registry_accepts_own (n : Node) (p : PeerId) (b : Bytes) :
    (∀ protocol, n.registry.has protocol = true ↔ ∃ c : Channel, c.protocol = protocol) ∧
      ∀ c : Channel,
        (∀ m, n.registry.decode c.protocol p b = .ok m ↔
          b = m.payload ∧ m.Sized ∧ m.channel = c ∧
            m.encodeBare.length ≤ n.config.maxMessageLength ∧
            (c = .blockAnnounces → m.kind = n.awaitedKind p)) ∧
        (c ≠ .blockAnnounces → ∀ protocol kind,
          (n.registry.decode c.protocol p b = .error (.unexpectedKind protocol kind) ↔
            protocol = c.protocol ∧ ∃ m : Message, m.kind = kind ∧ b = m.encodeTagged ∧ m.Sized ∧
              m.channel ≠ c ∧ m.encodeBare.length ≤ n.config.maxMessageLength)) ∧
        ∀ e, n.registry.decode c.protocol p b = .error e →
          (∃ fault, e = .codec fault) ∨
            c ≠ .blockAnnounces ∧ ∃ kind, e = .unexpectedKind c.protocol kind := by
  refine ⟨n.registry_has_iff, fun c => ?_⟩
  rw [registry_decode]
  refine ⟨fun m => ?_, fun hc protocol kind => ?_, fun e he => ?_⟩
  · rw [decode_eq_ok_iff]
    constructor
    · exact fun ⟨hchannel, hsized, hb, hlen, hkind⟩ => ⟨hb, hsized, hchannel, hlen, hkind⟩
    · exact fun ⟨hb, hsized, hchannel, hlen, hkind⟩ => ⟨hchannel, hsized, hb, hlen, hkind⟩
  · rw [decode_eq_error_iff hc]
    constructor
    · rintro (⟨m, hchannel, hsized, hb, hlen, he⟩ | ⟨fault, -, he⟩)
      · obtain ⟨rfl, rfl⟩ := DecodeError.unexpectedKind.inj he
        exact ⟨rfl, m, rfl, hb, hsized, hchannel, hlen⟩
      · exact nomatch he
    · rintro ⟨rfl, m, rfl, hb, hsized, hchannel, hlen⟩
      exact .inl ⟨m, hchannel, hsized, hb, hlen, rfl⟩
  · by_cases hc : c = .blockAnnounces
    · subst hc
      exact .inl (decode_blockAnnounces_error he)
    · rcases (decode_eq_error_iff hc).1 he with ⟨m, -, -, -, -, rfl⟩ | ⟨fault, -, rfl⟩
      · exact .inr ⟨hc, m.kind, rfl⟩
      · exact .inl ⟨fault, rfl⟩

/-! ## Out of turn -/

/-- A handshake or an announcement that is not awaited is no message. -/
theorem decode_out_of_turn (hchannel : m.channel = .blockAnnounces)
    (hkind : m.kind ≠ n.awaitedKind p) :
    ∃ fault, n.decode .blockAnnounces p m.payload = .error (.codec fault) := by
  cases hread : n.decode .blockAnnounces p m.payload with
  | error e =>
      obtain ⟨fault, rfl⟩ := decode_blockAnnounces_error hread
      exact ⟨fault, rfl⟩
  | ok m' =>
      obtain ⟨hchannel', -, hpayload, -, hkind'⟩ := decode_eq_ok_iff.1 hread
      rw [Message.payload_of_blockAnnounces hchannel,
        Message.payload_of_blockAnnounces hchannel'] at hpayload
      rw [← hkind' rfl] at hkind
      rw [Message.channel_eq_blockAnnounces_iff] at hchannel hchannel'
      cases m <;> cases m' <;> simp [Message.kind] at hchannel hchannel' hkind
      · exact absurd hpayload (Message.encodeBare_handshake_ne_announce _ _)
      · exact absurd hpayload.symm (Message.encodeBare_handshake_ne_announce _ _)

end Node

/-- No payload decodes both as a handshake and as an announcement. So the one is refused once the
handshake of the peer was received and the other before; a frame that is read in the wrong state
only counts as received and as not decoded. -/
theorem Message.handshake_or_announce :
    (∀ b limit limit' m m', decodeBare .handshake b limit = .ok m →
      decodeBare .announce b limit' ≠ .ok m') ∧
    (∀ (n : Node) p h, n.awaitedKind p = .announce →
      ∃ fault, n.decode .blockAnnounces p (handshake h).payload = .error (.codec fault)) ∧
    (∀ (n : Node) p a, n.awaitedKind p = .handshake →
      ∃ fault, n.decode .blockAnnounces p (announce a).payload = .error (.codec fault)) ∧
    ∀ (σ : Type) (w : World σ) (s : Site σ) p (m : Message), m.channel = .blockAnnounces →
      m.kind ≠ s.node.awaitedKind p → s.onPayload w .blockAnnounces p m.payload =
        (.ok (), s.update (·.count fun counts =>
          { counts with
            framesReceived := counts.framesReceived + 1
            decodeErrors := counts.decodeErrors + 1 })) := by
  refine ⟨fun b limit limit' m m' h => decodeBare_announce_of_handshake h limit' m', ?_, ?_, ?_⟩
  · intro n p h hawaited
    apply Node.decode_out_of_turn rfl
    rw [hawaited]
    exact nofun
  · intro n p a hawaited
    apply Node.decode_out_of_turn rfl
    rw [hawaited]
    exact nofun
  · intro σ w s p m hchannel hkind
    let received := s.update (·.count fun counts =>
      { counts with framesReceived := counts.framesReceived + 1 })
    obtain ⟨fault, hread⟩ : ∃ fault,
        received.node.decode .blockAnnounces p m.payload = .error (.codec fault) :=
      Node.decode_out_of_turn hchannel hkind
    rw [Site.onPayload]
    simp only [received] at hread
    simp only [hread]
    rfl

end ChainPeer
