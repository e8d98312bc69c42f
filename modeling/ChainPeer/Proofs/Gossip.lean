import ChainPeer.Proofs.Seen
import ChainPeer.Proofs.Streams
import ChainPeer.Proofs.Wire

/-!
# Passing transactions on

What a site that can send to all its peers does with transactions, of its own or from a peer. All
that matters of it is what its node remembers and what it has called the world for: transactions
that are not new change nothing.
-/

namespace ChainPeer

variable {σ : Type}

/-- The connected peers are always the given ones, sending to them works, and transactions are taken
in. -/
structure World.Open (w : World σ) (peers : List PeerId) : Prop where
  connected_eq : ∀ a, w.connected a = peers
  send_eq : ∀ p ∈ peers, ∀ payload a, (w.send p .legacy payload a).1 = .ok ()
  deliver_isSome : w.deliver.isSome = true

/-- What matters of a site when transactions are passed on: the hashes that its node has seen, and
the calls to the world. -/
structure Spot where
  seen : SeenWindow
  trace : List Event

/-- A message sent to each of some peers, the last one first. -/
def Event.sentToAll (peers : List PeerId) (m : Message) : List Event :=
  (peers.map fun p => .sent p .legacy m.payload).reverse

namespace Site

/-- What matters of the site when transactions are passed on. -/
def spot (s : Site (σ × List Event)) : Spot := ⟨s.node.seen, s.world.2⟩

variable {w : World σ} {peers : List PeerId} {p : PeerId} {m : Message}
  {s : Site (σ × List Event)}

theorem spot_send (hw : w.Open peers) (hp : p ∈ peers) (hm : m.channel = .legacy)
    (s : Site (σ × List Event)) :
    (s.send w.traced p m).2.spot =
      { s.spot with trace := .sent p .legacy m.payload :: s.spot.trace } := by
  have hsend := hw.send_eq p hp m.payload s.world.1
  rw [send, hm]
  cases hresult : w.send p .legacy m.payload s.world.1 with
  | mk r a =>
      rw [hresult] at hsend
      dsimp only at hsend
      subst hsend
      simp [World.traced, Transport.traced, hresult, spot, Node.count]

theorem spot_forward (hw : w.Open peers) (hm : m.channel = .legacy) (except : Option PeerId)
    (s : Site (σ × List Event)) :
    (s.forward w.traced m except).spot =
      { s.spot with
        trace := Event.sentToAll (peers.filter fun p => some p ≠ except) m ++ s.spot.trace } := by
  have hfold : ∀ (targets : List PeerId) (s : Site (σ × List Event)), (∀ p ∈ targets, p ∈ peers) →
      (targets.foldl (fun s p => (s.send w.traced p m).2) s).spot =
        { s.spot with trace := Event.sentToAll targets m ++ s.spot.trace } := by
    intro targets
    induction targets with
    | nil => exact fun _ _ => rfl
    | cons p targets ih =>
        intro s htargets
        have hrest := ih (s.send w.traced p m).2 fun q hq => htargets q (List.mem_cons_of_mem p hq)
        rw [List.foldl_cons, hrest, spot_send hw (htargets p List.mem_cons_self) hm]
        simp [Event.sentToAll]
  have hconnected : w.traced.connected s.world = peers := hw.connected_eq s.world.1
  rw [forward, hconnected]
  exact hfold _ s fun p hp => (List.mem_filter.1 hp).1

theorem spot_gossip (hw : w.Open peers) (hm : m.channel = .legacy) (s : Site (σ × List Event)) :
    (s.gossip w.traced m none).2.spot =
      { seen := (s.spot.seen.insert m.gossipHash).2
        trace := Event.sentToAll peers m ++ s.spot.trace } := by
  rw [gossip, spot_forward hw hm, List.filter_eq_self.2 (by simp)]
  rfl

theorem spot_deliver (hw : w.Open peers) (p : PeerId) (m : Message) (s : Site (σ × List Event)) :
    (s.deliver w.traced p m).spot = { s.spot with trace := .delivered p m :: s.spot.trace } := by
  obtain ⟨d, hd⟩ := Option.isSome_iff_exists.1 hw.deliver_isSome
  have htraced : w.traced.deliver = some fun p m s => (d p m s.1, .delivered p m :: s.2) := by
    simp [World.traced, Subsystems.traced, hd]
  rw [deliver, htraced]
  rfl

theorem spot_onGossip_of_mem (hseen : s.spot.seen.Valid)
    (hmem : m.gossipHash ∈ s.spot.seen.toList) : (s.onGossip w.traced p m).spot = s.spot := by
  have hinsert : s.node.seen.insert m.gossipHash = (false, s.node.seen) :=
    SeenWindow.insert_of_mem hseen.toSynced hmem
  rw [onGossip, hinsert]
  rfl

/-- New transactions are handed over, and passed on to all peers but the one they are from. -/
theorem spot_onGossip_of_not_mem (hw : w.Open peers) (hm : m.channel = .legacy)
    (hseen : s.spot.seen.Valid) (hmem : m.gossipHash ∉ s.spot.seen.toList) :
    (s.onGossip w.traced p m).spot =
      { seen := (s.spot.seen.insert m.gossipHash).2
        trace := Event.sentToAll (peers.filter fun q => some q ≠ some p) m ++
          .delivered p m :: s.spot.trace } := by
  have hnew : (s.node.seen.insert m.gossipHash).1 = true :=
    (SeenWindow.insert_of_not_mem hseen hmem).1
  have hinsert : s.node.seen.insert m.gossipHash =
      (true, (s.node.seen.insert m.gossipHash).2) := Prod.ext hnew rfl
  rw [onGossip, hinsert]
  dsimp only
  rw [spot_forward hw hm, spot_deliver hw]
  rfl

end Site

/-! ## Frames of transactions -/

/-- What is read when the frame of a payload arrives. -/
def Frame.received (payload : Bytes) (limit : Nat) : Except FrameError (Option Bytes) :=
  ((ByteSource.ofBytes (Frame.encode payload)).readFrame limit).1

/-- A message is neither too long for a frame nor too long to be decoded. -/
def Config.Takes (c : Config) (m : Message) : Prop :=
  m.payload.length ≤ c.maxFrameLength ∧ m.encodeBare.length ≤ c.maxMessageLength

theorem Frame.holds_ofBytes (payload : Bytes) :
    (ByteSource.ofBytes (encode payload)).Holds (encode payload ++ []) none :=
  ⟨rfl, rfl⟩

theorem Frame.received_of_le {payload : Bytes} {limit : Nat} (hne : payload ≠ [])
    (hsize : payload.length < 2 ^ 64) (h : payload.length ≤ limit) :
    received payload limit = .ok (some payload) := by
  obtain ⟨rest, hread, -⟩ := ByteSource.readFrame_encode hne hsize h (holds_ofBytes payload)
  rw [received, hread]

theorem Frame.received_of_lt {payload : Bytes} {limit : Nat} (hsize : payload.length < 2 ^ 64)
    (h : limit < payload.length) :
    received payload limit = .error (.tooLarge payload.length limit) := by
  obtain ⟨rest, hread⟩ := ByteSource.readFrame_encode_of_lt hsize h (holds_ofBytes payload)
  rw [received, hread]

namespace Site

variable {w : World σ} {p : PeerId} {t : Transactions}

@[simp] theorem spot_withIntake (s : Site (σ × List Event)) (i : Intake) :
    (s.withIntake i).spot = s.spot := rfl

theorem payload_transactions_ne_nil : (Message.transactions t).payload ≠ [] :=
  List.cons_ne_nil _ _

theorem decode_transactions (hsized : (Message.transactions t).Sized) (s : Site σ) :
    s.node.decode .legacy p (Message.transactions t).payload =
      if (Message.transactions t).encodeBare.length ≤ s.node.config.maxMessageLength then
        .ok (.transactions t)
      else .error (.codec .tooLarge) := by
  have htagged : Message.decodeTagged (Message.transactions t).payload
      s.node.config.maxMessageLength = _ :=
    (Message.decodeTagged_cons .transactions _ _).trans (Message.decodeBare_encodeBare hsized _)
  simp only [Node.decode, htagged]
  by_cases hfits : (Message.transactions t).encodeBare.length ≤ s.node.config.maxMessageLength
  · rw [if_pos hfits, if_pos hfits]
    rfl
  · rw [if_neg hfits, if_neg hfits]

/-- Transactions that a node takes are handled as such when their frame arrives. -/
theorem onFrame_of_takes (hsized : (Message.transactions t).Sized)
    (hsize : (Message.transactions t).payload.length < 2 ^ 64) (s : Site σ)
    (h : s.node.config.Takes (.transactions t)) :
    ∃ i, (s.onFrame w .legacy p
        (Frame.received (Message.transactions t).payload s.node.config.maxFrameLength)).2 =
      (s.onGossip w p (.transactions t)).withIntake i := by
  rw [Frame.received_of_le payload_transactions_ne_nil hsize h.1]
  have hdecode := (decode_transactions (p := p) hsized s).trans (if_pos h.2)
  exact ⟨_, congrArg Prod.snd (onFrame_of_handled (w := w) hdecode rfl)⟩

/-- Of transactions that a node does not take it only notes that something came in. -/
theorem onFrame_of_not_takes (hsized : (Message.transactions t).Sized)
    (hsize : (Message.transactions t).payload.length < 2 ^ 64) (s : Site σ)
    (h : ¬ s.node.config.Takes (.transactions t)) :
    ∃ i, (s.onFrame w .legacy p
        (Frame.received (Message.transactions t).payload s.node.config.maxFrameLength)).2 =
      s.withIntake i := by
  by_cases hframe : (Message.transactions t).payload.length ≤ s.node.config.maxFrameLength
  · rw [Frame.received_of_le payload_transactions_ne_nil hsize hframe]
    have hdecode := (decode_transactions (p := p) hsized s).trans
      (if_neg fun hmessage => h ⟨hframe, hmessage⟩)
    exact ⟨_, congrArg Prod.snd (onFrame_of_dropped (w := w) hdecode)⟩
  · rw [Frame.received_of_lt hsize (Nat.lt_of_not_le hframe)]
    exact ⟨{ s.node.intake with
      streamErrors := s.node.metrics.streamErrors + 1
      reports := s.node.reports.add ⟨p, Channel.legacy.protocol, _⟩ }, rfl⟩

end Site

end ChainPeer
