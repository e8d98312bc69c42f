import ChainPeer.Proofs.Duo
import ChainPeer.Proofs.Party.Estranged

/-!
# Two nodes linked to each other

Two nodes that announce blocks to each other over a queue of payloads in each direction. Nothing
on the wire says whether a payload is a handshake or an announcement; the receiver infers it from
how far its exchange with the sender has come, and always infers what the sender has written. On
the same chain the exchange completes and the announcements arrive.

Both are shown by following the nodes with two parties, step by step.
-/

namespace ChainPeer

/-- Two nodes that are linked to each other. Each of them knows one genesis block and can always
send to the other one, and no message is too long for the other one. -/
structure Link (σ : Side → Type) extends Duo σ where
  genesis : Side → Hash
  reliable : ∀ i, (world i).Reliable (peer i.other) (genesis i)
  handshake_fits : ∀ i (h : Handshake),
    (Message.handshake h).payload.length ≤ (config i).maxMessageLength

/-- How far two linked nodes have come, and the announcements that each of them was asked to send to
the other one. -/
structure LinkState (σ : Side → Type) extends DuoState σ where
  offers : Side → List Offer

namespace Link

variable {σ : Side → Type} (L : Link σ)

/-- The payloads of a node that the other one has not yet taken in, oldest first. -/
def queue (st : LinkState σ) (i : Side) : List Bytes :=
  L.toDuo.queue .blockAnnounces st.toDuoState i

/-- The announcements of a node that the other one has passed on. -/
def heard (st : LinkState σ) (i : Side) : List Announce :=
  ((st.site i.other).line (L.peer i)).heard

/-- The exchange of a node with the other one. -/
def exchange (st : LinkState σ) (i : Side) : Option Exchange :=
  (st.site i).node.exchanges.get? (L.peer i.other)

/-- A node is asked to send an announcement to the other one. -/
def offer (i : Side) (a : Announce) (st : LinkState σ) : LinkState σ where
  toDuoState := st.put i
    ((st.site i).announceTo (L.world i).traced (L.peer i.other) (.announce a)).2
  offers := Function.update st.offers i
    (st.offers i ++ [⟨a, (st.site i).node.exchanges.expectsHandshake (L.peer i.other)⟩])

/-- A payload of a node is taken in by the other one. -/
def deliver (i : Side) (payload : Bytes) (st : LinkState σ) : LinkState σ :=
  { st with toDuoState := L.toDuo.deliver .blockAnnounces i payload st.toDuoState }

/-- Two nodes that have not met. -/
structure Start (st : LinkState σ) : Prop extends L.toDuo.Fresh st.toDuoState where
  exchanges : ∀ i, (st.site i).node.exchanges = .empty Channel.blockAnnounces.protocol
  offers : ∀ i, st.offers i = []

/-- One step of two nodes: one of them is asked to send an announcement that is not too long, or
its oldest payload is taken in by the other one. -/
inductive Step : LinkState σ → LinkState σ → Prop where
  | offer (st : LinkState σ) (i : Side) (a : Announce) (hsized : a.Sized)
      (hfits : (Message.announce a).payload.length ≤ (L.config i.other).maxMessageLength) :
      Step st (L.offer i a st)
  | deliver (st : LinkState σ) (i : Side) (payload : Bytes) (rest : List Bytes)
      (hqueue : L.queue st i = payload :: rest) : Step st (L.deliver i payload st)

/-- The states that two nodes reach. -/
inductive Reachable : LinkState σ → Prop where
  | start {st : LinkState σ} : L.Start st → Reachable st
  | step {st st' : LinkState σ} : Reachable st → L.Step st st' → Reachable st'

/-! ## Following the nodes -/

/-- What the parties have agreed on: a node sends handshakes with its genesis block, and only
messages of the channel that are not too long for the other node. -/
def terms (i : Side) : Party.Terms where
  genesis := L.genesis i
  Allows m := (∀ h, m = .handshake h → h.genesis = L.genesis i) ∧ m.channel = .blockAnnounces ∧
    m.Sized ∧ m.payload.length ≤ (L.config i.other).maxMessageLength
  genesis_eq h := h.1 _ rfl

/-- The nodes are as two parties. -/
structure Follows (st : LinkState σ) (e : Side → Party) : Prop where
  config : ∀ i, (st.site i).node.config = L.config i
  line : ∀ i, ((st.site i).line (L.peer i.other)).Mirrors (st.taken i) (e i)
  offers : ∀ i, st.offers i = (e i).offers

variable {L} {st st' : LinkState σ} {e : Side → Party}

theorem allows_handshake {i : Side} {h : Handshake} (hgenesis : h.genesis = L.genesis i) :
    (L.terms i).Allows (.handshake h) := by
  refine ⟨fun h' heq => ?_, rfl, trivial, L.handshake_fits i.other h⟩
  rw [← Message.handshake.inj heq]
  exact hgenesis

theorem allows_announce {i : Side} {a : Announce} (hsized : a.Sized)
    (hfits : (Message.announce a).payload.length ≤ (L.config i.other).maxMessageLength) :
    (L.terms i).Allows (.announce a) :=
  ⟨nofun, rfl, hsized, hfits⟩

theorem Start.follows (hst : L.Start st) : L.Follows st fun _ => .start where
  config := hst.config
  line i := by
    refine ⟨?_, ?_, ?_, ?_⟩ <;>
      simp [Site.line, Site.sentTo, hst.exchanges i, hst.trace i, hst.taken i, Party.start]
  offers := hst.offers

theorem Follows.awaits (hst : L.Follows st e) (i : Side) :
    (st.site i).node.exchanges.expectsHandshake (L.peer i.other) = (e i).awaits := by
  rw [ExchangeTable.expectsHandshake_eq, Party.awaits, ← (hst.line i).exchange]
  rfl

theorem Follows.line_other (hst : L.Follows st e) (i : Side) :
    ((st.site i.other).line (L.peer i)).Mirrors (st.taken i.other) (e i.other) :=
  Side.swap (R := fun i j => ((st.site i).line (L.peer j)).Mirrors (st.taken i) (e i)) hst.line i

theorem reliable_other (i : Side) :
    (L.world i.other).Reliable (L.peer i) (L.genesis i.other) :=
  Side.swap (R := fun i j => (L.world i).Reliable (L.peer j) (L.genesis i)) L.reliable i

theorem Follows.offer (hst : L.Follows st e) {i : Side} {a : Announce} (hsized : a.Sized)
    (hfits : (Message.announce a).payload.length ≤ (L.config i.other).maxMessageLength) :
    ∃ e', Party.Step L.terms e e' ∧ L.Follows (L.offer i a st) e' := by
  obtain ⟨h, hgenesis, hline, hconfig⟩ := Site.mirrors_announceTo (L.reliable i) (hst.line i) a
  obtain ⟨e', hi, hother⟩ := Side.exists_of i ((e i).offer h a) (e i.other)
  refine ⟨e', .offer i h a (allows_handshake hgenesis) (allows_announce hsized hfits) hi hother,
    ?_, ?_, ?_⟩
  · exact DuoState.forall_put (P := fun j s _ => s.node.config = L.config j)
      (hconfig.trans (hst.config i)) (hst.config i.other)
  · refine DuoState.forall_put
      (P := fun j s n => (s.line (L.peer j.other)).Mirrors n (e' j)) ?_ ?_
    · rw [hi]
      exact hline
    · rw [hother]
      exact hst.line i.other
  · refine Side.forall_of i ?_ ?_
    · simp only [Link.offer]
      rw [Function.update_self, hi, Party.offers_offer, hst.awaits, hst.offers]
    · simp only [Link.offer]
      rw [Function.update_of_ne i.other_ne, hother]
      exact hst.offers i.other

theorem Follows.deliver (hst : L.Follows st e) (hreach : Party.Reach L.terms e) {i : Side}
    {payload : Bytes} {rest : List Bytes} (hqueue : L.queue st i = payload :: rest) :
    ∃ e', Party.Step L.terms e e' ∧ L.Follows (L.deliver i payload st) e' := by
  obtain ⟨m, ms, hflight, rfl⟩ := Message.exists_of_payloads (hst.line i).inFlight hqueue
  obtain ⟨-, -, hsized, hfits⟩ := (hreach.carries i).inFlight m (hflight ▸ List.mem_cons_self)
  obtain ⟨reply, hgenesis, hline, hconfig⟩ := Site.mirrors_onPayload (reliable_other i)
    (hst.line_other i) (hreach.carries i.other) (fun _ h => h.2.1) (hreach.head_matches hflight)
    hsized ((hst.config i.other).symm ▸ hfits)
  obtain ⟨e', hi, hother⟩ := Side.exists_of i { e i with inFlight := ms }
    ((e i.other).receive (L.genesis i.other) reply m)
  refine ⟨e', .deliver i reply m ms (allows_handshake hgenesis) hflight hi hother, ?_, ?_, ?_⟩
  · exact Duo.forall_deliver (P := fun j s _ => s.node.config = L.config j)
      (hst.config i) (hconfig.trans (hst.config i.other))
  · refine Duo.forall_deliver (P := fun j s n => (s.line (L.peer j.other)).Mirrors n (e' j)) ?_ ?_
    · rw [hi]
      exact (hst.line i).tail hflight
    · rw [hother, Side.other_other]
      exact hline
  · refine Side.forall_of i ?_ ?_
    · rw [hi]
      exact hst.offers i
    · rw [hother, Party.offers_receive]
      exact hst.offers i.other

theorem Step.follows (hstep : L.Step st st') (hst : L.Follows st e)
    (hreach : Party.Reach L.terms e) : ∃ e', Party.Step L.terms e e' ∧ L.Follows st' e' := by
  cases hstep with
  | offer i a hsized hfits => exact hst.offer hsized hfits
  | deliver i payload rest hqueue => exact hst.deliver hreach hqueue

/-- Whatever state two nodes reach, two parties reach it too. -/
theorem Reachable.follows (hst : L.Reachable st) :
    ∃ e, Party.Reach L.terms e ∧ L.Follows st e := by
  induction hst with
  | start hstart => exact ⟨fun _ => .start, .start, hstart.follows⟩
  | step _ hstep ih =>
      obtain ⟨e, hreach, hfollows⟩ := ih
      obtain ⟨e', hstep', hfollows'⟩ := hstep.follows hfollows hreach
      exact ⟨e', .step hreach hstep', hfollows'⟩

/-! ## Nodes without any other business -/

/-- Two linked nodes on the same chain with nothing else to do. -/
def idle : Link fun _ => Unit where
  peer
    | .left => ⟨.identity, [0]⟩
    | .right => ⟨.identity, [1]⟩
  genesis _ := .zero
  config _ := .default
  world _ := .idle .zero
  reliable _ := .idle _ _
  handshake_fits _ h := by
    rw [Message.payload_of_blockAnnounces rfl, Message.length_encodeBare_handshake]
    decide

/-- The idle nodes have not met. -/
def idleStart : LinkState fun _ => Unit :=
  ⟨⟨fun _ => ⟨.new .default, (), []⟩, fun _ => 0⟩, fun _ => []⟩

/-- The block that one of the idle nodes announces. -/
def idleBlock : Announce := ⟨.zero, 1, .zero, .zero, [[7]], false⟩

/-- What the idle nodes greet each other with. -/
def idleGreeting : Message := .handshake ⟨.authority, 0, .zero, .zero⟩

/-- One of the idle nodes was asked to announce a block, and so has opened the exchange. -/
def idleOpened : LinkState fun _ => Unit :=
  idle.offer .left idleBlock idleStart

/-- The other one has answered, and the block is in flight to it. -/
def idleGreeted : LinkState fun _ => Unit :=
  idle.deliver .right idleGreeting.payload (idle.deliver .left idleGreeting.payload idleOpened)

/-- The other one was told the block. -/
def idleTold : LinkState fun _ => Unit :=
  idle.deliver .left (Message.announce idleBlock).payload idleGreeted

theorem sized_idleBlock : idleBlock.Sized :=
  ⟨by decide, by simp [idleBlock, Codec.Sized]⟩

theorem reachable_idleOpened : idle.Reachable idleOpened := by
  have hstart : idle.Start idleStart :=
    ⟨⟨fun _ => rfl, fun _ => rfl, fun _ => rfl⟩, fun _ => rfl, fun _ => rfl⟩
  exact .step (.start hstart) (.offer idleStart .left idleBlock sized_idleBlock (by decide +kernel))

theorem reachable_idleGreeted : idle.Reachable idleGreeted := by
  have hanswered : idle.Reachable (idle.deliver .left idleGreeting.payload idleOpened) :=
    .step reachable_idleOpened (.deliver _ .left _ [] (by decide +kernel))
  exact hanswered.step (.deliver _ .right idleGreeting.payload [] (by decide +kernel))

theorem queue_idleGreeted :
    idle.queue idleGreeted .left = [(Message.announce idleBlock).payload] := by
  decide +kernel

theorem reachable_idleTold : idle.Reachable idleTold :=
  reachable_idleGreeted.step (.deliver _ .left _ [] queue_idleGreeted)

/-! ## What the nodes achieve -/

/-- In every state that two nodes reach, on the same chain or not, the oldest payload in a queue is
decoded by the receiver to the message that the sender encoded: there is no other message of the
channel with this payload. -/
theorem decode_oldest (hst : L.Reachable st) {i : Side} {payload : Bytes} {rest : List Bytes}
    (hqueue : L.queue st i = payload :: rest) :
    ∃ m : Message,
      (st.site i.other).node.decode .blockAnnounces (L.peer i) payload = .ok m ∧
      m.channel = .blockAnnounces ∧ m.Sized ∧ m.payload = payload ∧
      ∀ m' : Message, m'.channel = .blockAnnounces → m'.Sized → m'.payload = payload → m' = m := by
  obtain ⟨e, hreach, hfollows⟩ := hst.follows
  obtain ⟨m, ms, hflight, rfl⟩ := Message.exists_of_payloads (hfollows.line i).inFlight hqueue
  obtain ⟨-, hchannel, hsized, hfits⟩ :=
    (hreach.carries i).inFlight m (hflight ▸ List.mem_cons_self)
  refine ⟨m, ?_, hchannel, hsized, rfl, fun m' hchannel' hsized' hpayload => ?_⟩
  · exact Site.decode_payload (hfollows.line_other i) (hreach.head_matches hflight) hsized
      ((hfollows.config i.other).symm ▸ hfits)
  · rw [Message.payload_of_blockAnnounces hchannel,
      Message.payload_of_blockAnnounces hchannel'] at hpayload
    exact Message.encodeBare_injective_of_blockAnnounces hchannel' hchannel hsized' hsized hpayload

/-- The same queue holds a greeting first and the announcement of a block later. -/
theorem decode_oldest_greeting_then_block :
    (idleOpened.site .right).node.decode .blockAnnounces (idle.peer .left) idleGreeting.payload =
        .ok idleGreeting ∧
      (idleGreeted.site .right).node.decode .blockAnnounces (idle.peer .left)
        (Message.announce idleBlock).payload = .ok (.announce idleBlock) := by
  have hopened : idle.queue idleOpened .left = [idleGreeting.payload] := by decide +kernel
  constructor
  · obtain ⟨m, hdecode, -, -, -, hunique⟩ := decode_oldest reachable_idleOpened hopened
    rw [← hunique idleGreeting rfl trivial rfl] at hdecode
    exact hdecode
  · obtain ⟨m, hdecode, -, -, -, hunique⟩ := decode_oldest reachable_idleGreeted queue_idleGreeted
    rw [← hunique (.announce idleBlock) rfl sized_idleBlock rfl] at hdecode
    exact hdecode

/-- Two nodes on the same chain. In every state, each of them has passed on announcements of the
other one in the order in which the other one was asked to send them, each at most once. With
nothing in flight, either nobody was asked to send anything or the exchange is complete on both
sides with nothing held back; and the announcements that were not passed on are those that were
held back and replaced by a later one, which the last one never is. -/
theorem converges (hgenesis : L.genesis .left = L.genesis .right) (hst : L.Reachable st) :
    (∀ i, (L.heard st i).Sublist ((st.offers i).map Offer.announce)) ∧
    ((∀ i, L.queue st i = []) →
      ((∀ i, st.offers i = []) ∨
        ∀ i, ∃ x, L.exchange st i = some x ∧ x.isComplete = true ∧ x.heldBack? = none) ∧
      ∀ i, L.heard st i = Offer.kept (st.offers i) ∧
        (L.heard st i).getLast? = ((st.offers i).map Offer.announce).getLast?) := by
  obtain ⟨e, hreach, hfollows⟩ := hst.follows
  have hsame : ∀ i, (L.terms i).genesis = (L.terms i.other).genesis :=
    Side.forall_of .left hgenesis hgenesis.symm
  have hforth := hreach.converging hsame
  have hback : ∀ i, Party.Converging (e i.other) (e i) :=
    Side.swap (R := fun i j => Party.Converging (e i) (e j)) hforth
  have hheard : ∀ i, L.heard st i = (e i.other).heard := fun i => (hfollows.line_other i).heard
  refine ⟨fun i => ?_, fun hempty => ?_⟩
  · rw [hheard, hfollows.offers]
    exact (hforth i).heard_sublist
  · have hflight : ∀ i, (e i).inFlight = [] := fun i =>
      List.map_eq_nil_iff.1 ((hfollows.line i).inFlight.symm.trans (hempty i))
    refine ⟨?_, fun i => ?_⟩
    · rcases (hforth .left).untouched_or_greeted (hback .left) (hflight _) (hflight _) with
        ⟨hleft, hright⟩ | ⟨hleft, hright⟩
      · refine .inl (Side.forall_of .left ?_ ?_)
        · rw [hfollows.offers]
          exact (hforth .left).stage.offers_eq_nil hleft
        · rw [hfollows.offers]
          exact (hforth .right).stage.offers_eq_nil hright
      · have hcomplete : ∀ i, ∃ initiator, (e i).exchange = some (.complete initiator) :=
          Side.forall_of .left ((hforth .left).stage.awaits_eq_false_iff.1 hleft)
            ((hforth .right).stage.awaits_eq_false_iff.1 hright)
        refine .inr fun i => ?_
        obtain ⟨initiator, hx⟩ := hcomplete i
        exact ⟨.complete initiator, (hfollows.line i).exchange.trans hx, rfl, rfl⟩
    · have hkept := (hforth i).heard_eq_kept (hback i) (hflight _) (hflight _)
      rw [hheard, hfollows.offers, hkept]
      exact ⟨rfl, Offer.getLast?_kept _⟩

theorem converges_one_block : idle.heard idleTold .left = [idleBlock] := by
  have hempty : ∀ i, idle.queue idleTold i = [] :=
    Side.forall_of .left (by decide +kernel) (by decide +kernel)
  obtain ⟨-, hsettled⟩ := converges (L := idle) rfl reachable_idleTold
  exact ((hsettled hempty).2 .left).1

end Link

end ChainPeer
