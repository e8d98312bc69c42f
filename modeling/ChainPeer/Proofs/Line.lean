import ChainPeer.Node.Stream
import ChainPeer.Proofs.Party
import ChainPeer.Proofs.Wire

/-!
# One peer, as a site sees it

What a site has to do with one peer on the channel of announcements, read off its node and its
trace. As long as sending to the peer works and nobody departs, each handler of the channel does to
this what the corresponding operation does to a party.
-/

namespace ChainPeer

/-- The payload that a call to the world sent to a peer on a channel. -/
def Event.sentTo? (p : PeerId) (c : Channel) : Event → Option Bytes
  | .sent peer channel payload => if peer = p ∧ channel = c then some payload else none
  | _ => none

/-- The announcement of a peer that a call to the world passed on. -/
def Event.announcedBy? (p : PeerId) : Event → Option Announce
  | .announced peer a => if peer = p then some a else none
  | _ => none

/-- The genesis block is always the same, and nobody departs while it is looked up. -/
def World.Steady {σ : Type} (w : World σ) (genesis : Hash) : Prop :=
  ∀ s, (w.genesis s).1 = (genesis, [])

/-- Sending to a peer works, and nobody departs while the genesis block is looked up, which is
always the same. -/
structure World.Reliable {σ : Type} (w : World σ) (p : PeerId) (genesis : Hash) : Prop where
  genesis_eq : ∀ s, (w.genesis s).1 = (genesis, [])
  send_eq : ∀ c payload s, (w.send p c payload s).1 = .ok ()

theorem World.Reliable.steady {σ : Type} {w : World σ} {p : PeerId} {genesis : Hash}
    (hw : w.Reliable p genesis) : w.Steady genesis :=
  hw.genesis_eq

/-- A world in which sending works and nothing else happens. -/
def World.idle (genesis : Hash) : World Unit where
  localPeer _ := default
  connected _ := []
  listening _ := []
  send _ _ _ _ := (.ok (), ())
  accept _ _ := ()
  watch _ := ()
  setBootstrap _ _ := ()
  bootstrap _ := ((.ok (), []), ())
  close _ := ((.ok (), []), ())
  genesis _ := ((genesis, []), ())
  head _ := (0, genesis)
  isSynced _ := true
  announced _ _ _ := (none, ())
  answered _ _ _ := (none, ())
  serve _ _ := (.error .unavailable, ())
  seen _ _ := (none, ())
  deliver := none

theorem World.Reliable.idle (p : PeerId) (genesis : Hash) :
    (World.idle genesis).Reliable p genesis :=
  ⟨fun _ => rfl, fun _ _ _ => rfl⟩

/-- What a site has to do with one peer on the channel of announcements: the settings of the node,
the exchange with the peer, the payloads sent to it, and its announcements that were passed on. -/
structure Line where
  config : Config
  exchange : Option Exchange
  sent : List Bytes
  heard : List Announce

namespace Site

variable {σ : Type}

/-- The payloads that were sent to a peer on a channel, oldest first. -/
def sentTo (p : PeerId) (c : Channel) (s : Site (σ × List Event)) : List Bytes :=
  s.world.2.reverse.filterMap (Event.sentTo? p c)

/-- What the site has to do with a peer. The trace is read from its oldest event. -/
def line (p : PeerId) (s : Site (σ × List Event)) : Line where
  config := s.node.config
  exchange := s.node.exchanges.get? p
  sent := s.sentTo p .blockAnnounces
  heard := s.world.2.reverse.filterMap (Event.announcedBy? p)

/-! ## Handlers of a reliable world -/

variable {w : World σ} {p : PeerId} {genesis : Hash}

theorem send_traced (hw : w.Reliable p genesis) (m : Message) (s : Site (σ × List Event)) :
    ∃ a, s.send w.traced p m =
      (.ok (), ⟨s.node.count fun c => { c with messagesSent := c.messagesSent + 1 }, a,
        .sent p m.channel m.payload :: s.world.2⟩) := by
  have hsend := hw.send_eq m.channel m.payload s.world.1
  cases hresult : w.send p m.channel m.payload s.world.1 with
  | mk r a =>
      rw [hresult] at hsend
      dsimp only at hsend
      subst hsend
      exact ⟨a, by simp [send, World.traced, Transport.traced, hresult]⟩

theorem genesis_traced (hw : w.Steady genesis) (s : Site (σ × List Event)) :
    ∃ a, s.genesis w.traced = (genesis, ⟨s.node, a, s.world.2⟩) := by
  have hgenesis := hw s.world.1
  cases hresult : w.genesis s.world.1 with
  | mk r a =>
      rw [hresult] at hgenesis
      dsimp only at hgenesis
      subst hgenesis
      exact ⟨a, by simp [Site.genesis, World.traced, Subsystems.traced, hresult]⟩

theorem localHandshake_traced (hw : w.Steady genesis) (s : Site (σ × List Event)) :
    ∃ a, s.localHandshake w.traced =
      (⟨s.node.config.roles, (w.head s.world.1).1, (w.head s.world.1).2, genesis⟩,
        ⟨s.node, a, s.world.2⟩) := by
  obtain ⟨a, ha⟩ := s.genesis_traced hw
  refine ⟨a, ?_⟩
  rw [localHandshake, ha]
  rfl

theorem validate_traced (hw : w.Steady genesis) (h : Handshake) (s : Site (σ × List Event)) :
    ∃ a, s.validate w.traced h =
      (if h.genesis = genesis then .ok () else .error ⟨genesis, h.genesis⟩,
        ⟨s.node, a, s.world.2⟩) := by
  obtain ⟨a, ha⟩ := s.genesis_traced hw
  exact ⟨a, by rw [validate, ha]⟩

theorem line_send (hw : w.Reliable p genesis) {m : Message} (hm : m.channel = .blockAnnounces)
    (s : Site (σ × List Event)) :
    (s.send w.traced p m).1 = .ok () ∧
      (s.send w.traced p m).2.line p =
        { s.line p with sent := (s.line p).sent ++ [m.payload] } := by
  obtain ⟨a, ha⟩ := s.send_traced hw m
  rw [ha]
  simp [line, sentTo, Node.count, Event.sentTo?, Event.announcedBy?, hm]

theorem line_sendHandshake (hw : w.Reliable p genesis) (s : Site (σ × List Event)) :
    ∃ h : Handshake, h.genesis = genesis ∧ (s.sendHandshake w.traced p).1 = .ok () ∧
      (s.sendHandshake w.traced p).2.line p =
        { s.line p with sent := (s.line p).sent ++ [(Message.handshake h).payload] } := by
  obtain ⟨a, ha⟩ := s.localHandshake_traced hw.steady
  rw [sendHandshake, ha]
  exact ⟨_, rfl, line_send hw rfl _⟩

theorem line_flush (hw : w.Reliable p genesis) {heldBack : Option Message}
    (hheld : ∀ m ∈ heldBack, m.channel = .blockAnnounces) (s : Site (σ × List Event)) :
    (s.flush w.traced p heldBack).2.line p =
      { s.line p with sent := (s.line p).sent ++ heldBack.toList.map Message.payload } := by
  cases heldBack with
  | none => simp [flush]
  | some m => exact (line_send hw (hheld m rfl) s).2

/-- A request that follows an announcement goes out on another channel. -/
theorem line_followUp (hw : w.Reliable p genesis) (request : Option BlockRequest)
    (s : Site (σ × List Event)) :
    (s.followUp w.traced p request).2.line p = s.line p := by
  cases request with
  | none => rfl
  | some r =>
      rw [followUp, requestBlocks]
      split
      · rfl
      · next requests _ =>
        obtain ⟨a, ha⟩ := (s.update ({ · with requests })).send_traced hw (.request r)
        rw [ha]
        simp [line, sentTo, Node.count, Event.sentTo?, Event.announcedBy?, update, Message.channel,
          Message.kind, MessageKind.channel]

/-- The answer to a handshake of ours completes the exchange or drops it. -/
theorem line_onReply (hw : w.Reliable p genesis) {h : Handshake} {s : Site (σ × List Event)}
    {heldBack : Option Message} (hheld : ∀ m ∈ heldBack, m.channel = .blockAnnounces)
    (hx : (s.line p).exchange = some (.awaiting true heldBack)) :
    (s.onReply w.traced p h).2.line p =
      if h.genesis = genesis then
        { s.line p with
          exchange := some (.complete true)
          sent := (s.line p).sent ++ heldBack.toList.map Message.payload }
      else { s.line p with exchange := none } := by
  obtain ⟨a, ha⟩ := s.validate_traced hw.steady h
  rw [onReply, ha]
  by_cases hgenesis : h.genesis = genesis
  · rw [if_pos hgenesis, if_pos hgenesis]
    have hcomplete : s.node.exchanges.complete? p =
        some (heldBack, s.node.exchanges.insert p (.complete true)) := by
      rw [ExchangeTable.complete?, show s.node.exchanges.get? p = _ from hx]
      rfl
    simp only [noteHandshake, update, Node.noteReport, hcomplete]
    rw [line_flush hw hheld]
    simp [line, sentTo, ExchangeTable.get?_insert]
  · rw [if_neg hgenesis, if_neg hgenesis]
    simp [countInvalid, update, Node.forget, Node.count, line, sentTo,
      ExchangeTable.get?_erase]

/-- A handshake with which the peer opens the exchange is answered or rejected. -/
theorem line_onOpening (hw : w.Reliable p genesis) {h : Handshake} {s : Site (σ × List Event)}
    {heldBack : Option Message} (hheld : ∀ m ∈ heldBack, m.channel = .blockAnnounces)
    (hx : (s.line p).exchange.getD .untouched = .awaiting false heldBack) :
    ∃ reply : Handshake, reply.genesis = genesis ∧
      (s.onOpening w.traced p h).2.line p =
        if h.genesis = genesis then
          { s.line p with
            exchange := some (.complete false)
            sent := (s.line p).sent ++ [(Message.handshake reply).payload] ++
              heldBack.toList.map Message.payload }
        else { s.line p with exchange := some .rejected } := by
  obtain ⟨a, ha⟩ := s.validate_traced hw.steady h
  rw [onOpening, ha]
  by_cases hgenesis : h.genesis = genesis
  · have haccept : s.node.exchanges.accept p =
        (heldBack, s.node.exchanges.insert p (.complete false)) := by
      rw [ExchangeTable.accept, show (s.node.exchanges.get? p).getD .untouched = _ from hx]
      rfl
    rw [if_pos hgenesis]
    simp only [noteHandshake, update, Node.noteReport, haccept, if_pos hgenesis]
    obtain ⟨reply, hreply, -, hline⟩ := line_sendHandshake hw
      (⟨{ s.node with
          roster := s.node.roster.report p (some h.roles) h.bestNumber h.bestHash
          exchanges := s.node.exchanges.insert p (.complete false) }, a, s.world.2⟩ :
        Site (σ × List Event))
    refine ⟨reply, hreply, ?_⟩
    rw [line_flush hw hheld, hline]
    simp [line, sentTo, ExchangeTable.get?_insert]
  · rw [if_neg hgenesis]
    refine ⟨⟨0, 0, genesis, genesis⟩, rfl, ?_⟩
    simp [hgenesis, countInvalid, update, Node.count, line, sentTo, ExchangeTable.reject,
      ExchangeTable.get?_insert]

/-- An announcement on a complete exchange is passed on. -/
theorem line_onAnnounce (hw : w.Reliable p genesis) {a : Announce} {s : Site (σ × List Event)}
    {initiator : Bool} (hx : (s.line p).exchange = some (.complete initiator)) :
    (s.onAnnounce w.traced p a).2.line p = { s.line p with heard := (s.line p).heard ++ [a] } := by
  rw [onAnnounce, show s.node.exchanges.get? p = _ from hx]
  simp only [line_followUp hw]
  cases a.isBest <;>
    simp [line, sentTo, World.traced, Subsystems.traced, Event.sentTo?, Event.announcedBy?,
      update, Node.noteReport]

/-- The first announcement to a peer opens the exchange with a handshake. -/
theorem line_announceTo_untouched (hw : w.Reliable p genesis) {m : Message}
    {s : Site (σ × List Event)} (hx : (s.line p).exchange = none) :
    ∃ h : Handshake, h.genesis = genesis ∧
      (s.announceTo w.traced p m).2.line p =
        { s.line p with
          exchange := some (.opened (some m))
          sent := (s.line p).sent ++ [(Message.handshake h).payload] } := by
  have hroute : s.node.exchanges.route p m =
      (.openExchange, s.node.exchanges.insert p (.opened (some m))) := by
    rw [ExchangeTable.route, show s.node.exchanges.get? p = _ from hx]
  simp only [announceTo, hroute, update]
  obtain ⟨h, hgenesis, hok, hline⟩ := line_sendHandshake hw
    (⟨{ s.node with exchanges := s.node.exchanges.insert p (.opened (some m)) }, s.world⟩ :
      Site (σ × List Event))
  refine ⟨h, hgenesis, ?_⟩
  split
  · next s' hs' =>
    rw [hs'] at hline
    rw [hline]
    simp [line, sentTo, ExchangeTable.get?_insert]
  · next hs' =>
    rw [hs'] at hok
    exact nomatch hok

theorem line_announceTo_awaiting {m : Message} {s : Site (σ × List Event)} {initiator : Bool}
    {heldBack : Option Message}
    (hx : (s.line p).exchange = some (.awaiting initiator heldBack)) :
    (s.announceTo w.traced p m).2.line p =
      { s.line p with exchange := some (.awaiting initiator (some m)) } := by
  have hroute : s.node.exchanges.route p m =
      (.heldBack, s.node.exchanges.insert p (.awaiting initiator (some m))) := by
    rw [ExchangeTable.route, show s.node.exchanges.get? p = _ from hx]
  simp [announceTo, hroute, update, line, sentTo, ExchangeTable.get?_insert]

theorem line_announceTo_rejected {m : Message} {s : Site (σ × List Event)}
    (hx : (s.line p).exchange = some .rejected) :
    (s.announceTo w.traced p m).2.line p = s.line p := by
  have hroute : s.node.exchanges.route p m = (.refused, s.node.exchanges) := by
    rw [ExchangeTable.route, show s.node.exchanges.get? p = _ from hx]
  simp only [announceTo, hroute]
  rfl

theorem line_announceTo_complete (hw : w.Reliable p genesis) {m : Message}
    (hm : m.channel = .blockAnnounces) {s : Site (σ × List Event)} {initiator : Bool}
    (hx : (s.line p).exchange = some (.complete initiator)) :
    (s.announceTo w.traced p m).2.line p =
      { s.line p with sent := (s.line p).sent ++ [m.payload] } := by
  have hroute : s.node.exchanges.route p m = (.sendNow m, s.node.exchanges) := by
    rw [ExchangeTable.route, show s.node.exchanges.get? p = _ from hx]
  simp only [announceTo, hroute]
  exact (line_send hw hm _).2

end Site

/-! ## What is in flight -/

/-- What is sent goes behind what is in flight. -/
theorem Message.drop_append_payloads {sent : List Bytes} {taken : Nat} {flight : List Message}
    (hle : taken ≤ sent.length) (hflight : sent.drop taken = flight.map payload)
    (ms : List Message) :
    (sent ++ ms.map payload).drop taken = (flight ++ ms).map payload := by
  rw [List.drop_append_of_le_length hle, hflight, List.map_append]

/-- The oldest payload in flight is taken in. -/
theorem Message.drop_succ_payloads {sent : List Bytes} {taken : Nat} {m : Message}
    {rest : List Message} (hflight : sent.drop taken = (m :: rest).map payload) :
    taken + 1 ≤ sent.length ∧ sent.drop (taken + 1) = rest.map payload := by
  constructor
  · have hlength := congrArg List.length hflight
    rw [List.length_drop, List.map_cons, List.length_cons] at hlength
    omega
  · rw [← List.drop_drop, hflight]
    rfl

/-! ## Lines and parties -/

namespace Line

/-- The line, of whose payloads the peer has taken the given number in, is as the party. -/
structure Mirrors (l : Line) (taken : Nat) (e : Party) : Prop where
  exchange : l.exchange = e.exchange
  taken_le : taken ≤ l.sent.length
  inFlight : l.sent.drop taken = e.inFlight.map Message.payload
  heard : l.heard = e.heard

variable {l : Line} {taken : Nat} {e : Party}

theorem Mirrors.drop_append (h : l.Mirrors taken e) (ms : List Message) :
    (l.sent ++ ms.map Message.payload).drop taken =
      (e.inFlight ++ ms).map Message.payload :=
  Message.drop_append_payloads h.taken_le h.inFlight ms

theorem Mirrors.taken_le_append (h : l.Mirrors taken e) (payloads : List Bytes) :
    taken ≤ (l.sent ++ payloads).length := by
  rw [List.length_append]
  exact Nat.le_add_right_of_le h.taken_le

/-- The peer takes in the oldest payload. -/
theorem Mirrors.tail (h : l.Mirrors taken e) {m : Message} {rest : List Message}
    (hqueue : e.inFlight = m :: rest) : l.Mirrors (taken + 1) { e with inFlight := rest } := by
  obtain ⟨hle, hrest⟩ := Message.drop_succ_payloads (hqueue ▸ h.inFlight)
  exact ⟨h.exchange, hle, hrest, h.heard⟩

end Line

namespace Site

variable {σ : Type} {w : World σ} {p : PeerId} {genesis : Hash} {s : Site (σ × List Event)}
  {taken : Nat} {e : Party}

/-- Announcing to the peer is what a party does that is asked to send an announcement. -/
theorem mirrors_announceTo (hw : w.Reliable p genesis) (hs : (s.line p).Mirrors taken e)
    (a : Announce) :
    ∃ h : Handshake, h.genesis = genesis ∧
      ((s.announceTo w.traced p (.announce a)).2.line p).Mirrors taken (e.offer h a) ∧
      ((s.announceTo w.traced p (.announce a)).2.line p).config = (s.line p).config := by
  cases hx : e.exchange with
  | none =>
      obtain ⟨h, hgenesis, hline⟩ :=
        line_announceTo_untouched hw (m := .announce a) (hs.exchange.trans hx)
      refine ⟨h, hgenesis, ?_, by rw [hline]⟩
      rw [hline, Party.offer_untouched hx]
      exact ⟨rfl, hs.taken_le_append _, hs.drop_append [.handshake h], hs.heard⟩
  | some x =>
      refine ⟨⟨0, 0, genesis, genesis⟩, rfl, ?_⟩
      cases x with
      | awaiting initiator heldBack =>
          rw [line_announceTo_awaiting (hs.exchange.trans hx), Party.offer_awaiting hx]
          exact ⟨⟨rfl, hs.taken_le, hs.inFlight, hs.heard⟩, rfl⟩
      | rejected =>
          rw [line_announceTo_rejected (hs.exchange.trans hx), Party.offer_rejected hx]
          exact ⟨⟨hs.exchange, hs.taken_le, hs.inFlight, hs.heard⟩, rfl⟩
      | complete initiator =>
          rw [line_announceTo_complete hw rfl (hs.exchange.trans hx), Party.offer_complete hx]
          exact ⟨⟨hs.exchange, hs.taken_le_append _, hs.drop_append [.announce a], hs.heard⟩, rfl⟩

/-- Handling a handshake is what a party does that takes in one that it awaits. -/
theorem mirrors_onHandshake (hw : w.Reliable p genesis) (hs : (s.line p).Mirrors taken e)
    {initiator : Bool} {heldBack : Option Message}
    (hx : e.exchange.getD .untouched = .awaiting initiator heldBack)
    (hheld : ∀ m ∈ heldBack, m.channel = .blockAnnounces) (h : Handshake) :
    ∃ reply : Handshake, reply.genesis = genesis ∧
      ((s.onHandshake w.traced p h).2.line p).Mirrors taken
        (e.receive genesis reply (.handshake h)) ∧
      ((s.onHandshake w.traced p h).2.line p).config = (s.line p).config := by
  have hget : s.node.exchanges.get? p = e.exchange := hs.exchange
  cases initiator with
  | false =>
      have honOpening : s.onHandshake w.traced p h = s.onOpening w.traced p h := by
        rw [onHandshake, hget]
        cases hexchange : e.exchange with
        | none => rfl
        | some x =>
            rw [hexchange, Option.getD_some] at hx
            rw [hx]
      obtain ⟨reply, hreply, hline⟩ := line_onOpening hw (h := h) hheld (hs.exchange ▸ hx)
      refine ⟨reply, hreply, ?_⟩
      rw [honOpening, hline]
      by_cases hgenesis : h.genesis = genesis
      · rw [if_pos hgenesis, Party.receive_valid hx hgenesis, List.append_assoc]
        refine ⟨⟨rfl, hs.taken_le_append _, ?_, hs.heard⟩, rfl⟩
        rw [if_neg (by decide), List.append_assoc]
        exact hs.drop_append (.handshake reply :: heldBack.toList)
      · rw [if_neg hgenesis, Party.receive_invalid hx hgenesis]
        exact ⟨⟨rfl, hs.taken_le, hs.inFlight, hs.heard⟩, rfl⟩
  | true =>
      have hexchange : e.exchange = some (.awaiting true heldBack) := by
        cases hexchange : e.exchange with
        | none => rw [hexchange] at hx; exact nomatch hx
        | some x => rw [← hx, hexchange]; rfl
      have honReply : s.onHandshake w.traced p h = s.onReply w.traced p h := by
        rw [onHandshake, hget, hexchange]
      refine ⟨⟨0, 0, genesis, genesis⟩, rfl, ?_⟩
      rw [honReply, line_onReply hw hheld (hs.exchange.trans hexchange)]
      by_cases hgenesis : h.genesis = genesis
      · rw [if_pos hgenesis, Party.receive_valid hx hgenesis]
        refine ⟨⟨rfl, hs.taken_le_append _, ?_, hs.heard⟩, rfl⟩
        rw [if_pos rfl, List.append_nil]
        exact hs.drop_append heldBack.toList
      · rw [if_neg hgenesis, Party.receive_invalid hx hgenesis]
        exact ⟨⟨rfl, hs.taken_le, hs.inFlight, hs.heard⟩, rfl⟩

/-- Handling an announcement is what a party does that takes one in. -/
theorem mirrors_onAnnounce (hw : w.Reliable p genesis) (hs : (s.line p).Mirrors taken e)
    (reply : Handshake) (a : Announce) :
    ((s.onAnnounce w.traced p a).2.line p).Mirrors taken
        (e.receive genesis reply (.announce a)) ∧
      ((s.onAnnounce w.traced p a).2.line p).config = (s.line p).config := by
  by_cases hx : ∃ initiator, e.exchange = some (.complete initiator)
  · obtain ⟨initiator, hx⟩ := hx
    rw [line_onAnnounce hw (hs.exchange.trans hx), Party.receive_announce hx]
    exact ⟨⟨hs.exchange, hs.taken_le, hs.inFlight, by rw [hs.heard]⟩, rfl⟩
  · have hignored : s.onAnnounce w.traced p a = (.ok (), s) := by
      rw [onAnnounce, show s.node.exchanges.get? p = _ from hs.exchange]
      split
      · next initiator hcomplete => exact absurd ⟨initiator, hcomplete⟩ hx
      · rfl
    rw [hignored, Party.receive_announce_of_incomplete (not_exists.1 hx)]
    exact ⟨hs, rfl⟩

end Site

/-! ## Payloads of announcements -/

theorem Message.payload_of_blockAnnounces {m : Message} (h : m.channel = .blockAnnounces) :
    m.payload = m.encodeBare := if_pos h

/-- On the channel of announcements, a node decodes the encodings of the messages of the kind that
it expects. -/
theorem Node.decode_blockAnnounces_eq_ok_iff {n : Node} {p : PeerId} {payload : Bytes}
    {m : Message} :
    n.decode .blockAnnounces p payload = .ok m ↔
      m.kind = (if n.exchanges.expectsHandshake p then .handshake else .announce) ∧
        payload.length ≤ n.config.maxMessageLength ∧ m.Sized ∧ payload = m.encodeBare := by
  rw [Node.decode, ← Message.decodeBare_eq_ok_iff]
  generalize Message.decodeBare _ payload _ = result
  cases result with
  | error e => exact iff_of_false nofun nofun
  | ok m' => exact ⟨fun h => congrArg _ (Except.ok.inj h), fun h => congrArg _ (Except.ok.inj h)⟩

theorem ExchangeTable.expectsHandshake_eq (t : ExchangeTable) (p : PeerId) :
    t.expectsHandshake p = !((t.get? p).getD .untouched).isReceived := by
  rw [expectsHandshake]
  cases t.get? p <;> rfl

namespace Site

variable {σ : Type} {w : World σ} {p : PeerId} {genesis : Hash} {s : Site (σ × List Event)}
  {taken : Nat} {e : Party}

/-- A message of the kind that the party expects is decoded to itself. -/
theorem decode_payload (hs : (s.line p).Mirrors taken e) {m : Message} (hkind : m.kind = e.expects)
    (hsized : m.Sized) (hfits : m.payload.length ≤ s.node.config.maxMessageLength) :
    s.node.decode .blockAnnounces p m.payload = .ok m := by
  have hchannel : m.channel = .blockAnnounces := by
    rw [Message.channel, hkind, Party.expects]
    split <;> rfl
  refine Node.decode_blockAnnounces_eq_ok_iff.2 ⟨?_, hfits, hsized,
    Message.payload_of_blockAnnounces hchannel⟩
  rw [hkind, ExchangeTable.expectsHandshake_eq, show s.node.exchanges.get? p = _ from hs.exchange]
  rfl

/-- Taking in a payload is what a party does that takes in its message. -/
theorem mirrors_onPayload (hw : w.Reliable p genesis) (hs : (s.line p).Mirrors taken e)
    {t : Party.Terms} (hcarries : Party.Carries t e)
    (hallows : ∀ m, t.Allows m → m.channel = .blockAnnounces) {m : Message}
    (hkind : m.kind = e.expects) (hsized : m.Sized)
    (hfits : m.payload.length ≤ s.node.config.maxMessageLength) :
    ∃ reply : Handshake, reply.genesis = genesis ∧
      ((s.onPayload w.traced .blockAnnounces p m.payload).2.line p).Mirrors taken
        (e.receive genesis reply m) ∧
      ((s.onPayload w.traced .blockAnnounces p m.payload).2.line p).config = (s.line p).config := by
  let s' := s.update (·.count fun c => { c with framesReceived := c.framesReceived + 1 })
  have hs' : (s'.line p).Mirrors taken e := hs
  have hdecode : s'.node.decode .blockAnnounces p m.payload = .ok m :=
    decode_payload hs' hkind hsized hfits
  have honPayload : s.onPayload w.traced .blockAnnounces p m.payload =
      s'.handle w.traced .blockAnnounces p m := by
    simp only [onPayload, s', hdecode]
  rw [honPayload]
  rcases Party.handshake_or_announce_of_kind hkind with ⟨h, rfl⟩ | ⟨a, rfl⟩
  · have hawaits : e.awaits = true := Party.expects_eq_handshake_iff.1 hkind.symm
    obtain ⟨initiator, heldBack, hx⟩ := Party.exists_awaiting_of_awaits hawaits
    exact mirrors_onHandshake hw hs' hx
      (fun m hm => hallows m (hcarries.allows_of_awaiting hx m hm)) h
  · exact ⟨⟨0, 0, genesis, genesis⟩, rfl, mirrors_onAnnounce hw hs' _ a⟩

end Site

end ChainPeer
