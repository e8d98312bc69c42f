import ChainPeer.Proofs.Duo
import ChainPeer.Proofs.Trader

/-!
# Two nodes that ask each other for blocks

Two nodes that send each other requests for blocks, and responses, over a queue of payloads in each
direction. What a node has outstanding is what the other one has not answered yet or will not
answer, id by id; nothing is answered twice and nothing that was not asked for.

This is shown by following the nodes with two traders, step by step.
-/

namespace ChainPeer

/-- The response of a peer that a call to the world handed over. -/
def Event.answeredBy? (p : PeerId) : Event → Option BlockResponse
  | .answered peer x => if peer = p then some x else none
  | _ => none

/-- The request that a call to the world was to serve, with its refusal. -/
def Event.served? : Event → Option (BlockRequest × Option Refusal)
  | .served r refusal => some (r, refusal)
  | _ => none

/-- The message is not too long for a node with the configuration. -/
def Message.Fits (m : Message) (config : Config) : Prop :=
  m.Sized ∧ m.encodeBare.length ≤ config.maxMessageLength

theorem Node.decode_sync {n : Node} {m : Message} (hm : m.channel = .sync) (hfits : m.Fits n.config)
    (p : PeerId) : n.decode .sync p m.payload = .ok m := by
  obtain ⟨hsized, hlength⟩ := hfits
  rw [Message.payload_of_sync hm]
  simp only [decode, Message.decodeTagged_encodeTagged hsized hlength, if_pos hm]

theorem BlockRequest.read?_payload {m : Message} (hm : m.channel = .sync) :
    read? m.payload = m.request? := by
  cases m with
  | request r => exact read?_request r
  | response x => exact read?_response x
  | handshake | announce | status | transactions => exact nomatch hm

theorem BlockResponse.read?_payload {m : Message} (hm : m.channel = .sync) (hsized : m.Sized) :
    read? m.payload = m.response? := by
  cases m with
  | request r => exact read?_request r
  | response x => exact read?_response hsized
  | handshake | announce | status | transactions => exact nomatch hm

namespace Site

variable {σ : Type}

/-- The requests that were sent to a peer, oldest first. -/
def asked (p : PeerId) (s : Site (σ × List Event)) : List BlockRequest :=
  (s.sentTo p .sync).filterMap BlockRequest.read?

/-- The requests that were to be served, with their refusals, oldest first. -/
def served (s : Site (σ × List Event)) : List (BlockRequest × Option Refusal) :=
  s.world.2.reverse.filterMap Event.served?

/-- The responses of a peer that were handed over, oldest first. -/
def heard (p : PeerId) (s : Site (σ × List Event)) : List BlockResponse :=
  s.world.2.reverse.filterMap (Event.answeredBy? p)

/-- A node with the configuration, of whose payloads the peer has taken the given number in, is as
the trader. -/
structure Trades (p : PeerId) (config : Config) (taken : Nat) (s : Site (σ × List Event))
    (e : Trader) : Prop where
  config : s.node.config = config
  requests : s.node.requests = e.requests
  taken_le : taken ≤ (s.sentTo p .sync).length
  inFlight : (s.sentTo p .sync).drop taken = e.inFlight.map Message.payload
  asked : s.asked p = e.asked
  served : s.served = e.served
  heard : s.heard p = e.heard
  unsolicited : s.node.metrics.unsolicitedResponses = e.unsolicited

variable {w : World σ} {p : PeerId} {config : Config} {taken : Nat} {s : Site (σ × List Event)}
  {e : Trader}

theorem sentTo_cons (p : PeerId) (c : Channel) (n n' : Node) (a a' : σ) (event : Event)
    (trace : List Event) :
    sentTo p c ⟨n, a, event :: trace⟩ =
      sentTo p c ⟨n', a', trace⟩ ++ (event.sentTo? p c).toList := by
  rw [sentTo, List.reverse_cons, List.filterMap_append]
  cases hevent : event.sentTo? p c <;> simp [sentTo, hevent]

theorem served_cons (n n' : Node) (a a' : σ) (event : Event) (trace : List Event) :
    served ⟨n, a, event :: trace⟩ = served ⟨n', a', trace⟩ ++ event.served?.toList := by
  rw [served, List.reverse_cons, List.filterMap_append]
  cases hevent : event.served? <;> simp [served, hevent]

theorem heard_cons (p : PeerId) (n n' : Node) (a a' : σ) (event : Event) (trace : List Event) :
    heard p ⟨n, a, event :: trace⟩ =
      heard p ⟨n', a', trace⟩ ++ (event.answeredBy? p).toList := by
  rw [heard, List.reverse_cons, List.filterMap_append]
  cases hevent : event.answeredBy? p <;> simp [heard, hevent]

theorem Trades.withRequests (h : s.Trades p config taken e) (requests : Outstanding) :
    Trades p config taken (s.update ({ · with requests })) { e with requests } :=
  ⟨h.config, rfl, h.taken_le, h.inFlight, h.asked, h.served, h.heard, h.unsolicited⟩

theorem Trades.sent (h : s.Trades p config taken e) {m : Message} (hm : m.channel = .sync) (a : σ) :
    Trades p config taken ⟨s.node.countSent, a, .attempt true p m :: s.world.2⟩
      { e with
        inFlight := e.inFlight ++ [m]
        asked := e.asked ++ (BlockRequest.read? m.payload).toList } := by
  have hattempt : Event.attempt true p m = .sent p .sync m.payload := by
    rw [← hm]
    rfl
  have hsent : sentTo p .sync ⟨s.node.countSent, a, .attempt true p m :: s.world.2⟩ =
      s.sentTo p .sync ++ [m.payload] := by
    rw [hattempt, sentTo_cons p .sync _ s.node _ s.world.1]
    simp [Event.sentTo?]
  constructor
  · exact h.config
  · exact h.requests
  · rw [hsent, List.length_append]
    exact Nat.le_add_right_of_le h.taken_le
  · rw [hsent]
    exact Message.drop_append_payloads h.taken_le h.inFlight [m]
  · rw [Site.asked, hsent, List.filterMap_append, ← h.asked]
    cases hread : BlockRequest.read? m.payload <;> simp [Site.asked, hread]
  · rw [hattempt, served_cons _ s.node _ s.world.1, ← h.served]
    exact List.append_nil _
  · rw [hattempt, heard_cons p _ s.node _ s.world.1, ← h.heard]
    exact List.append_nil _
  · exact h.unsolicited

/-- The world is called, and nothing goes out on the sync channel. -/
theorem Trades.called (h : s.Trades p config taken e) (event : Event)
    (hevent : event.sentTo? p .sync = none) (a : σ) :
    Trades p config taken ⟨s.node, a, event :: s.world.2⟩
      { e with
        served := e.served ++ event.served?.toList
        heard := e.heard ++ (event.answeredBy? p).toList } := by
  have hsent : sentTo p .sync ⟨s.node, a, event :: s.world.2⟩ = s.sentTo p .sync := by
    rw [sentTo_cons p .sync _ s.node _ s.world.1, hevent]
    exact List.append_nil _
  constructor
  · exact h.config
  · exact h.requests
  · rw [hsent]
    exact h.taken_le
  · rw [hsent]
    exact h.inFlight
  · rw [Site.asked, hsent]
    exact h.asked
  · rw [served_cons _ s.node _ s.world.1, ← h.served]
  · rw [heard_cons p _ s.node _ s.world.1, ← h.heard]
  · exact h.unsolicited

theorem Trades.requestBlocks (h : s.Trades p config taken e) (hw : w.Reaches p .sync)
    (r : BlockRequest) :
    (s.requestBlocks w.traced p r).2.Trades p config taken (e.ask p r) := by
  cases hhas : s.node.requests.has r.id with
  | true =>
      rw [requestBlocks_of_has hhas, Trader.ask_of_has (h.requests ▸ hhas)]
      exact h
  | false =>
      obtain ⟨a, hask⟩ := exists_requestBlocks hw hhas
      have hsent := (h.sent (m := .request r) rfl a).withRequests
        (s.node.requests.put r.id ⟨some p, some r.start⟩)
      rw [BlockRequest.read?_request] at hsent
      rw [hask, Trader.ask_of_not_has (h.requests ▸ hhas), ← h.requests]
      exact hsent

theorem Trades.followUp (h : s.Trades p config taken e) (hw : w.Reaches p .sync)
    (next : Option BlockRequest) :
    (s.followUp w.traced p next).2.Trades p config taken (e.followUp p next) := by
  cases next with
  | none => exact h
  | some r => exact h.requestBlocks hw r

theorem Trades.onRequest (h : s.Trades p config taken e) (hw : w.Reaches p .sync)
    (r : BlockRequest) :
    (s.onRequest w.traced p r).2.Trades p config taken (e.serve r (w.serve r s.world.1).1) := by
  rw [onRequest_traced]
  cases hresult : w.serve r s.world.1 with
  | mk result a =>
      have hserved : ∀ refusal, Trades p config taken ⟨s.node, a, .served r refusal :: s.world.2⟩
          { e with served := e.served ++ [(r, refusal)] } := by
        intro refusal
        simpa [Event.served?, Event.answeredBy?] using h.called (.served r refusal) rfl a
      cases result with
      | ok x =>
          obtain ⟨a', hsend⟩ := send_of_reaches (m := .response x) hw
            (⟨s.node, a, .served r none :: s.world.2⟩ : Site (σ × List Event))
          have hsent := (hserved none).sent (m := .response x) rfl a'
          rw [BlockRequest.read?_response, Option.toList_none, List.append_nil] at hsent
          simp only [hsend]
          exact hsent
      | error c => exact hserved (some c)

theorem Trades.onResponse (h : s.Trades p config taken e) (hw : w.Reaches p .sync)
    (x : BlockResponse) :
    (s.onResponse w.traced p x).2.Trades p config taken
      (e.hear p x (w.answered p x s.world.1).1) := by
  rw [Trader.hear, ← h.requests]
  cases hhas : s.node.requests.has x.id with
  | true =>
      have hanswered := (h.called (.answered p x) rfl (w.answered p x s.world.1).2).withRequests
        (s.node.requests.remove x.id).2
      rw [onResponse_of_has hhas]
      refine Trades.followUp ?_ hw _
      simpa [Event.served?, Event.answeredBy?, update] using hanswered
  | false =>
      rw [onResponse_of_not_has hhas]
      refine ⟨h.config, rfl, h.taken_le, h.inFlight, h.asked, h.served, h.heard, ?_⟩
      exact congrArg (· + 1) h.unsolicited

/-- Taking in a payload is what a trader does that takes in its message. -/
theorem Trades.onPayload (h : s.Trades p config taken e) (hw : w.Reaches p .sync) {m : Message}
    (hm : m.channel = .sync) (hfits : m.Fits config) :
    (s.onPayload w.traced .sync p m.payload).2.Trades p config taken
      (e.receive p (fun r => (w.serve r s.world.1).1) (fun x => (w.answered p x s.world.1).1) m) := by
  let s' := s.update (·.count fun c => { c with framesReceived := c.framesReceived + 1 })
  have hs' : s'.Trades p config taken e :=
    ⟨h.config, h.requests, h.taken_le, h.inFlight, h.asked, h.served, h.heard, h.unsolicited⟩
  have hdecode : s'.node.decode .sync p m.payload = .ok m :=
    Node.decode_sync hm (hs'.config ▸ hfits) p
  have honPayload : s.onPayload w.traced .sync p m.payload = s'.handle w.traced .sync p m := by
    simp only [Site.onPayload, s', hdecode]
  rw [honPayload]
  cases m with
  | request r => exact hs'.onRequest hw r
  | response x => exact hs'.onResponse hw x
  | handshake | announce | status | transactions => cases hm

theorem Trades.pass (h : s.Trades p config taken e) {m : Message} {rest : List Message}
    (hflight : e.inFlight = m :: rest) : s.Trades p config (taken + 1) (e.pass rest) := by
  obtain ⟨hle, hrest⟩ := Message.drop_succ_payloads (hflight ▸ h.inFlight)
  exact ⟨h.config, h.requests, hle, hrest, h.asked, h.served, h.heard, h.unsolicited⟩

end Site

/-- Two nodes that ask each other for blocks. Each of them can always send to the other one, answers
a request, if at all, with a response of the same id, and sends no message that is too long for the
other one. -/
structure Peering (σ : Side → Type) extends Duo σ where
  reaches : ∀ i, (world i).Reaches (peer i.other) .sync
  served_id : ∀ i r a x, ((world i).serve r a).1 = .ok x → x.id = r.id
  served_fits : ∀ i r a x, ((world i).serve r a).1 = .ok x →
    (Message.response x).Fits (config i.other)
  wanted_fits : ∀ i p x a r, ((world i).answered p x a).1 = some r →
    (Message.request r).Fits (config i.other)

namespace Peering

variable {σ : Side → Type} (L : Peering σ)

/-- The ids of the requests in the queue of a node. -/
def queuedRequests (st : DuoState σ) (i : Side) : List UInt64 :=
  ((L.queue .sync st i).filterMap BlockRequest.read?).map BlockRequest.id

/-- The ids of the responses in the queue of a node. -/
def queuedResponses (st : DuoState σ) (i : Side) : List UInt64 :=
  ((L.queue .sync st i).filterMap BlockResponse.read?).map BlockResponse.id

/-- A node is to ask the other one for blocks. -/
def ask (i : Side) (r : BlockRequest) (st : DuoState σ) : DuoState σ :=
  st.put i ((st.site i).requestBlocks (L.world i).traced (L.peer i.other) r).2

/-- Two nodes that have asked for nothing. -/
structure Start (st : DuoState σ) : Prop extends L.toDuo.Fresh st where
  requests : ∀ i, (st.site i).node.requests = .empty
  unsolicited : ∀ i, (st.site i).node.metrics.unsolicitedResponses = 0

/-- One step of two nodes: one of them is to ask for blocks, or its oldest payload is taken in by
the other one. -/
inductive Step : DuoState σ → DuoState σ → Prop where
  | ask (st : DuoState σ) (i : Side) (r : BlockRequest)
      (hfits : (Message.request r).Fits (L.config i.other)) : Step st (L.ask i r st)
  | deliver (st : DuoState σ) (i : Side) (payload : Bytes) (rest : List Bytes)
      (hqueue : L.queue .sync st i = payload :: rest) : Step st (L.deliver .sync i payload st)

/-- The states that two nodes reach. -/
inductive Reachable : DuoState σ → Prop where
  | start {st : DuoState σ} : L.Start st → Reachable st
  | step {st st' : DuoState σ} : Reachable st → L.Step st st' → Reachable st'

/-! ## Following the nodes -/

/-- The nodes are as two traders that treat each other fairly. -/
structure Follows (st : DuoState σ) (e : Side → Trader) : Prop where
  trades : ∀ i, (st.site i).Trades (L.peer i.other) (L.config i) (st.taken i) (e i)
  fair : ∀ i, Trader.Fair (L.peer i.other) (e i) (e i.other)
  carries : ∀ i, (e i).Carries fun m => m.channel = .sync ∧ m.Fits (L.config i.other)

variable {L} {st st' : DuoState σ} {e : Side → Trader}

theorem Start.follows (hst : L.Start st) : L.Follows st fun _ => .start where
  trades i := by
    have htrace := hst.trace i
    have htaken := hst.taken i
    constructor
    · exact hst.config i
    · exact hst.requests i
    · rw [htaken]
      exact Nat.zero_le _
    · simp [Site.sentTo, htrace, Trader.start]
    · simp [Site.asked, Site.sentTo, htrace, Trader.start]
    · simp [Site.served, htrace, Trader.start]
    · simp [Site.heard, htrace, Trader.start]
    · exact hst.unsolicited i
  fair i := .start _
  carries i := .start

theorem Follows.fair_other (hst : L.Follows st e) (i : Side) :
    Trader.Fair (L.peer i) (e i.other) (e i) :=
  Side.swap (R := fun i j => Trader.Fair (L.peer j) (e i) (e j)) hst.fair i

theorem Follows.trades_other (hst : L.Follows st e) (i : Side) :
    (st.site i.other).Trades (L.peer i) (L.config i.other) (st.taken i.other) (e i.other) :=
  Side.swap (R := fun i j => (st.site i).Trades (L.peer j) (L.config i) (st.taken i) (e i))
    hst.trades i

theorem reaches_other (i : Side) : (L.world i.other).Reaches (L.peer i) .sync :=
  Side.swap (R := fun i j => (L.world i).Reaches (L.peer j) .sync) L.reaches i

theorem Follows.ask (hst : L.Follows st e) {i : Side} {r : BlockRequest}
    (hfits : (Message.request r).Fits (L.config i.other)) :
    ∃ e', L.Follows (L.ask i r st) e' := by
  obtain ⟨e', hi, hother⟩ := Side.exists_of i ((e i).ask (L.peer i.other) r) (e i.other)
  refine ⟨e', ?_, ?_, ?_⟩
  · refine DuoState.forall_put
      (P := fun j s n => s.Trades (L.peer j.other) (L.config j) n (e' j)) ?_ ?_
    · rw [hi]
      exact (hst.trades i).requestBlocks (L.reaches i) r
    · rw [hother]
      exact hst.trades i.other
  · refine Side.forall_of i ?_ ?_
    · rw [hi, hother]
      exact (hst.fair i).ask r
    · rw [Side.other_other, hi, hother]
      exact (hst.fair_other i).ask_other r
  · refine Side.forall_of i ?_ ?_
    · rw [hi]
      exact (hst.carries i).ask ⟨rfl, hfits⟩
    · rw [hother]
      exact hst.carries i.other

theorem Follows.deliver (hst : L.Follows st e) {i : Side} {payload : Bytes} {rest : List Bytes}
    (hqueue : L.queue .sync st i = payload :: rest) : ∃ e', L.Follows (L.deliver .sync i payload st) e' := by
  obtain ⟨m, ms, hflight, rfl⟩ := Message.exists_of_payloads (hst.trades i).inFlight hqueue
  obtain ⟨hchannel, hfits⟩ := hst.carries i m (hflight ▸ List.mem_cons_self)
  -- What the receiver makes of the message depends on its world as it is now.
  let w := L.world i.other
  let a := (st.site i.other).world.1
  have hfair := (hst.fair i).receive (hst.fair_other i) hflight hchannel
    (fun r => L.served_id i.other r a) (fun x => (w.answered (L.peer i) x a).1)
  obtain ⟨e', hi, hother⟩ := Side.exists_of i ((e i).pass ms)
    ((e i.other).receive (L.peer i) (fun r => (w.serve r a).1)
      (fun x => (w.answered (L.peer i) x a).1) m)
  refine ⟨e', ?_, ?_, ?_⟩
  · refine Duo.forall_deliver
      (P := fun j s n => s.Trades (L.peer j.other) (L.config j) n (e' j)) ?_ ?_
    · rw [hi]
      exact (hst.trades i).pass hflight
    · rw [hother, Side.other_other]
      exact (hst.trades_other i).onPayload (reaches_other i) hchannel hfits
  · refine Side.forall_of i ?_ ?_
    · rw [hi, hother]
      exact hfair.1
    · rw [Side.other_other, hi, hother]
      exact hfair.2
  · refine Side.forall_of i ?_ ?_
    · rw [hi]
      exact (hst.carries i).pass hflight
    · rw [hother]
      refine (hst.carries i.other).receive ?_ ?_ m
      · exact fun r x hx => ⟨rfl, L.served_fits i.other r a x hx⟩
      · exact fun x r hr => ⟨rfl, L.wanted_fits i.other (L.peer i) x a r hr⟩

theorem Reachable.follows (hst : L.Reachable st) : ∃ e, L.Follows st e := by
  induction hst with
  | start hstart => exact ⟨fun _ => .start, hstart.follows⟩
  | step _ hstep ih =>
      obtain ⟨e, hfollows⟩ := ih
      cases hstep with
      | ask i r hfits => exact hfollows.ask hfits
      | deliver i payload rest hqueue => exact hfollows.deliver hqueue

/-! ## What the nodes owe each other -/

theorem Follows.queuedRequests_eq (hst : L.Follows st e) (i : Side) :
    L.queuedRequests st i = requestIds (e i).inFlight := by
  have hqueue : L.queue .sync st i = (e i).inFlight.map Message.payload := (hst.trades i).inFlight
  rw [queuedRequests, requestIds, hqueue, List.filterMap_map]
  refine congrArg (List.map BlockRequest.id) (List.filterMap_congr fun m hm => ?_)
  exact BlockRequest.read?_payload (hst.carries i m hm).1

theorem Follows.queuedResponses_eq (hst : L.Follows st e) (i : Side) :
    L.queuedResponses st i = responseIds (e i).inFlight := by
  have hqueue : L.queue .sync st i = (e i).inFlight.map Message.payload := (hst.trades i).inFlight
  rw [queuedResponses, responseIds, hqueue, List.filterMap_map]
  refine congrArg (List.map BlockResponse.id) (List.filterMap_congr fun m hm => ?_)
  obtain ⟨hchannel, hsized, -⟩ := hst.carries i m hm
  exact BlockResponse.read?_payload hchannel hsized

theorem Follows.inFlight_eq_nil (hst : L.Follows st e) {i : Side} (hqueue : L.queue .sync st i = []) :
    (e i).inFlight = [] :=
  List.map_eq_nil_iff.1 ((hst.trades i).inFlight.symm.trans hqueue)

/-- In every state that two nodes reach, the ids that a node has outstanding with the other one are
those of its requests that are queued, of its requests that the other one refused, and of the
responses that are queued back, and none of them is there twice. The node has never counted a
response as unsolicited. With both queues empty, the other one was to serve exactly what the node
has asked for, in this order, and for each request that was not refused the node has handed over one
response, in this order. -/
theorem conserves (hst : L.Reachable st) (i : Side) :
    let owed := L.queuedRequests st i ++ refusedIds (st.site i.other).served ++
      L.queuedResponses st i.other
    owed.Nodup ∧
      (∀ id, (st.site i).node.requests.peer? id = some (L.peer i.other) ↔ id ∈ owed) ∧
      (st.site i).node.metrics.unsolicitedResponses = 0 ∧
      (L.queue .sync st i = [] → L.queue .sync st i.other = [] →
        (st.site i.other).served.map Prod.fst = (st.site i).asked (L.peer i.other) ∧
        ((st.site i).heard (L.peer i.other)).map BlockResponse.id =
          grantedIds (st.site i.other).served) := by
  obtain ⟨e, hfollows⟩ := hst.follows
  have hfair := hfollows.fair i
  have hself := hfollows.trades i
  have hother := hfollows.trades i.other
  have howed : L.queuedRequests st i ++ refusedIds (st.site i.other).served ++
      L.queuedResponses st i.other =
        requestIds (e i).inFlight ++ refusedIds (e i.other).served ++
          responseIds (e i.other).inFlight := by
    rw [hfollows.queuedRequests_eq, hfollows.queuedResponses_eq, hother.served]
  dsimp only
  rw [howed]
  refine ⟨hfair.nodup, fun id => ?_, ?_, fun hqueue hback => ?_⟩
  · rw [hself.requests]
    exact hfair.peer?_iff id
  · exact hself.unsolicited.trans hfair.unsolicited
  · have hasked := hfair.served
    have hheard := hfair.heard
    rw [hfollows.inFlight_eq_nil hqueue, List.filterMap_nil, List.append_nil] at hasked
    rw [hfollows.inFlight_eq_nil hback, responseIds, List.filterMap_nil, List.map_nil,
      List.append_nil] at hheard
    rw [hother.served, hself.asked, hself.heard]
    exact ⟨hasked, hheard⟩

/-! ## Nodes without blocks -/

theorem fits_noBlocks (id : UInt64) : (Message.response ⟨id, []⟩).Fits .default := by
  have hid : (Codec.word64.encode id).length = 8 := Bytes.length_littleEndian 8 _
  have hlength : (Message.response ⟨id, []⟩).encodeBare.length = 16 :=
    calc
      _ = (Codec.word64.encode id ++ (Codec.word64.encode 0 ++ [])).length := rfl
      _ = 16 := by
        rw [List.length_append, hid]
        rfl
  constructor
  · exact ⟨Nat.two_pow_pos 64, nofun⟩
  · rw [hlength]
    decide

/-- Two nodes that answer a request without any block, and refuse one with the id 0. -/
def blockless : Peering fun _ => Unit where
  peer
    | .left => stranger
    | .right => supplier
  config _ := .default
  world _ :=
    { World.idle .zero with
      serve := fun r _ => (if r.id = 0 then .error .unavailable else .ok ⟨r.id, []⟩, ()) }
  reaches _ _ _ := rfl
  served_id _ r _ x hserve := by
    dsimp only at hserve
    split at hserve
    · exact nomatch hserve
    · rw [← Except.ok.inj hserve]
  served_fits _ r _ x hserve := by
    dsimp only at hserve
    split at hserve
    · exact nomatch hserve
    · rw [← Except.ok.inj hserve]
      exact fits_noBlocks r.id
  wanted_fits _ _ _ _ _ hanswered := nomatch hanswered

def blocklessStart : DuoState fun _ => Unit :=
  ⟨fun _ => ⟨.new .default, (), []⟩, fun _ => 0⟩

/-- One of them has asked for blocks, and then in vain for others. -/
def blocklessAsked : DuoState fun _ => Unit :=
  blockless.ask .left { idleRequest with id := 0 } (blockless.ask .left idleRequest blocklessStart)

/-- The other one has answered. -/
def blocklessServed : DuoState fun _ => Unit :=
  blockless.deliver .sync .left (Message.request { idleRequest with id := 0 }).payload
    (blockless.deliver .sync .left (Message.request idleRequest).payload blocklessAsked)

/-- The answer has arrived. -/
def blocklessAnswered : DuoState fun _ => Unit :=
  blockless.deliver .sync .right (Message.response ⟨5, []⟩).payload blocklessServed

theorem reachable_blocklessAnswered : blockless.Reachable blocklessAnswered := by
  have hstart : blockless.Start blocklessStart :=
    ⟨⟨fun _ => rfl, fun _ => rfl, fun _ => rfl⟩, fun _ => rfl, fun _ => rfl⟩
  have hone : blockless.Reachable (blockless.ask .left idleRequest blocklessStart) :=
    .step (.start hstart) (.ask _ .left idleRequest ⟨trivial, by decide +kernel⟩)
  have hasked : blockless.Reachable blocklessAsked :=
    hone.step (.ask _ .left _ ⟨trivial, by decide +kernel⟩)
  have hserved : blockless.Reachable blocklessServed :=
    (hasked.step (.deliver _ .left _ [(Message.request { idleRequest with id := 0 }).payload]
      (by decide +kernel))).step (.deliver _ .left _ [] (by decide +kernel))
  exact hserved.step (.deliver _ .right _ [] (by decide +kernel))

/-- The request that was refused stays outstanding, and the other one was answered once. -/
theorem conserves_of_blocklessAnswered :
    (blocklessAnswered.site .left).node.requests.peer? 0 = some supplier ∧
      ((blocklessAnswered.site .left).heard supplier).map BlockResponse.id = [5] := by
  obtain ⟨-, howed, -, hsettled⟩ := conserves reachable_blocklessAnswered .left
  constructor
  · exact (howed 0).2 (by decide +kernel)
  · have hgranted : grantedIds (blocklessAnswered.site .right).served = [5] := by decide +kernel
    exact (hsettled (by decide +kernel) (by decide +kernel)).2.trans hgranted

end Peering

end ChainPeer
