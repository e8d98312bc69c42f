import ChainPeer.Proofs.Line
import Mathlib.Logic.Relation

/-!
# How a site stands with a peer

What a site has to do with one peer on the channel of announcements when sending may fail at any
time: the exchange with the peer, what is known of it, and the calls to the world that concern it.
The turns list everything that can happen to this, whatever is called on the site and in whatever
order; calls for other peers leave it as it is.
-/

namespace ChainPeer

open Relation

/-- An attempt to send a message to a peer. -/
def Event.attempt (ok : Bool) (p : PeerId) (m : Message) : Event :=
  if ok then .sent p m.channel m.payload else .notSent p m.channel m.payload

/-- Whether a call to the world sends something to a peer on the channel of announcements, in vain
or not, or passes on an announcement of the peer. -/
def Event.concerns (p : PeerId) : Event → Bool
  | .sent peer channel _ | .notSent peer channel _ => peer = p ∧ channel = .blockAnnounces
  | .announced peer _ => peer = p
  | _ => false

theorem Event.concerns_attempt (p q : PeerId) (ok : Bool) (m : Message) :
    (attempt ok p m).concerns q = decide (p = q ∧ m.channel = .blockAnnounces) := by
  cases ok <;> rfl

/-- How a site stands with a peer: the settings of the node, the exchange with the peer, what is
known of it, and the calls that concern it, the latest first. -/
structure Standing where
  config : Config
  exchange : Option Exchange
  facts : Option PeerFacts
  dealings : List Event

namespace Standing

/-- The standing with a peer after one more call to the world. -/
def note (p : PeerId) (e : Event) (st : Standing) : Standing :=
  { st with dealings := if e.concerns p then e :: st.dealings else st.dealings }

/-- The standing after a report of the peer about itself. -/
def credit (roles : Option Roles) (number : BlockNumber) (hash : Hash) (st : Standing) :
    Standing :=
  { st with facts := some ((st.facts.getD .unknown).report roles number hash) }

/-- The standing with a peer after the message held back, if there is one, was sent. -/
def flush (p : PeerId) (ok : Bool) (heldBack : Option Message) (st : Standing) : Standing :=
  match heldBack with
  | some m => st.note p (.attempt ok p m)
  | none => st

/-- The standing with a peer after an announcement of it was passed on. -/
def hear (p : PeerId) (a : Announce) (st : Standing) : Standing :=
  (if a.isBest then st.credit none a.number a.headerHash else st).note p (.announced p a)

theorem note_of_not_concerns {p : PeerId} {e : Event} (h : e.concerns p = false) (st : Standing) :
    st.note p e = st := by
  rw [note, h]
  rfl

theorem note_attempt_of_ne {p q : PeerId} (h : p ≠ q) (ok : Bool) (m : Message) (st : Standing) :
    st.note q (.attempt ok p m) = st := by
  refine note_of_not_concerns ?_ st
  rw [Event.concerns_attempt]
  exact decide_eq_false fun hpq => h hpq.1

end Standing

theorem Exchange.eq_some_of_getD {x? : Option Exchange} {x : Exchange}
    (h : x?.getD .untouched = x) (hx : x ≠ .untouched) : x? = some x := by
  cases x? with
  | none => exact absurd h.symm hx
  | some y => exact congrArg some h

/-- What is asked of a node for one peer on the channel of announcements: to send the peer a message,
to handle one of it, or to forget the peer. -/
inductive Errand where
  | tell (m : Message)
  | hear (m : Message)
  | forget

namespace Standing

variable (p : PeerId) (own : Handshake) (ok ok' : Bool)

/-- The standing with a peer after the node was asked to send it a message. The handshake that the
node has to give opens the exchange, if sending it worked. -/
def tell (m : Message) (st : Standing) : Standing :=
  match st.exchange with
  | none =>
    if ok then
      ({ st with exchange := some (.opened (some m)) } : Standing).note p
        (.attempt true p (.handshake own))
    else st.note p (.attempt false p (.handshake own))
  | some (.awaiting initiator _) => { st with exchange := some (.awaiting initiator (some m)) }
  | some .rejected => st
  | some (.complete _) => st.note p (.attempt ok p m)

/-- The standing with a peer after a handshake of it was handled, which is valid if it names the same
genesis block as the handshake that the node has to give. -/
def meet (h : Handshake) (st : Standing) : Standing :=
  match st.exchange.getD .untouched with
  | .rejected | .complete _ => st
  | .awaiting true heldBack =>
    if h.genesis = own.genesis then
      ({ st.credit (some h.roles) h.bestNumber h.bestHash with
          exchange := some (.complete true) } : Standing).flush p ok heldBack
    else { st with exchange := none }
  | .awaiting false heldBack =>
    if h.genesis = own.genesis then
      (({ st.credit (some h.roles) h.bestNumber h.bestHash with
          exchange := some (.complete false) } : Standing).note p
            (.attempt ok p (.handshake own))).flush p ok' heldBack
    else { st with exchange := some .rejected }

/-- The standing with a peer after an errand, by the handshake that the node has to give and by
whether the first and the second message that are sent arrive. -/
def serve : Errand → Standing → Standing
  | .tell m, st => st.tell p own ok m
  | .hear (.handshake h), st => st.meet p own ok ok' h
  | .hear (.announce a), st =>
    match st.exchange with
    | some (.complete _) => st.hear p a
    | _ => st
  | .hear _, st => st
  | .forget, st => { st with exchange := none }

end Standing

/-- On whose account something happens between a site and a peer: its own, that of the peer, from
which it has a message, or because the peer has gone. -/
inductive Occasion where
  | own
  | heard (m : Message)
  | departed

/-- On whose account an errand is done. -/
def Errand.occasion : Errand → Occasion
  | tell _ => .own
  | hear m => .heard m
  | forget => .departed

variable {σ : Type}

/-- The handshakes that a node with the given settings may send. -/
def World.Greets (w : World σ) (config : Config) (genesis : Hash) (h : Handshake) : Prop :=
  ∃ a, h = ⟨config.roles, (w.head a).1, (w.head a).2, genesis⟩

/-- What can happen to the standing with a peer at once. -/
inductive Turn (w : World σ) (genesis : Hash) (p : PeerId) :
    Occasion → Standing → Standing → Prop where
  | ignored (st : Standing) {m : Message} (hm : m.channel ≠ .blockAnnounces) :
      Turn w genesis p (.heard m) st st
  | refused {st : Standing} (hx : st.exchange = some .rejected) : Turn w genesis p .own st st
  | repeated {st : Standing} {x : Exchange} (h : Handshake) (hx : st.exchange = some x)
      (hreceived : x.isReceived = true) : Turn w genesis p (.heard (.handshake h)) st st
  | unheard {st : Standing} (a : Announce)
      (hx : ∀ initiator, st.exchange ≠ some (.complete initiator)) :
      Turn w genesis p (.heard (.announce a)) st st
  | forgotten (st : Standing) : Turn w genesis p .departed st { st with exchange := none }
  | opened {st : Standing} (m : Message) {h : Handshake} (hh : w.Greets st.config genesis h)
      (hx : st.exchange = none) :
      Turn w genesis p .own st
        (({ st with exchange := some (.opened (some m)) } : Standing).note p
          (.attempt true p (.handshake h)))
  | unopened {st : Standing} {h : Handshake} (hh : w.Greets st.config genesis h)
      (hx : st.exchange = none) :
      Turn w genesis p .own st (st.note p (.attempt false p (.handshake h)))
  | held {st : Standing} {initiator : Bool} {heldBack : Option Message} (m : Message)
      (hx : st.exchange = some (.awaiting initiator heldBack)) :
      Turn w genesis p .own st { st with exchange := some (.awaiting initiator (some m)) }
  | sentNow {st : Standing} {initiator : Bool} (ok : Bool) (m : Message)
      (hx : st.exchange = some (.complete initiator)) :
      Turn w genesis p .own st (st.note p (.attempt ok p m))
  | completed {st : Standing} {heldBack : Option Message} (ok : Bool) {h : Handshake}
      (hvalid : h.genesis = genesis) (hx : st.exchange = some (.awaiting true heldBack)) :
      Turn w genesis p (.heard (.handshake h)) st
        (({ st.credit (some h.roles) h.bestNumber h.bestHash with
            exchange := some (.complete true) } : Standing).flush p ok heldBack)
  | dismissed {st : Standing} {heldBack : Option Message} {h : Handshake}
      (hinvalid : h.genesis ≠ genesis) (hx : st.exchange = some (.awaiting true heldBack)) :
      Turn w genesis p (.heard (.handshake h)) st { st with exchange := none }
  | accepted {st : Standing} {heldBack : Option Message} (ok ok' : Bool) {h reply : Handshake}
      (hvalid : h.genesis = genesis) (hreply : w.Greets st.config genesis reply)
      (hx : st.exchange.getD .untouched = .awaiting false heldBack) :
      Turn w genesis p (.heard (.handshake h)) st
        ((({ st.credit (some h.roles) h.bestNumber h.bestHash with
            exchange := some (.complete false) } : Standing).note p
              (.attempt ok p (.handshake reply))).flush p ok' heldBack)
  | rejected {st : Standing} {heldBack : Option Message} {h : Handshake}
      (hinvalid : h.genesis ≠ genesis)
      (hx : st.exchange.getD .untouched = .awaiting false heldBack) :
      Turn w genesis p (.heard (.handshake h)) st { st with exchange := some .rejected }
  | heard {st : Standing} {initiator : Bool} (a : Announce)
      (hx : st.exchange = some (.complete initiator)) :
      Turn w genesis p (.heard (.announce a)) st (st.hear p a)

/-- What an errand does is something that can happen on its account. -/
theorem Errand.turn {w : World σ} {genesis : Hash} (p : PeerId) (ok ok' : Bool) (e : Errand)
    {own : Handshake} {st : Standing} (hown : w.Greets st.config genesis own) :
    Turn w genesis p e.occasion st (st.serve p own ok ok' e) := by
  have hgenesis : own.genesis = genesis := by
    obtain ⟨a, rfl⟩ := hown
    rfl
  cases e with
  | forget => exact .forgotten st
  | tell m =>
      rw [Standing.serve, Standing.tell]
      cases hx : st.exchange with
      | none =>
          cases ok with
          | true => exact .opened m hown hx
          | false => exact .unopened hown hx
      | some x =>
          cases x with
          | awaiting initiator heldBack => exact .held m hx
          | rejected => exact .refused hx
          | complete initiator => exact .sentNow ok m hx
  | hear m =>
      cases m with
      | request | response | status | transactions => exact .ignored st nofun
      | announce a =>
          rw [Standing.serve]
          split
          · next hx => exact .heard a hx
          · next hx => exact .unheard a hx
      | handshake h =>
          rw [Standing.serve, Standing.meet, hgenesis]
          cases hx : st.exchange.getD .untouched with
          | rejected => exact .repeated h (Exchange.eq_some_of_getD hx nofun) rfl
          | complete initiator => exact .repeated h (Exchange.eq_some_of_getD hx nofun) rfl
          | awaiting initiator heldBack =>
              cases initiator with
              | true =>
                  have hx' := Exchange.eq_some_of_getD hx nofun
                  dsimp only
                  split
                  · next hvalid => exact .completed ok hvalid hx'
                  · next hinvalid => exact .dismissed hinvalid hx'
              | false =>
                  dsimp only
                  split
                  · next hvalid => exact .accepted ok ok' hvalid hown hx
                  · next hinvalid => exact .rejected hinvalid hx

namespace Site

/-- How a site stands with a peer. -/
def standing (p : PeerId) (s : Site (σ × List Event)) : Standing where
  config := s.node.config
  exchange := s.node.exchanges.get? p
  facts := s.node.roster.get? p
  dealings := s.world.2.filter (Event.concerns p)

variable {w : World σ} {p q : PeerId} {genesis : Hash} {s s' : Site (σ × List Event)}

/-! ## What single operations do to it -/

theorem standing_insert (x : Exchange) :
    (s.update ({ · with exchanges := s.node.exchanges.insert p x })).standing q =
      if p = q then { s.standing q with exchange := some x } else s.standing q := by
  simp only [standing, update, ExchangeTable.get?_insert]
  split <;> rfl

theorem standing_forget :
    (s.update (·.forget .blockAnnounces p)).standing q =
      if p = q then { s.standing q with exchange := none } else s.standing q := by
  simp only [standing, update, Node.forget, ExchangeTable.get?_erase]
  split <;> rfl

theorem standing_noteReport (roles : Option Roles) (number : BlockNumber) (hash : Hash) :
    (s.update (·.noteReport p roles number hash)).standing q =
      if p = q then (s.standing q).credit roles number hash else s.standing q := by
  simp only [standing, update, Node.noteReport, Roster.get?_report]
  split
  · next h =>
    subst h
    rfl
  · rfl

theorem standing_noteHandshake_insert (h : Handshake) (x : Exchange) :
    ((s.noteHandshake p h).update ({ · with exchanges := s.node.exchanges.insert p x })).standing q =
      if p = q then
        { (s.standing q).credit (some h.roles) h.bestNumber h.bestHash with exchange := some x }
      else s.standing q := by
  have hinsert := standing_insert (s := s.noteHandshake p h) (p := p) (q := q) x
  rw [noteHandshake, standing_noteReport] at hinsert
  refine hinsert.trans ?_
  split <;> rfl

theorem standing_send (p : PeerId) (m : Message) (s : Site (σ × List Event)) (q : PeerId) :
    (s.send w.traced p m).2.standing q =
      (s.standing q).note q (.attempt (s.send w.traced p m).1.isOk p m) := by
  rw [send]
  cases hresult : w.send p m.channel m.payload s.world.1 with
  | mk r a =>
      cases r <;>
        simp [World.traced, Transport.traced, hresult, standing, Standing.note, Event.attempt,
          Node.count, List.filter_cons, Except.isOk, Except.toBool]

theorem standing_sendHandshake (hw : w.Steady genesis) (p : PeerId) (s : Site (σ × List Event)) :
    ∃ h, w.Greets s.node.config genesis h ∧
      ∀ q, (s.sendHandshake w.traced p).2.standing q =
        (s.standing q).note q
          (.attempt (s.sendHandshake w.traced p).1.isOk p (.handshake h)) := by
  obtain ⟨a, ha⟩ := s.localHandshake_traced hw
  rw [sendHandshake, ha]
  exact ⟨_, ⟨s.world.1, rfl⟩, standing_send p _ _⟩

theorem standing_flush (p : PeerId) (heldBack : Option Message) (s : Site (σ × List Event)) :
    (s.flush w.traced p heldBack).2.standing p =
        (s.standing p).flush p (s.flush w.traced p heldBack).1.isOk heldBack ∧
      ∀ q, p ≠ q → (s.flush w.traced p heldBack).2.standing q = s.standing q := by
  cases heldBack with
  | none => exact ⟨rfl, fun _ _ => rfl⟩
  | some m =>
      refine ⟨standing_send p m s p, fun q hq => ?_⟩
      rw [flush, standing_send, Standing.note_attempt_of_ne hq]

/-! ## What the handlers do to it -/

/-- From the one site to the other the errand was done for a peer, and nothing has happened to the
standing with any other peer. -/
structure Serves (w : World σ) (genesis : Hash) (p : PeerId) (e : Errand)
    (s s' : Site (σ × List Event)) : Prop where
  served : ∃ own ok ok', w.Greets s.node.config genesis own ∧
    s'.standing p = (s.standing p).serve p own ok ok' e
  others : ∀ q, p ≠ q → s'.standing q = s.standing q

theorem greets_current (w : World σ) (genesis : Hash) (s : Site (σ × List Event)) :
    w.Greets s.node.config genesis
      ⟨s.node.config.roles, (w.head s.world.1).1, (w.head s.world.1).2, genesis⟩ :=
  ⟨s.world.1, rfl⟩

/-- The errand is done without any sending. -/
theorem Serves.silent {e : Errand}
    (hserve : ∀ own : Handshake, own.genesis = genesis →
      s'.standing p = (s.standing p).serve p own true true e)
    (hothers : ∀ q, p ≠ q → s'.standing q = s.standing q) : s.Serves w genesis p e s' :=
  ⟨⟨_, true, true, greets_current w genesis s, hserve _ rfl⟩, hothers⟩

theorem Serves.unchanged {e : Errand}
    (hserve : ∀ own, (s.standing p).serve p own true true e = s.standing p) :
    s.Serves w genesis p e s :=
  .silent (fun own _ => (hserve own).symm) fun _ _ => rfl

theorem serves_announceTo (hw : w.Steady genesis) (p : PeerId) (m : Message)
    (s : Site (σ × List Event)) :
    s.Serves w genesis p (.tell m) (s.announceTo w.traced p m).2 := by
  cases hx : s.node.exchanges.get? p with
  | none =>
      have hx' : (s.standing p).exchange = none := hx
      have hroute : s.node.exchanges.route p m =
          (.openExchange, s.node.exchanges.insert p (.opened (some m))) := by
        rw [ExchangeTable.route, hx]
      obtain ⟨h, hh, hsend⟩ := standing_sendHandshake hw p
        (s.update ({ · with exchanges := s.node.exchanges.insert p (.opened (some m)) }))
      simp only [announceTo, hroute]
      split
      · next s' hs' =>
        rw [hs'] at hsend
        refine ⟨⟨h, true, true, hh, ?_⟩, fun q hq => ?_⟩
        · rw [hsend p, standing_insert, if_pos rfl, Standing.serve, Standing.tell, hx']
          rfl
        · rw [hsend q, Standing.note_attempt_of_ne hq, standing_insert, if_neg hq]
      · next e s' hs' =>
        rw [hs'] at hsend
        refine ⟨⟨h, false, true, hh, ?_⟩, fun q hq => ?_⟩
        · -- The exchange that was opened and dropped again leaves nothing behind.
          have hundone : s.standing p = { s.standing p with exchange := none } := by
            rw [standing, hx]
          rw [standing_forget, if_pos rfl, hsend p, standing_insert, if_pos rfl, Standing.serve,
            Standing.tell, hx', hundone]
          rfl
        · rw [standing_forget, if_neg hq, hsend q, Standing.note_attempt_of_ne hq,
            standing_insert, if_neg hq]
  | some x =>
      have hx' : (s.standing p).exchange = some x := hx
      cases x with
      | awaiting initiator heldBack =>
          have hroute : s.node.exchanges.route p m =
              (.heldBack, s.node.exchanges.insert p (.awaiting initiator (some m))) := by
            rw [ExchangeTable.route, hx]
          simp only [announceTo, hroute]
          refine .silent (fun own _ => ?_) fun q hq => ?_
          · rw [standing_insert, if_pos rfl, Standing.serve, Standing.tell, hx']
          · rw [standing_insert, if_neg hq]
      | rejected =>
          have hroute : s.node.exchanges.route p m = (.refused, s.node.exchanges) := by
            rw [ExchangeTable.route, hx]
          simp only [announceTo, hroute]
          refine .unchanged fun own => ?_
          rw [Standing.serve, Standing.tell, hx']
      | complete initiator =>
          have hroute : s.node.exchanges.route p m = (.sendNow m, s.node.exchanges) := by
            rw [ExchangeTable.route, hx]
          simp only [announceTo, hroute]
          have hserve : ∀ own ok, (s.standing p).note p (.attempt ok p m) =
              (s.standing p).serve p own ok true (.tell m) := by
            intro own ok
            rw [Standing.serve, Standing.tell, hx']
          refine ⟨⟨_, _, true, greets_current w genesis s,
            (standing_send p m _ p).trans (hserve _ _)⟩, fun q hq => ?_⟩
          rw [standing_send, Standing.note_attempt_of_ne hq]
          rfl

theorem serves_onReply (hw : w.Steady genesis) (h : Handshake) {heldBack : Option Message}
    (hx : (s.standing p).exchange = some (.awaiting true heldBack)) :
    s.Serves w genesis p (.hear (.handshake h)) (s.onReply w.traced p h).2 := by
  obtain ⟨a, ha⟩ := s.validate_traced hw h
  rw [onReply, ha]
  by_cases hgenesis : h.genesis = genesis
  · have hcomplete : s.node.exchanges.complete? p =
        some (heldBack, s.node.exchanges.insert p (.complete true)) := by
      rw [ExchangeTable.complete?, show s.node.exchanges.get? p = _ from hx]
      rfl
    have hnoted : ((⟨s.node, a, s.world.2⟩ : Site (σ × List Event)).noteHandshake p h).node.exchanges
        = s.node.exchanges := rfl
    simp only [if_pos hgenesis, hnoted, hcomplete]
    have hserve : ∀ own : Handshake, own.genesis = genesis → ∀ ok,
        ({ (s.standing p).credit (some h.roles) h.bestNumber h.bestHash with
            exchange := some (.complete true) } : Standing).flush p ok heldBack =
          (s.standing p).serve p own ok true (.hear (.handshake h)) := by
      intro own hown ok
      rw [Standing.serve, Standing.meet, hx, Option.getD_some]
      refine (if_pos ?_).symm
      rwa [hown]
    obtain ⟨hflush, hothers⟩ := standing_flush p heldBack
      (((⟨s.node, a, s.world.2⟩ : Site (σ × List Event)).noteHandshake p h).update
        ({ · with exchanges := s.node.exchanges.insert p (.complete true) }))
    rw [standing_noteHandshake_insert, if_pos rfl] at hflush
    refine ⟨⟨_, _, true, greets_current w genesis s, hflush.trans (hserve _ rfl _)⟩,
      fun q hq => ?_⟩
    rw [hothers q hq, standing_noteHandshake_insert, if_neg hq]
    rfl
  · rw [if_neg hgenesis]
    refine .silent (fun own hown => ?_) fun q hq => ?_
    · rw [standing_forget, if_pos rfl, Standing.serve, Standing.meet, hx, Option.getD_some]
      refine (if_neg ?_).symm
      rwa [hown]
    · rw [standing_forget, if_neg hq]
      rfl

theorem serves_onOpening (hw : w.Steady genesis) (h : Handshake) {heldBack : Option Message}
    (hx : (s.standing p).exchange.getD .untouched = .awaiting false heldBack) :
    s.Serves w genesis p (.hear (.handshake h)) (s.onOpening w.traced p h).2 := by
  obtain ⟨a, ha⟩ := s.validate_traced hw h
  rw [onOpening, ha]
  by_cases hgenesis : h.genesis = genesis
  · have haccept : s.node.exchanges.accept p =
        (heldBack, s.node.exchanges.insert p (.complete false)) := by
      rw [ExchangeTable.accept, show (s.node.exchanges.get? p).getD .untouched = _ from hx]
      rfl
    have hnoted : ((⟨s.node, a, s.world.2⟩ : Site (σ × List Event)).noteHandshake p h).node.exchanges
        = s.node.exchanges := rfl
    simp only [if_pos hgenesis, hnoted, haccept]
    obtain ⟨reply, hreply, hsend⟩ := standing_sendHandshake hw p
      (((⟨s.node, a, s.world.2⟩ : Site (σ × List Event)).noteHandshake p h).update
        ({ · with exchanges := s.node.exchanges.insert p (.complete false) }))
    have hsame : h.genesis = reply.genesis := by
      obtain ⟨b, rfl⟩ := hreply
      exact hgenesis
    have hserve : ∀ ok ok', (({ (s.standing p).credit (some h.roles) h.bestNumber h.bestHash with
          exchange := some (.complete false) } : Standing).note p
            (.attempt ok p (.handshake reply))).flush p ok' heldBack =
          (s.standing p).serve p reply ok ok' (.hear (.handshake h)) := by
      intro ok ok'
      rw [Standing.serve, Standing.meet, hx]
      exact (if_pos hsame).symm
    obtain ⟨hflush, hothers⟩ := standing_flush p heldBack
      ((((⟨s.node, a, s.world.2⟩ : Site (σ × List Event)).noteHandshake p h).update
        ({ · with exchanges := s.node.exchanges.insert p (.complete false) })).sendHandshake
          w.traced p).2
    rw [hsend, standing_noteHandshake_insert, if_pos rfl] at hflush
    refine ⟨⟨reply, _, _, hreply, hflush.trans (hserve _ _)⟩, fun q hq => ?_⟩
    rw [hothers q hq, hsend, Standing.note_attempt_of_ne hq, standing_noteHandshake_insert,
      if_neg hq]
    rfl
  · rw [if_neg hgenesis]
    refine .silent (fun own hown => ?_) fun q hq => ?_
    · rw [Standing.serve, Standing.meet, hx]
      refine ((standing_insert (s := countInvalid ⟨s.node, a, s.world.2⟩) .rejected).trans
        (if_pos rfl)).trans (if_neg ?_).symm
      rwa [hown]
    · exact (standing_insert (s := countInvalid ⟨s.node, a, s.world.2⟩) .rejected).trans (if_neg hq)

theorem serves_onHandshake (hw : w.Steady genesis) (p : PeerId) (h : Handshake)
    (s : Site (σ × List Event)) :
    s.Serves w genesis p (.hear (.handshake h)) (s.onHandshake w.traced p h).2 := by
  rw [onHandshake]
  split
  · next hx =>
    refine .unchanged fun own => ?_
    rw [Standing.serve, Standing.meet, show (s.standing p).exchange = _ from hx]
    rfl
  · next hx =>
    refine .unchanged fun own => ?_
    rw [Standing.serve, Standing.meet, show (s.standing p).exchange = _ from hx]
    rfl
  · next hx => exact serves_onReply hw h hx
  · next heldBack hx =>
    have hopening : (s.standing p).exchange.getD .untouched = .awaiting false heldBack := by
      rw [show (s.standing p).exchange = _ from hx]
      rfl
    exact serves_onOpening hw h hopening
  · next hx =>
    have hopening : (s.standing p).exchange.getD .untouched = .awaiting false none := by
      rw [show (s.standing p).exchange = _ from hx]
      rfl
    exact serves_onOpening hw h hopening

/-- A request that follows an announcement goes out on another channel. -/
theorem standing_followUp (p : PeerId) (request : Option BlockRequest)
    (s : Site (σ × List Event)) (q : PeerId) :
    (s.followUp w.traced p request).2.standing q = s.standing q := by
  cases request with
  | none => rfl
  | some r =>
      have hconcerns : ∀ ok, (Event.attempt ok p (.request r)).concerns q = false := fun ok => by
        rw [Event.concerns_attempt]
        exact decide_eq_false fun h => nomatch h.2
      rw [followUp, requestBlocks]
      split
      · rfl
      · next requests _ =>
        have hsend := standing_send (w := w) p (.request r) (s.update ({ · with requests })) q
        rw [Standing.note_of_not_concerns (hconcerns _)] at hsend
        split
        · next heq =>
          rw [heq] at hsend
          exact hsend
        · next heq =>
          rw [heq] at hsend
          exact hsend

theorem standing_announced (a : Announce) :
    ({ s with world := (w.traced.announced p a s.world).2 } : Site (σ × List Event)).standing q =
      (s.standing q).note q (.announced p a) := by
  simp [standing, Standing.note, World.traced, Subsystems.traced, List.filter_cons]

theorem serves_onAnnounce (p : PeerId) (a : Announce) (s : Site (σ × List Event)) :
    s.Serves w genesis p (.hear (.announce a)) (s.onAnnounce w.traced p a).2 := by
  rw [onAnnounce]
  split
  · next hx =>
    refine .silent (fun own _ => ?_) fun q hq => ?_
    · rw [standing_followUp, standing_announced, Standing.serve,
        show (s.standing p).exchange = _ from hx]
      have hbest : (if a.isBest then s.update (·.noteReport p none a.number a.headerHash)
          else s).standing p = if a.isBest then (s.standing p).credit none a.number a.headerHash
          else s.standing p := by
        split
        · rw [standing_noteReport, if_pos rfl]
        · rfl
      rw [hbest]
      rfl
    · have hother : (Event.announced p a).concerns q = false := decide_eq_false hq
      rw [standing_followUp, standing_announced, Standing.note_of_not_concerns hother]
      split
      · rw [standing_noteReport, if_neg hq]
      · rfl
  · next hx =>
    refine .unchanged fun own => ?_
    rw [Standing.serve]
    split
    · next hx' => exact absurd hx' (hx _)
    · rfl

theorem serves_handle (hw : w.Steady genesis) (p : PeerId) (m : Message)
    (s : Site (σ × List Event)) :
    s.Serves w genesis p (.hear m) (s.handle w.traced .blockAnnounces p m).2 := by
  cases m with
  | handshake h => exact serves_onHandshake hw p h s
  | announce a => exact serves_onAnnounce p a s
  | request | response | status | transactions => exact .unchanged fun _ => rfl

theorem serves_forget (p : PeerId) (s : Site (σ × List Event)) :
    s.Serves w genesis p .forget (s.update (·.forget .blockAnnounces p)) := by
  refine .silent (fun own _ => ?_) fun q hq => ?_
  · rw [standing_forget, if_pos rfl]
    rfl
  · rw [standing_forget, if_neg hq]

/-- From the one site to the other, something has happened to the standing with a peer, and nothing
to that with any other peer. -/
structure DealsWith (w : World σ) (genesis : Hash) (p : PeerId) (o : Occasion)
    (s s' : Site (σ × List Event)) : Prop where
  turn : Turn w genesis p o (s.standing p) (s'.standing p)
  others : ∀ q, p ≠ q → s'.standing q = s.standing q

theorem Serves.deals {e : Errand} (h : s.Serves w genesis p e s') :
    s.DealsWith w genesis p e.occasion s' := by
  obtain ⟨⟨own, ok, ok', hown, hserve⟩, hothers⟩ := h
  refine ⟨?_, hothers⟩
  rw [hserve]
  exact e.turn p ok ok' hown

theorem deals_onHandshake (hw : w.Steady genesis) (p : PeerId) (h : Handshake)
    (s : Site (σ × List Event)) :
    s.DealsWith w genesis p (.heard (.handshake h)) (s.onHandshake w.traced p h).2 :=
  (serves_onHandshake hw p h s).deals

theorem deals_handle (hw : w.Steady genesis) (p : PeerId) (m : Message)
    (s : Site (σ × List Event)) :
    s.DealsWith w genesis p (.heard m) (s.handle w.traced .blockAnnounces p m).2 :=
  (serves_handle hw p m s).deals

end Site

/-! ## What calls do to it -/

/-- What can be called on a site for the channel of announcements. -/
inductive Call where
  | handle (p : PeerId) (m : Message)
  | announceTo (p : PeerId) (m : Message)
  | announce (m : Message)
  | forget (p : PeerId)
  | reset

namespace Call

/-- The site after a call. -/
def run (w : World σ) (c : Call) (s : Site σ) : Site σ :=
  match c with
  | handle p m => (s.handle w .blockAnnounces p m).2
  | announceTo p m => (s.announceTo w p m).2
  | announce m => s.announce w m
  | forget p => s.update (·.forget .blockAnnounces p)
  | reset => s.update (·.reset .blockAnnounces)

/-- On which account a call may concern a peer. -/
def Gives (p : PeerId) : Call → Occasion → Prop
  | handle q m, o => q = p ∧ o = .heard m
  | announceTo q _, o => q = p ∧ o = .own
  | announce _, o => o = .own
  | forget q, o => q = p ∧ o = .departed
  | reset, o => o = .departed

end Call

/-- The site after calls, one after the other. -/
def Site.after (w : World σ) (calls : List Call) (s : Site σ) : Site σ :=
  calls.foldl (fun s c => c.run w s) s

/-- What can happen to the standing with a peer, bit by bit, on the accounts allowed. -/
def Turns (w : World σ) (genesis : Hash) (p : PeerId) (Allowed : Occasion → Prop) :
    Standing → Standing → Prop :=
  ReflTransGen fun st st' => ∃ o, Allowed o ∧ Turn w genesis p o st st'

theorem Turns.mono {w : World σ} {genesis : Hash} {p : PeerId} {Allowed Allowed' : Occasion → Prop}
    {st st' : Standing} (h : Turns w genesis p Allowed st st')
    (hallowed : ∀ o, Allowed o → Allowed' o) : Turns w genesis p Allowed' st st' :=
  ReflTransGen.mono (fun _ _ ⟨o, ho, hturn⟩ => ⟨o, hallowed o ho, hturn⟩) _ _ h

/-- What no turn breaks holds after any turns. -/
theorem Turns.preserves {w : World σ} {genesis : Hash} {p : PeerId} {Allowed : Occasion → Prop}
    {st st' : Standing} (h : Turns w genesis p Allowed st st') (P : Standing → Prop)
    (hstep : ∀ o st st', Allowed o → Turn w genesis p o st st' → P st → P st') (hstart : P st) :
    P st' := by
  induction h with
  | refl => exact hstart
  | tail _ hturn ih =>
      obtain ⟨o, ho, hturn⟩ := hturn
      exact hstep o _ _ ho hturn ih

namespace Site

variable {w : World σ} {p q : PeerId} {genesis : Hash} {s s' : Site (σ × List Event)}

theorem DealsWith.turns {o : Occasion} {Allowed : Occasion → Prop}
    (h : s.DealsWith w genesis q o s') (hallowed : q = p → Allowed o) :
    Turns w genesis p Allowed (s.standing p) (s'.standing p) := by
  by_cases hq : q = p
  · subst hq
    exact .single ⟨o, hallowed rfl, h.turn⟩
  · rw [h.others p hq]
    exact .refl

/-- A call does to the standing with a peer what can happen on its account. -/
theorem turns_run (hw : w.Steady genesis) (c : Call) (p : PeerId) (s : Site (σ × List Event)) :
    Turns w genesis p (c.Gives p) (s.standing p) ((c.run w.traced s).standing p) := by
  cases c with
  | handle q m => exact (deals_handle hw q m s).turns fun hq => ⟨hq, rfl⟩
  | announceTo q m => exact (serves_announceTo hw q m s).deals.turns fun hq => ⟨hq, rfl⟩
  | announce m =>
      have hfold : ∀ (peers : List PeerId) (s : Site (σ × List Event)),
          Turns w genesis p (Call.Gives p (.announce m)) (s.standing p)
            ((peers.foldl (fun s q => (s.announceTo w.traced q m).2) s).standing p) := by
        intro peers
        induction peers with
        | nil => exact fun s => .refl
        | cons q peers ih =>
            intro s
            have hfirst : Turns w genesis p (Call.Gives p (.announce m)) (s.standing p) _ :=
              (serves_announceTo hw q m s).deals.turns fun _ => rfl
            exact ReflTransGen.trans hfirst (ih _)
      exact hfold _ s
  | forget q => exact (serves_forget q s).deals.turns fun hq => ⟨hq, rfl⟩
  | reset =>
      have hreset : (Call.reset.run w.traced s).standing p =
          { s.standing p with exchange := none } := by
        simp [Call.run, standing, update, Node.reset, ExchangeTable.clear]
      rw [hreset]
      exact .single ⟨.departed, rfl, .forgotten _⟩

theorem after_cons (w : World σ) (c : Call) (calls : List Call) (s : Site σ) :
    s.after w (c :: calls) = (c.run w s).after w calls := rfl

theorem after_append (w : World σ) (calls calls' : List Call) (s : Site σ) :
    s.after w (calls ++ calls') = (s.after w calls).after w calls' :=
  List.foldl_append

/-- Calls do to the standing with a peer what can happen on the accounts that they give. -/
theorem turns_after (hw : w.Steady genesis) (calls : List Call) (p : PeerId)
    (s : Site (σ × List Event)) :
    Turns w genesis p (fun o => ∃ c ∈ calls, c.Gives p o) (s.standing p)
      ((s.after w.traced calls).standing p) := by
  induction calls generalizing s with
  | nil => exact .refl
  | cons c calls ih =>
      have hfirst : Turns w genesis p (fun o => ∃ c' ∈ c :: calls, c'.Gives p o) (s.standing p)
          ((c.run w.traced s).standing p) :=
        (turns_run hw c p s).mono fun o ho => ⟨c, List.mem_cons_self, ho⟩
      have hrest : Turns w genesis p (fun o => ∃ c' ∈ c :: calls, c'.Gives p o)
          ((c.run w.traced s).standing p) (((c.run w.traced s).after w.traced calls).standing p) :=
        (ih _).mono fun o ⟨c', hc', ho⟩ => ⟨c', List.mem_cons_of_mem c hc', ho⟩
      exact ReflTransGen.trans hfirst hrest

end Site

end ChainPeer
