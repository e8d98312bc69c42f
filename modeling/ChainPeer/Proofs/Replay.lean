import ChainPeer.Proofs.Gate

/-!
# One peer at a time

What a node has to do with a peer on the channel of announcements follows from what it is asked to do
for this peer and from which of its messages to this peer arrive: the errands for a peer can be done
again without any site, and lead to the same exchange and the same payloads. So peers do not
influence each other's exchanges.
-/

namespace ChainPeer

/-- The payload that a call to the world passed to the transport for a peer on a channel, and whether
it was sent. -/
def Event.passedTo? (p : PeerId) (c : Channel) : Event → Option (Bytes × Bool)
  | .sent peer channel payload => if peer = p ∧ channel = c then some (payload, true) else none
  | .notSent peer channel payload => if peer = p ∧ channel = c then some (payload, false) else none
  | _ => none

theorem Event.passedTo?_of_not_concerns {p : PeerId} {e : Event} (h : e.concerns p = false) :
    e.passedTo? p .blockAnnounces = none := by
  cases e with
  | sent | notSent => exact if_neg (of_decide_eq_false h)
  | _ => rfl

/-- The payload of a message on the channel of announcements. -/
def Message.bare (m : Message) : List Bytes :=
  if m.channel = .blockAnnounces then [m.payload] else []

/-! ## Doing errands again -/

namespace Errand

variable (own : Handshake) (x : Option Exchange)

/-- The messages that are sent to a peer for an errand, by the exchange with the peer and by the
handshake that the node has to give. -/
def messages : Errand → List Message
  | tell m =>
    match x with
    | none => [.handshake own]
    | some (.complete _) => [m]
    | some (.awaiting ..) | some .rejected => []
  | hear (.handshake h) =>
    match x.getD .untouched with
    | .rejected | .complete _ => []
    | .awaiting true heldBack => if h.genesis = own.genesis then heldBack.toList else []
    | .awaiting false heldBack =>
      if h.genesis = own.genesis then .handshake own :: heldBack.toList else []
  | hear _ | forget => []

/-- The exchange with the peer after an errand. It depends on whether the first message is sent only
if the node opens the exchange. -/
def next (ok : Bool) : Errand → Option Exchange
  | tell m =>
    match x with
    | none => if ok then some (.opened (some m)) else none
    | some (.awaiting initiator _) => some (.awaiting initiator (some m))
    | some .rejected | some (.complete _) => x
  | hear (.handshake h) =>
    match x.getD .untouched with
    | .rejected | .complete _ => x
    | .awaiting true _ => if h.genesis = own.genesis then some (.complete true) else none
    | .awaiting false _ =>
      if h.genesis = own.genesis then some (.complete false) else some .rejected
  | hear _ => x
  | forget => none

/-- Does errands for a peer, by which of the payloads are sent, in their order. -/
def replay : List Errand → List Bool → Option Exchange → Option Exchange × List Bytes
  | [], _, x => (x, [])
  | e :: errands, oks, x =>
    let payloads := (e.messages own x).flatMap Message.bare
    let (x', later) := replay errands (oks.drop payloads.length) (e.next own x (oks.headD true))
    (x', payloads ++ later)

variable {own x} {errands : List Errand} {y y' : Option Exchange} {new new' : List (Bytes × Bool)}

/-- Once all payloads have an outcome, further outcomes make no difference. -/
theorem replay_eq_of_sent
    (h : ∀ oks, replay own errands (new.map Prod.snd ++ oks) x = (y, new.map Prod.fst))
    (h' : ∀ oks, replay own errands (new'.map Prod.snd ++ oks) x = (y', new'.map Prod.fst))
    (hsent : new.map Prod.snd <+: new'.map Prod.snd) :
    y = y' ∧ new.map Prod.fst = new'.map Prod.fst := by
  obtain ⟨oks, hoks⟩ := hsent
  have hlonger := h oks
  have hself := h' []
  rw [hoks] at hlonger
  rw [List.append_nil] at hself
  exact Prod.mk.inj (hlonger.symm.trans hself)

end Errand

namespace Standing

/-- The payloads passed to the transport for a peer, the oldest first, and which of them were
sent. -/
def passed (p : PeerId) (st : Standing) : List (Bytes × Bool) :=
  st.dealings.reverse.filterMap (Event.passedTo? p .blockAnnounces)

variable {p : PeerId} {own : Handshake} {st : Standing}

theorem passed_note (p : PeerId) (e : Event) (st : Standing) :
    (st.note p e).passed p = st.passed p ++ (e.passedTo? p .blockAnnounces).toList := by
  cases he : e.concerns p with
  | true =>
      simp only [passed, note, he, if_true, List.reverse_cons, List.filterMap_append]
      cases hpassed : e.passedTo? p .blockAnnounces <;> simp [hpassed]
  | false => simp [passed, note, he, Event.passedTo?_of_not_concerns he]

theorem passed_note_attempt (p : PeerId) (ok : Bool) (m : Message) (st : Standing) :
    (st.note p (.attempt ok p m)).passed p = st.passed p ++ m.bare.map (·, ok) := by
  rw [passed_note]
  cases ok <;> by_cases hm : m.channel = .blockAnnounces <;>
    simp [Event.attempt, Event.passedTo?, Message.bare, hm]

theorem passed_flush (p : PeerId) (ok : Bool) (heldBack : Option Message) (st : Standing) :
    (st.flush p ok heldBack).passed p =
      st.passed p ++ (heldBack.toList.flatMap Message.bare).map (·, ok) := by
  cases heldBack with
  | none => simp [flush]
  | some m => simp [flush, passed_note_attempt]

theorem exchange_flush (p : PeerId) (ok : Bool) (heldBack : Option Message) (st : Standing) :
    (st.flush p ok heldBack).exchange = st.exchange := by
  cases heldBack <;> rfl

theorem passed_credit (p : PeerId) (roles : Option Roles) (number : BlockNumber) (hash : Hash)
    (x : Option Exchange) (st : Standing) :
    ({ st.credit roles number hash with exchange := x } : Standing).passed p = st.passed p := rfl

theorem passed_hear (p : PeerId) (a : Announce) (st : Standing) :
    (st.hear p a).passed p = st.passed p := by
  rw [hear, passed_note]
  split <;> exact List.append_nil _

theorem exchange_hear (p : PeerId) (a : Announce) (st : Standing) :
    (st.hear p a).exchange = st.exchange := by
  rw [hear]
  split <;> rfl

/-- An errand passes the payloads and leads to the exchange that doing it again gives. -/
structure Repeats (p : PeerId) (own : Handshake) (e : Errand) (st st' : Standing)
    (new : List (Bytes × Bool)) : Prop where
  passed : st'.passed p = st.passed p ++ new
  payloads : new.map Prod.fst = (e.messages own st.exchange).flatMap Message.bare
  exchange : ∀ oks, st'.exchange = e.next own st.exchange ((new.map Prod.snd ++ oks).headD true)

/-- No message is sent. -/
theorem Repeats.silent {e : Errand} {st' : Standing} (hpassed : st'.passed p = st.passed p)
    (hmessages : e.messages own st.exchange = [])
    (hexchange : ∀ ok, st'.exchange = e.next own st.exchange ok) :
    st.Repeats p own e st' [] :=
  ⟨by rw [hpassed, List.append_nil], by rw [hmessages]; rfl, fun _ => hexchange _⟩

theorem map_fst_pair (ok : Bool) (payloads : List Bytes) :
    (payloads.map (·, ok)).map Prod.fst = payloads := by
  rw [List.map_map]
  exact List.map_id payloads

theorem exists_repeats_tell (p : PeerId) (own : Handshake) (ok : Bool) (m : Message)
    (st : Standing) : ∃ new, st.Repeats p own (.tell m) (st.tell p own ok m) new := by
  rw [tell]
  cases hx : st.exchange with
  | none =>
      refine ⟨(Message.handshake own).bare.map (·, ok), ?_, ?_, fun oks => ?_⟩
      · cases ok
        · exact passed_note_attempt p false _ st
        · exact passed_note_attempt p true _ _
      · rw [map_fst_pair, hx, Errand.messages, List.flatMap_singleton]
      · rw [hx, Errand.next]
        cases ok
        · exact hx
        · rfl
  | some x =>
      cases x with
      | awaiting initiator heldBack =>
          refine ⟨[], .silent rfl ?_ fun _ => ?_⟩
          · rw [hx, Errand.messages]
          · rw [hx, Errand.next]
      | rejected =>
          refine ⟨[], .silent rfl ?_ fun _ => ?_⟩
          · rw [hx, Errand.messages]
          · rw [hx, Errand.next]
      | complete initiator =>
          refine ⟨m.bare.map (·, ok), passed_note_attempt p ok m st, ?_, fun oks => ?_⟩
          · rw [map_fst_pair, hx, Errand.messages, List.flatMap_singleton]
          · rw [hx, Errand.next]
            exact hx

theorem exists_repeats_meet (p : PeerId) (own : Handshake) (ok ok' : Bool) (h : Handshake)
    (st : Standing) :
    ∃ new, st.Repeats p own (.hear (.handshake h)) (st.meet p own ok ok' h) new := by
  rw [meet]
  cases hx : st.exchange.getD .untouched with
  | rejected | complete =>
      refine ⟨[], .silent rfl ?_ fun _ => ?_⟩
      · rw [Errand.messages, hx]
      · rw [Errand.next, hx]
  | awaiting initiator heldBack =>
      by_cases hgenesis : h.genesis = own.genesis
      · cases initiator with
        | true =>
            dsimp only
            rw [if_pos hgenesis]
            refine ⟨(heldBack.toList.flatMap Message.bare).map (·, ok), ?_, ?_, fun oks => ?_⟩
            · rw [passed_flush, passed_credit]
            · rw [map_fst_pair, Errand.messages, hx]
              dsimp only
              rw [if_pos hgenesis]
            · rw [exchange_flush, Errand.next, hx]
              exact (if_pos hgenesis).symm
        | false =>
            dsimp only
            rw [if_pos hgenesis]
            refine ⟨(Message.handshake own).bare.map (·, ok) ++
              (heldBack.toList.flatMap Message.bare).map (·, ok'), ?_, ?_, fun oks => ?_⟩
            · rw [passed_flush, passed_note_attempt, passed_credit, List.append_assoc]
            · rw [List.map_append, map_fst_pair, map_fst_pair, Errand.messages, hx]
              dsimp only
              rw [if_pos hgenesis, List.flatMap_cons]
            · rw [exchange_flush, Errand.next, hx]
              exact (if_pos hgenesis).symm
      · cases initiator with
        | true | false =>
            dsimp only
            rw [if_neg hgenesis]
            refine ⟨[], .silent rfl ?_ fun _ => ?_⟩
            · rw [Errand.messages, hx]
              exact if_neg hgenesis
            · rw [Errand.next, hx]
              exact (if_neg hgenesis).symm

theorem exists_repeats (p : PeerId) (own : Handshake) (ok ok' : Bool) (e : Errand)
    (st : Standing) : ∃ new, st.Repeats p own e (st.serve p own ok ok' e) new := by
  cases e with
  | forget => exact ⟨[], .silent rfl rfl fun _ => rfl⟩
  | tell m => exact exists_repeats_tell p own ok m st
  | hear m =>
      cases m with
      | handshake h => exact exists_repeats_meet p own ok ok' h st
      | request | response | status | transactions => exact ⟨[], .silent rfl rfl fun _ => rfl⟩
      | announce a =>
          refine ⟨[], .silent ?_ rfl fun _ => ?_⟩
          · rw [serve]
            split
            · exact passed_hear p a st
            · rfl
          · rw [serve]
            split
            · exact exchange_hear p a st
            · rfl

/-- The errands were done, one after the other. -/
inductive Served {σ : Type} (w : World σ) (genesis : Hash) (p : PeerId) :
    List Errand → Standing → Standing → Prop where
  | done (st : Standing) : Served w genesis p [] st st
  | next {e : Errand} {errands : List Errand} {st st' : Standing} {own : Handshake}
      (ok ok' : Bool) (hown : w.Greets st.config genesis own)
      (hrest : Served w genesis p errands (st.serve p own ok ok' e) st') :
      Served w genesis p (e :: errands) st st'

variable {σ : Type} {w : World σ} {genesis : Hash} {errands errands' : List Errand}
  {st' st'' : Standing}

theorem Served.append (h : Served w genesis p errands st st')
    (h' : Served w genesis p errands' st' st'') :
    Served w genesis p (errands ++ errands') st st'' := by
  induction h with
  | done st => exact h'
  | next ok ok' hown hrest ih => exact .next ok ok' hown (ih h')

theorem config_flush (p : PeerId) (ok : Bool) (heldBack : Option Message) (st : Standing) :
    (st.flush p ok heldBack).config = st.config := by
  cases heldBack <;> rfl

theorem config_serve (p : PeerId) (own : Handshake) (ok ok' : Bool) (e : Errand) (st : Standing) :
    (st.serve p own ok ok' e).config = st.config := by
  cases e with
  | forget => rfl
  | tell m =>
      rw [serve, tell]
      split
      · split <;> rfl
      · rfl
      · rfl
      · rfl
  | hear m =>
      cases m with
      | request | response | status | transactions => rfl
      | announce a =>
          rw [serve]
          split
          · rw [hear]
            split <;> rfl
          · rfl
      | handshake h =>
          rw [serve, meet]
          split
          · rfl
          · rfl
          · split
            · exact config_flush p ok _ _
            · rfl
          · split
            · exact config_flush p ok' _ _
            · rfl

end Standing

/-- The genesis block and the head of the chain are always the same, and nobody departs while the
genesis block is looked up. -/
structure World.Constant {σ : Type} (w : World σ) (head : BlockNumber × Hash) (genesis : Hash) :
    Prop where
  steady : w.Steady genesis
  head_eq : ∀ a, w.head a = head

namespace Standing

variable {σ : Type} {w : World σ} {head : BlockNumber × Hash} {genesis : Hash} {p : PeerId}
  {errands : List Errand} {st st' : Standing}

/-- Doing errands again gives what they did. The outcomes of further sending make no difference. -/
theorem Served.replay (hw : w.Constant head genesis) (h : Served w genesis p errands st st') :
    ∃ new, st'.passed p = st.passed p ++ new ∧
      ∀ oks, Errand.replay ⟨st.config.roles, head.1, head.2, genesis⟩ errands
        (new.map Prod.snd ++ oks) st.exchange = (st'.exchange, new.map Prod.fst) := by
  induction h with
  | done st => exact ⟨[], (List.append_nil _).symm, fun oks => rfl⟩
  | @next e errands st st' own ok ok' hown hrest ih =>
      obtain ⟨later, hlater, hreplay⟩ := ih
      obtain ⟨new, hrepeats⟩ := st.exists_repeats p own ok ok' e
      obtain rfl : own = ⟨st.config.roles, head.1, head.2, genesis⟩ := by
        obtain ⟨a, rfl⟩ := hown
        rw [hw.head_eq]
      rw [config_serve] at hreplay
      refine ⟨new ++ later, ?_, fun oks => ?_⟩
      · rw [hlater, hrepeats.passed, List.append_assoc]
      · have hlength : (new.map Prod.snd).length =
            ((e.messages ⟨st.config.roles, head.1, head.2, genesis⟩ st.exchange).flatMap
              Message.bare).length := by
          rw [← hrepeats.payloads, List.length_map, List.length_map]
        rw [List.map_append, List.append_assoc, Errand.replay, ← hlength, List.drop_left,
          ← hrepeats.exchange, hreplay oks, ← hrepeats.payloads, List.map_append]

end Standing

/-! ## Runs -/

namespace Call

/-- Whether a call concerns a peer, by the peers that are connected when it is made. -/
def Concerns (p : PeerId) (connected : List PeerId) : Call → Bool
  | handle q _ | announceTo q _ | forget q => q = p
  | announce _ => p ∈ connected
  | reset => true

/-- The errand that a call gives for the peers that it concerns. -/
def errand : Call → Errand
  | handle _ m => .hear m
  | announceTo _ m | announce m => .tell m
  | forget _ | reset => .forget

end Call

namespace Site

variable {σ τ : Type} {w : World σ} {w' : World τ} {head : BlockNumber × Hash} {genesis : Hash}
  {p q : PeerId} {e : Errand} {s s' : Site (σ × List Event)}

/-- The payloads that were passed to the transport for a peer on the channel of announcements, the
oldest first, and which of them were sent. -/
def passed (p : PeerId) (s : Site (σ × List Event)) : List (Bytes × Bool) :=
  s.world.2.reverse.filterMap (Event.passedTo? p .blockAnnounces)

/-- Those of the calls that concern a peer when they are made one after the other. -/
def concerning (w : World σ) (p : PeerId) : List Call → Site σ → List Call
  | [], _ => []
  | c :: calls, s =>
    if c.Concerns p (w.connected s.world) then c :: (c.run w s).concerning w p calls
    else (c.run w s).concerning w p calls

theorem passed_standing (p : PeerId) (s : Site (σ × List Event)) :
    (s.standing p).passed p = s.passed p := by
  rw [Standing.passed, passed, standing, ← List.filter_reverse, List.filterMap_filter]
  congr 1
  funext e
  cases he : e.concerns p with
  | true => rfl
  | false => exact (Event.passedTo?_of_not_concerns he).symm

theorem Serves.served_errand (h : s.Serves w genesis q e s') (p : PeerId) :
    (s.standing p).Served w genesis p (if q = p then [e] else []) (s'.standing p) := by
  by_cases hq : q = p
  · subst hq
    obtain ⟨⟨own, ok, ok', hown, hserve⟩, -⟩ := h
    rw [if_pos rfl, hserve]
    exact .next ok ok' hown (.done _)
  · rw [if_neg hq, h.others p hq]
    exact .done _

/-- A message that is announced to peers, none of them named twice, is an errand for each of them. -/
theorem served_announce (hw : w.Steady genesis) (m : Message) (p : PeerId) {peers : List PeerId}
    (hpeers : peers.Nodup) (s : Site (σ × List Event)) :
    (s.standing p).Served w genesis p (if p ∈ peers then [.tell m] else [])
      ((peers.foldl (fun s q => (s.announceTo w.traced q m).2) s).standing p) := by
  induction peers generalizing s with
  | nil => exact .done _
  | cons q peers ih =>
      obtain ⟨hq, hpeers⟩ := List.nodup_cons.1 hpeers
      have hserved := ((serves_announceTo hw q m s).served_errand p).append (ih hpeers _)
      by_cases hqp : q = p
      · subst hqp
        rw [if_pos rfl, if_neg hq, List.append_nil] at hserved
        rw [if_pos List.mem_cons_self]
        exact hserved
      · rw [if_neg hqp, List.nil_append] at hserved
        have hmem : p ∈ q :: peers ↔ p ∈ peers :=
          List.mem_cons.trans (or_iff_right (Ne.symm hqp))
        simp only [hmem]
        exact hserved

theorem served_run (hw : w.Steady genesis) (hlists : ∀ a, (w.connected a).Nodup) (c : Call)
    (p : PeerId) (s : Site (σ × List Event)) :
    (s.standing p).Served w genesis p
      (if c.Concerns p (w.connected s.world.1) then [c.errand] else [])
      ((c.run w.traced s).standing p) := by
  cases c with
  | handle q m =>
      simp only [Call.Concerns, decide_eq_true_eq]
      exact (serves_handle hw q m s).served_errand p
  | announceTo q m =>
      simp only [Call.Concerns, decide_eq_true_eq]
      exact (serves_announceTo hw q m s).served_errand p
  | announce m =>
      simp only [Call.Concerns, decide_eq_true_eq]
      exact served_announce hw m p (hlists s.world.1) s
  | forget q =>
      simp only [Call.Concerns, decide_eq_true_eq]
      exact (serves_forget q s).served_errand p
  | reset =>
      have hreset : (Call.reset.run w.traced s).standing p =
          { s.standing p with exchange := none } := by
        simp [Call.run, standing, update, Node.reset, ExchangeTable.clear]
      rw [hreset]
      exact .next true true (greets_current w genesis s) (.done _)

theorem served_after (hw : w.Steady genesis) (hlists : ∀ a, (w.connected a).Nodup)
    (calls : List Call) (p : PeerId) (s : Site (σ × List Event)) :
    (s.standing p).Served w genesis p ((s.concerning w.traced p calls).map Call.errand)
      ((s.after w.traced calls).standing p) := by
  induction calls generalizing s with
  | nil => exact .done _
  | cons c calls ih =>
      have hserved := (served_run hw hlists c p s).append (ih (c.run w.traced s))
      have hconcerning : (s.concerning w.traced p (c :: calls)).map Call.errand =
          (if c.Concerns p (w.connected s.world.1) then [c.errand] else []) ++
            ((c.run w.traced s).concerning w.traced p calls).map Call.errand := by
        rw [concerning, show w.traced.connected s.world = w.connected s.world.1 from rfl]
        cases c.Concerns p (w.connected s.world.1) <;> rfl
      rw [hconcerning]
      exact hserved

/-- Two nodes with the same settings and the same, constant view of the chain, whose transports list
nobody twice, stand the same with a peer. Whatever is then called on them, and however their worlds
differ: if those of the calls that concern the peer are the same, and the payloads passed to the
transport for the peer are sent or not in the same order, as far as both have any, then both nodes
have passed the same payloads for the peer, and the exchange with it is the same. -/
theorem passed_eq_of_concerning_eq (hw : w.Constant head genesis) (hw' : w'.Constant head genesis)
    (hlists : ∀ a, (w.connected a).Nodup) (hlists' : ∀ a, (w'.connected a).Nodup)
    {s : Site (σ × List Event)} {s' : Site (τ × List Event)}
    (hconfig : s.node.config = s'.node.config)
    (hexchange : s.node.exchanges.get? p = s'.node.exchanges.get? p)
    (hpassed : s.passed p = s'.passed p) {calls calls' : List Call}
    (hcalls : s.concerning w.traced p calls = s'.concerning w'.traced p calls')
    (hsent : ((s.after w.traced calls).passed p).map Prod.snd <+:
        ((s'.after w'.traced calls').passed p).map Prod.snd ∨
      ((s'.after w'.traced calls').passed p).map Prod.snd <+:
        ((s.after w.traced calls).passed p).map Prod.snd) :
    (s.after w.traced calls).node.exchanges.get? p =
        (s'.after w'.traced calls').node.exchanges.get? p ∧
      ((s.after w.traced calls).passed p).map Prod.fst =
        ((s'.after w'.traced calls').passed p).map Prod.fst := by
  obtain ⟨new, hnew, hreplay⟩ := (served_after hw.steady hlists calls p s).replay hw
  obtain ⟨new', hnew', hreplay'⟩ := (served_after hw'.steady hlists' calls' p s').replay hw'
  simp only [passed_standing] at hnew hnew'
  have hconfig' : (s'.standing p).config = (s.standing p).config := hconfig.symm
  have hexchange' : (s'.standing p).exchange = (s.standing p).exchange := hexchange.symm
  rw [hconfig', hexchange', ← hcalls] at hreplay'
  rw [hnew, hnew', ← hpassed] at hsent ⊢
  simp only [List.map_append, List.prefix_append_right_inj, List.append_right_inj] at hsent ⊢
  obtain hsent | hsent := hsent
  · exact Errand.replay_eq_of_sent hreplay hreplay' hsent
  · obtain ⟨hend, hpayloads⟩ := Errand.replay_eq_of_sent hreplay' hreplay hsent
    exact ⟨hend.symm, hpayloads.symm⟩

/-- Somebody else than the guest, to whom nothing can be sent. -/
def bystander : PeerId := ⟨.identity, [3]⟩

def bystanderWorld : World Unit :=
  { World.idle .zero with
    connected := fun _ => [bystander, guest]
    send := fun p _ _ _ => (if p = bystander then .error .closed else .ok (), ()) }

def guestCalls : List Call :=
  [.announceTo guest (.announce guestBlock), .handle guest (.handshake (guestGreeting .zero))]

def guestAndBystanderCalls : List Call :=
  [.handle bystander (.handshake (guestGreeting .zero)), .announceTo guest (.announce guestBlock),
    .announceTo bystander (.announce guestBlock), .forget bystander,
    .handle guest (.handshake (guestGreeting .zero))]

/-- The guest gets the same two payloads, whether or not somebody else is there. -/
theorem passed_eq_of_bystander :
    let s : Site (Unit × List Event) := ⟨.new .default, (), []⟩
    let t := after bystanderWorld.traced guestAndBystanderCalls s
    ((after (World.idle .zero).traced guestCalls s).passed guest).map Prod.fst =
        (t.passed guest).map Prod.fst ∧
      (t.passed guest).length = 2 := by
  intro s t
  have hidle : (World.idle .zero).Constant (0, .zero) .zero := ⟨fun _ => rfl, fun _ => rfl⟩
  have hbystander : bystanderWorld.Constant (0, .zero) .zero := ⟨fun _ => rfl, fun _ => rfl⟩
  have hlists : [bystander, guest].Nodup := by decide
  have hcalls : s.concerning (World.idle .zero).traced guest guestCalls =
      s.concerning bystanderWorld.traced guest guestAndBystanderCalls := rfl
  have hpasses := passed_eq_of_concerning_eq hidle hbystander (fun _ => List.nodup_nil)
    (fun _ => hlists) rfl rfl rfl hcalls (.inl (by decide +kernel))
  exact ⟨hpasses.2, by decide +kernel⟩

end Site

end ChainPeer
