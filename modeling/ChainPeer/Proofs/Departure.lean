import ChainPeer.Proofs.Facts
import ChainPeer.Proofs.FollowUp
import ChainPeer.Proofs.Lifecycle

/-!
# What is left of a peer that departs

A service keeps what concerns one peer in three places: the roster, the exchanges of handshakes and
the outstanding requests. When the peer departs it is taken out of each of them, and nobody else is.
So with a peer that comes back the exchange of handshakes begins anew, and what the peer was asked
for can be asked for again.
-/

namespace ChainPeer

variable {σ : Type}

/-- The peer that sends something on the channel of announcements, if that is what happens. -/
def Act.greeter? : Act → Option PeerId
  | frame c p (.ok (some _)) => c.greeter? p
  | _ => none

theorem Act.greeter?_eq_some {a : Act} {p : PeerId} (h : a.greeter? = some p) :
    ∃ payload, a = frame .blockAnnounces p (.ok (some payload)) := by
  unfold greeter? at h
  split at h
  · next c q payload =>
    cases c with
    | blockAnnounces =>
        cases h
        exact ⟨payload, rfl⟩
    | sync | legacy => cases h
  · cases h

namespace Move

/-- Whether a move is one of the service's own. -/
def isOwn : Move σ → Bool
  | change _ => false
  | start | stop | act _ => true

/-- The peer that sends something on the channel of announcements in a move. -/
def greeter? : Move σ → Option PeerId
  | act a => a.greeter?
  | start | stop | change _ => none

theorem greeter?_eq_some {m : Move σ} {p : PeerId} (h : m.greeter? = some p) :
    ∃ payload, m = act (.frame .blockAnnounces p (.ok (some payload))) := by
  cases m with
  | act a =>
      obtain ⟨payload, rfl⟩ := Act.greeter?_eq_some h
      exact ⟨payload, rfl⟩
  | start | stop | change => cases h

end Move

/-- However the sending ends, a broadcast is added to what the world was called for. -/
theorem World.exists_broadcast (w : World σ) (c : Channel) (payload : Bytes)
    (a : σ × List Event) :
    ∃ events, (w.traced.toTransport.broadcast c payload a).2 = events ++ a.2 := by
  have hsend : ∀ (p : PeerId) (a : σ × List Event),
      ∃ e, (w.traced.send p c payload a).2.2 = e :: a.2 := by
    intro p a
    cases hresult : w.send p c payload a.1 with
    | mk result b =>
        cases result with
        | ok => exact ⟨.sent p c payload, by simp only [World.traced, Transport.traced, hresult]⟩
        | error e =>
            exact ⟨.notSent p c payload, by simp only [World.traced, Transport.traced, hresult]⟩
  rw [Transport.broadcast]
  generalize w.traced.connected a = peers
  induction peers generalizing a with
  | nil => exact ⟨[], rfl⟩
  | cons p peers ih =>
      obtain ⟨e, he⟩ := hsend p a
      obtain ⟨events, hevents⟩ := ih (w.traced.send p c payload a).2
      refine ⟨events ++ [e], ?_⟩
      rw [List.foldl_cons, hevents, he, List.append_assoc]
      rfl

namespace Service

/-- The peer that is asked for blocks in a move, and the request, even if nothing is sent because
the request is outstanding. -/
def asks (w : World σ) (s : Service σ) : Move σ → Option (PeerId × BlockRequest)
  | .act (.request p r) => some (p, r)
  | .act (.frame c p frame) => s.site.asksInFrame w c p frame
  | _ => none

/-- Who is asked for blocks in moves, and for which, the oldest first. -/
def asked (w : World σ) : List (Move σ) → Service σ → List (PeerId × BlockRequest)
  | [], _ => []
  | m :: moves, s => (s.asks w m).toList ++ asked w moves (s.move w m)

/-! ## What moves do to the exchanges and the requests -/

variable {w : World σ} {greeter : Option PeerId} {p : PeerId} {s : Service (σ × List Event)}

theorem proceeds_onConnection (e : ConnectionEvent) (s : Service (σ × List Event)) :
    s.site.Proceeds greeter none (s.onConnection e).site := by
  cases e with
  | established q address =>
      rw [onConnection]
      split
      · exact .refl s.site
      · exact .same rfl rfl rfl rfl
  | closed q =>
      refine .silent (fun p _ => ?_) (fun id hfree => ?_) rfl rfl
      · exact (ExchangeTable.erase_within _ q).expectsHandshake
      · have hleft : (s.onConnection (.closed q)).site.node.requests =
            (s.site.node.requests.removePeer q).2 := rfl
        rw [Outstanding.has_eq_false_iff] at hfree ⊢
        rw [hleft, Outstanding.get?_removePeer, hfree]
        rfl

theorem proceeds_onConnections (events : List ConnectionEvent) (s : Service (σ × List Event)) :
    s.site.Proceeds greeter none (events.foldl (fun s e => s.onConnection e) s).site := by
  induction events generalizing s with
  | nil => exact .refl s.site
  | cons e events ih => exact (proceeds_onConnection e s).trans (ih _)

theorem proceeds_attached (s : Service (σ × List Event)) :
    s.site.Proceeds greeter none (s.attached w.traced).site := by
  have hpeers : ∀ (peers : List PeerId) (n : Node),
      ∃ roster, peers.foldl (fun n p => { n with roster := (n.roster.insert p).2 }) n =
        { n with roster } := by
    intro peers
    induction peers with
    | nil => exact fun n => ⟨_, rfl⟩
    | cons p peers ih => exact fun n => ih _
  let world := w.traced.watch
    (Channel.all.foldl (fun world c => w.traced.accept c world) s.site.world)
  have hcalled : s.site.Proceeds greeter none ⟨s.site.node, world⟩ := by
    have haccepted : ∀ (c : Channel) (s : Site (σ × List Event)),
        s.Proceeds greeter none { s with world := w.traced.accept c s.world } := fun c s =>
      .called (e := .accepting c) rfl rfl rfl
    have hwatched : ∀ s : Site (σ × List Event),
        s.Proceeds greeter none { s with world := w.traced.watch s.world } := fun s =>
      .called (e := .watching) rfl rfl rfl
    exact (((haccepted _ _).trans (haccepted _ _)).trans (haccepted _ _)).trans (hwatched _)
  obtain ⟨roster, hroster⟩ := hpeers (w.traced.connected world) s.site.node
  have hattached : (s.attached w.traced).site =
      ⟨({ s.site.node with roster } : Node).countPeers, world⟩ := by
    rw [← hroster]
    rfl
  rw [hattached]
  exact hcalled.trans (.same rfl rfl rfl rfl)

theorem proceeds_dial (s : Service (σ × List Event)) :
    s.site.Proceeds greeter none (s.act w.traced .dial).site :=
  .called (e := .bootstrapped) rfl rfl rfl

theorem proceeds_refresh (s : Service (σ × List Event)) :
    s.site.Proceeds greeter none (s.refresh w.traced).site :=
  .same rfl rfl rfl rfl

theorem proceeds_start (s : Service (σ × List Event)) :
    s.site.Proceeds greeter none (s.start w.traced).2.site := by
  by_cases hidle : s.stage = .idle
  · have hattached : s.site.Proceeds greeter none (s.attached w.traced).site :=
      proceeds_attached s
    rw [start_eq hidle, launch]
    split
    · exact hattached.trans (proceeds_refresh _)
    · rw [after, List.foldl_cons, List.foldl_append, List.foldl_map]
      exact ((hattached.trans (proceeds_dial _)).trans (proceeds_onConnections _ _)).trans
        (proceeds_refresh _)
  · rw [start_of_ne_idle hidle]
    exact .refl s.site

theorem proceeds_stop (s : Service (σ × List Event)) :
    s.site.Proceeds greeter none (s.stop w.traced).2.site := by
  by_cases hrunning : s.stage = .running
  · let closed : Service (σ × List Event) :=
      { s with stage := .stopped, site := ⟨s.site.node, (w.traced.close s.site.world).2⟩ }
    have hclosed : s.site.Proceeds greeter none closed.site :=
      .called (e := .closed) rfl rfl rfl
    have hreset : ∀ s : Site (σ × List Event), s.Proceeds greeter none (s.update fun n =>
        { Channel.all.foldl Node.reset n with roster := .empty }.countPeers) := by
      refine fun s => .silent (fun p _ _ => ?_) (fun id _ => Outstanding.has_empty id) rfl rfl
      have hnone : s.node.exchanges.clear.get? p = none := ExchangeTable.get?_empty _ p
      rw [ExchangeTable.expectsHandshake]
      exact hnone ▸ rfl
    rw [stop, if_neg (not_not_intro hrunning)]
    exact (hclosed.trans (proceeds_onConnections _ closed)).trans (hreset _)
  · rw [stop_of_ne_running hrunning]
    exact .refl s.site

/-- Whatever happens to a service but that it broadcasts a status, at most the peer that sends
something or the one that the service is told to ask is asked for blocks. -/
theorem proceeds_act {a : Act} (ha : ∀ m, a ≠ .publish (.status m))
    (s : Service (σ × List Event)) :
    s.site.Proceeds a.greeter? (s.asks w.traced (.act a))
      (s.act w.traced a).site := by
  let b : Bounds := .loose none
  have hheld : s.site.node.exchanges.Holds b.held := Bounds.holds_loose none _
  cases a with
  | connection e => exact proceeds_onConnection e s
  | frame c q frame =>
      rcases frame with e | payload | payload
      · exact Site.Proceeds.same rfl rfl rfl rfl
      · exact Site.Proceeds.refl s.site
      · exact Site.proceeds_onFrame (w := w) c q (.ok (some payload)) s.site
  | publish m =>
      cases m with
      | announce a => exact (Site.course_announce (p := default) trivial hheld).proceeds
      | transactions m =>
          exact (Site.course_gossip (p := default) (.inr trivial) none hheld).proceeds
      | status m => exact absurd rfl (ha m)
      | handshake | request | response => exact Site.Proceeds.refl s.site
  | request q r => exact Site.proceeds_requestBlocks q r s.site
  | greet q =>
      rw [act, greet]
      split
      · exact (Site.course_sendStatus (b := b) (p := q) q s.site).proceeds
      · exact Site.Proceeds.refl s.site
  | dial => exact proceeds_dial s
  | refresh => exact proceeds_refresh s
  | advance milliseconds =>
      rw [act, advance]
      split
      · exact Site.Proceeds.refl s.site
      · split
        · exact Site.Proceeds.refl s.site
        · exact Site.Proceeds.same rfl rfl rfl rfl

theorem leads_act (a : Act) (s : Service (σ × List Event)) :
    s.site.Leads a.greeter? (s.asks w.traced (.act a))
      (s.act w.traced a).site := by
  by_cases ha : ∃ m, a = .publish (.status m)
  · obtain ⟨m, rfl⟩ := ha
    -- The node does not take part in a broadcast.
    obtain ⟨events, hevents⟩ := w.exists_broadcast (Message.status m).channel
      (Message.status m).payload s.site.world
    exact ⟨fun p _ => id, fun id _ hfree => hfree, events, hevents, nofun⟩
  · exact (proceeds_act (fun m hm => ha ⟨m, hm⟩) s).toLeads

theorem leads_move {m : Move (σ × List Event)} (hm : m.isOwn = true)
    (s : Service (σ × List Event)) :
    s.site.Leads m.greeter? (s.asks w.traced m) (s.move w.traced m).site := by
  cases m with
  | start => exact (proceeds_start s).toLeads
  | stop => exact (proceeds_stop s).toLeads
  | act a => exact leads_act a s
  | change f => exact nomatch hm

variable {moves : List (Move (σ × List Event))}

/-- A handshake is awaited of a peer as long as nothing comes in from it on the channel. -/
theorem expectsHandshake_moved (hown : ∀ m ∈ moves, m.isOwn = true)
    (hsilent : ∀ m ∈ moves, m.greeter? ≠ some p)
    (h : s.site.node.exchanges.expectsHandshake p = true) :
    (s.moved w.traced moves).site.node.exchanges.expectsHandshake p = true := by
  induction moves generalizing s with
  | nil => exact h
  | cons m moves ih =>
      have hleads := leads_move (w := w) (hown m List.mem_cons_self) s
      exact ih (fun m' hm' => hown m' (List.mem_cons_of_mem m hm'))
        (fun m' hm' => hsilent m' (List.mem_cons_of_mem m hm'))
        (hleads.expects p (hsilent m List.mem_cons_self) h)

/-- A request does not become outstanding as long as nobody is asked with its id. -/
theorem has_moved {id : UInt64} (hown : ∀ m ∈ moves, m.isOwn = true)
    (hunasked : ∀ x ∈ s.asked w.traced moves, x.2.id ≠ id)
    (h : s.site.node.requests.has id = false) :
    (s.moved w.traced moves).site.node.requests.has id = false := by
  induction moves generalizing s with
  | nil => exact h
  | cons m moves ih =>
      have hleads := leads_move (w := w) (hown m List.mem_cons_self) s
      refine ih (fun m' hm' => hown m' (List.mem_cons_of_mem m hm'))
        (fun x hx => hunasked x (List.mem_append_right _ hx)) (hleads.free id (fun x hx => ?_) h)
      exact hunasked x (List.mem_append_left _ (Option.mem_toList.2 hx))

theorem isOwn_of_asks {m : Move (σ × List Event)} {x : PeerId × BlockRequest}
    (h : s.asks w.traced m = some x) : m.isOwn = true := by
  cases m with
  | change f => exact nomatch h
  | start | stop | act => rfl

/-- A request that is not outstanding is sent when the peer is asked. -/
theorem exists_attempt {m : Move (σ × List Event)} {q : PeerId} {r : BlockRequest}
    (hasks : s.asks w.traced m = some (q, r)) (hfree : s.site.node.requests.has r.id = false) :
    ∃ ok events, (s.move w.traced m).site.world.2 =
      .attempt ok q (.request r) :: (events ++ s.site.world.2) := by
  obtain ⟨events, htrace, hask⟩ := (leads_move (w := w) (isOwn_of_asks hasks) s).asks
  obtain ⟨ok, earlier, rfl⟩ := hask (q, r) hasks hfree
  exact ⟨ok, earlier, htrace⟩

/-- As long as nothing comes in from a peer of which a handshake is awaited, what comes in first is
read as a handshake. -/
theorem decode_moved (hown : ∀ m ∈ moves, m.isOwn = true)
    (hsilent : ∀ payload, .act (.frame .blockAnnounces p (.ok (some payload))) ∉ moves)
    (h : s.site.node.exchanges.expectsHandshake p = true) (payload : Bytes) :
    let n := (s.moved w.traced moves).site.node
    n.decode .blockAnnounces p payload =
      (Message.decodeBare .handshake payload n.config.maxMessageLength).mapError .codec := by
  have hexpects : (s.moved w.traced moves).site.node.exchanges.expectsHandshake p = true := by
    refine expectsHandshake_moved hown (fun m hm hgreets => ?_) h
    obtain ⟨payload, rfl⟩ := Move.greeter?_eq_some hgreets
    exact hsilent payload hm
  dsimp only
  rw [Node.decode, hexpects]
  rfl

end Service

/-! ## Departures -/

/-- From the one node to the other, what was kept of a peer is dropped in all three places. What was
kept of any other peer is kept, as are the requests that may be answered by anyone. The number of
peers that are left is published, and nothing else changes. -/
structure Node.Drops (p : PeerId) (n n' : Node) : Prop where
  roster : ∀ q, n'.roster.get? q = if p = q then none else n.roster.get? q
  exchanges : ∀ q, n'.exchanges.get? q = if p = q then none else n.exchanges.get? q
  requests : ∀ id entry, n'.requests.get? id = some entry ↔
    n.requests.get? id = some entry ∧ entry.peer ≠ some p
  peers : n'.metrics.peers = n'.roster.size
  rest : n' =
    { n with
      roster := n'.roster
      exchanges := n'.exchanges
      requests := n'.requests
      metrics := { n.metrics with peers := n'.metrics.peers } }

namespace Node.Drops

variable {n n' : Node} {p : PeerId}

theorem expectsHandshake (h : n.Drops p n') : n'.exchanges.expectsHandshake p = true := by
  rw [ExchangeTable.expectsHandshake, h.exchanges, if_pos rfl]

/-- What the peer was asked for can be asked for again. -/
theorem has_eq_false (h : n.Drops p n') {id : UInt64} {start : Option StartBlock}
    (hdue : n.requests.get? id = some ⟨some p, start⟩) : n'.requests.has id = false := by
  rw [Outstanding.has_eq_false_iff, Option.eq_none_iff_forall_ne_some]
  intro entry hentry
  obtain ⟨hsame, hother⟩ := (h.requests id entry).1 hentry
  rw [hdue] at hsame
  cases hsame
  exact hother rfl

end Node.Drops

namespace Service

variable {w : World σ} {p : PeerId} {s : Service (σ × List Event)}

theorem drops_closed (p : PeerId) (s : Service (σ × List Event)) :
    s.site.node.Drops p (s.onConnection (.closed p)).site.node where
  roster q := s.site.node.roster.get?_remove q p
  exchanges := s.site.node.exchanges.get?_erase p
  requests id entry := by
    have hleft : (s.onConnection (.closed p)).site.node.requests =
        (s.site.node.requests.removePeer p).2 := rfl
    rw [hleft, Outstanding.get?_removePeer, Option.filter_eq_some_iff, decide_eq_true_iff]
  peers := rfl
  rest := rfl

/-- When a peer departs, what is kept of it is dropped and nothing else changes. From then on,
whatever the service does: what comes in first from the peer on the channel of announcements is read
as a handshake, whatever was sent to the peer meanwhile; and when next anyone is asked for blocks
with the id of a request that the departed peer has not answered, be it by the service or to follow a
message up, the request is sent. -/
theorem closed_erases_one_peer (w : World σ) (p : PeerId) (s : Service (σ × List Event)) :
    let u := s.onConnection (.closed p)
    s.site.node.Drops p u.site.node ∧
    u = s.update (·.update fun _ => u.site.node) ∧
    ∀ moves : List (Move (σ × List Event)), (∀ m ∈ moves, m.isOwn = true) →
      let t := u.moved w.traced moves
      ((∀ payload, .act (.frame .blockAnnounces p (.ok (some payload))) ∉ moves) →
        ∀ payload, t.site.node.decode .blockAnnounces p payload =
          (Message.decodeBare .handshake payload t.site.node.config.maxMessageLength).mapError
            .codec) ∧
      ∀ id start, s.site.node.requests.get? id = some ⟨some p, start⟩ →
        (∀ x ∈ u.asked w.traced moves, x.2.id ≠ id) →
        ∀ m q r, t.asks w.traced m = some (q, r) → r.id = id →
          ∃ ok events, (t.move w.traced m).site.world.2 =
            .attempt ok q (.request r) :: (events ++ t.site.world.2) := by
  intro u
  have hdrops : s.site.node.Drops p u.site.node := drops_closed p s
  refine ⟨hdrops, rfl, fun moves hown => ⟨fun hsilent payload => ?_, ?_⟩⟩
  · exact decode_moved hown hsilent hdrops.expectsHandshake payload
  · rintro id start hdue hunasked m q r hasks rfl
    exact exists_attempt hasks (has_moved hown hunasked (hdrops.has_eq_false hdue))

/-- The stranger is asked what the supplier was asked for: once the supplier has departed, but not
before. -/
example :
    let w := (World.idle .zero).traced
    let waiting := unstarted.act w (.request supplier idleRequest)
    let again : Act := .request stranger idleRequest
    (waiting.act w again).site.world.2 = waiting.site.world.2 ∧
      ((waiting.act w (.connection (.closed supplier))).act w again).site.world.2 =
        .attempt true stranger (.request idleRequest) :: waiting.site.world.2 := by
  decide +kernel

end Service

end ChainPeer
