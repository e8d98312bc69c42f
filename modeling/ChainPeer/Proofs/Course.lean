import ChainPeer.Node.Stream
import ChainPeer.Proofs.Exchanges
import ChainPeer.Proofs.Requests

/-!
# The course of an operation

Whatever a node does with what it is told or sent is a course of single strokes: it notes something
aside, looks up the genesis block, changes one exchange, sends one message or calls another subsystem.
At most once on its course it takes in what the peer says about itself, and the last thing that it
may do is to ask a peer for blocks. The operations are taken apart here once and for all: what each
stroke keeps, every operation keeps.
-/

namespace ChainPeer

/-- What a peer says about itself: its roles, if it says anything about them, and its best block. -/
structure Report where
  roles : Option Roles
  number : BlockNumber
  hash : Hash

def Handshake.report (h : Handshake) : Report := ⟨some h.roles, h.bestNumber, h.bestHash⟩

/-- The roster after a message of a peer. -/
def Roster.note (r : Roster) (p : PeerId) (report : Option Report) : Roster :=
  match report with
  | some x => r.report p x.roles x.number x.hash
  | none => r

theorem Roster.has_note (r : Roster) (p q : PeerId) (report : Option Report) :
    (r.note p report).has q = (decide (p = q) && report.isSome || r.has q) := by
  cases report with
  | none => simp [note]
  | some x => simp [note, has_report]

/-- The peer whose handshake may come in as a message of a channel. -/
def Channel.greeter? (c : Channel) (p : PeerId) : Option PeerId :=
  match c with
  | .blockAnnounces => some p
  | .sync | .legacy => none

variable {σ : Type}

/-- The other subsystems are called for something that leaves no mark on the node. -/
inductive World.Notifies (w : World σ) (a : σ) : σ → Prop where
  | announced (p : PeerId) (m : Announce) : Notifies w a (w.announced p m a).2
  | seen (n : BlockNumber) : Notifies w a (w.seen n a).2
  | served (r : BlockRequest) : Notifies w a (w.serve r a).2
  | delivered {d : PeerId → Message → σ → σ} (hd : w.deliver = some d) (p : PeerId) (m : Message) :
    Notifies w a (d p m a)

/-- Whether a call to the world leaves no mark on the node. -/
def Event.IsNotice : Event → Prop
  | announced .. | seen .. | served .. | delivered .. => True
  | _ => False

theorem World.Notifies.exists_notice {w : World σ} {a b : σ × List Event}
    (h : w.traced.Notifies a b) : ∃ e, e.IsNotice ∧ b.2 = e :: a.2 := by
  cases h with
  | announced p m => exact ⟨.announced p m, trivial, rfl⟩
  | seen n => exact ⟨.seen n, trivial, rfl⟩
  | served r => exact ⟨.served r (refusal? (w.serve r a.1).1), trivial, rfl⟩
  | delivered hd p m =>
      obtain ⟨d, -, rfl⟩ := Option.map_eq_some_iff.1 hd
      exact ⟨.delivered p m, trivial, rfl⟩

/-- Nothing changes but the reports, the hashes that are remembered, and the counts of other things
than what is sent. -/
structure Node.Aside (n n' : Node) : Prop where
  config : n'.config = n.config
  exchanges : n'.exchanges = n.exchanges
  roster : n'.roster = n.roster
  requests : n'.requests = n.requests
  messagesSent : n'.metrics.messagesSent = n.metrics.messagesSent

/-- What is left open of an operation: the messages that may be held back for a peer, the peer whose
exchange may be settled, and whether an exchange may be found gone. -/
structure Bounds where
  held : Message → Prop
  greeter : Option PeerId
  mayLose : Prop

/-- Anything may be held back, and exchanges may be found gone. -/
def Bounds.loose (greeter : Option PeerId) : Bounds := ⟨fun _ => True, greeter, True⟩

/-- Only announcements are held back. -/
def Bounds.announcing (greeter : Option PeerId) : Bounds :=
  ⟨fun m => ∃ a, m = .announce a, greeter, True⟩

theorem Bounds.holds_loose (greeter : Option PeerId) (t : ExchangeTable) :
    t.Holds (loose greeter).held :=
  fun _ _ _ _ _ => trivial

namespace Site

/-! ## What messages say and lead to -/

/-- What a message says about the peer that sent it, if the node takes it in. -/
def reportIn (w : World σ) (c : Channel) (p : PeerId) (m : Message) (s : Site σ) : Option Report :=
  match c, m with
  | .blockAnnounces, .handshake h =>
    if s.node.exchanges.expectsHandshake p ∧ h.genesis = (s.genesis w).1 then some h.report
    else none
  | .blockAnnounces, .announce a =>
    if (s.node.exchanges.get? p).any Exchange.isComplete ∧ a.isBest then
      some ⟨none, a.number, a.headerHash⟩
    else none
  | .legacy, .status m =>
    if m.genesis = (s.genesis w).1 ∧ s.node.config.minSupportedVersion ≤ m.protocolVersion then
      some ⟨some m.roles, m.bestNumber, m.bestHash⟩
    else none
  | _, _ => none

/-- What a frame says about the peer that sent it, if the node takes it in. -/
def reportInFrame (w : World σ) (c : Channel) (p : PeerId)
    (frame : Except FrameError (Option Bytes)) (s : Site σ) : Option Report :=
  match frame with
  | .ok (some payload) =>
    match s.node.decode c p payload with
    | .ok m => s.reportIn w c p m
    | .error _ => none
  | _ => none

/-- The request with which the other subsystems follow up a message of a peer, if the message gets
as far as to them and they want to. -/
def followsUp? (w : World σ) (c : Channel) (p : PeerId) (m : Message) (s : Site σ) :
    Option BlockRequest :=
  match c, m with
  | .blockAnnounces, .announce a =>
    if (s.node.exchanges.get? p).any Exchange.isComplete then (w.announced p a s.world).1 else none
  | .sync, .response x =>
    if s.node.requests.has x.id then (w.answered p x s.world).1 else none
  | .legacy, .status m =>
    if m.genesis ≠ (s.genesis w).1 ∨ m.protocolVersion < s.node.config.minSupportedVersion then none
    else (w.seen m.bestNumber (s.genesis w).2.world).1
  | _, _ => none

/-- The peer that is asked for blocks because of a frame, and the request. -/
def asksInFrame (w : World σ) (c : Channel) (p : PeerId)
    (frame : Except FrameError (Option Bytes)) (s : Site σ) : Option (PeerId × BlockRequest) :=
  match frame with
  | .ok (some payload) =>
    match s.node.decode c p payload with
    | .ok m => (s.followsUp? w c p m).map (p, ·)
    | .error _ => none
  | _ => none

/-! ## Strokes and courses -/

/-- One thing that a node does, with its result and the site after it. -/
inductive Stroke (w : World σ) (b : Bounds) : Site σ → Except HandlerError Unit × Site σ → Prop where
  | aside {s : Site σ} {f : Node → Node} (hf : s.node.Aside (f s.node)) :
    Stroke w b s (.ok (), s.update f)
  | lookUp (s : Site σ) : Stroke w b s (.ok (), (s.genesis w).2)
  | forget (q : PeerId) (s : Site σ) : Stroke w b s (.ok (), s.update (·.forget .blockAnnounces q))
  | route (q : PeerId) {m : Message} (hm : b.held m) (s : Site σ) :
    Stroke w b s (.ok (), s.update fun n => { n with exchanges := (n.exchanges.route q m).2 })
  | settle {q : PeerId} (hq : b.greeter = some q) {x : Exchange} (hx : x.heldBack? = none)
    (s : Site σ) :
    Stroke w b s (.ok (), s.update fun n => { n with exchanges := n.exchanges.insert q x })
  | send (q : PeerId) {m : Message} (hm : m.request? = none ∨ b.held m) (s : Site σ) :
    Stroke w b s (s.send w q m)
  | notify {s : Site σ} {a : σ} (ha : w.Notifies s.world a) : Stroke w b s (.ok (), ⟨s.node, a⟩)
  | answered (q : PeerId) {x : BlockResponse} {s : Site σ} (hx : s.node.requests.has x.id = true) :
    Stroke w b s (.ok (), ⟨{ s.node with requests := (s.node.requests.remove x.id).2 },
      (w.answered q x s.world).2⟩)
  | lose (q : PeerId) (hlose : b.mayLose) (s : Site σ) :
    Stroke w b s (.error (.missingExchange q s.node.exchanges.protocol), s)

/-- Strokes one after the other, with the result of the last one. On the way the report of the peer
is taken in, if there is one, and at the end a peer is asked for blocks, if one is to be asked. -/
inductive Course (w : World σ) (b : Bounds) (p : PeerId) :
    Option Report → Option (PeerId × BlockRequest) → Site σ →
      Except HandlerError Unit × Site σ → Prop where
  | done (s : Site σ) : Course w b p none none s (.ok (), s)
  | last {s : Site σ} {x : Except HandlerError Unit × Site σ} (h : Stroke w b s x) :
    Course w b p none none s x
  | ask (q : PeerId) (r : BlockRequest) (s : Site σ) :
    Course w b p none (some (q, r)) s (s.requestBlocks w q r)
  | step {report : Option Report} {ask : Option (PeerId × BlockRequest)} {s : Site σ}
    {x y : Except HandlerError Unit × Site σ} (h : Stroke w b s x)
    (hrest : Course w b p report ask x.2 y) : Course w b p report ask s y
  | note (report : Report) {ask : Option (PeerId × BlockRequest)} {s : Site σ}
    {x : Except HandlerError Unit × Site σ}
    (hrest : Course w b p none ask
      (s.update (·.noteReport p report.roles report.number report.hash)) x) :
    Course w b p (some report) ask s x
  | tidy {report : Option Report} {ask : Option (PeerId × BlockRequest)} {s : Site σ}
    {x : Except HandlerError Unit × Site σ} {f : Node → Node}
    (hfirst : Course w b p report ask s x) (hf : x.2.node.Aside (f x.2.node)) :
    Course w b p report ask s (x.1, x.2.update f)

variable {w : World σ} {b : Bounds} {p : PeerId} {report : Option Report}
  {ask : Option (PeerId × BlockRequest)} {s : Site σ} {x y : Except HandlerError Unit × Site σ}

theorem Stroke.holds (h : Stroke w b s x) (hs : s.node.exchanges.Holds b.held) :
    x.2.node.exchanges.Holds b.held := by
  cases h with
  | aside hf => exact hf.exchanges ▸ hs
  | lookUp =>
      rw [genesis_eq]
      exact hs.within (s.node.exchanges.eraseAll_within _)
  | forget q => exact hs.within (s.node.exchanges.erase_within q)
  | route q hm => exact hs.route q hm
  | settle hq hx => exact hs.insert_of_none hx
  | send q hm =>
      obtain ⟨metrics, hsent⟩ := node_send w q _ s
      rw [hsent]
      exact hs
  | notify | answered | lose => exact hs

theorem Course.holds (h : Course w b p report ask s x) (hs : s.node.exchanges.Holds b.held) :
    x.2.node.exchanges.Holds b.held := by
  induction h with
  | done => exact hs
  | last h => exact h.holds hs
  | ask q r s =>
      obtain ⟨requests, metrics, hasked⟩ := node_requestBlocks w q r s
      rw [hasked]
      exact hs
  | step h _ ih => exact ih (h.holds hs)
  | note _ _ ih => exact ih hs
  | tidy _ hf ih => exact hf.exchanges ▸ ih hs

/-- What is done without a report or a request may be followed by anything. -/
theorem Course.andThen (h : Course w b p none none s x) (h' : Course w b p report ask x.2 y) :
    Course w b p report ask s y := by
  generalize hnote : (none : Option Report) = note,
    hquiet : (none : Option (PeerId × BlockRequest)) = quiet at h
  induction h with
  | done => exact h'
  | last h => exact .step h h'
  | ask => cases hquiet
  | step h _ ih => exact .step h (ih h' hnote hquiet)
  | note => cases hnote
  | tidy _ hf ih => exact ih (.step (.aside hf) h') hnote hquiet

theorem Course.foldl {α : Type} {f : Site σ → α → Site σ}
    (hf : ∀ s a, s.node.exchanges.Holds b.held → ∃ r, Course w b p none none s (r, f s a))
    (l : List α) {s : Site σ} (hs : s.node.exchanges.Holds b.held) :
    Course w b p none none s (.ok (), l.foldl f s) := by
  induction l generalizing s with
  | nil => exact .done s
  | cons a l ih =>
      obtain ⟨r, hfirst⟩ := hf s a hs
      exact hfirst.andThen (ih (hfirst.holds hs))

/-! ## Sending -/

theorem course_followUp (q : PeerId) (request : Option BlockRequest) (s : Site σ) :
    Course w b p none (request.map (q, ·)) s (s.followUp w q request) := by
  cases request with
  | none => exact .done s
  | some r => exact .ask q r s

theorem course_sendHandshake (q : PeerId) (s : Site σ) :
    Course w b p none none s (s.sendHandshake w q) :=
  .step (.lookUp s) (.last (.send q (.inl rfl) _))

theorem course_sendStatus (q : PeerId) (s : Site σ) :
    Course w b p none none s (s.sendStatus w q) :=
  .step (.lookUp s) (.last (.send q (.inl rfl) _))

theorem course_flush (q : PeerId) {heldBack : Option Message}
    (hheld : ∀ m, heldBack = some m → b.held m) (s : Site σ) :
    Course w b p none none s (s.flush w q heldBack) := by
  cases heldBack with
  | none => exact .done s
  | some m => exact .last (.send q (.inr (hheld m rfl)) s)

theorem course_forward {m : Message} (hm : m.request? = none ∨ b.held m) (except : Option PeerId)
    (hs : s.node.exchanges.Holds b.held) :
    Course w b p none none s (.ok (), s.forward w m except) :=
  .foldl (fun s q _ => ⟨_, .last (.send q hm s)⟩) _ hs

/-! ## Announcing -/

theorem course_announceTo (q : PeerId) {m : Message} (hm : b.held m) (s : Site σ) :
    ∃ r, Course w b p none none s (r, (s.announceTo w q m).2) := by
  have hrouted := Stroke.route (w := w) (b := b) q hm s
  cases hroute : s.node.exchanges.route q m with
  | mk route exchanges =>
  simp only [update, hroute] at hrouted
  simp only [announceTo, hroute]
  cases route with
  | sendNow m' =>
      obtain rfl := ExchangeTable.eq_of_route_sendNow hroute
      exact ⟨_, .step hrouted (.last (.send q (.inr hm) _))⟩
  | openExchange =>
      have hgreet : Course w b p none none s
          ((s.update ({ · with exchanges })).sendHandshake w q) :=
        .step hrouted (course_sendHandshake q _)
      dsimp only
      split
      · next s' hs' =>
        rw [hs'] at hgreet
        exact ⟨_, hgreet⟩
      · next e s' hs' =>
        rw [hs'] at hgreet
        exact ⟨_, hgreet.andThen (.last (.forget q s'))⟩
  | heldBack | refused => exact ⟨_, .last hrouted⟩

theorem course_announce {m : Message} (hm : b.held m) (hs : s.node.exchanges.Holds b.held) :
    Course w b p none none s (.ok (), s.announce w m) :=
  .foldl (fun s q _ => course_announceTo q hm s) _ hs

theorem course_onReply (hp : b.greeter = some p) (hs : s.node.exchanges.Holds b.held)
    (hx : s.node.exchanges.get? p ≠ none) (hlose : p ∈ (w.genesis s.world).1.2 → b.mayLose)
    (h : Handshake) :
    Course w b p (if h.genesis = (s.genesis w).1 then some h.report else none) none s
      (s.onReply w p h) := by
  have hgone : (s.genesis w).2.node.exchanges.get? p = none → p ∈ (w.genesis s.world).1.2 := by
    intro hnone
    rw [genesis_eq] at hnone
    dsimp only at hnone
    rw [ExchangeTable.get?_eraseAll] at hnone
    exact Decidable.byContradiction fun hstays => hx ((if_neg hstays).symm.trans hnone)
  have hlookUp := Stroke.lookUp (w := w) (b := b) s
  rw [onReply, validate]
  cases hlooked : s.genesis w with
  | mk ours s' =>
  rw [hlooked] at hgone hlookUp
  by_cases hours : h.genesis = ours
  · simp only [if_pos hours]
    refine .step hlookUp (.note h.report ?_)
    cases hcomplete : (s'.noteHandshake p h).node.exchanges.complete? p with
    | none => exact .last (.lose p (hlose (hgone (Option.map_eq_none_iff.1 hcomplete))) _)
    | some pair =>
        obtain ⟨x, hget, rfl⟩ := Option.map_eq_some_iff.1 hcomplete
        have hheld := fun m hm => hlookUp.holds hs p x m hget hm
        exact .step (.settle hp rfl _) (course_flush p hheld _)
  · simp only [if_neg hours]
    have hcounted : Stroke w b s' (.ok (), s'.countInvalid) := .aside ⟨rfl, rfl, rfl, rfl, rfl⟩
    exact .step hlookUp (.step hcounted (.last (.forget p _)))

theorem course_onOpening (hp : b.greeter = some p) (hs : s.node.exchanges.Holds b.held)
    (h : Handshake) :
    Course w b p (if h.genesis = (s.genesis w).1 then some h.report else none) none s
      (s.onOpening w p h) := by
  have hlookUp := Stroke.lookUp (w := w) (b := b) s
  rw [onOpening, validate]
  cases hlooked : s.genesis w with
  | mk ours s' =>
  rw [hlooked] at hlookUp
  by_cases hours : h.genesis = ours
  · simp only [if_pos hours]
    have hheld := fun m hm => (hlookUp.holds hs).heldBack_of_getD (p := p) (m := m) hm
    have haccepted : Stroke w b (s'.noteHandshake p h) (.ok (), (s'.noteHandshake p h).update
        ({ · with exchanges := (s'.node.exchanges.accept p).2 })) := .settle hp rfl _
    refine .step hlookUp (.note h.report (.step haccepted ?_))
    exact (course_sendHandshake p _).andThen (course_flush p hheld _)
  · simp only [if_neg hours]
    have hcounted : Stroke w b s' (.ok (), s'.countInvalid) := .aside ⟨rfl, rfl, rfl, rfl, rfl⟩
    exact .step hlookUp (.step hcounted (.last (.settle hp rfl _)))

theorem course_onHandshake (hp : b.greeter = some p) (hs : s.node.exchanges.Holds b.held)
    (hlose : p ∈ (w.genesis s.world).1.2 → b.mayLose) (h : Handshake) :
    Course w b p (s.reportIn w .blockAnnounces p (.handshake h)) none s
      (s.onHandshake w p h) := by
  have hreport : s.node.exchanges.expectsHandshake p = true →
      s.reportIn w .blockAnnounces p (.handshake h) =
        if h.genesis = (s.genesis w).1 then some h.report else none := by
    intro hexpects
    simp only [reportIn, hexpects, true_and]
  cases hx : s.node.exchanges.get? p with
  | none =>
      rw [onHandshake, hx, hreport (by rw [ExchangeTable.expectsHandshake, hx])]
      exact course_onOpening hp hs h
  | some x =>
      have hexpects : s.node.exchanges.expectsHandshake p = !x.isReceived := by
        rw [ExchangeTable.expectsHandshake, hx]
      have hsome : s.node.exchanges.get? p ≠ none := by
        rw [hx]
        exact Option.some_ne_none x
      cases x with
      | awaiting initiator heldBack =>
          rw [hreport hexpects, onHandshake, hx]
          cases initiator with
          | true => exact course_onReply hp hs hsome hlose h
          | false => exact course_onOpening hp hs h
      | rejected | complete =>
          rw [onHandshake, hx, reportIn, hexpects]
          exact .done s

theorem course_onAnnounce (a : Announce) (s : Site σ) :
    Course w b p (s.reportIn w .blockAnnounces p (.announce a))
      ((s.followsUp? w .blockAnnounces p (.announce a)).map (p, ·)) s (s.onAnnounce w p a) := by
  rw [onAnnounce, reportIn, followsUp?]
  cases hx : s.node.exchanges.get? p with
  | none => exact .done s
  | some x =>
      cases x with
      | awaiting | rejected => exact .done s
      | complete initiator =>
          cases hbest : a.isBest with
          | false => exact .step (.notify (.announced p a)) (course_followUp p _ _)
          | true =>
              refine .note ⟨none, a.number, a.headerHash⟩ ?_
              exact .step (.notify (.announced p a)) (course_followUp p _ _)

/-! ## Status and gossip -/

theorem course_onStatus (m : Status) (s : Site σ) :
    Course w b p (s.reportIn w .legacy p (.status m))
      ((s.followsUp? w .legacy p (.status m)).map (p, ·)) s (s.onStatus w p m) := by
  have hlookUp := Stroke.lookUp (w := w) (b := b) s
  have hconfig : (s.genesis w).2.node.config = s.node.config := by rw [genesis_eq]
  have hleft : (m.genesis ≠ (s.genesis w).1 ∨
      m.protocolVersion < s.node.config.minSupportedVersion) ↔
        ¬ (m.genesis = (s.genesis w).1 ∧
          s.node.config.minSupportedVersion ≤ m.protocolVersion) := by
    rw [Classical.not_and_iff_not_or_not, UInt32.not_le]
  simp only [onStatus, reportIn, followsUp?, hconfig, hleft]
  by_cases htaken : m.genesis = (s.genesis w).1 ∧
      s.node.config.minSupportedVersion ≤ m.protocolVersion
  · simp only [if_pos htaken, if_neg (not_not_intro htaken)]
    refine .step hlookUp (.note ⟨some m.roles, m.bestNumber, m.bestHash⟩ ?_)
    exact .step (.notify (.seen m.bestNumber)) (course_followUp p _ _)
  · simp only [if_neg htaken, if_pos htaken]
    exact .last hlookUp

theorem course_gossip {m : Message} (hm : m.request? = none ∨ b.held m) (except : Option PeerId)
    (hs : s.node.exchanges.Holds b.held) :
    Course w b p none none s (s.gossip w m except) :=
  .step (.aside ⟨rfl, rfl, rfl, rfl, rfl⟩) (course_forward (s := s.update _) hm except hs)

theorem course_onGossip {m : Message} (hm : m.request? = none ∨ b.held m)
    (hs : s.node.exchanges.Holds b.held) :
    Course w b p none none s (.ok (), s.onGossip w p m) := by
  rw [onGossip]
  split
  · exact .last (.aside ⟨rfl, rfl, rfl, rfl, rfl⟩)
  · next seen _ =>
    let noted := s.update ({ · with seen })
    have hnoted : Stroke w b s (.ok (), noted) := .aside ⟨rfl, rfl, rfl, rfl, rfl⟩
    refine .step hnoted ?_
    rw [deliver]
    split
    · next d hd =>
      exact .step (.notify (.delivered hd p m)) (course_forward (s := ⟨_, _⟩) hm _ hs)
    · exact course_forward (s := noted) hm _ hs

/-! ## Syncing -/

theorem course_onRequest (r : BlockRequest) (s : Site σ) :
    Course w b p none none s (s.onRequest w p r) := by
  have hserved : Stroke w b s (.ok (), ⟨s.node, (w.serve r s.world).2⟩) :=
    .notify (.served r)
  rw [onRequest]
  cases hserve : w.serve r s.world with
  | mk answer a =>
      rw [hserve] at hserved
      cases answer with
      | ok x => exact .step hserved (.last (.send p (.inl rfl) _))
      | error e => exact .last hserved

theorem course_onResponse (x : BlockResponse) (s : Site σ) :
    Course w b p none ((s.followsUp? w .sync p (.response x)).map (p, ·)) s
      (s.onResponse w p x) := by
  rw [onResponse, followsUp?, Outstanding.remove]
  cases hhas : s.node.requests.has x.id with
  | false => exact .last (.aside ⟨rfl, rfl, rfl, rfl, rfl⟩)
  | true =>
      have hanswered := Stroke.answered (w := w) (b := b) p hhas
      rw [Outstanding.remove] at hanswered
      exact .step hanswered (course_followUp p _ _)

/-! ## Messages and frames -/

theorem course_handle {c : Channel} (hp : b.greeter = c.greeter? p)
    (hs : s.node.exchanges.Holds b.held) (hlose : p ∈ (w.genesis s.world).1.2 → b.mayLose)
    (m : Message) :
    Course w b p (s.reportIn w c p m) ((s.followsUp? w c p m).map (p, ·)) s
      (s.handle w c p m) := by
  cases c with
  | blockAnnounces =>
      cases m with
      | handshake h => exact course_onHandshake hp hs hlose h
      | announce a => exact course_onAnnounce a s
      | request | response | status | transactions => exact .done s
  | sync =>
      cases m with
      | request r => exact course_onRequest r s
      | response x => exact course_onResponse x s
      | handshake | announce | status | transactions => exact .done s
  | legacy =>
      cases m with
      | status m => exact course_onStatus m s
      | transactions m => exact course_onGossip (.inl rfl) hs
      | handshake | announce | request | response => exact .done s

/-- Of what is read off a stream a message is handled, all else is noted aside. -/
theorem course_onFrame {c : Channel} (hp : b.greeter = c.greeter? p)
    (hs : s.node.exchanges.Holds b.held) (hlose : p ∈ (w.genesis s.world).1.2 → b.mayLose)
    (frame : Except FrameError (Option Bytes)) :
    ∃ r, Course w b p (s.reportInFrame w c p frame) (s.asksInFrame w c p frame) s
      (r, (s.onFrame w c p frame).2) := by
  rcases frame with e | (_ | payload)
  · exact ⟨_, .last (.aside (f := (·.report c p (.frame e))) ⟨rfl, rfl, rfl, rfl, rfl⟩)⟩
  · exact ⟨_, .done s⟩
  · let counted := s.update (·.count fun m => { m with framesReceived := m.framesReceived + 1 })
    have hcounted : Stroke w b s (.ok (), counted) := .aside ⟨rfl, rfl, rfl, rfl, rfl⟩
    have hdecode : counted.node.decode c p payload = s.node.decode c p payload := rfl
    rw [onFrame, onPayload, reportInFrame, asksInFrame]
    cases hread : s.node.decode c p payload with
    | error e =>
        simp only [counted, hread] at hdecode
        simp only [hdecode]
        exact ⟨_, .step hcounted (.last (.aside ⟨rfl, rfl, rfl, rfl, rfl⟩))⟩
    | ok m =>
        simp only [counted, hread] at hdecode
        simp only [hdecode]
        have hhandled : Course w b p (s.reportIn w c p m) ((s.followsUp? w c p m).map (p, ·)) s
            (counted.handle w c p m) :=
          .step hcounted (course_handle (s := counted) hp hs hlose m)
        split
        · next s' hs' =>
          rw [show counted.handle w c p m = _ from hs'] at hhandled
          exact ⟨_, hhandled⟩
        · next e s' hs' =>
          rw [show counted.handle w c p m = _ from hs'] at hhandled
          exact ⟨_, hhandled.tidy (f := (·.report c p (.handler e))) ⟨rfl, rfl, rfl, rfl, rfl⟩⟩

/-- Whatever may be held back, and whoever may have departed. -/
theorem exists_course_onFrame (w : World σ) (c : Channel) (p : PeerId)
    (frame : Except FrameError (Option Bytes)) (s : Site σ) :
    ∃ r, Course w (.loose (c.greeter? p)) p (s.reportInFrame w c p frame)
      (s.asksInFrame w c p frame) s (r, (s.onFrame w c p frame).2) :=
  course_onFrame rfl (Bounds.holds_loose _ _) (fun _ => trivial) frame

/-! ## What shows in the settings and in the roster -/

theorem Stroke.config (h : Stroke w b s x) : x.2.node.config = s.node.config := by
  cases h with
  | aside hf => exact hf.config
  | lookUp => rw [genesis_eq]
  | send q _ =>
      obtain ⟨metrics, hsent⟩ := node_send w q _ s
      rw [hsent]
  | forget | route | settle | notify | answered | lose => rfl

/-- Nothing changes the settings. -/
theorem Course.config (h : Course w b p report ask s x) : x.2.node.config = s.node.config := by
  induction h with
  | done => rfl
  | last h => exact h.config
  | ask q r s =>
      obtain ⟨requests, metrics, hasked⟩ := node_requestBlocks w q r s
      rw [hasked]
  | step h _ ih => exact ih.trans h.config
  | note _ _ ih => exact ih
  | tidy _ hf ih => exact hf.config.trans ih

theorem config_handle (w : World σ) (c : Channel) (p : PeerId) (m : Message) (s : Site σ) :
    (s.handle w c p m).2.node.config = s.node.config := by
  have hheld := Bounds.holds_loose (c.greeter? p) s.node.exchanges
  exact (course_handle (w := w) rfl hheld (fun _ => trivial) m).config

theorem config_onFrame (w : World σ) (c : Channel) (p : PeerId)
    (frame : Except FrameError (Option Bytes)) (s : Site σ) :
    (s.onFrame w c p frame).2.node.config = s.node.config := by
  obtain ⟨r, hframe⟩ := exists_course_onFrame w c p frame s
  exact hframe.config

theorem config_gossip (w : World σ) (m : Message) (except : Option PeerId) (s : Site σ) :
    (s.gossip w m except).2.node.config = s.node.config := by
  have hheld := Bounds.holds_loose none s.node.exchanges
  exact (course_gossip (w := w) (p := default) (.inr trivial) except hheld).config

theorem Stroke.roster (h : Stroke w b s x) : x.2.node.roster = s.node.roster := by
  cases h with
  | aside hf => exact hf.roster
  | lookUp => rw [genesis_eq]
  | send q _ =>
      obtain ⟨metrics, hsent⟩ := node_send w q _ s
      rw [hsent]
  | forget | route | settle | notify | answered | lose => rfl

/-- Of all that an operation does only the report of the peer shows in the roster, be the peer
connected or not. -/
theorem Course.roster (h : Course w b p report ask s x) :
    x.2.node.roster = s.node.roster.note p report := by
  induction h with
  | done => rfl
  | last h => exact h.roster
  | ask q r s =>
      obtain ⟨requests, metrics, hasked⟩ := node_requestBlocks w q r s
      rw [hasked]
      rfl
  | step h _ ih => rw [ih, h.roster]
  | note _ _ ih => exact ih
  | tidy _ hf ih => exact hf.roster.trans ih

theorem roster_onFrame (w : World σ) (c : Channel) (p : PeerId)
    (frame : Except FrameError (Option Bytes)) (s : Site σ) :
    (s.onFrame w c p frame).2.node.roster =
      s.node.roster.note p (s.reportInFrame w c p frame) := by
  obtain ⟨r, hframe⟩ := exists_course_onFrame w c p frame s
  exact hframe.roster

end Site

end ChainPeer
