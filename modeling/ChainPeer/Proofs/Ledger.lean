import ChainPeer.Proofs.Course
import ChainPeer.Service

/-!
# The ledger of block requests

The requests that a site has outstanding, next to all that has happened to the site: what was called
on it, and the calls to the world that followed. The steps list everything that can happen to a
ledger, whatever is called on whichever channel, whatever the peers send and whether or not sending
works; the course of each operation is a chain of such steps.
-/

namespace ChainPeer

open Relation

/-- What can be called on a site. Blocks are asked for through requests only: what is announced is
an announcement, and what is gossiped are transactions. -/
inductive Deed where
  | frame (c : Channel) (p : PeerId) (frame : Except FrameError (Option Bytes))
  | handle (c : Channel) (p : PeerId) (m : Message)
  | announceTo (p : PeerId) (a : Announce)
  | announce (a : Announce)
  | gossip (m : Transactions) (except : Option PeerId)
  | publish (m : Status)
  | greet (p : PeerId)
  | request (p : PeerId) (r : BlockRequest)
  | forget (c : Channel) (p : PeerId)
  | reset (c : Channel)

variable {σ : Type}

/-- The site after a deed. -/
def Deed.run (w : World σ) (d : Deed) (s : Site σ) : Site σ :=
  match d with
  | frame c p f => (s.onFrame w c p f).2
  | handle c p m => (s.handle w c p m).2
  | announceTo p a => (s.announceTo w p (.announce a)).2
  | announce a => s.announce w (.announce a)
  | gossip m except => (s.gossip w (.transactions m) except).2
  | publish m =>
    { s with world := w.toTransport.broadcast .legacy (Message.status m).payload s.world }
  | greet p => (s.sendStatus w p).2
  | request p r => (s.requestBlocks w p r).2
  | forget c p => s.update (·.forget c p)
  | reset c => s.update (·.reset c)

/-- Something that happened to a site: it was called, or it called the world. -/
inductive Moment where
  | did (d : Deed)
  | saw (e : Event)

namespace Moment

/-- The peer and the request, when a request for blocks was sent. -/
def asked? : Moment → Option (PeerId × BlockRequest)
  | saw (.sent p .sync payload) => (BlockRequest.read? payload).map (p, ·)
  | _ => none

/-- Whether a request to a peer is no longer to be answered: a response with its id was handed
over, the peer has departed, or all requests were dropped. -/
def settles (p : PeerId) (id : UInt64) : Moment → Bool
  | saw (.answered _ x) => x.id = id
  | did (.forget .sync q) => q = p
  | did (.reset .sync) => true
  | _ => false

/-- Whether a request with the given id was sent. -/
def asks (id : UInt64) (m : Moment) : Bool := m.asked?.any (·.2.id = id)

/-- Whether a response with the given id was handed over. -/
def answers (id : UInt64) : Moment → Bool
  | saw (.answered _ x) => x.id = id
  | _ => false

/-- No request was sent, and none was settled. -/
structure IsIdle (m : Moment) : Prop where
  asked : m.asked? = none
  settles : ∀ p id, m.settles p id = false

theorem settles_of_answers {m : Moment} {id : UInt64} (h : m.answers id = true) (p : PeerId) :
    m.settles p id = true := by
  cases m with
  | did d => exact nomatch h
  | saw e => cases e <;> exact h

theorem IsIdle.asks {m : Moment} (h : m.IsIdle) (id : UInt64) : m.asks id = false := by
  rw [Moment.asks, h.asked]
  rfl

theorem IsIdle.answers {m : Moment} (h : m.IsIdle) (id : UInt64) : m.answers id = false := by
  cases hanswers : m.answers id with
  | false => rfl
  | true =>
      have hsettles := settles_of_answers hanswers default
      rw [h.settles] at hsettles
      exact hsettles.symm

theorem asked?_sent_request (p : PeerId) (r : BlockRequest) :
    (saw (.sent p .sync (Message.request r).payload)).asked? = some (p, r) := by
  rw [asked?, BlockRequest.read?_request]
  rfl

theorem isIdle_attempt {m : Message} (hm : m.request? = none) (ok : Bool) (p : PeerId) :
    (saw (.attempt ok p m)).IsIdle := by
  constructor
  · cases ok with
    | false => rfl
    | true =>
        cases m with
        | request r => exact nomatch hm
        | response x =>
            have hread := BlockRequest.read?_response x
            simp [Event.attempt, Message.channel, Message.kind, MessageKind.channel, asked?, hread]
        | handshake | announce | status | transactions => rfl
  · intro q id
    cases ok <;> rfl

theorem isIdle_did {d : Deed} (hforget : ∀ p, d ≠ .forget .sync p) (hreset : d ≠ .reset .sync) :
    (did d).IsIdle := by
  refine ⟨rfl, fun p id => ?_⟩
  cases d with
  | forget c q =>
      cases c with
      | sync => exact absurd rfl (hforget q)
      | blockAnnounces | legacy => rfl
  | reset c =>
      cases c with
      | sync => exact absurd rfl hreset
      | blockAnnounces | legacy => rfl
  | _ => rfl

theorem isIdle_notice {e : Event} (he : e.IsNotice) : (saw e).IsIdle := by
  cases e with
  | announced | seen | served | delivered => exact ⟨rfl, fun _ _ => rfl⟩
  | _ => exact he.elim

theorem isIdle_failed (p : PeerId) (m : Message) : (saw (.attempt false p m)).IsIdle :=
  ⟨rfl, fun _ _ => rfl⟩

end Moment

/-- The outstanding requests and what has happened, the latest first. -/
structure Ledger where
  requests : Outstanding
  past : List Moment

/-- What can happen to a ledger at once. -/
inductive Ledger.Step : Ledger → Ledger → Prop where
  | idle (l : Ledger) {m : Moment} (hm : m.IsIdle) : Step l { l with past := m :: l.past }
  | asked {l : Ledger} (p : PeerId) (r : BlockRequest) (hnew : l.requests.has r.id = false) :
      Step l
        { requests := l.requests.put r.id ⟨some p, some r.start⟩
          past := .saw (.sent p .sync (Message.request r).payload) :: l.past }
  | answered {l : Ledger} (p : PeerId) (x : BlockResponse) (hhas : l.requests.has x.id = true) :
      Step l
        { requests := (l.requests.remove x.id).2
          past := .saw (.answered p x) :: l.past }
  | departed (l : Ledger) (p : PeerId) :
      Step l
        { requests := (l.requests.removePeer p).2
          past := .did (.forget .sync p) :: l.past }
  | dropped (l : Ledger) : Step l { requests := .empty, past := .did (.reset .sync) :: l.past }

/-- A chain of steps. -/
def Ledger.Steps : Ledger → Ledger → Prop := ReflTransGen Ledger.Step

/-- What no step breaks holds after any steps. -/
theorem Ledger.Steps.preserves {l l' : Ledger} (h : l.Steps l') (P : Ledger → Prop)
    (hstep : ∀ l l', Ledger.Step l l' → P l → P l') (hstart : P l) : P l' := by
  induction h with
  | refl => exact hstart
  | tail _ hlast ih => exact hstep _ _ hlast ih

namespace Site

/-- The ledger of a site that some things have happened to before. -/
def ledger (past : List Moment) (s : Site (σ × List Event)) : Ledger where
  requests := s.node.requests
  past := s.world.2.map .saw ++ past

/-- From the one site to the other its ledger makes steps. -/
def Keeps (s s' : Site (σ × List Event)) : Prop :=
  ∀ past, (s.ledger past).Steps (s'.ledger past)

variable {w : World σ} {s s' s'' : Site (σ × List Event)} {p : PeerId}

theorem Keeps.refl (s : Site (σ × List Event)) : s.Keeps s := fun _ => .refl

theorem Keeps.trans (h : s.Keeps s') (h' : s'.Keeps s'') : s.Keeps s'' :=
  fun past => ReflTransGen.trans (h past) (h' past)

/-- Neither the requests nor the trace change. -/
theorem Keeps.silent (hrequests : s'.node.requests = s.node.requests)
    (htrace : s'.world.2 = s.world.2) : s.Keeps s' := by
  intro past
  rw [ledger, ledger, hrequests, htrace]
  exact .refl

/-- The requests do not change, and the world was called for something else. -/
theorem Keeps.called {e : Event} (he : (Moment.saw e).IsIdle)
    (hrequests : s'.node.requests = s.node.requests) (htrace : s'.world.2 = e :: s.world.2) :
    s.Keeps s' := by
  intro past
  have hledger : s'.ledger past =
      { s.ledger past with past := .saw e :: (s.ledger past).past } := by
    rw [ledger, hrequests, htrace]
    rfl
  rw [hledger]
  exact .single (.idle (s.ledger past) he)

theorem keeps_send {m : Message} (hm : m.request? = none) (p : PeerId)
    (s : Site (σ × List Event)) : s.Keeps (s.send w.traced p m).2 := by
  rcases send_traced_cases w p m s with ⟨a, hsend⟩ | ⟨e, a, hsend⟩
  · rw [hsend]
    exact .called (Moment.isIdle_attempt hm true p) rfl rfl
  · rw [hsend]
    exact .called (Moment.isIdle_attempt hm false p) rfl rfl

theorem keeps_requestBlocks (p : PeerId) (r : BlockRequest) (s : Site (σ × List Event)) :
    s.Keeps (s.requestBlocks w.traced p r).2 := by
  cases hhas : s.node.requests.has r.id with
  | true =>
      rw [requestBlocks_of_has hhas]
      exact .refl s
  | false =>
      rcases requestBlocks_of_not_has (w := w) (p := p) hhas with ⟨a, hask⟩ | ⟨e, a, hask⟩
      · rw [hask]
        exact fun past => .single (.asked (l := s.ledger past) p r hhas)
      · rw [hask]
        exact .called (Moment.isIdle_failed p _) rfl rfl

/-! ## Courses -/

variable {b : Bounds} {report : Option Report} {ask : Option (PeerId × BlockRequest)}
  {x : Except HandlerError Unit × Site (σ × List Event)}

theorem Stroke.keeps (h : Stroke w.traced b s x) (hheld : ∀ m, b.held m → m.request? = none) :
    s.Keeps x.2 := by
  cases h with
  | aside hf => exact .silent hf.requests rfl
  | lookUp =>
      rw [genesis_eq]
      exact .silent rfl rfl
  | forget | route | settle | lose => exact .silent rfl rfl
  | send q hm => exact keeps_send (hm.elim id (hheld _)) q s
  | notify ha =>
      obtain ⟨e, he, htrace⟩ := ha.exists_notice
      exact .called (Moment.isIdle_notice he) rfl htrace
  | answered q hx => exact fun past => .single (.answered (l := s.ledger past) q _ hx)

/-- No message that is held back is a request, so requests are sent only where a peer is asked. -/
theorem Course.keeps (h : Course w.traced b p report ask s x)
    (hheld : ∀ m, b.held m → m.request? = none) : s.Keeps x.2 := by
  induction h with
  | done s => exact .refl s
  | last h => exact h.keeps hheld
  | ask q r s => exact keeps_requestBlocks q r s
  | step h _ ih => exact (h.keeps hheld).trans ih
  | note _ _ ih => exact Keeps.trans (.silent rfl rfl) ih
  | tidy _ hf ih => exact ih.trans (.silent hf.requests rfl)

theorem keeps_broadcast (m : Status) (s : Site (σ × List Event)) :
    s.Keeps { s with
      world := w.traced.toTransport.broadcast .legacy (Message.status m).payload s.world } := by
  -- As far as the ledger goes, a broadcast sends the status as the node itself would.
  have htransmit : ∀ (p : PeerId) (s : Site (σ × List Event)), s.Keeps { s with
      world := (w.traced.send p .legacy (Message.status m).payload s.world).2 } := by
    intro p s
    have hsent := keeps_send (w := w) (m := .status m) rfl p s
    obtain ⟨metrics, hnode⟩ := node_send w.traced p (.status m) s
    have hrequests := congrArg Node.requests hnode
    have hworld := congrArg Prod.snd (world_send w.traced p (.status m) s)
    exact hsent.trans (.silent hrequests.symm hworld.symm)
  rw [Transport.broadcast]
  generalize w.traced.connected s.world = peers
  induction peers generalizing s with
  | nil => exact .refl s
  | cons p peers ih => exact (htransmit p s).trans (ih _)

/-- What is called on a site does to its ledger what steps can do, unless requests are forgotten or
dropped by it. Announcements only are held back, as before. -/
theorem keeps_run {d : Deed} (hforget : ∀ p, d ≠ .forget .sync p) (hreset : d ≠ .reset .sync)
    (hs : s.node.exchanges.HoldsAnnounces) :
    (d.run w.traced s).node.exchanges.HoldsAnnounces ∧ s.Keeps (d.run w.traced s) := by
  have hcourse : ∀ {greeter : Option PeerId} {p : PeerId} {report : Option Report}
      {ask : Option (PeerId × BlockRequest)} {r : Except HandlerError Unit}
      {s' : Site (σ × List Event)},
      Course w.traced (.announcing greeter) p report ask s (r, s') →
        s'.node.exchanges.HoldsAnnounces ∧ s.Keeps s' :=
    fun h => ⟨h.holds hs, h.keeps (by rintro _ ⟨a, rfl⟩; rfl)⟩
  cases d with
  | frame c p f =>
      obtain ⟨r, hframe⟩ := course_onFrame (b := .announcing (c.greeter? p)) rfl hs
        (fun _ => trivial) f
      exact hcourse hframe
  | handle c p m =>
      exact hcourse (course_handle (b := .announcing (c.greeter? p)) rfl hs (fun _ => trivial) m)
  | announceTo p a =>
      obtain ⟨r, hannounced⟩ := course_announceTo (b := .announcing none) (p := p) p ⟨a, rfl⟩ s
      exact hcourse hannounced
  | announce a =>
      exact hcourse (course_announce (b := .announcing none) (p := default) ⟨a, rfl⟩ hs)
  | gossip m except =>
      exact hcourse (course_gossip (b := .announcing none) (p := default) (.inl rfl) except hs)
  | publish m => exact ⟨hs, keeps_broadcast m s⟩
  | greet p =>
      exact hcourse (course_sendStatus (b := .announcing none) (p := p) p s)
  | request p r => exact hcourse (.ask (b := .announcing none) (p := p) p r s)
  | forget c p =>
      cases c with
      | blockAnnounces =>
          exact hcourse (.last (b := .announcing none) (p := p) (.forget p s))
      | sync => exact absurd rfl (hforget p)
      | legacy => exact ⟨hs, .refl s⟩
  | reset c =>
      cases c with
      | blockAnnounces => exact ⟨ExchangeTable.holds_empty _, .silent rfl rfl⟩
      | sync => exact absurd rfl hreset
      | legacy => exact ⟨hs, .silent rfl rfl⟩

end Site

/-! ## Whole runs -/

/-- A site and all that has happened to it, the latest first. -/
structure Chronicle (σ : Type) where
  site : Site σ
  past : List Moment

namespace Chronicle

/-- The site is called once more, and the calls to the world that follow are written down. -/
def live (w : World σ) (c : Chronicle σ) (d : Deed) : Chronicle σ :=
  let s := d.run w.traced ⟨c.site.node, c.site.world, []⟩
  ⟨⟨s.node, s.world.1⟩, s.world.2.map .saw ++ .did d :: c.past⟩

/-- The ledger of block requests. -/
def ledger (c : Chronicle σ) : Ledger := ⟨c.site.node.requests, c.past⟩

theorem steps_live (w : World σ) (d : Deed) {c : Chronicle σ}
    (hc : c.site.node.exchanges.HoldsAnnounces) :
    (c.live w d).site.node.exchanges.HoldsAnnounces ∧ c.ledger.Steps (c.live w d).ledger := by
  by_cases hforget : ∃ p, d = .forget .sync p
  · obtain ⟨p, rfl⟩ := hforget
    exact ⟨hc, .single (.departed c.ledger p)⟩
  by_cases hreset : d = .reset .sync
  · subst hreset
    exact ⟨hc, .single (.dropped c.ledger)⟩
  -- The call itself is written down first; what it does follows.
  have hdid : c.ledger.Steps { c.ledger with past := .did d :: c.past } := by
    have hidle := Moment.isIdle_did (fun p hp => hforget ⟨p, hp⟩) hreset
    exact .single (.idle c.ledger hidle)
  obtain ⟨hheld, hsteps⟩ := Site.keeps_run (w := w) (s := ⟨c.site.node, c.site.world, []⟩)
    (fun p hp => hforget ⟨p, hp⟩) hreset hc
  exact ⟨hheld, ReflTransGen.trans hdid (hsteps (.did d :: c.past))⟩

end Chronicle

/-- The site is called, one call after the other. -/
def Site.lived (w : World σ) (deeds : List Deed) (s : Site σ) : Chronicle σ :=
  deeds.foldl (fun c d => c.live w d) ⟨s, []⟩

/-- Whatever is called on a site, its ledger only makes steps. -/
theorem Site.steps_lived (w : World σ) (deeds : List Deed) {s : Site σ}
    (hs : s.node.exchanges.HoldsAnnounces) :
    Ledger.Steps ⟨s.node.requests, []⟩ (s.lived w deeds).ledger := by
  have hfold : ∀ (deeds : List Deed) (c : Chronicle σ), c.site.node.exchanges.HoldsAnnounces →
      c.ledger.Steps (deeds.foldl (fun c d => c.live w d) c).ledger := by
    intro deeds
    induction deeds with
    | nil => exact fun c _ => .refl
    | cons d deeds ih =>
        intro c hc
        obtain ⟨hlive, hsteps⟩ := c.steps_live w d hc
        exact ReflTransGen.trans hsteps (ih _ hlive)
  exact hfold deeds ⟨s, []⟩ hs

end ChainPeer
