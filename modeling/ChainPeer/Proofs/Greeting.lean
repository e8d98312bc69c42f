import ChainPeer.Proofs.Course
import ChainPeer.Service
import Mathlib.Data.List.Induction

/-!
# Greeting peers that connect

A service greets a peer that connects if the peer is new in the roster. A peer that has reported
about itself is in the roster, connected or not, until it leaves the next time; so a peer whose
report comes in before its connection is known is not greeted.
-/

namespace ChainPeer

/-- What can happen to a service that is being started or has started. -/
inductive Act where
  | connection (e : ConnectionEvent)
  | frame (c : Channel) (p : PeerId) (frame : Except FrameError (Option Bytes))
  | publish (m : Message)
  | request (p : PeerId) (r : BlockRequest)
  | greet (p : PeerId)
  | dial
  | refresh
  | advance (milliseconds : Nat)

/-- Whether a peer is connected after something has happened. -/
def Act.connects (p : PeerId) (connected : Bool) : Act → Bool
  | connection (.established q _) => q = p || connected
  | connection (.closed q) => q ≠ p && connected
  | _ => connected

/-- Whether a peer is connected after all that has happened, the oldest first. -/
def Act.connectsAfter (p : PeerId) (connected : Bool) (acts : List Act) : Bool :=
  acts.foldl (connects p) connected

namespace Service

variable {σ : Type}

/-- The service after something has happened. -/
def act (w : World σ) (s : Service σ) : Act → Service σ
  | .connection e => s.onConnection e
  | .frame c p f => s.update fun site => (site.onFrame w c p f).2
  | .publish m => s.publish w m
  | .request p r => (s.requestBlocks w p r).2
  | .greet p => s.greet w p
  | .dial => s.update fun site => { site with world := (w.bootstrap site.world).2 }
  | .refresh => s.refresh w
  | .advance milliseconds => s.advance w milliseconds

/-- The service after all that has happened, the oldest first. -/
def after (w : World σ) (acts : List Act) (s : Service σ) : Service σ := acts.foldl (act w) s

/-- The service that begins to start: it takes in streams and connections, and has the connected
peers in its roster. -/
def attached (w : World σ) (s : Service σ) : Service σ :=
  let world := w.watch (Channel.all.foldl (fun world c => w.accept c world) s.site.world)
  let node := (w.connected world).foldl (fun n p => { n with roster := (n.roster.insert p).2 })
    s.site.node
  { s with stage := .running, site := ⟨node.countPeers, world⟩ }

/-- What the service then does to complete its start. -/
def launch (w : World σ) (s : Service σ) : List Act :=
  let s := s.attached w
  if s.site.node.config.noBootstrap then [.refresh]
  else .dial :: ((w.bootstrap s.site.world).1.2.map .connection ++ [.refresh])

/-- A peer has reported about itself, and has not left since. -/
def Reported (w : World σ) (p : PeerId) (s : Service σ) (acts : List Act) : Prop :=
  ∃ before c frame later, acts = before ++ .frame c p frame :: later ∧
    ((s.after w before).site.reportInFrame w c p frame).isSome = true ∧
    .connection (.closed p) ∉ later

variable {w : World σ} {p : PeerId} {s : Service σ} {acts : List Act}

theorem start_eq (h : s.stage = .idle) :
    (s.start w).2 = (s.attached w).after w (s.launch w) := by
  rw [start, if_neg (not_not_intro h), launch]
  dsimp only
  split
  · next hoff =>
    have hoff' : (s.attached w).site.node.config.noBootstrap = true := hoff
    rw [if_pos hoff']
    rfl
  · next hoff =>
    have hoff' : ¬ (s.attached w).site.node.config.noBootstrap = true := hoff
    rw [if_neg hoff', after, List.foldl_cons, List.foldl_append, List.foldl_map]
    rfl

theorem after_append_singleton (a : Act) :
    s.after w (acts ++ [a]) = (s.after w acts).act w a := by
  rw [after, List.foldl_append]
  rfl

theorem connectsAfter_append_singleton (connected : Bool) (a : Act) :
    Act.connectsAfter p connected (acts ++ [a]) =
      a.connects p (Act.connectsAfter p connected acts) := by
  rw [Act.connectsAfter, List.foldl_append]
  rfl

theorem reported_append_singleton {a : Act} :
    Reported w p s (acts ++ [a]) ↔
      (∃ c frame, a = .frame c p frame ∧
        ((s.after w acts).site.reportInFrame w c p frame).isSome = true) ∨
      a ≠ .connection (.closed p) ∧ Reported w p s acts := by
  constructor
  · rintro ⟨before, c, frame, later, heq, hreport, hstays⟩
    -- The report came in last, or what has happened last came after it.
    rcases later.eq_nil_or_concat with rfl | ⟨later, b, rfl⟩
    · obtain ⟨rfl, hlast⟩ := List.append_inj' heq rfl
      exact .inl ⟨c, frame, (List.cons.inj hlast).1, hreport⟩
    · rw [List.concat_eq_append] at heq hstays
      rw [← List.cons_append, ← List.append_assoc] at heq
      obtain ⟨rfl, hlast⟩ := List.append_inj' heq rfl
      obtain ⟨rfl, -⟩ := List.cons.inj hlast
      refine .inr ⟨?_, before, c, frame, later, rfl, hreport, ?_⟩
      · rintro rfl
        exact hstays (List.mem_append_right later List.mem_cons_self)
      · exact fun hmem => hstays (List.mem_append_left _ hmem)
  · rintro (⟨c, frame, rfl, hreport⟩ | ⟨hne, before, c, frame, later, rfl, hreport, hstays⟩)
    · exact ⟨acts, c, frame, [], rfl, hreport, List.not_mem_nil⟩
    · refine ⟨before, c, frame, later ++ [a], ?_, hreport, ?_⟩
      · rw [List.append_assoc, List.cons_append]
      · intro hmem
        rcases List.mem_append.1 hmem with hmem | hmem
        · exact hstays hmem
        · exact hne (List.mem_singleton.1 hmem).symm

/-! ## Who is in the roster -/

theorem has_attached (hroster : s.site.node.roster = .empty) (p : PeerId) :
    (s.attached w).site.node.roster.has p =
      decide (p ∈ w.connected (s.attached w).site.world) := by
  have hfold : ∀ (peers : List PeerId) (n : Node),
      (peers.foldl (fun n p => { n with roster := (n.roster.insert p).2 }) n).roster.has p =
        (decide (p ∈ peers) || n.roster.has p) := by
    intro peers
    induction peers with
    | nil => exact fun n => rfl
    | cons q peers ih =>
        intro n
        rw [List.foldl_cons, ih, Roster.has_insert]
        by_cases hq : q = p
        · simp [hq]
        · simp [hq, Ne.symm hq]
  have hall := hfold (w.connected (s.attached w).site.world) s.site.node
  rw [hroster, Roster.has_empty, Bool.or_false] at hall
  exact hall

theorem onConnection_of_has (h : s.site.node.roster.has p = true) (address : Option Multiaddr) :
    s.onConnection (.established p address) = s := by
  rw [onConnection, Roster.insert_of_has h]

theorem onConnection_of_not_has (h : s.site.node.roster.has p = false)
    (address : Option Multiaddr) :
    s.onConnection (.established p address) =
      { s.update (·.update fun n =>
          { n with roster := (s.site.node.roster.insert p).2 }.countPeers) with
        toGreet := s.toGreet ++ [p] } := by
  have hnew := Roster.insert_of_not_has h
  rw [onConnection]
  cases hinsert : s.site.node.roster.insert p with
  | mk new roster =>
      rw [hinsert] at hnew
      dsimp only at hnew
      subst hnew
      rfl

theorem has_established (p q : PeerId) (address : Option Multiaddr) (s : Service σ) :
    (s.onConnection (.established q address)).site.node.roster.has p =
      (decide (q = p) || s.site.node.roster.has p) := by
  have hinsert := Roster.has_insert s.site.node.roster q p
  cases hhas : s.site.node.roster.has q with
  | true =>
      rw [Roster.insert_of_has hhas] at hinsert
      rw [onConnection_of_has hhas]
      exact hinsert
  | false =>
      rw [onConnection_of_not_has hhas]
      exact hinsert

theorem has_closed (p q : PeerId) (s : Service σ) :
    (s.onConnection (.closed q)).site.node.roster.has p =
      (decide (q ≠ p) && s.site.node.roster.has p) :=
  Roster.has_remove s.site.node.roster q p

theorem has_frame (w : World σ) (p : PeerId) (c : Channel) (q : PeerId)
    (frame : Except FrameError (Option Bytes)) (s : Service σ) :
    (s.act w (.frame c q frame)).site.node.roster.has p =
      (decide (q = p) && (s.site.reportInFrame w c q frame).isSome ||
        s.site.node.roster.has p) := by
  have hroster : (s.act w (.frame c q frame)).site.node.roster =
      s.site.node.roster.note q (s.site.reportInFrame w c q frame) :=
    Site.roster_onFrame w c q frame s.site
  rw [hroster, Roster.has_note]

/-- Nothing but connections and frames shows in the roster. -/
theorem roster_act (w : World σ) (s : Service σ) {a : Act}
    (hconnection : ∀ e, a ≠ .connection e) (hframe : ∀ c p frame, a ≠ .frame c p frame) :
    (s.act w a).site.node.roster = s.site.node.roster := by
  let b : Bounds := .loose none
  have hheld : s.site.node.exchanges.Holds b.held := Bounds.holds_loose none _
  cases a with
  | connection e => exact absurd rfl (hconnection e)
  | frame c p frame => exact absurd rfl (hframe c p frame)
  | publish m =>
      cases m with
      | announce a => exact (Site.course_announce (p := default) trivial hheld).roster
      | transactions m =>
          exact (Site.course_gossip (p := default) (.inr trivial) none hheld).roster
      | handshake | request | response | status => rfl
  | request p r => exact (Site.Course.ask (b := b) (p := p) p r s.site).roster
  | greet p =>
      rw [act, greet]
      split
      · exact (Site.course_sendStatus (b := b) (p := p) p s.site).roster
      · rfl
  | dial | refresh => rfl
  | advance milliseconds =>
      rw [act, advance]
      split
      · rfl
      · split <;> rfl

/-- A peer is in the roster if it is connected, or if it has reported about itself and has not left
since. -/
theorem has_after_iff (w : World σ) (p : PeerId) (acts : List Act) (s : Service σ) :
    (s.after w acts).site.node.roster.has p = true ↔
      Act.connectsAfter p (s.site.node.roster.has p) acts = true ∨ Reported w p s acts := by
  -- The induction takes off what has happened last.
  induction acts using List.reverseRecOn with
  | nil =>
      refine (or_iff_left ?_).symm
      rintro ⟨before, c, frame, later, heq, -⟩
      exact List.append_ne_nil_of_right_ne_nil before (List.cons_ne_nil _ later) heq.symm
  | append_singleton acts a ih =>
      rw [after_append_singleton, connectsAfter_append_singleton, reported_append_singleton]
      cases a with
      | connection e =>
          cases e with
          | established q address =>
              rw [act, has_established, Bool.or_eq_true, ih]
              simp [Act.connects, or_assoc]
          | closed q =>
              rw [act, has_closed, Bool.and_eq_true, ih]
              by_cases hq : q = p
              · simp [Act.connects, hq]
              · simp [Act.connects, hq]
      | frame c q frame =>
          rw [has_frame, Bool.or_eq_true, ih]
          by_cases hq : q = p
          · subst hq
            simp [Act.connects, or_left_comm]
          · simp [Act.connects, hq]
      | _ =>
          rw [roster_act, ih]
          · simp [Act.connects]
          · exact nofun
          · exact nofun

/-! ## Who is greeted -/

/-- A greeting passes one status, which is that of the node, to the peer. -/
theorem greet_of_mem (w : World σ) {p : PeerId} {s : Service (σ × List Event)}
    (h : p ∈ s.toGreet) :
    (s.greet w.traced p).toGreet = s.toGreet.erase p ∧
      ∃ ok, (s.greet w.traced p).site.world.2 =
        .attempt ok p (.status (s.site.localStatus w.traced).1) :: s.site.world.2 := by
  have htrace : (s.site.localStatus w.traced).2.world.2 = s.site.world.2 := by
    obtain ⟨t, a, hgenesis, -⟩ := Site.exists_genesis w s.site
    simp only [Site.localStatus, hgenesis]
  rw [greet, if_pos h]
  refine ⟨rfl, ?_⟩
  dsimp only
  rw [Site.sendStatus, ← htrace]
  rcases Site.send_traced_cases w p (.status (s.site.localStatus w.traced).1)
    (s.site.localStatus w.traced).2 with ⟨a, hsend⟩ | ⟨e, a, hsend⟩
  · exact ⟨true, congrArg (·.2.world.2) hsend⟩
  · exact ⟨false, congrArg (·.2.world.2) hsend⟩

/-- Starting a service is beginning to start it and completing the start. Whatever happens to it
from its beginning on, and whoever it then finds to be connected that was not before: if this peer
has reported about itself and has not left since, nothing happens; else the peer is to be greeted
once more. A greeting passes one status, which is that of the node, to the peer, and is then
done. -/
theorem greets_newcomer (w : World σ) {s : Service (σ × List Event)} (hidle : s.stage = .idle)
    (hroster : s.site.node.roster = .empty) (acts : List Act) (p : PeerId)
    (address : Option Multiaddr)
    (hapart : Act.connectsAfter p
      (decide (p ∈ w.connected (s.attached w.traced).site.world.1)) acts = false) :
    (s.start w.traced).2 = (s.attached w.traced).after w.traced (s.launch w.traced) ∧
    let t := (s.attached w.traced).after w.traced acts
    let t' := t.onConnection (.established p address)
    (Reported w.traced p (s.attached w.traced) acts → t' = t) ∧
    (¬ Reported w.traced p (s.attached w.traced) acts →
      t'.site.world = t.site.world ∧ t'.toGreet = t.toGreet ++ [p]) ∧
    ∀ u : Service (σ × List Event), p ∈ u.toGreet →
      (u.greet w.traced p).toGreet = u.toGreet.erase p ∧
        ∃ ok, (u.greet w.traced p).site.world.2 =
          .attempt ok p (.status (u.site.localStatus w.traced).1) :: u.site.world.2 := by
  refine ⟨start_eq hidle, ?_⟩
  have hattached : (s.attached w.traced).site.node.roster.has p =
      decide (p ∈ w.connected (s.attached w.traced).site.world.1) := has_attached hroster p
  have hhas : ((s.attached w.traced).after w.traced acts).site.node.roster.has p = true ↔
      Reported w.traced p (s.attached w.traced) acts := by
    rw [has_after_iff, hattached, hapart]
    exact or_iff_right Bool.false_ne_true
  refine ⟨fun hreported => ?_, fun hsilent => ?_, fun u hu => greet_of_mem w hu⟩
  · exact onConnection_of_has (hhas.2 hreported) address
  · rw [onConnection_of_not_has (Bool.eq_false_iff.2 fun h => hsilent (hhas.1 h))]
    exact ⟨rfl, rfl⟩

/-- A service that has not been started. -/
def unstarted : Service (Unit × List Event) :=
  let site : Site (Unit × List Event) := ⟨.new .default, (), []⟩
  ⟨site, .idle, site.overview (World.idle .zero).traced, [], Config.default.refreshInterval⟩

/-- The status of a stranger on the same chain. -/
def strangerStatus : Act :=
  .frame .legacy stranger (.ok (some (Message.status ⟨1, 0, 1, 5, .zero, .zero, []⟩).payload))

/-- The stranger is greeted when it connects, but not if its status came in before. -/
theorem greets_newcomer_of_stranger :
    let w := (World.idle .zero).traced
    let start := (unstarted.start w).2
    let met := start.act w strangerStatus
    (start.onConnection (.established stranger none)).toGreet = start.toGreet ++ [stranger] ∧
      met.onConnection (.established stranger none) = met := by
  obtain ⟨hstart, -, hgreeted, -⟩ := greets_newcomer (World.idle .zero) (s := unstarted) rfl rfl
    (unstarted.launch (World.idle .zero).traced) stranger none (by decide +kernel)
  obtain ⟨-, hignored, -⟩ := greets_newcomer (World.idle .zero) (s := unstarted) rfl rfl
    (unstarted.launch (World.idle .zero).traced ++ [strangerStatus]) stranger none
    (by decide +kernel)
  dsimp only
  rw [hstart]
  constructor
  · refine (hgreeted ?_).2
    rintro ⟨before, c, frame, later, heq, -⟩
    have hmem : Act.frame c stranger frame ∈ unstarted.launch (World.idle .zero).traced := by
      rw [heq]
      exact List.mem_append_right before List.mem_cons_self
    have hlaunch : unstarted.launch (World.idle .zero).traced = [.dial, .refresh] := rfl
    rw [hlaunch] at hmem
    simp at hmem
  · rw [← after_append_singleton]
    exact hignored ⟨_, .legacy, _, [], rfl, by decide +kernel, List.not_mem_nil⟩

/-- The stranger has not been connected, its status comes in, and then it connects: nobody is to be
greeted, and nothing is sent to anybody. -/
theorem ungreeted_after_status :
    let w := (World.idle .zero).traced
    let met := (unstarted.start w).2.act w strangerStatus
    let joined := met.onConnection (.established stranger none)
    met.stage = .running ∧
      Act.connectsAfter stranger false (unstarted.launch w ++ [strangerStatus]) = false ∧
      joined.toGreet = [] ∧ (joined.greetAll w).site.world.2 = met.site.world.2 ∧
      ∀ e ∈ met.site.world.2, Event.sentTo? stranger .legacy e = none := by
  decide +kernel

end Service

end ChainPeer
