import ChainPeer.Proofs.Departure

/-!
# What is counted as sent

A node counts every payload that gets through to a peer when the node sends it, whatever it is sent
for: as a reply, a handshake, a request or a greeting, to flush what was held back or to pass
something on. What fails is not counted. The one thing that goes to peers past the node is a status
that another subsystem broadcasts: the transport sends it, and nobody counts it.
-/

namespace ChainPeer

variable {σ : Type}

/-- How many of some peers a payload gets through to, when it is sent to one after the other. -/
def Transport.reached (t : Transport σ) (c : Channel) (payload : Bytes) : List PeerId → σ → Nat
  | [], _ => 0
  | p :: peers, a =>
    (t.send p c payload a).1.isOk.toNat + t.reached c payload peers (t.send p c payload a).2

/-- A traced send adds one event, which says whether the payload got through. -/
theorem World.countP_isSent_send (w : World σ) (p : PeerId) (c : Channel) (payload : Bytes)
    (a : σ × List Event) :
    (w.traced.send p c payload a).2.2.countP Event.isSent =
      (w.traced.send p c payload a).1.isOk.toNat + a.2.countP Event.isSent := by
  cases hresult : w.send p c payload a.1 with
  | mk result b =>
      simp only [World.traced, Transport.traced, hresult]
      cases result with
      | ok => exact (List.countP_cons_of_pos rfl).trans (Nat.add_comm _ 1)
      | error e => exact (List.countP_cons_of_neg Bool.false_ne_true).trans (Nat.zero_add _).symm

theorem World.countP_isSent_broadcast (w : World σ) (c : Channel) (payload : Bytes)
    (a : σ × List Event) :
    (w.traced.toTransport.broadcast c payload a).2.countP Event.isSent =
      w.traced.reached c payload (w.traced.connected a) a + a.2.countP Event.isSent := by
  rw [Transport.broadcast]
  generalize w.traced.connected a = peers
  induction peers generalizing a with
  | nil => exact (Nat.zero_add _).symm
  | cons p peers ih =>
      rw [List.foldl_cons, ih, countP_isSent_send, Transport.reached]
      omega

/-- What a service is made to do, or a change in the world around it, in which nothing is sent. -/
inductive Move.Usual : Move (σ × List Event) → Prop where
  | own {m : Move (σ × List Event)} (h : m.isOwn = true) : Usual m
  | around (f : σ → σ) : Usual (.change fun t => ⟨t.node, f t.world.1, t.world.2⟩)

namespace Service

/-- How many payloads get through to peers in a move past the node. -/
def bypassing (w : World σ) (s : Service σ) : Move σ → Nat
  | .act (.publish (.status m)) =>
    w.reached .legacy (Message.status m).payload (w.connected s.site.world) s.site.world
  | _ => 0

/-- How many payloads get through to peers in moves past the node, the oldest move first. -/
def bypassed (w : World σ) : List (Move σ) → Service σ → Nat
  | [], _ => 0
  | m :: moves, s => s.bypassing w m + bypassed w moves (s.move w m)

/-- How many messages the node has counted as sent. -/
def counted (s : Service σ) : Nat := s.site.node.metrics.messagesSent

/-- How many payloads have got through to peers. -/
def passed (s : Service (σ × List Event)) : Nat := s.site.world.2.countP Event.isSent

variable {w : World σ} {s : Service (σ × List Event)} {moves : List (Move (σ × List Event))}

theorem bypassing_of_not_status {m : Move σ} (hm : ∀ x, m ≠ .act (.publish (.status x)))
    (w : World σ) (s : Service σ) : s.bypassing w m = 0 := by
  unfold bypassing
  split
  · next x => exact absurd rfl (hm x)
  · rfl

theorem bypassed_eq_zero {moves : List (Move σ)}
    (h : ∀ x, .act (.publish (.status x)) ∉ moves) (w : World σ) (s : Service σ) :
    s.bypassed w moves = 0 := by
  induction moves generalizing s with
  | nil => rfl
  | cons m moves ih =>
      have hm : ∀ x, m ≠ .act (.publish (.status x)) := by
        rintro x rfl
        exact h x List.mem_cons_self
      rw [bypassed, bypassing_of_not_status hm, ih fun x hx => h x (List.mem_cons_of_mem m hx)]

theorem passed_act (a : Act) (w : World σ) (s : Service (σ × List Event)) :
    (s.act w.traced a).counted + s.bypassing w.traced (.act a) + s.passed =
      s.counted + (s.act w.traced a).passed := by
  by_cases ha : ∃ x, a = .publish (.status x)
  · obtain ⟨x, rfl⟩ := ha
    have hpassed : (s.act w.traced (.publish (.status x))).passed =
        s.bypassing w.traced (.act (.publish (.status x))) + s.passed :=
      w.countP_isSent_broadcast .legacy (Message.status x).payload s.site.world
    have hcounted : (s.act w.traced (.publish (.status x))).counted = s.counted := rfl
    omega
  · have hnot : ∀ x, a ≠ .publish (.status x) := fun x hx => ha ⟨x, hx⟩
    rw [bypassing_of_not_status fun x hx => hnot x (Move.act.inj hx)]
    exact (proceeds_act hnot s).account

/-- What gets through in a move is counted or goes past the node. -/
theorem passed_move {m : Move (σ × List Event)} (hm : m.Usual) (w : World σ)
    (s : Service (σ × List Event)) :
    (s.move w.traced m).counted + s.bypassing w.traced m + s.passed =
      s.counted + (s.move w.traced m).passed := by
  cases hm with
  | around f => rfl
  | own hown =>
    cases m with
    | start =>
        have hstart : s.site.Proceeds none none (s.start w.traced).2.site := proceeds_start s
        exact hstart.account
    | stop =>
        have hstop : s.site.Proceeds none none (s.stop w.traced).2.site := proceeds_stop s
        exact hstop.account
    | act a => exact passed_act a w s
    | change f => exact nomatch hown

theorem passed_moved (husual : ∀ m ∈ moves, m.Usual) (w : World σ)
    (s : Service (σ × List Event)) :
    (s.moved w.traced moves).counted + s.bypassed w.traced moves + s.passed =
      s.counted + (s.moved w.traced moves).passed := by
  induction moves generalizing s with
  | nil => rfl
  | cons m moves ih =>
      obtain ⟨hm, hmoves⟩ := List.forall_mem_cons.1 husual
      have hfirst := passed_move hm w s
      have hrest := ih hmoves (s.move w.traced m)
      rw [moved, List.foldl_cons, bypassed]
      rw [moved] at hrest
      omega

/-- Nothing has been sent or counted when a service is made. -/
theorem counted_new {config : Config} {a : σ} {b : σ × List Event}
    (h : new w.traced config (a, []) = (.ok s, b)) : s.counted = 0 ∧ s.passed = 0 := by
  rw [new] at h
  split at h
  · cases h
  · split at h
    · cases h
    · dsimp only at h
      split at h
      · cases h
      · cases h
        exact ⟨rfl, rfl⟩

/-- A service is made and then does anything, whatever comes in, whichever sends fail and however
the world changes meanwhile. The payloads that have got through to peers are the messages that the
node has counted as sent, and those that went past the node when a status was broadcast. As long as
none is broadcast, the node has counted all. -/
theorem counted_add_bypassed (w : World σ) {config : Config} {a : σ} {b : σ × List Event}
    (hnew : new w.traced config (a, []) = (.ok s, b)) (husual : ∀ m ∈ moves, m.Usual) :
    let t := s.moved w.traced moves
    t.counted + s.bypassed w.traced moves = t.passed ∧
      ((∀ x, .act (.publish (.status x)) ∉ moves) → t.counted = t.passed) := by
  intro t
  obtain ⟨hcounted, hpassed⟩ := counted_new hnew
  have hmoved := passed_moved husual w s
  rw [hcounted, hpassed, Nat.add_zero, Nat.zero_add] at hmoved
  refine ⟨hmoved, fun hsilent => ?_⟩
  rw [bypassed_eq_zero hsilent, Nat.add_zero] at hmoved
  exact hmoved

/-- A world in which the stranger is connected. -/
def strangerAround : World Unit := { World.idle .zero with connected := fun _ => [stranger] }

/-- Another subsystem broadcasts a status. -/
def statusBroadcast : Move (Unit × List Event) :=
  .act (.publish (.status ⟨1, 0, 1, 5, .zero, .zero, []⟩))

/-- The supplier has come and is greeted, and a status goes to the stranger: two payloads have got
through, one of them past the node. -/
theorem counted_add_bypassed_of_statusBroadcast :
    let w := strangerAround.traced
    let moves :=
      [.start, .act (.connection (.established supplier none)), .act (.greet supplier),
        statusBroadcast]
    ∃ s b, new w .default ((), []) = (.ok s, b) ∧ s.bypassed w moves = 1 ∧
      (s.moved w moves).counted + 1 = (s.moved w moves).passed := by
  intro w moves
  have hown : ∀ m ∈ moves, m.isOwn = true := by simp [moves, statusBroadcast, Move.isOwn]
  have husual : ∀ m ∈ moves, m.Usual := fun m hm => .own (hown m hm)
  obtain ⟨s, hnew, hpast⟩ : ∃ s, new w .default ((), []) = (.ok s, s.site.world) ∧
      s.bypassed w moves = 1 := ⟨_, rfl, by decide +kernel⟩
  obtain ⟨hall, -⟩ := counted_add_bypassed strangerAround hnew husual
  rw [hpast] at hall
  exact ⟨s, _, hnew, hpast, hall⟩

/-- The status has got through to the stranger, and the node has counted nothing. -/
theorem uncounted_statusBroadcast :
    let t := unstarted.moved strangerAround.traced [.start, statusBroadcast]
    t.stage = .running ∧ t.counted = 0 ∧ t.passed = 1 := by
  decide +kernel

end Service

end ChainPeer
