import ChainPeer.Proofs.Gossip
import ChainPeer.Proofs.Requests
import Mathlib.Data.List.DropRight

/-!
# Which transactions are new

Transactions count as new unless their hash is among the hashes that a node has taken in last. A hash
is taken in when it is new, be it that of transactions of a peer or of a message of our own, so one
that comes again keeps its place. Whatever is new is handed over once and passed on to all other
peers, whoever of them can be reached.
-/

namespace ChainPeer

namespace SeenWindow

variable {w : SeenWindow} {taken : List Hash}

/-- All hashes taken in, the oldest first, after one more has come. It is taken in unless it is among
the latest ones. -/
def enroll (capacity : Nat) (taken : List Hash) (x : Hash) : List Hash :=
  if x ∈ taken.rtake capacity then taken else taken ++ [x]

/-- The window remembers the latest of all hashes taken in. -/
structure Shows (w : SeenWindow) (taken : List Hash) : Prop extends w.Valid where
  toList_eq : w.toList = taken.rtake w.capacity

theorem rtake_concat (taken : List Hash) (x : Hash) (capacity : Nat) :
    (taken ++ [x]).rtake capacity =
      (taken.rtake capacity ++ [x]).drop ((taken.rtake capacity).length + 1 - capacity) := by
  have hexcess : taken.length - capacity ≤ taken.length := Nat.sub_le _ _
  rw [List.rtake, List.rtake, ← List.drop_append_of_le_length hexcess, List.drop_drop,
    List.length_drop, List.length_append, List.length_singleton]
  congr 1
  omega

theorem shows_empty (capacity : Nat) : (empty capacity).Shows [] :=
  ⟨valid_empty capacity, (List.rtake_nil capacity).symm⟩

theorem Shows.insert (h : w.Shows taken) (x : Hash) :
    (w.insert x).2.Shows (enroll w.capacity taken x) ∧ (w.insert x).2.capacity = w.capacity := by
  rw [enroll, ← h.toList_eq]
  by_cases hx : x ∈ w.toList
  · rw [insert_of_mem h.toSynced hx, if_pos hx]
    exact ⟨h, rfl⟩
  · obtain ⟨-, hlist, hcapacity, hvalid⟩ := insert_of_not_mem h.toValid hx
    rw [if_neg hx]
    refine ⟨⟨hvalid, ?_⟩, hcapacity⟩
    rw [hlist, hcapacity, rtake_concat, ← h.toList_eq]

end SeenWindow

variable {σ : Type}

/-! ## Passing on what may not arrive -/

/-- The attempts to send a message to some peers, in this order. The trace has the last one first. -/
def Event.attempts (m : Message) (outcomes : List (PeerId × Bool)) : List Event :=
  (outcomes.map fun (p, ok) => .attempt ok p m).reverse

/-- The call with which a message is handed over, if the other subsystems take any. -/
def World.handover (w : World σ) (p : PeerId) (m : Message) : List Event :=
  if w.deliver.isSome then [.delivered p m] else []

/-- The world after a message was handed over. -/
def World.handed (w : World σ) (p : PeerId) (m : Message) (a : σ) : σ :=
  match w.deliver with
  | some d => d p m a
  | none => a

namespace Site

variable {w : World σ} {p : PeerId} {m : Message} {s : Site (σ × List Event)}

/-- The message is sent to all peers that it is for, and each of them once, however many of them
cannot be reached. -/
theorem forward_traced (w : World σ) (m : Message) (except : Option PeerId)
    (s : Site (σ × List Event)) :
    ∃ outcomes : List (PeerId × Bool),
      outcomes.map Prod.fst = ((w.connected s.world.1).filter fun p => some p ≠ except) ∧
      (s.forward w.traced m except).world.2 = Event.attempts m outcomes ++ s.world.2 ∧
      (s.forward w.traced m except).node = s.node.count fun c =>
        { c with messagesSent := c.messagesSent + outcomes.countP Prod.snd } := by
  have hfold : ∀ (targets : List PeerId) (s : Site (σ × List Event)),
      ∃ outcomes : List (PeerId × Bool), outcomes.map Prod.fst = targets ∧
        (targets.foldl (fun s p => (s.send w.traced p m).2) s).world.2 =
          Event.attempts m outcomes ++ s.world.2 ∧
        (targets.foldl (fun s p => (s.send w.traced p m).2) s).node = s.node.count fun c =>
          { c with messagesSent := c.messagesSent + outcomes.countP Prod.snd } := by
    intro targets
    induction targets with
    | nil => exact fun s => ⟨[], rfl, rfl, rfl⟩
    | cons p targets ih =>
        intro s
        obtain ⟨outcomes, hpeers, htrace, hnode⟩ := ih (s.send w.traced p m).2
        rw [List.foldl_cons, htrace, hnode]
        rcases send_traced_cases w p m s with ⟨a, hsend⟩ | ⟨e, a, hsend⟩
        · refine ⟨(p, true) :: outcomes, by rw [List.map_cons, hpeers], ?_, ?_⟩
          · rw [hsend]
            simp [Event.attempts]
          · rw [hsend]
            simp [Node.countSent, Node.count, Nat.add_assoc, Nat.add_comm 1]
        · refine ⟨(p, false) :: outcomes, by rw [List.map_cons, hpeers], ?_, ?_⟩
          · rw [hsend]
            simp [Event.attempts]
          · rw [hsend]
            simp
  exact hfold _ s

theorem deliver_traced (w : World σ) (p : PeerId) (m : Message) (s : Site (σ × List Event)) :
    s.deliver w.traced p m =
      ⟨s.node, w.handed p m s.world.1, w.handover p m ++ s.world.2⟩ := by
  have hdeliver : w.traced.deliver =
      w.deliver.map fun d p m s => (d p m s.1, .delivered p m :: s.2) := rfl
  rw [deliver, World.handover, World.handed, hdeliver]
  cases w.deliver <;> rfl

theorem onGossip_of_mem {w : World (σ × List Event)} (hseen : s.node.seen.Valid)
    (h : m.gossipHash ∈ s.node.seen.toList) :
    s.onGossip w p m =
      s.update (·.count fun c => { c with gossipDuplicates := c.gossipDuplicates + 1 }) := by
  rw [onGossip, SeenWindow.insert_of_mem hseen.toSynced h]

theorem onGossip_of_not_mem {w : World (σ × List Event)} (hseen : s.node.seen.Valid)
    (h : m.gossipHash ∉ s.node.seen.toList) :
    s.onGossip w p m =
      ((s.update fun n => { n with seen := (n.seen.insert m.gossipHash).2 }).deliver w p m).forward
        w m (some p) := by
  have hinsert : s.node.seen.insert m.gossipHash =
      (true, (s.node.seen.insert m.gossipHash).2) :=
    Prod.ext (SeenWindow.insert_of_not_mem hseen h).1 rfl
  rw [onGossip, hinsert]
  rfl

theorem seen_forward (w : World σ) (m : Message) (except : Option PeerId)
    (s : Site (σ × List Event)) : (s.forward w.traced m except).node.seen = s.node.seen := by
  obtain ⟨outcomes, -, -, hnode⟩ := forward_traced w m except s
  rw [hnode]
  rfl

theorem seen_onGossip (w : World σ) (p : PeerId) (m : Message) (hseen : s.node.seen.Valid) :
    (s.onGossip w.traced p m).node.seen = (s.node.seen.insert m.gossipHash).2 := by
  by_cases h : m.gossipHash ∈ s.node.seen.toList
  · rw [onGossip_of_mem hseen h, SeenWindow.insert_of_mem hseen.toSynced h]
    rfl
  · rw [onGossip_of_not_mem hseen h, seen_forward, deliver_traced]
    rfl

end Site

/-! ## Calls -/

/-- What can be called on a site for what is passed on: transactions of a peer come, a message of
another subsystem is to be passed on, or all is forgotten. -/
inductive GossipCall where
  | hear (p : PeerId) (m : Transactions)
  | tell (m : Message) (except : Option PeerId)
  | reset

namespace GossipCall

/-- The site after a call. -/
def run (w : World σ) (s : Site σ) : GossipCall → Site σ
  | hear p m => (s.handle w .legacy p (.transactions m)).2
  | tell m except => (s.gossip w m except).2
  | reset => s.update (·.reset .legacy)

/-- All hashes taken in since the last reset, the oldest first, after one more call. -/
def enroll (taken : List Hash) : GossipCall → List Hash
  | hear _ m => SeenWindow.enroll Node.seenCapacity taken (Message.transactions m).gossipHash
  | tell m _ => SeenWindow.enroll Node.seenCapacity taken m.gossipHash
  | reset => []

/-- The latest of the hashes taken in since the last reset, as many as a node remembers. -/
def latest (calls : List GossipCall) : List Hash :=
  (calls.foldl enroll []).rtake Node.seenCapacity

end GossipCall

namespace Site

variable {w : World σ} {s : Site (σ × List Event)}

/-- The window of the site remembers the latest of all hashes taken in. -/
structure Remembers (s : Site σ) (taken : List Hash) : Prop extends s.node.seen.Shows taken where
  capacity_eq : s.node.seen.capacity = Node.seenCapacity

theorem Remembers.of_insert {taken : List Hash} (h : s.Remembers taken)
    {t : Site (σ × List Event)} {x : Hash}
    (ht : t.node.seen = (s.node.seen.insert x).2) :
    t.Remembers (SeenWindow.enroll Node.seenCapacity taken x) := by
  obtain ⟨hshows, hcapacity⟩ := h.toShows.insert x
  rw [← h.capacity_eq]
  refine ⟨?_, ?_⟩
  · rw [ht]
    exact hshows
  · rw [ht, hcapacity, h.capacity_eq]

theorem Remembers.run {taken : List Hash} (h : s.Remembers taken) (w : World σ) (c : GossipCall) :
    (c.run w.traced s).Remembers (c.enroll taken) := by
  cases c with
  | hear p m =>
      rw [GossipCall.enroll]
      apply h.of_insert
      exact seen_onGossip w p (.transactions m) h.toValid
  | tell m except =>
      rw [GossipCall.enroll]
      apply h.of_insert
      exact seen_forward w m except _
  | reset =>
      refine ⟨?_, h.capacity_eq⟩
      exact SeenWindow.shows_empty _

theorem Remembers.after {taken : List Hash} (h : s.Remembers taken) (w : World σ)
    (calls : List GossipCall) :
    (calls.foldl (GossipCall.run w.traced) s).Remembers (calls.foldl GossipCall.enroll taken) := by
  induction calls generalizing s taken with
  | nil => exact h
  | cons c calls ih => exact ih (h.run w c)

/-- Whatever transactions come, whatever is passed on and however often all is forgotten. Of the
hashes taken in since the last reset, the window of the node holds the latest, as a set and as a queue
alike. Transactions of a peer whose hash is among these are counted, and nothing else happens. All
others are handed over once, if the other subsystems take any, and after that are sent once to each
connected peer but the one they are from, whether or not the others could be reached; of the node
nothing changes then but the window and the count of what was sent. A message of another subsystem is
sent in the same way, new or not, and neither of the two ever fails. -/
theorem handed_over_if_new (w : World σ) (calls : List GossipCall)
    (hseen : s.node.seen = .empty Node.seenCapacity) :
    let t := calls.foldl (GossipCall.run w.traced) s
    let window := GossipCall.latest calls
    (t.node.seen.toList = window ∧ window.Nodup ∧ window.length ≤ Node.seenCapacity ∧
      (∀ x, t.node.seen.members.contains x = true ↔ x ∈ window) ∧
      t.node.seen.members.size = window.length) ∧
    (∀ p m, let x : Message := .transactions m
      let t' := (t.handle w.traced .legacy p x).2
      (t.handle w.traced .legacy p x).1 = .ok () ∧
      (x.gossipHash ∈ window →
        t' = t.update (·.count fun c => { c with gossipDuplicates := c.gossipDuplicates + 1 })) ∧
      (x.gossipHash ∉ window →
        ∃ outcomes : List (PeerId × Bool),
          outcomes.map Prod.fst =
            ((w.connected (w.handed p x t.world.1)).filter fun q => some q ≠ some p) ∧
          t'.world.2 = Event.attempts x outcomes ++ w.handover p x ++ t.world.2 ∧
          t'.node = { t.node with
            seen := (t.node.seen.insert x.gossipHash).2
            metrics := { t.node.metrics with
              messagesSent := t.node.metrics.messagesSent + outcomes.countP Prod.snd } })) ∧
    ∀ m except, ∃ outcomes : List (PeerId × Bool),
      outcomes.map Prod.fst =
        ((w.connected t.world.1).filter fun q => some q ≠ except) ∧
      (t.gossip w.traced m except).1 = .ok () ∧
      (t.gossip w.traced m except).2.world.2 = Event.attempts m outcomes ++ t.world.2 := by
  intro t window
  have hstart : s.Remembers [] :=
    ⟨hseen ▸ SeenWindow.shows_empty _, by rw [hseen]; rfl⟩
  have ht : t.Remembers (calls.foldl GossipCall.enroll []) := hstart.after w calls
  have hlist : t.node.seen.toList = window := by
    rw [ht.toList_eq, ht.capacity_eq]
    rfl
  refine ⟨⟨hlist, ?_, ?_, ?_, ?_⟩, fun p m => ⟨rfl, fun hold => ?_, fun hnew => ?_⟩, fun m except => ?_⟩
  · exact hlist ▸ ht.nodup
  · rw [← hlist, ← ht.capacity_eq]
    exact ht.length_le
  · exact hlist ▸ ht.contains_iff
  · exact hlist ▸ ht.size_eq
  · exact onGossip_of_mem ht.toValid (hlist ▸ hold)
  · have hgossip := onGossip_of_not_mem (w := w.traced) (p := p) ht.toValid (hlist ▸ hnew)
    rw [deliver_traced] at hgossip
    obtain ⟨outcomes, hpeers, htrace, hnode⟩ := forward_traced w (.transactions m) (some p) _
    rw [← hgossip] at htrace hnode
    refine ⟨outcomes, hpeers, ?_, hnode⟩
    rw [List.append_assoc]
    exact htrace
  · obtain ⟨outcomes, hpeers, htrace, -⟩ := forward_traced w m except
      (t.update fun n => { n with seen := (n.seen.insert m.gossipHash).2 })
    exact ⟨outcomes, hpeers, rfl, htrace⟩

/-- The transactions of the supplier are handed over and sent to the stranger, in vain. When the
stranger sends the same ones, they are only counted. -/
theorem handed_over_if_new_of_repeated :
    let w : World Unit :=
      { World.idle .zero with
        connected := fun _ => [supplier, stranger]
        send := fun _ _ _ _ => (.error .closed, ())
        deliver := some fun _ _ a => a }
    let m : Message := .transactions ⟨[]⟩
    let s : Site (Unit × List Event) := ⟨.new .default, (), []⟩
    let once := (s.handle w.traced .legacy supplier m).2
    (∃ ok, once.world.2 = [.attempt ok stranger m, .delivered supplier m]) ∧
      (once.handle w.traced .legacy stranger m).2 =
        once.update (·.count fun c => { c with gossipDuplicates := c.gossipDuplicates + 1 }) := by
  intro w m s once
  obtain ⟨-, hnew, -⟩ := handed_over_if_new (s := s) w [] rfl
  obtain ⟨-, hold, -⟩ := handed_over_if_new (s := s) w [.hear supplier ⟨[]⟩] rfl
  constructor
  · obtain ⟨outcomes, hpeers, htrace, -⟩ := (hnew supplier ⟨[]⟩).2.2 List.not_mem_nil
    obtain ⟨⟨q, ok⟩, rfl⟩ : ∃ outcome, outcomes = [outcome] :=
      List.length_eq_one_iff.1 (by rw [← List.length_map (f := Prod.fst), hpeers]; decide)
    obtain rfl : q = stranger := List.singleton_inj.1 hpeers
    exact ⟨ok, htrace⟩
  · apply (hold stranger ⟨[]⟩).2.1
    exact List.mem_singleton.2 rfl

end Site

end ChainPeer
