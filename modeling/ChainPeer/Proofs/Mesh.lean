import ChainPeer.Proofs.Gossip
import ChainPeer.Proofs.Line
import Mathlib.Algebra.BigOperators.Group.Finset.Piecewise
import Mathlib.Algebra.Order.BigOperators.Group.Finset
import Mathlib.Logic.Relation

/-!
# Transactions flooding a mesh

Nodes that are connected to each other in any way, one of which passes transactions of its own on.
The frames in flight may arrive in any order, and a node drops a frame that is longer than it takes.
Every other node hands the transactions over at most once, no connection carries them more than once
in each direction, and once nothing is in flight they have been handed over wherever they could get.
-/

namespace ChainPeer

open Relation

/-- Connected nodes, and transactions that one of them passes on. Each node has its own settings. -/
structure Mesh (ι : Type) (σ : ι → Type) where
  peer : ι → PeerId
  peer_injective : Function.Injective peer
  config : ι → Config
  neighbours : ι → List ι
  neighbours_symm : ∀ i j, j ∈ neighbours i → i ∈ neighbours j
  world : (i : ι) → World (σ i)
  world_open : ∀ i, (world i).Open ((neighbours i).map peer)
  origin : ι
  transactions : Transactions
  sized : (Message.transactions transactions).Sized
  length_lt : (Message.transactions transactions).payload.length < 2 ^ 64

/-- The sites of the nodes, and the number of frames of each node that each other one has taken
in. -/
structure MeshState {ι : Type} (σ : ι → Type) where
  site : (i : ι) → Site (σ i × List Event)
  taken : ι → ι → Nat

/-- Whether the call sends a payload to some peer. -/
def Event.isFrame (payload : Bytes) : Event → Bool
  | .sent _ .legacy b => b = payload
  | _ => false

/-- Whether the call hands a message of some peer over. -/
def Event.isDelivery (m : Message) : Event → Bool
  | .delivered _ m' => m' = m
  | _ => false

theorem Event.countP_isFrame_sentToAll (peers : List PeerId) (m : Message) :
    (sentToAll peers m).countP (isFrame m.payload) = peers.length := by
  simp [sentToAll, List.countP_map, Function.comp_def, isFrame]

theorem Event.countP_isDelivery_sentToAll (peers : List PeerId) (m : Message) :
    (sentToAll peers m).countP (isDelivery m) = 0 := by
  simp [sentToAll, List.countP_map, Function.comp_def, isDelivery]

theorem Event.count_sentToAll (peers : List PeerId) (m : Message) (p : PeerId) :
    (sentToAll peers m).count (.sent p .legacy m.payload) = peers.count p := by
  have hinjective : Function.Injective fun q : PeerId => sent q .legacy m.payload :=
    fun _ _ h => (sent.inj h).1
  rw [sentToAll, List.count_reverse]
  exact List.count_map_of_injective peers _ hinjective p

namespace Mesh

variable {ι : Type} {σ : ι → Type} (M : Mesh ι σ)

/-- What is passed on. -/
def message : Message := .transactions M.transactions

/-- The message gets from one node to the other if the one has it: they are connected, and the other
one takes a message of this length. -/
def Carries (i j : ι) : Prop := j ∈ M.neighbours i ∧ (M.config j).Takes M.message

/-! ## One node -/

/-- The number of frames to a node. -/
def frames (sp : Spot) (i : ι) : Nat := sp.trace.count (.sent (M.peer i) .legacy M.message.payload)

/-- The number of frames to anyone. -/
def sent (sp : Spot) : Nat := sp.trace.countP (Event.isFrame M.message.payload)

/-- How often the message was handed over. -/
def handed (sp : Spot) : Nat := sp.trace.countP (Event.isDelivery M.message)

/-- Whether the message is remembered. -/
def Seen (sp : Spot) : Prop := M.message.gossipHash ∈ sp.seen.toList

/-- A node after it has passed its own message on. -/
def launched (i : ι) (sp : Spot) : Spot :=
  { seen := (sp.seen.insert M.message.gossipHash).2
    trace := Event.sentToAll ((M.neighbours i).map M.peer) M.message ++ sp.trace }

/-- A node after the message, which was new to it, came from another one. -/
def passedOn (i j : ι) (sp : Spot) : Spot :=
  { seen := (sp.seen.insert M.message.gossipHash).2
    trace :=
      Event.sentToAll (((M.neighbours j).map M.peer).filter fun q => some q ≠ some (M.peer i))
        M.message ++ .delivered (M.peer i) M.message :: sp.trace }

variable {M} {sp : Spot} {i j k : ι}

theorem frames_launched_pos_iff :
    0 < M.frames (M.launched i sp) k ↔ k ∈ M.neighbours i ∨ 0 < M.frames sp k := by
  rw [frames, launched, List.count_append, Event.count_sentToAll, Nat.add_pos_iff_pos_or_pos,
    List.count_pos_iff, List.mem_map_of_injective M.peer_injective]
  rfl

theorem sent_launched (i : ι) (sp : Spot) :
    M.sent (M.launched i sp) = (M.neighbours i).length + M.sent sp := by
  rw [sent, launched, List.countP_append, Event.countP_isFrame_sentToAll, List.length_map]
  rfl

theorem handed_launched (i : ι) (sp : Spot) : M.handed (M.launched i sp) = M.handed sp := by
  rw [handed, launched, List.countP_append, Event.countP_isDelivery_sentToAll, Nat.zero_add]
  rfl

theorem frames_passedOn_pos_iff :
    0 < M.frames (M.passedOn i j sp) k ↔ k ∈ M.neighbours j ∧ k ≠ i ∨ 0 < M.frames sp k := by
  have hdelivered : List.count (.sent (M.peer k) .legacy M.message.payload)
      (.delivered (M.peer i) M.message :: sp.trace) = M.frames sp k :=
    List.count_cons_of_ne (by simp)
  rw [frames, passedOn, List.count_append, Event.count_sentToAll, hdelivered,
    Nat.add_pos_iff_pos_or_pos, List.count_pos_iff, List.mem_filter,
    List.mem_map_of_injective M.peer_injective]
  simp [M.peer_injective.eq_iff]

theorem frames_le_passedOn (i j k : ι) (sp : Spot) :
    M.frames sp k ≤ M.frames (M.passedOn i j sp) k := by
  have hsublist : sp.trace.Sublist (M.passedOn i j sp).trace :=
    (List.sublist_cons_self _ _).trans (List.sublist_append_right _ _)
  exact hsublist.count_le _

theorem sent_passedOn_le (i j : ι) (sp : Spot) :
    M.sent (M.passedOn i j sp) ≤ (M.neighbours j).length + M.sent sp := by
  have hfilter := List.length_filter_le (fun q => some q ≠ some (M.peer i))
    ((M.neighbours j).map M.peer)
  rw [List.length_map] at hfilter
  rw [sent, passedOn, List.countP_append, Event.countP_isFrame_sentToAll, List.countP_cons]
  exact Nat.add_le_add hfilter (Nat.le_refl _)

theorem handed_passedOn (i j : ι) (sp : Spot) :
    M.handed (M.passedOn i j sp) = M.handed sp + 1 := by
  rw [handed, passedOn, List.countP_append, Event.countP_isDelivery_sentToAll, Nat.zero_add,
    List.countP_cons_of_pos]
  · rfl
  · simp [Event.isDelivery]

/-! ## All nodes -/

/-- How what the nodes have seen, sent and handed over goes together with each other and with the
numbers of frames taken in. -/
structure Consistent (M : Mesh ι σ) (spot : ι → Spot) (taken : ι → ι → Nat) : Prop where
  valid : ∀ i, (spot i).seen.Valid
  room : ∀ i, 0 < (spot i).seen.capacity
  taken_le : ∀ i j, taken i j ≤ M.frames (spot i) j
  sender : ∀ i j, 0 < M.frames (spot i) j → M.Seen (spot i) ∧ j ∈ M.neighbours i
  arrived : ∀ i j, 0 < taken i j → (M.config j).Takes M.message → M.Seen (spot j)
  reached : ∀ i, M.Seen (spot i) → ReflTransGen M.Carries M.origin i
  passed : ∀ i j, M.Seen (spot i) → j ∈ M.neighbours i →
    0 < M.frames (spot i) j ∨ M.Seen (spot j)
  sent_le : ∀ i, M.sent (spot i) ≤ (M.neighbours i).length
  unseen : ∀ i, ¬ M.Seen (spot i) → M.sent (spot i) = 0 ∧ M.handed (spot i) = 0
  handed_origin : M.handed (spot M.origin) = 0
  handed_seen : ∀ i, i ≠ M.origin → M.Seen (spot i) → M.handed (spot i) = 1

variable [DecidableEq ι] {spot : ι → Spot} {taken : ι → ι → Nat}

/-- One more frame is taken in. -/
def take (i j : ι) (taken : ι → ι → Nat) (k l : ι) : Nat :=
  if k = i ∧ l = j then taken i j + 1 else taken k l

namespace Consistent

/-- A frame is taken in by a node that has seen the message or does not take it. -/
theorem take (h : M.Consistent spot taken) (hflight : taken i j < M.frames (spot i) j)
    (hold : (M.config j).Takes M.message → M.Seen (spot j)) :
    M.Consistent spot (take i j taken) where
  valid := h.valid
  room := h.room
  taken_le k l := by
    unfold Mesh.take
    split
    · next hkl =>
      obtain ⟨rfl, rfl⟩ := hkl
      exact hflight
    · exact h.taken_le k l
  sender := h.sender
  arrived k l hpos := by
    unfold Mesh.take at hpos
    split at hpos
    · next hkl =>
      obtain ⟨rfl, rfl⟩ := hkl
      exact hold
    · exact h.arrived k l hpos
  reached := h.reached
  passed := h.passed
  sent_le := h.sent_le
  unseen := h.unseen
  handed_origin := h.handed_origin
  handed_seen := h.handed_seen

theorem seen_update (h : M.Seen sp) (hk : M.Seen (spot k)) :
    M.Seen (Function.update spot j sp k) := by
  rw [Function.update_apply]
  split
  · exact h
  · exact hk

/-- A node sees the message for the first time, and passes it on to every neighbour that has not
seen it. -/
theorem update (h : M.Consistent spot taken)
    (hinsert : sp.seen = ((spot j).seen.insert M.message.gossipHash).2)
    (hreached : ReflTransGen M.Carries M.origin j)
    (hgrows : ∀ l, M.frames (spot j) l ≤ M.frames sp l)
    (hsender : ∀ l, 0 < M.frames sp l → l ∈ M.neighbours j)
    (hpassed : ∀ l ∈ M.neighbours j, 0 < M.frames sp l ∨ M.Seen (spot l))
    (hsent : M.sent sp ≤ (M.neighbours j).length)
    (hhanded : M.handed sp = if j = M.origin then 0 else 1) :
    M.Consistent (Function.update spot j sp) taken := by
  obtain ⟨hvalid, hcapacity⟩ := (h.valid j).insert M.message.gossipHash
  rw [← hinsert] at hvalid hcapacity
  have hseen : M.Seen sp := by
    rw [Seen, hinsert]
    exact SeenWindow.mem_insert (h.valid j) (h.room j)
  have hforall : ∀ P : ι → Spot → Prop, P j sp → (∀ k, k ≠ j → P k (spot k)) →
      ∀ k, P k (Function.update spot j sp k) := fun P hj hk =>
    (Function.forall_update_iff spot P).2 ⟨hj, hk⟩
  constructor
  case valid => exact hforall (fun _ sp => sp.seen.Valid) hvalid fun k _ => h.valid k
  case room =>
    exact hforall (fun _ sp => 0 < sp.seen.capacity) (hcapacity ▸ h.room j) fun k _ => h.room k
  case taken_le =>
    exact hforall (fun k sp => ∀ l, taken k l ≤ M.frames sp l)
      (fun l => (h.taken_le j l).trans (hgrows l)) fun k _ => h.taken_le k
  case sender =>
    exact hforall (fun k sp => ∀ l, 0 < M.frames sp l → M.Seen sp ∧ l ∈ M.neighbours k)
      (fun l hpos => ⟨hseen, hsender l hpos⟩) fun k _ => h.sender k
  case arrived => exact fun k l hpos htakes => seen_update hseen (h.arrived k l hpos htakes)
  case reached =>
    exact hforall (fun k sp => M.Seen sp → ReflTransGen M.Carries M.origin k)
      (fun _ => hreached) fun k _ => h.reached k
  case passed =>
    exact hforall (fun k sp' => ∀ l, M.Seen sp' → l ∈ M.neighbours k →
        0 < M.frames sp' l ∨ M.Seen (Function.update spot j sp l))
      (fun l _ hl => (hpassed l hl).imp_right (seen_update hseen))
      fun k _ l hk hl => (h.passed k l hk hl).imp_right (seen_update hseen)
  case sent_le =>
    exact hforall (fun k sp => M.sent sp ≤ (M.neighbours k).length) hsent fun k _ => h.sent_le k
  case unseen =>
    exact hforall (fun _ sp => ¬ M.Seen sp → M.sent sp = 0 ∧ M.handed sp = 0)
      (fun hnot => absurd hseen hnot) fun k _ => h.unseen k
  case handed_origin =>
    refine hforall (fun k sp => k = M.origin → M.handed sp = 0) ?_ ?_ M.origin rfl
    · exact fun hj => hhanded.trans (if_pos hj)
    · rintro k - rfl
      exact h.handed_origin
  case handed_seen =>
    exact hforall (fun k sp => k ≠ M.origin → M.Seen sp → M.handed sp = 1)
      (fun hj _ => hhanded.trans (if_neg hj)) fun k _ => h.handed_seen k

end Consistent

/-- What holds from when the message was passed on. -/
structure Flooding (M : Mesh ι σ) (spot : ι → Spot) (taken : ι → ι → Nat) : Prop
    extends M.Consistent spot taken where
  origin_seen : M.Seen (spot M.origin)

/-- A node passes its own message on, which it has not seen. -/
theorem Consistent.launch (h : M.Consistent spot taken) (hnew : ¬ M.Seen (spot M.origin)) :
    M.Flooding (Function.update spot M.origin (M.launched M.origin (spot M.origin))) taken := by
  obtain ⟨hsent, hhanded⟩ := h.unseen M.origin hnew
  refine ⟨h.update rfl .refl (fun l => ?_) (fun l hpos => ?_) (fun l hl => ?_) ?_ ?_, ?_⟩
  · exact (List.sublist_append_right _ _).count_le _
  · rcases frames_launched_pos_iff.1 hpos with hl | hpos
    · exact hl
    · exact (h.sender M.origin l hpos).2
  · exact .inl (frames_launched_pos_iff.2 (.inl hl))
  · rw [sent_launched, hsent]
    exact Nat.le_refl _
  · rw [handed_launched, hhanded, if_pos rfl]
  · rw [Function.update_self]
    exact SeenWindow.mem_insert (h.valid M.origin) (h.room M.origin)

/-- A frame brings the message to a node that takes it and that it is new to. -/
theorem Flooding.passOn (h : M.Flooding spot taken) (hframe : 0 < M.frames (spot i) j)
    (htakes : (M.config j).Takes M.message) (hnew : ¬ M.Seen (spot j)) :
    M.Flooding (Function.update spot j (M.passedOn i j (spot j))) taken := by
  obtain ⟨hsent, hhanded⟩ := h.unseen j hnew
  have hne : j ≠ M.origin := by
    rintro rfl
    exact hnew h.origin_seen
  obtain ⟨hsender, hneighbour⟩ := h.sender i j hframe
  have hreached : ReflTransGen M.Carries M.origin j :=
    (h.reached i hsender).tail ⟨hneighbour, htakes⟩
  refine ⟨h.update rfl hreached (fun l => ?_) (fun l hpos => ?_) (fun l hl => ?_) ?_ ?_, ?_⟩
  · exact frames_le_passedOn i j l (spot j)
  · rcases frames_passedOn_pos_iff.1 hpos with ⟨hl, -⟩ | hpos
    · exact hl
    · exact (h.sender j l hpos).2
  · -- The neighbour that the message is from has seen it.
    by_cases hli : l = i
    · subst hli
      exact .inr hsender
    · exact .inl (frames_passedOn_pos_iff.2 (.inl ⟨hl, hli⟩))
  · have hle := M.sent_passedOn_le i j (spot j)
    rwa [hsent] at hle
  · rw [handed_passedOn, hhanded, if_neg hne]
  · rw [Function.update_of_ne hne.symm]
    exact h.origin_seen

/-! ## What is reached -/

variable (M) in
/-- The node that starts passes the message on. -/
def gossip (st : MeshState σ) : MeshState σ where
  site := Function.update st.site M.origin
    ((st.site M.origin).gossip (M.world M.origin).traced M.message none).2
  taken := st.taken

variable (M) in
/-- A frame of a node is taken in by another one, which reads and decodes it and handles what it
has got. -/
def deliver (i j : ι) (st : MeshState σ) : MeshState σ where
  site := Function.update st.site j
    ((st.site j).onFrame (M.world j).traced .legacy (M.peer i)
      (Frame.received M.message.payload (st.site j).node.config.maxFrameLength)).2
  taken := take i j st.taken

variable (M) in
/-- No node has seen the message. -/
structure Start (st : MeshState σ) : Prop where
  config : ∀ i, (st.site i).node.config = M.config i
  valid : ∀ i, (st.site i).node.seen.Valid
  capacity : ∀ i, (st.site i).node.seen.capacity = Node.seenCapacity
  unseen : ∀ i, M.message.gossipHash ∉ (st.site i).node.seen.toList
  trace : ∀ i, (st.site i).world.2 = []
  taken : ∀ i j, st.taken i j = 0

variable (M) in
/-- The states that are reached once the message was passed on, when frames in flight are taken in
in any order. -/
inductive Reachable : MeshState σ → Prop where
  | start {st : MeshState σ} : M.Start st → Reachable (M.gossip st)
  | deliver {st : MeshState σ} (i j : ι) (hflight : st.taken i j < M.frames (st.site i).spot j) :
      Reachable st → Reachable (M.deliver i j st)

variable {st : MeshState σ}

theorem spot_update (j : ι) (s : Site (σ j × List Event)) :
    (fun k => (Function.update st.site j s k).spot) =
      Function.update (fun k => (st.site k).spot) j s.spot := by
  funext k
  by_cases hk : k = j
  · subst hk
    rw [Function.update_self, Function.update_self]
  · rw [Function.update_of_ne hk, Function.update_of_ne hk]

omit [DecidableEq ι] in
theorem Start.consistent (hst : M.Start st) :
    M.Consistent (fun k => (st.site k).spot) st.taken := by
  have hframes : ∀ k l, M.frames (st.site k).spot l = 0 := fun k l => by
    rw [frames, show (st.site k).spot.trace = [] from hst.trace k]
    rfl
  have hsent : ∀ k, M.sent (st.site k).spot = 0 := fun k => by
    rw [sent, show (st.site k).spot.trace = [] from hst.trace k]
    rfl
  have hhanded : ∀ k, M.handed (st.site k).spot = 0 := fun k => by
    rw [handed, show (st.site k).spot.trace = [] from hst.trace k]
    rfl
  constructor
  case valid => exact hst.valid
  case room =>
    intro k
    rw [show (st.site k).spot.seen.capacity = _ from hst.capacity k]
    decide
  case taken_le => exact fun k l => (hst.taken k l).trans_le (Nat.zero_le _)
  case sender => exact fun k l hpos => absurd (hframes k l) (Nat.ne_of_gt hpos)
  case arrived => exact fun k l hpos => absurd (hst.taken k l) (Nat.ne_of_gt hpos)
  case reached => exact fun k hk => absurd hk (hst.unseen k)
  case passed => exact fun k _ hk _ => absurd hk (hst.unseen k)
  case sent_le => exact fun k => (hsent k).trans_le (Nat.zero_le _)
  case unseen => exact fun k _ => ⟨hsent k, hhanded k⟩
  case handed_origin => exact hhanded M.origin
  case handed_seen => exact fun k _ hk => absurd hk (hst.unseen k)

theorem Start.flooding (hst : M.Start st) :
    M.Flooding (fun k => ((M.gossip st).site k).spot) (M.gossip st).taken := by
  have hlaunch := hst.consistent.launch (hst.unseen M.origin)
  rw [gossip, spot_update, Site.spot_gossip (M.world_open M.origin) rfl]
  exact hlaunch

theorem Flooding.take (h : M.Flooding spot taken) (hflight : taken i j < M.frames (spot i) j)
    (hold : (M.config j).Takes M.message → M.Seen (spot j)) :
    M.Flooding spot (take i j taken) :=
  ⟨h.toConsistent.take hflight hold, h.origin_seen⟩

theorem spot_deliver_of_takes (i : ι) (hconfig : (st.site j).node.config = M.config j)
    (htakes : (M.config j).Takes M.message) :
    (fun k => ((M.deliver i j st).site k).spot) =
      Function.update (fun k => (st.site k).spot) j
        ((st.site j).onGossip (M.world j).traced (M.peer i) M.message).spot := by
  obtain ⟨intake, hframe⟩ : ∃ intake, ((st.site j).onFrame (M.world j).traced .legacy (M.peer i)
      (Frame.received M.message.payload (st.site j).node.config.maxFrameLength)).2 =
        ((st.site j).onGossip (M.world j).traced (M.peer i) M.message).withIntake intake :=
    Site.onFrame_of_takes M.sized M.length_lt (st.site j) (hconfig ▸ htakes)
  rw [Mesh.deliver, hframe, spot_update, Site.spot_withIntake]

theorem spot_deliver_of_not_takes (i : ι) (hconfig : (st.site j).node.config = M.config j)
    (htakes : ¬ (M.config j).Takes M.message) :
    (fun k => ((M.deliver i j st).site k).spot) = fun k => (st.site k).spot := by
  obtain ⟨intake, hframe⟩ : ∃ intake, ((st.site j).onFrame (M.world j).traced .legacy (M.peer i)
      (Frame.received M.message.payload (st.site j).node.config.maxFrameLength)).2 =
        (st.site j).withIntake intake :=
    Site.onFrame_of_not_takes M.sized M.length_lt (st.site j) (hconfig ▸ htakes)
  rw [Mesh.deliver, hframe, spot_update, Site.spot_withIntake, Function.update_eq_self]

theorem Flooding.deliver (h : M.Flooding (fun k => (st.site k).spot) st.taken)
    (hconfig : (st.site j).node.config = M.config j)
    (hflight : st.taken i j < M.frames (st.site i).spot j) :
    M.Flooding (fun k => ((M.deliver i j st).site k).spot) (M.deliver i j st).taken := by
  by_cases htakes : (M.config j).Takes M.message
  · rw [spot_deliver_of_takes i hconfig htakes]
    by_cases hseen : M.Seen (st.site j).spot
    · rw [Site.spot_onGossip_of_mem (h.valid j) hseen, Function.update_eq_self]
      exact h.take hflight fun _ => hseen
    · rw [show ((st.site j).onGossip (M.world j).traced (M.peer i) M.message).spot =
        M.passedOn i j (st.site j).spot from
          Site.spot_onGossip_of_not_mem (M.world_open j) rfl (h.valid j) hseen]
      have hij : i ≠ j := by
        rintro rfl
        exact hseen (h.sender i i (Nat.zero_lt_of_lt hflight)).1
      have hpassed := h.passOn (Nat.zero_lt_of_lt hflight) htakes hseen
      refine hpassed.take ?_ fun _ => ?_
      · rwa [Function.update_of_ne hij]
      · rw [Function.update_self]
        exact SeenWindow.mem_insert (h.valid j) (h.room j)
  · rw [spot_deliver_of_not_takes i hconfig htakes]
    exact h.take hflight fun h => absurd h htakes

theorem config_update {s : Site (σ j × List Event)}
    (h : ∀ k, (st.site k).node.config = M.config k) (hs : s.node.config = (st.site j).node.config) :
    ∀ k, (Function.update st.site j s k).node.config = M.config k :=
  (Function.forall_update_iff st.site fun k s => s.node.config = M.config k).2
    ⟨hs.trans (h j), fun k _ => h k⟩

theorem Reachable.config (hst : M.Reachable st) :
    ∀ k, (st.site k).node.config = M.config k := by
  induction hst with
  | @start st hst =>
      exact config_update hst.config (Site.config_gossip _ M.message none _)
  | deliver i j hflight _ ih => exact config_update ih (Site.config_onFrame _ _ _ _ _)

theorem Reachable.flooding (hst : M.Reachable st) :
    M.Flooding (fun k => (st.site k).spot) st.taken := by
  induction hst with
  | start hst => exact hst.flooding
  | deliver i j hflight hst ih => exact ih.deliver (hst.config j) hflight

omit [DecidableEq ι] in
/-- With nothing in flight, the message has got wherever it could. -/
theorem Flooding.seen (h : M.Flooding spot taken)
    (hquiet : ∀ i j, taken i j = M.frames (spot i) j)
    (hpath : ReflTransGen M.Carries M.origin i) : M.Seen (spot i) := by
  induction hpath with
  | refl => exact h.origin_seen
  | tail _ hcarries ih =>
      rcases h.passed _ _ ih hcarries.1 with hframe | hseen
      · exact h.arrived _ _ ((hquiet _ _).symm ▸ hframe) hcarries.2
      · exact hseen

theorem sum_frames_le [Fintype ι] (sp : Spot) : ∑ j, M.frames sp j ≤ M.sent sp := by
  unfold frames sent
  induction sp.trace with
  | nil => simp
  | cons e trace ih =>
      have hone : (∑ j, if e == .sent (M.peer j) .legacy M.message.payload then 1 else 0) ≤
          if Event.isFrame M.message.payload e then 1 else 0 := by
        by_cases hto : ∃ i, e = .sent (M.peer i) .legacy M.message.payload
        · obtain ⟨i, rfl⟩ := hto
          simp [Event.isFrame, M.peer_injective.eq_iff]
        · rw [Finset.sum_eq_zero fun j _ => if_neg fun h => hto ⟨j, beq_iff_eq.1 h⟩]
          exact Nat.zero_le _
      simp only [List.count_cons, List.countP_cons, Finset.sum_add_distrib]
      exact Nat.add_le_add ih hone

/-- In every state, the message was handed over at most once by every node, never by the one that
started, and only where it can get from there through nodes that take it. No more frames were taken in
than sent, and no more sent than there are connections, counted once in each direction. With nothing
in flight, the other nodes that have handed the message over, once each, are all those where it can
get. -/
theorem floods [Fintype ι] (hst : M.Reachable st) :
    (∀ i, M.handed (st.site i).spot ≤ 1) ∧ M.handed (st.site M.origin).spot = 0 ∧
    (∀ i, 0 < M.handed (st.site i).spot → ReflTransGen M.Carries M.origin i) ∧
    ∑ i, ∑ j, st.taken i j ≤ ∑ i, M.sent (st.site i).spot ∧
    ∑ i, M.sent (st.site i).spot ≤ ∑ i, (M.neighbours i).length ∧
    ((∀ i j, st.taken i j = M.frames (st.site i).spot j) → ∀ i, i ≠ M.origin →
      (M.handed (st.site i).spot = 1 ↔ ReflTransGen M.Carries M.origin i)) := by
  have h := hst.flooding
  have hreached : ∀ i, 0 < M.handed (st.site i).spot → ReflTransGen M.Carries M.origin i := by
    intro i hpos
    by_cases hseen : M.Seen (st.site i).spot
    · exact h.reached i hseen
    · exact absurd (h.unseen i hseen).2 (Nat.ne_of_gt hpos)
  refine ⟨fun i => ?_, h.handed_origin, hreached, ?_, Finset.sum_le_sum fun i _ => h.sent_le i, ?_⟩
  · by_cases hseen : M.Seen (st.site i).spot
    · by_cases hi : i = M.origin
      · rw [hi]
        exact h.handed_origin.trans_le (Nat.zero_le 1)
      · exact (h.handed_seen i hi hseen).le
    · exact (h.unseen i hseen).2.trans_le (Nat.zero_le 1)
  · refine Finset.sum_le_sum fun i _ => ?_
    calc ∑ j, st.taken i j ≤ ∑ j, M.frames (st.site i).spot j :=
          Finset.sum_le_sum fun j _ => h.taken_le i j
      _ ≤ M.sent (st.site i).spot := sum_frames_le _
  · intro hquiet i hi
    refine ⟨fun hone => hreached i (hone ▸ Nat.one_pos), fun hpath => ?_⟩
    exact h.handed_seen i hi (h.seen hquiet hpath)

/-! ## Three nodes in a row -/

def rowPeer (i : Fin 3) : PeerId := ⟨.identity, [UInt8.ofNat i]⟩

def rowNeighbours : Fin 3 → List (Fin 3)
  | 0 => [1]
  | 1 => [0, 2]
  | 2 => [1]

/-- Three nodes in a row, the first of which passes transactions on. -/
def row (config : Fin 3 → Config) : Mesh (Fin 3) fun _ => Unit where
  peer := rowPeer
  peer_injective := by decide
  config
  neighbours := rowNeighbours
  neighbours_symm := by decide
  world i :=
    { World.idle .zero with
      connected := fun _ => (rowNeighbours i).map rowPeer
      deliver := some fun _ _ s => s }
  world_open i := ⟨fun _ => rfl, fun _ _ _ _ => rfl, rfl⟩
  origin := 0
  transactions := ⟨[[1, 2, 3]]⟩
  sized := by simp [Message.Sized, Codec.Counted, Codec.Sized]
  length_lt := by decide

/-- The nodes of the row have done nothing yet. -/
def rowStart (config : Fin 3 → Config) : MeshState (ι := Fin 3) fun _ => Unit :=
  ⟨fun i => ⟨.new (config i), (), []⟩, fun _ _ => 0⟩

theorem start_rowStart (config : Fin 3 → Config) : (row config).Start (rowStart config) := by
  refine ⟨fun _ => rfl, fun _ => SeenWindow.valid_empty _, fun _ => rfl, fun _ => ?_, fun _ => rfl,
    fun _ _ => rfl⟩
  exact List.not_mem_nil

/-- The message has passed along the row. -/
theorem floods_row :
    let M := row fun _ => .default
    let st := M.deliver 1 2 (M.deliver 0 1 (M.gossip (rowStart M.config)))
    M.handed (st.site 2).spot = 1 := by
  intro M st
  have hend : M.Reachable st :=
    .deliver 1 2 (by decide +kernel) (.deliver 0 1 (by decide +kernel) (.start (start_rowStart _)))
  have hquiet : ∀ i j, st.taken i j = M.frames (st.site i).spot j := by decide +kernel
  have hfirst : M.Carries 0 1 := ⟨by decide, by decide, by decide⟩
  have hsecond : M.Carries 1 2 := ⟨by decide, by decide, by decide⟩
  obtain ⟨-, -, -, -, -, hhanded⟩ := floods hend
  exact (hhanded hquiet 2 (by decide)).2 (.tail (.single hfirst) hsecond)

/-- The node in the middle decodes no message of more than one byte. Its frame has come and nothing is
in flight, but it has handed nothing over. -/
theorem unhanded_in_narrow_row :
    let M := row fun i => { Config.default with maxMessageLength := if i = 1 then 1 else 4096 }
    let st := M.deliver 0 1 (M.gossip (rowStart M.config))
    M.Reachable st ∧ (∀ i j, st.taken i j = M.frames (st.site i).spot j) ∧
      ReflTransGen (fun k l => l ∈ M.neighbours k) M.origin 1 ∧ M.handed (st.site 1).spot = 0 := by
  intro M st
  have hend : M.Reachable st := .deliver 0 1 (by decide +kernel) (.start (start_rowStart _))
  have hneighbour : 1 ∈ M.neighbours M.origin := by decide
  exact ⟨hend, by decide +kernel, .single hneighbour, by decide +kernel⟩

end Mesh

end ChainPeer
