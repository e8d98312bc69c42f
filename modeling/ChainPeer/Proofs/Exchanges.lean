import ChainPeer.Node

/-!
# Exchanges that are dropped or take a step

What dropping exchanges, completing one and finding out what becomes of a message do to the table of
exchanges: which messages are held back in it, and of which peers a handshake is awaited.
-/

namespace ChainPeer

namespace ExchangeTable

variable {t t' : ExchangeTable} {held : Message → Prop} {p q : PeerId}

/-! ## Fewer exchanges -/

/-- The exchanges of the one table are exchanges of the other one. -/
def Within (t t' : ExchangeTable) : Prop := ∀ p x, t.get? p = some x → t'.get? p = some x

/-- The table without the exchanges with some peers. -/
def eraseAll (t : ExchangeTable) (peers : List PeerId) : ExchangeTable := peers.foldl erase t

theorem erase_within (t : ExchangeTable) (p : PeerId) : (t.erase p).Within t := by
  intro q x hx
  rw [get?_erase] at hx
  split at hx
  · exact nomatch hx
  · exact hx

theorem protocol_eraseAll (t : ExchangeTable) (peers : List PeerId) :
    (t.eraseAll peers).protocol = t.protocol := by
  induction peers generalizing t with
  | nil => rfl
  | cons p peers ih => exact ih (t.erase p)

theorem get?_eraseAll (t : ExchangeTable) (peers : List PeerId) (q : PeerId) :
    (t.eraseAll peers).get? q = if q ∈ peers then none else t.get? q := by
  induction peers generalizing t with
  | nil => rfl
  | cons p peers ih =>
      have hstep : (t.eraseAll (p :: peers)).get? q = ((t.erase p).eraseAll peers).get? q := rfl
      rw [hstep, ih, get?_erase]
      by_cases hq : p = q
      · simp [hq]
      · simp [hq, Ne.symm hq]

theorem eraseAll_within (t : ExchangeTable) (peers : List PeerId) : (t.eraseAll peers).Within t := by
  intro q x hx
  rw [get?_eraseAll] at hx
  split at hx
  · exact nomatch hx
  · exact hx

/-! ## Messages held back -/

/-- All messages that are held back are of some kind. -/
def Holds (held : Message → Prop) (t : ExchangeTable) : Prop :=
  ∀ p x m, t.get? p = some x → x.heldBack? = some m → held m

/-- Only announcements are held back. -/
def HoldsAnnounces (t : ExchangeTable) : Prop := t.Holds fun m => ∃ a, m = .announce a

theorem holds_empty (protocol : Protocol) : (empty protocol).Holds held := by
  intro p x m hx
  rw [get?_empty] at hx
  exact nomatch hx

theorem Holds.within (h : t'.Holds held) (ht : t.Within t') : t.Holds held :=
  fun p x m hx => h p x m (ht p x hx)

theorem Holds.insert (h : t.Holds held) {x : Exchange}
    (hx : ∀ m, x.heldBack? = some m → held m) : (t.insert p x).Holds held := by
  intro q y m hy hm
  rw [get?_insert] at hy
  split at hy
  · rw [← Option.some.inj hy] at hm
    exact hx m hm
  · exact h q y m hy hm

theorem Holds.insert_of_none (h : t.Holds held) {x : Exchange} (hx : x.heldBack? = none) :
    (t.insert p x).Holds held := by
  refine h.insert fun m hm => ?_
  rw [hx] at hm
  cases hm

theorem Holds.route (h : t.Holds held) (p : PeerId) {m : Message} (hm : held m) :
    (t.route p m).2.Holds held := by
  have hlatest : ∀ m', some m = some m' → held m' := fun m' heq => Option.some.inj heq ▸ hm
  rw [ExchangeTable.route]
  split
  · exact h.insert hlatest
  · exact h
  · exact h
  · exact h.insert hlatest

theorem Holds.heldBack_of_getD (h : t.Holds held) {m : Message}
    (hm : ((t.get? p).getD .untouched).heldBack? = some m) : held m := by
  cases hx : t.get? p with
  | none =>
      rw [hx] at hm
      cases hm
  | some x =>
      rw [hx] at hm
      exact h p x m hx hm

theorem eq_of_route_sendNow {m m' : Message} (h : t.route p m = (.sendNow m', t')) : m' = m := by
  rw [ExchangeTable.route] at h
  split at h
  · cases h
  · exact (Route.sendNow.inj (Prod.mk.inj h).1).symm
  · cases h
  · cases h

/-! ## Handshakes awaited -/

theorem Within.expectsHandshake (ht : t.Within t') (h : t'.expectsHandshake p = true) :
    t.expectsHandshake p = true := by
  rw [ExchangeTable.expectsHandshake] at h ⊢
  cases hx : t.get? p with
  | none => rfl
  | some x =>
      rw [ht p x hx] at h
      exact h

theorem expectsHandshake_insert_of_ne (hp : q ≠ p) (x : Exchange) :
    (t.insert q x).expectsHandshake p = t.expectsHandshake p := by
  rw [expectsHandshake, get?_insert, if_neg hp]
  rfl

theorem expectsHandshake_insert_awaiting (initiator : Bool) (heldBack : Option Message)
    (h : t.expectsHandshake p = true) :
    (t.insert q (.awaiting initiator heldBack)).expectsHandshake p = true := by
  by_cases hp : q = p
  · rw [expectsHandshake, get?_insert, if_pos hp]
    rfl
  · rw [expectsHandshake_insert_of_ne hp, h]

/-- A message for a peer completes no exchange. -/
theorem expectsHandshake_route (q : PeerId) (m : Message) (h : t.expectsHandshake p = true) :
    (t.route q m).2.expectsHandshake p = true := by
  rw [route]
  split
  · exact expectsHandshake_insert_awaiting true (some m) h
  · exact h
  · exact h
  · exact expectsHandshake_insert_awaiting _ (some m) h

end ExchangeTable

/-! ## Looking up the genesis block -/

/-- Forgetting peers on the channel of announcements drops exchanges and nothing else. -/
theorem Node.forgetAll_eq (departed : List PeerId) (n : Node) :
    departed.foldl (fun n p => n.forget .blockAnnounces p) n =
      { n with exchanges := n.exchanges.eraseAll departed } := by
  induction departed generalizing n with
  | nil => rfl
  | cons p departed ih => exact ih (n.forget .blockAnnounces p)

/-- What looking up the genesis block gives and leaves behind. -/
theorem Site.genesis_eq {σ : Type} (w : World σ) (s : Site σ) :
    s.genesis w =
      ((w.genesis s.world).1.1,
        ⟨{ s.node with exchanges := s.node.exchanges.eraseAll (w.genesis s.world).1.2 },
          (w.genesis s.world).2⟩) := by
  rw [← Node.forgetAll_eq]
  rfl

theorem Site.exists_genesis {σ : Type} (w : World σ) (s : Site (σ × List Event)) :
    ∃ t a, s.genesis w.traced =
        ((w.genesis s.world.1).1.1, ⟨{ s.node with exchanges := t }, a, s.world.2⟩) ∧
      t.Within s.node.exchanges :=
  ⟨_, _, genesis_eq w.traced s, s.node.exchanges.eraseAll_within _⟩

end ChainPeer
