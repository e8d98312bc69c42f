import ChainPeer.Exchange

/-!
# Two parties

Two parties that announce blocks to each other, with what each of them has sent and the other has
not yet taken in. A party is what matters of a node for this: how far its exchange of handshakes has
come, and its messages in flight. The invariants of all runs are those of two automata without
bytes, worlds or other peers; nodes that are linked to each other then only have to follow them.
-/

namespace ChainPeer

/-- One end of a link. -/
inductive Side where
  | left
  | right
deriving DecidableEq

namespace Side

/-- The end that is linked to this one. -/
def other : Side → Side
  | left => right
  | right => left

theorem other_ne (i : Side) : i.other ≠ i := by
  cases i <;> decide

@[simp] theorem other_other (i : Side) : i.other.other = i := by
  cases i <;> rfl

/-- What holds of one end and of the other one holds of both. -/
theorem forall_of {P : Side → Prop} (i : Side) (hi : P i) (hother : P i.other) (j : Side) :
    P j := by
  cases i <;> cases j <;> assumption

/-- What relates both ends to their other ends can be read from either of them. -/
theorem swap {R : Side → Side → Prop} (h : ∀ i, R i i.other) (i : Side) : R i.other i := by
  have hother := h i.other
  rw [other_other] at hother
  exact hother

/-- What belongs to the ends can be chosen for one end and for the other one. -/
theorem exists_of {α : Type} (i : Side) (x y : α) : ∃ f : Side → α, f i = x ∧ f i.other = y :=
  ⟨fun j => if j = i then x else y, if_pos rfl, if_neg i.other_ne⟩

end Side

/-- An announcement handed to a party, and whether it was held back because a handshake of the
other party was still awaited. -/
structure Offer where
  announce : Announce
  held : Bool

namespace Offer

/-- The announcements that no later one replaces: all but those held back with another one held
back after them. -/
def kept : List Offer → List Announce
  | [] => []
  | o :: rest => if o.held && rest.any held then kept rest else o.announce :: kept rest

theorem kept_cons (o : Offer) (rest : List Offer) :
    kept (o :: rest) =
      if o.held && rest.any held then kept rest else o.announce :: kept rest := rfl

theorem kept_sublist (offers : List Offer) : (kept offers).Sublist (offers.map announce) := by
  induction offers with
  | nil => exact List.Sublist.slnil
  | cons o rest ih =>
      rw [kept_cons, List.map_cons]
      split
      · exact ih.cons o.announce
      · exact ih.cons_cons o.announce

theorem kept_append_unheld (offers : List Offer) (a : Announce) :
    kept (offers ++ [⟨a, false⟩]) = kept offers ++ [a] := by
  induction offers with
  | nil => rfl
  | cons o rest ih =>
      have hany : (rest ++ [Offer.mk a false]).any held = rest.any held := by simp
      rw [List.cons_append, kept_cons, kept_cons, hany, ih]
      split
      · rfl
      · rw [List.cons_append]

/-- Of announcements that are all held back, the last one is kept. -/
theorem kept_append_held {offers : List Offer} (hheld : ∀ o ∈ offers, o.held) (a : Announce) :
    kept (offers ++ [⟨a, true⟩]) = [a] := by
  induction offers with
  | nil => rfl
  | cons o rest ih =>
      have ho : o.held = true := hheld o List.mem_cons_self
      have hany : (rest ++ [Offer.mk a true]).any held = true := by simp
      rw [List.cons_append, kept_cons, ho, hany, if_pos (by decide)]
      exact ih fun o' ho' => hheld o' (List.mem_cons_of_mem o ho')

theorem kept_eq_nil_iff {offers : List Offer} : kept offers = [] ↔ offers = [] := by
  constructor
  · intro h
    induction offers with
    | nil => rfl
    | cons o rest ih =>
        rw [kept_cons] at h
        split at h
        · next hlater =>
            rw [ih h] at hlater
            simp at hlater
        · exact nomatch h
  · rintro rfl
    rfl

/-- The last announcement is never replaced. -/
theorem getLast?_kept (offers : List Offer) :
    (kept offers).getLast? = (offers.map announce).getLast? := by
  induction offers with
  | nil => rfl
  | cons o rest ih =>
      by_cases hrest : rest = []
      · subst hrest
        simp [kept]
      · have hmap : rest.map announce ≠ [] := by simpa using hrest
        have hkept : kept rest ≠ [] := mt kept_eq_nil_iff.1 hrest
        rw [List.map_cons, List.getLast?_cons_of_ne_nil hmap, ← ih, kept_cons]
        split
        · rfl
        · rw [List.getLast?_cons_of_ne_nil hkept]

end Offer

/-- What matters of a node that is linked to one other: its exchange with the other node, its
messages that the other node has not yet taken in, the announcements of the other node that it
passed on, and the announcements that it was asked to send. -/
structure Party where
  exchange : Option Exchange
  inFlight : List Message
  heard : List Announce
  offers : List Offer

namespace Party

/-- A party that has not met the other one. -/
def start : Party := ⟨none, [], [], []⟩

/-- Whether the party still awaits a handshake of the other one. -/
def awaits (e : Party) : Bool := !(e.exchange.getD .untouched).isReceived

/-- The kind of message that the party has to be sent next. -/
def expects (e : Party) : MessageKind := if e.awaits then .handshake else .announce

/-- The party that was asked to send an announcement. It sends the handshake `h` if that opens the
exchange. -/
def offer (h : Handshake) (a : Announce) (e : Party) : Party :=
  let offers := e.offers ++ [⟨a, e.awaits⟩]
  match e.exchange with
  | none =>
    { e with
      exchange := some (.opened (some (.announce a)))
      inFlight := e.inFlight ++ [.handshake h]
      offers }
  | some (.awaiting initiator _) =>
    { e with exchange := some (.awaiting initiator (some (.announce a))), offers }
  | some .rejected => { e with offers }
  | some (.complete _) => { e with inFlight := e.inFlight ++ [.announce a], offers }

/-- The party that took in a message of the other one. It answers with the handshake `reply` if the
other party has opened the exchange. -/
def receive (genesis : Hash) (reply : Handshake) (m : Message) (e : Party) : Party :=
  match m, e.exchange.getD .untouched with
  | .handshake h, .awaiting initiator heldBack =>
    if h.genesis = genesis then
      { e with
        exchange := some (.complete initiator)
        inFlight :=
          e.inFlight ++ (if initiator then [] else [.handshake reply]) ++ heldBack.toList }
    else
      { e with exchange := if initiator then none else some .rejected }
  | .announce a, .complete _ => { e with heard := e.heard ++ [a] }
  | _, _ => e

theorem awaits_of_none {e : Party} (hx : e.exchange = none) : e.awaits = true := by
  rw [awaits, hx]
  rfl

theorem exists_awaiting_of_awaits {e : Party} (h : e.awaits = true) :
    ∃ initiator heldBack, e.exchange.getD .untouched = .awaiting initiator heldBack := by
  rw [awaits] at h
  cases hx : e.exchange.getD .untouched with
  | awaiting initiator heldBack => exact ⟨initiator, heldBack, rfl⟩
  | rejected => rw [hx] at h; exact nomatch h
  | complete initiator => rw [hx] at h; exact nomatch h

theorem expects_eq_handshake_iff {e : Party} : e.expects = .handshake ↔ e.awaits = true := by
  cases h : e.awaits <;> simp [expects, h]

theorem expects_eq_announce_iff {e : Party} : e.expects = .announce ↔ e.awaits = false := by
  cases h : e.awaits <;> simp [expects, h]

/-- A message of the expected kind is a handshake or an announcement. -/
theorem handshake_or_announce_of_kind {e : Party} {m : Message} (h : m.kind = e.expects) :
    (∃ x, m = .handshake x) ∨ ∃ x, m = .announce x := by
  rw [expects] at h
  cases m <;> first | exact .inl ⟨_, rfl⟩ | exact .inr ⟨_, rfl⟩ | (split at h <;> exact nomatch h)

theorem offer_untouched {h : Handshake} {a : Announce} {e : Party} (hx : e.exchange = none) :
    e.offer h a =
      { e with
        exchange := some (.opened (some (.announce a)))
        inFlight := e.inFlight ++ [.handshake h]
        offers := e.offers ++ [⟨a, true⟩] } := by
  simp [offer, hx, awaits, Exchange.untouched, Exchange.isReceived]

theorem offer_awaiting {h : Handshake} {a : Announce} {e : Party} {initiator : Bool}
    {heldBack : Option Message} (hx : e.exchange = some (.awaiting initiator heldBack)) :
    e.offer h a =
      { e with
        exchange := some (.awaiting initiator (some (.announce a)))
        offers := e.offers ++ [⟨a, true⟩] } := by
  simp [offer, hx, awaits, Exchange.isReceived]

theorem offer_rejected {h : Handshake} {a : Announce} {e : Party}
    (hx : e.exchange = some .rejected) :
    e.offer h a = { e with offers := e.offers ++ [⟨a, false⟩] } := by
  simp [offer, hx, awaits, Exchange.isReceived]

theorem offer_complete {h : Handshake} {a : Announce} {e : Party} {initiator : Bool}
    (hx : e.exchange = some (.complete initiator)) :
    e.offer h a =
      { e with inFlight := e.inFlight ++ [.announce a], offers := e.offers ++ [⟨a, false⟩] } := by
  simp [offer, hx, awaits, Exchange.isReceived]

@[simp] theorem offers_offer (h : Handshake) (a : Announce) (e : Party) :
    (e.offer h a).offers = e.offers ++ [⟨a, e.awaits⟩] := by
  unfold offer
  split <;> rfl

@[simp] theorem heard_offer (h : Handshake) (a : Announce) (e : Party) :
    (e.offer h a).heard = e.heard := by
  unfold offer
  split <;> rfl

@[simp] theorem awaits_offer (h : Handshake) (a : Announce) (e : Party) :
    (e.offer h a).awaits = e.awaits := by
  unfold offer
  split <;> rename_i hx <;> simp [awaits, hx, Exchange.opened, Exchange.untouched,
    Exchange.isReceived]

@[simp] theorem offers_receive (genesis : Hash) (reply : Handshake) (m : Message) (e : Party) :
    (e.receive genesis reply m).offers = e.offers := by
  unfold receive
  repeat' split
  all_goals rfl

/-- A handshake that is awaited and of the same chain completes the exchange. The party sends what
it held back, after its own handshake if it has not sent one before. -/
theorem receive_valid {genesis : Hash} {reply h : Handshake} {e : Party} {initiator : Bool}
    {heldBack : Option Message} (hx : e.exchange.getD .untouched = .awaiting initiator heldBack)
    (hgenesis : h.genesis = genesis) :
    e.receive genesis reply (.handshake h) =
      { e with
        exchange := some (.complete initiator)
        inFlight :=
          e.inFlight ++ (if initiator then [] else [.handshake reply]) ++ heldBack.toList } := by
  simp only [receive, hx, if_pos hgenesis]

/-- A handshake that is awaited and of another chain ends the exchange. -/
theorem receive_invalid {genesis : Hash} {reply h : Handshake} {e : Party} {initiator : Bool}
    {heldBack : Option Message} (hx : e.exchange.getD .untouched = .awaiting initiator heldBack)
    (hgenesis : h.genesis ≠ genesis) :
    e.receive genesis reply (.handshake h) =
      { e with exchange := if initiator then none else some .rejected } := by
  simp only [receive, hx, if_neg hgenesis]

theorem receive_announce {genesis : Hash} {reply : Handshake} {a : Announce} {e : Party}
    {initiator : Bool} (hx : e.exchange = some (.complete initiator)) :
    e.receive genesis reply (.announce a) = { e with heard := e.heard ++ [a] } := by
  simp [receive, hx]

/-- An announcement on an exchange that is not complete is ignored. -/
theorem receive_announce_of_incomplete {genesis : Hash} {reply : Handshake} {a : Announce}
    {e : Party} (hx : ∀ initiator, e.exchange ≠ some (.complete initiator)) :
    e.receive genesis reply (.announce a) = e := by
  cases hexchange : e.exchange with
  | none => simp [receive, hexchange, Exchange.untouched]
  | some x =>
      cases x with
      | awaiting initiator heldBack => simp [receive, hexchange]
      | rejected => simp [receive, hexchange]
      | complete initiator => exact absurd hexchange (hx initiator)

/-! ## Runs -/

/-- What one party brings along: its genesis block, and which messages it may send. -/
structure Terms where
  genesis : Hash
  Allows : Message → Prop
  genesis_eq : ∀ {h : Handshake}, Allows (.handshake h) → h.genesis = genesis

/-- One step of two parties: the party at one end is asked to send an announcement, or its oldest
message in flight is taken in at the other end. -/
inductive Step (terms : Side → Terms) (e e' : Side → Party) : Prop where
  | offer (i : Side) (h : Handshake) (a : Announce)
      (hh : (terms i).Allows (.handshake h)) (ha : (terms i).Allows (.announce a))
      (hi : e' i = (e i).offer h a) (hother : e' i.other = e i.other)
  | deliver (i : Side) (reply : Handshake) (m : Message) (rest : List Message)
      (hreply : (terms i.other).Allows (.handshake reply)) (hqueue : (e i).inFlight = m :: rest)
      (hi : e' i = { e i with inFlight := rest })
      (hother : e' i.other = (e i.other).receive (terms i.other).genesis reply m)

/-- The states that two parties reach. -/
inductive Reach (terms : Side → Terms) : (Side → Party) → Prop where
  | start : Reach terms fun _ => .start
  | step {e e' : Side → Party} : Reach terms e → Step terms e e' → Reach terms e'

/-! ## What may be in flight -/

/-- All that the party has in flight or holds back is allowed. -/
structure Carries (t : Terms) (e : Party) : Prop where
  inFlight : ∀ m ∈ e.inFlight, t.Allows m
  heldBack : ∀ x ∈ e.exchange, ∀ m ∈ x.heldBack?, t.Allows m

theorem Carries.start (t : Terms) : Carries t .start :=
  ⟨fun _ h => absurd h List.not_mem_nil, fun _ h => nomatch h⟩

theorem Carries.allows_of_awaiting {t : Terms} {e : Party} {initiator : Bool}
    {heldBack : Option Message} (he : Carries t e)
    (hx : e.exchange.getD .untouched = .awaiting initiator heldBack) :
    ∀ m ∈ heldBack, t.Allows m := by
  intro m hm
  cases hexchange : e.exchange with
  | none =>
      rw [hexchange, Option.getD_none, Exchange.untouched] at hx
      cases hx
      exact nomatch hm
  | some x =>
      rw [hexchange, Option.getD_some] at hx
      subst hx
      exact he.heldBack _ hexchange m hm

theorem Carries.offer {t : Terms} {e : Party} {h : Handshake} {a : Announce} (he : Carries t e)
    (hh : t.Allows (.handshake h)) (ha : t.Allows (.announce a)) : Carries t (e.offer h a) := by
  have happend : ∀ m, t.Allows m → ∀ m' ∈ e.inFlight ++ [m], t.Allows m' := by
    intro m hm m' hm'
    rcases List.mem_append.1 hm' with hold | hnew
    · exact he.inFlight m' hold
    · rw [List.mem_singleton.1 hnew]
      exact hm
  have hheld : ∀ x : Exchange, x.heldBack? = some (.announce a) →
      ∀ m ∈ x.heldBack?, t.Allows m := by
    intro x hx m hm
    rw [hx, Option.mem_some_iff] at hm
    exact hm ▸ ha
  unfold Party.offer
  split
  · refine ⟨happend _ hh, fun x hx => hheld x ?_⟩
    rw [← Option.some.inj hx]
    rfl
  · refine ⟨he.inFlight, fun x hx => hheld x ?_⟩
    rw [← Option.some.inj hx]
    rfl
  · exact ⟨he.inFlight, he.heldBack⟩
  · exact ⟨happend _ ha, he.heldBack⟩

theorem Carries.receive {t : Terms} {e : Party} {genesis : Hash} {reply : Handshake}
    (he : Carries t e) (hreply : t.Allows (.handshake reply)) (m : Message) :
    Carries t (e.receive genesis reply m) := by
  unfold Party.receive
  split
  · next h initiator heldBack hx =>
    split
    · refine ⟨fun m hm => ?_, fun x hx' m hm => ?_⟩
      · rcases List.mem_append.1 hm with hsent | hheld
        · rcases List.mem_append.1 hsent with hold | hnew
          · exact he.inFlight m hold
          · cases initiator with
            | false => rw [List.mem_singleton.1 hnew]; exact hreply
            | true => exact nomatch hnew
        · exact he.allows_of_awaiting hx m (Option.mem_toList.1 hheld)
      · rw [← Option.some.inj hx'] at hm
        exact nomatch hm
    · refine ⟨he.inFlight, fun x hx' m hm => ?_⟩
      cases initiator with
      | false => rw [← Option.some.inj hx'] at hm; exact nomatch hm
      | true => exact nomatch hx'
  · exact ⟨he.inFlight, he.heldBack⟩
  · exact he

theorem Carries.tail {t : Terms} {e : Party} {m : Message} {rest : List Message}
    (he : Carries t e) (hqueue : e.inFlight = m :: rest) : Carries t { e with inFlight := rest } :=
  ⟨fun m' hm' => he.inFlight m' (hqueue ▸ List.mem_cons_of_mem m hm'), he.heldBack⟩

theorem Step.carries {terms : Side → Terms} {e e' : Side → Party} (hstep : Step terms e e')
    (he : ∀ i, Carries (terms i) (e i)) : ∀ i, Carries (terms i) (e' i) := by
  cases hstep with
  | offer i h a hh ha hi hother =>
      refine Side.forall_of i ?_ ?_
      · rw [hi]
        exact (he i).offer hh ha
      · rw [hother]
        exact he i.other
  | deliver i reply m rest hreply hqueue hi hother =>
      refine Side.forall_of i ?_ ?_
      · rw [hi]
        exact (he i).tail hqueue
      · rw [hother]
        exact (he i.other).receive hreply m

theorem Reach.carries {terms : Side → Terms} {e : Side → Party} (hreach : Reach terms e) :
    ∀ i, Carries (terms i) (e i) := by
  induction hreach with
  | start => exact fun i => .start (terms i)
  | step _ hstep ih => exact hstep.carries ih

end Party

end ChainPeer
