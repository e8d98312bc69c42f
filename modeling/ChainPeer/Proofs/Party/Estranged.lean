import ChainPeer.Proofs.Party.Converging

/-!
# Parties on different chains

Two parties on different chains may open and drop their exchanges any number of times. Only
handshakes are in flight between them, and counting these shows that a party that has rejected the
other one is not sent anything any more.
-/

namespace ChainPeer.Party

/-- The number of handshakes that a party has sent less the number of those it has taken in, as
long as none of them was valid. -/
inductive Balance (e : Party) : Int → Prop where
  | untouched (hx : e.exchange = none) : Balance e 0
  | opened (heldBack : Option Message) (hx : e.exchange = some (.awaiting true heldBack)) :
      Balance e 1
  | rejected (hx : e.exchange = some .rejected) : Balance e (-1)

/-- How far two parties have come that find each other on different chains: only handshakes are in
flight, and both balances account for them. -/
structure Estranged (a b : Party) : Prop where
  greetings : ∀ m ∈ a.inFlight ++ b.inFlight, m.kind = .handshake
  balance : ∃ x y, Balance a x ∧ Balance b y ∧ a.inFlight.length + b.inFlight.length = x + y

namespace Estranged

variable {a b : Party}

theorem start : Estranged .start .start where
  greetings _ h := absurd h List.not_mem_nil
  balance := ⟨0, 0, .untouched rfl, .untouched rfl, rfl⟩

theorem symm (h : Estranged a b) : Estranged b a := by
  obtain ⟨x, y, hx, hy, hsum⟩ := h.balance
  refine ⟨fun m hm => h.greetings m ?_, y, x, hy, hx, by omega⟩
  rw [List.mem_append] at hm ⊢
  exact hm.symm

/-- A party that has rejected the other one is not sent anything any more. -/
theorem awaits (h : Estranged a b) {m : Message} {rest : List Message}
    (hqueue : a.inFlight = m :: rest) : b.awaits = true := by
  obtain ⟨x, y, hx, hy, hsum⟩ := h.balance
  rw [hqueue, List.length_cons] at hsum
  cases hy with
  | untouched hb => exact awaits_of_none hb
  | opened heldBack hb => simp [Party.awaits, hb, Exchange.isReceived]
  | rejected hb =>
      have hle : x ≤ 1 := by cases hx <;> decide
      omega

theorem head_matches (h : Estranged a b) {m : Message} {rest : List Message}
    (hqueue : a.inFlight = m :: rest) : m.kind = b.expects := by
  rw [expects_eq_handshake_iff.2 (h.awaits hqueue)]
  exact h.greetings m (List.mem_append_left _ (hqueue ▸ List.mem_cons_self))

theorem offer_sender (h : Estranged a b) (greeting : Handshake) (x : Announce) :
    Estranged (a.offer greeting x) b := by
  obtain ⟨m, n, hm, hn, hsum⟩ := h.balance
  cases hm with
  | untouched ha =>
      rw [offer_untouched ha]
      refine ⟨fun m hm => ?_, 1, n, .opened _ rfl, hn, ?_⟩
      · rw [List.append_assoc, List.mem_append, List.singleton_append, List.mem_cons] at hm
        rcases hm with hm | rfl | hm
        · exact h.greetings m (List.mem_append_left _ hm)
        · rfl
        · exact h.greetings m (List.mem_append_right _ hm)
      · rw [List.length_append, List.length_singleton]
        omega
  | opened heldBack ha =>
      rw [offer_awaiting ha]
      exact ⟨h.greetings, 1, n, .opened _ rfl, hn, hsum⟩
  | rejected ha =>
      rw [offer_rejected ha]
      exact ⟨h.greetings, -1, n, .rejected ha, hn, hsum⟩

/-- A handshake of another chain drops an exchange that the receiver has opened, and is rejected
else. -/
theorem deliver (h : Estranged a b) {greeting reply : Handshake} {rest : List Message}
    {genesis : Hash} (hqueue : a.inFlight = .handshake greeting :: rest)
    (hgenesis : greeting.genesis ≠ genesis) :
    Estranged { a with inFlight := rest } (b.receive genesis reply (.handshake greeting)) := by
  have hawaits := h.awaits hqueue
  obtain ⟨m, n, hm, hn, hsum⟩ := h.balance
  have hgreetings : ∀ m ∈ rest ++ b.inFlight, m.kind = .handshake := by
    intro m hm
    refine h.greetings m ?_
    rw [hqueue, List.cons_append]
    exact List.mem_cons_of_mem _ hm
  have ha : Balance { a with inFlight := rest } m := by
    cases hm with
    | untouched ha => exact .untouched ha
    | opened heldBack ha => exact .opened heldBack ha
    | rejected ha => exact .rejected ha
  rw [hqueue, List.length_cons] at hsum
  cases hn with
  | untouched hb =>
      rw [receive_invalid (by rw [hb]; rfl) hgenesis]
      exact ⟨hgreetings, m, -1, ha, .rejected rfl, by dsimp only; omega⟩
  | opened heldBack hb =>
      rw [receive_invalid (by rw [hb]; rfl) hgenesis]
      exact ⟨hgreetings, m, 0, ha, .untouched rfl, by dsimp only; omega⟩
  | rejected hb =>
      rw [Party.awaits, hb] at hawaits
      cases hawaits

end Estranged

theorem Step.estranged {terms : Side → Terms} {e e' : Side → Party} (hstep : Step terms e e')
    (hgenesis : ∀ i, (terms i).genesis ≠ (terms i.other).genesis)
    (hcarries : ∀ i, Carries (terms i) (e i)) (he : ∀ i, Estranged (e i) (e i.other)) :
    ∀ i, Estranged (e' i) (e' i.other) := by
  suffices hpair : ∃ i, Estranged (e' i) (e' i.other) by
    obtain ⟨i, hi⟩ := hpair
    refine Side.forall_of i hi ?_
    rw [Side.other_other]
    exact hi.symm
  cases hstep with
  | offer i h a hh ha hi hother =>
      refine ⟨i, ?_⟩
      rw [hi, hother]
      exact (he i).offer_sender h a
  | deliver i reply m rest hreply hqueue hi hother =>
      refine ⟨i, ?_⟩
      have hkind : m.kind = .handshake :=
        (he i).greetings m (List.mem_append_left _ (hqueue ▸ List.mem_cons_self))
      cases m <;> simp only [Message.kind, reduceCtorEq] at hkind
      case handshake h =>
        have hsent : (terms i).Allows (.handshake h) :=
          (hcarries i).inFlight _ (hqueue ▸ List.mem_cons_self)
        rw [hi, hother]
        exact (he i).deliver hqueue ((terms i).genesis_eq hsent ▸ hgenesis i)

theorem Reach.estranged {terms : Side → Terms} {e : Side → Party} (hreach : Reach terms e)
    (hgenesis : ∀ i, (terms i).genesis ≠ (terms i.other).genesis) :
    ∀ i, Estranged (e i) (e i.other) := by
  induction hreach with
  | start => exact fun _ => .start
  | step hreach hstep ih => exact hstep.estranged hgenesis hreach.carries ih

/-- On the same chain or not, what a party takes in next is always what it expects. -/
theorem Reach.head_matches {terms : Side → Terms} {e : Side → Party} (hreach : Reach terms e)
    {i : Side} {m : Message} {rest : List Message} (hqueue : (e i).inFlight = m :: rest) :
    m.kind = (e i.other).expects := by
  by_cases hgenesis : (terms .left).genesis = (terms .right).genesis
  · have hsame : ∀ i, (terms i).genesis = (terms i.other).genesis :=
      Side.forall_of .left hgenesis hgenesis.symm
    exact (hreach.converging hsame i).head_matches hqueue
  · have hdiffer : ∀ i, (terms i).genesis ≠ (terms i.other).genesis :=
      Side.forall_of .left hgenesis (Ne.symm hgenesis)
    exact (hreach.estranged hdiffer i).head_matches hqueue

end ChainPeer.Party
