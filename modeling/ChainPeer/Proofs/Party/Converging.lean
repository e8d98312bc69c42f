import ChainPeer.Proofs.Party

/-!
# Parties on the same chain

Two parties on the same chain converge: what is in flight starts with a handshake exactly as long
as the receiver awaits one, and behind it are the announcements that the receiver has not heard.
-/

namespace ChainPeer.Party

/-- How far a party can come with another one on the same chain: it never rejects the other one,
and it awaits a handshake only while it holds back the latest of its announcements. -/
inductive Stage (e : Party) : Prop where
  | untouched (hx : e.exchange = none) (hoffers : e.offers = [])
  | opened (a : Announce) (hx : e.exchange = some (.awaiting true (some (.announce a))))
      (hheld : ∀ o ∈ e.offers, o.held) (hkept : Offer.kept e.offers = [a])
  | complete (initiator : Bool) (hx : e.exchange = some (.complete initiator))

/-- The announcements that a party has sent: none until it was greeted, then all that no later one
has replaced. -/
def said (e : Party) : List Announce := if e.awaits then [] else Offer.kept e.offers

/-- How far a sender `a` and a receiver `b` have come: a sender that has not opened the exchange
was not met either, and in flight are the handshake that the receiver awaits, if it was sent, and
then the announcements that the receiver has not heard. -/
structure Converging (a b : Party) : Prop where
  stage : Stage a
  unmet : a.exchange = none → b.awaits = true
  lane : ∃ (greetings : List Handshake) (announces : List Announce),
    a.inFlight = greetings.map .handshake ++ announces.map .announce ∧
    greetings.length = (if a.exchange.isSome && b.awaits then 1 else 0) ∧
    b.heard ++ announces = a.said

theorem said_eq_nil {e : Party} (h : e.awaits = true) : e.said = [] := if_pos h

theorem said_eq_kept {e : Party} (h : e.awaits = false) : e.said = Offer.kept e.offers := by
  rw [said, h, if_neg (by decide)]

theorem Stage.awaits_eq_false_iff {e : Party} (he : Stage e) :
    e.awaits = false ↔ ∃ initiator, e.exchange = some (.complete initiator) := by
  cases he with
  | untouched hx => simp [awaits, hx, Exchange.isReceived, Exchange.untouched]
  | opened a hx => simp [awaits, hx, Exchange.isReceived]
  | complete initiator hx => simp [awaits, hx, Exchange.isReceived]

theorem Stage.offers_eq_nil {e : Party} (he : Stage e) (hx : e.exchange = none) :
    e.offers = [] := by
  cases he with
  | untouched _ hoffers => exact hoffers
  | opened a hx' => exact nomatch hx.symm.trans hx'
  | complete initiator hx' => exact nomatch hx.symm.trans hx'

theorem Stage.congr {e e' : Party} (he : Stage e) (hx : e'.exchange = e.exchange)
    (hoffers : e'.offers = e.offers) : Stage e' := by
  cases he with
  | untouched hnone hnil => exact .untouched (hx.trans hnone) (hoffers.trans hnil)
  | opened a hsome hheld hkept =>
      exact .opened a (hx.trans hsome) (hoffers ▸ hheld) (hoffers ▸ hkept)
  | complete initiator hsome => exact .complete initiator (hx.trans hsome)

theorem Converging.start : Converging .start .start where
  stage := .untouched rfl rfl
  unmet _ := rfl
  lane := ⟨[], [], rfl, rfl, rfl⟩

namespace Converging

variable {a b : Party}

/-- A sender that has not opened the exchange has sent nothing. -/
theorem eq_nil_of_none (hab : Converging a b) (hx : a.exchange = none) :
    a.inFlight = [] ∧ b.heard = [] := by
  obtain ⟨greetings, announces, hlane, hlen, hheard⟩ := hab.lane
  rw [hx, Option.isSome_none, Bool.false_and, if_neg (by decide),
    List.length_eq_zero_iff] at hlen
  have hsaid : a.said = [] := said_eq_nil (awaits_of_none hx)
  rw [hsaid, List.append_eq_nil_iff] at hheard
  rw [hlen, hheard.2] at hlane
  exact ⟨hlane, hheard.1⟩

theorem exchange_ne_none (hab : Converging a b) {m : Message} {rest : List Message}
    (hqueue : a.inFlight = m :: rest) : a.exchange ≠ none := by
  intro hx
  rw [(hab.eq_nil_of_none hx).1] at hqueue
  exact nomatch hqueue

/-- What the receiver is to take in next is what it expects. -/
theorem head_matches (hab : Converging a b) {m : Message} {rest : List Message}
    (hqueue : a.inFlight = m :: rest) : m.kind = b.expects := by
  have hopened : a.exchange.isSome = true :=
    Option.isSome_iff_ne_none.2 (hab.exchange_ne_none hqueue)
  obtain ⟨greetings, announces, hlane, hlen, -⟩ := hab.lane
  rw [hlane] at hqueue
  rw [hopened, Bool.true_and] at hlen
  rw [expects]
  cases hb : b.awaits with
  | false =>
      rw [hb, if_neg (by decide), List.length_eq_zero_iff] at hlen
      subst hlen
      cases announces with
      | nil => cases hqueue
      | cons x announces =>
          rw [← (List.cons.inj hqueue).1]
          rfl
  | true =>
      cases greetings with
      | nil => rw [hb] at hlen; cases hlen
      | cons h greetings =>
          rw [← (List.cons.inj hqueue).1]
          rfl

theorem offer_sender (hab : Converging a b) (h : Handshake) (x : Announce) :
    Converging (a.offer h x) b := by
  cases hab.stage with
  | untouched hx hoffers =>
      have hb : b.awaits = true := hab.unmet hx
      obtain ⟨hflight, hheard⟩ := hab.eq_nil_of_none hx
      rw [offer_untouched hx, hoffers, hflight]
      refine ⟨.opened x rfl (by simp) rfl, nofun, [h], [], rfl, ?_, ?_⟩
      · rw [hb]
        rfl
      · rw [hheard, said_eq_nil rfl]
        rfl
  | opened y hx hheld hkept =>
      obtain ⟨greetings, announces, hlane, hlen, hheard⟩ := hab.lane
      rw [offer_awaiting hx]
      refine ⟨.opened x rfl ?_ (Offer.kept_append_held hheld x), nofun,
        greetings, announces, hlane, ?_, ?_⟩
      · intro o ho
        rcases List.mem_append.1 ho with hold | hnew
        · exact hheld o hold
        · rw [List.mem_singleton.1 hnew]
      · rw [hlen, hx]
        rfl
      · rw [hheard, said, said]
        simp [awaits, hx, Exchange.isReceived]
  | complete initiator hx =>
      obtain ⟨greetings, announces, hlane, hlen, hheard⟩ := hab.lane
      have ha : a.awaits = false := hab.stage.awaits_eq_false_iff.2 ⟨initiator, hx⟩
      rw [offer_complete hx]
      refine ⟨.complete initiator hx, fun hnone => ?_, greetings, announces ++ [x], ?_, hlen, ?_⟩
      · cases hx.symm.trans hnone
      · rw [hlane, List.map_append, List.append_assoc]
        rfl
      · rw [← List.append_assoc, hheard, said_eq_kept ha, ← Offer.kept_append_unheld]
        rw [said_eq_kept]
        exact ha

theorem offer_receiver (hab : Converging a b) (h : Handshake) (x : Announce) :
    Converging a (b.offer h x) := by
  refine ⟨hab.stage, ?_, ?_⟩
  · rw [awaits_offer]
    exact hab.unmet
  · rw [awaits_offer, heard_offer]
    exact hab.lane

/-- The lane of the sender once its handshake was taken in. -/
theorem lane_tail_handshake (hab : Converging a b) {h : Handshake} {rest : List Message}
    (hqueue : a.inFlight = .handshake h :: rest) :
    ∃ announces : List Announce, rest = announces.map .announce ∧
      b.heard ++ announces = a.said := by
  obtain ⟨greetings, announces, hlane, hlen, hheard⟩ := hab.lane
  refine ⟨announces, ?_, hheard⟩
  rw [hqueue] at hlane
  cases greetings with
  | nil =>
      cases announces with
      | nil => exact nomatch hlane
      | cons x announces => exact nomatch (List.cons.inj hlane).1
  | cons h' greetings =>
      have hnil : greetings = [] := by
        rw [List.length_cons] at hlen
        rw [← List.length_eq_zero_iff]
        split at hlen <;> omega
      rw [hnil] at hlane
      exact (List.cons.inj hlane).2

/-- The lane of the sender once one of its announcements was taken in. -/
theorem lane_tail_announce (hab : Converging a b) {x : Announce} {rest : List Message}
    (hqueue : a.inFlight = .announce x :: rest) :
    b.awaits = false ∧ ∃ announces : List Announce, rest = announces.map .announce ∧
      b.heard ++ [x] ++ announces = a.said := by
  have hb : b.awaits = false := expects_eq_announce_iff.1 (hab.head_matches hqueue).symm
  obtain ⟨greetings, announces, hlane, hlen, hheard⟩ := hab.lane
  rw [hb, Bool.and_false, if_neg (by decide), List.length_eq_zero_iff] at hlen
  rw [hqueue, hlen] at hlane
  cases announces with
  | nil => exact nomatch hlane
  | cons y announces =>
      obtain ⟨hxy, hrest⟩ := List.cons.inj hlane
      refine ⟨hb, announces, hrest, ?_⟩
      rw [Message.announce.inj hxy, List.append_assoc]
      exact hheard

/-- The sender with only announcements in flight, to a receiver that awaits nothing any more. -/
theorem tail (hab : Converging a b) {b' : Party} {announces : List Announce}
    (hopened : a.exchange ≠ none) (hb' : b'.awaits = false)
    (hheard : b'.heard ++ announces = a.said) :
    Converging { a with inFlight := announces.map .announce } b' := by
  refine ⟨hab.stage.congr rfl rfl, fun hx => absurd hx hopened, [], announces, rfl, ?_, hheard⟩
  rw [hb', Bool.and_false]
  rfl

/-- A handshake of the same chain completes the exchange of the receiver, in both directions. -/
theorem deliver_handshake (hab : Converging a b) (hba : Converging b a) {h reply : Handshake}
    {rest : List Message} {genesis : Hash} (hqueue : a.inFlight = .handshake h :: rest)
    (hgenesis : h.genesis = genesis) :
    Converging { a with inFlight := rest } (b.receive genesis reply (.handshake h)) ∧
      Converging (b.receive genesis reply (.handshake h)) { a with inFlight := rest } := by
  obtain ⟨announces, rfl, hheard⟩ := hab.lane_tail_handshake hqueue
  have hopened := hab.exchange_ne_none hqueue
  have hb : b.awaits = true := expects_eq_handshake_iff.1 (hab.head_matches hqueue).symm
  cases hba.stage with
  | untouched hx hoffers =>
      have ha : a.awaits = true := hba.unmet hx
      obtain ⟨hflight, hanswers⟩ := hba.eq_nil_of_none hx
      rw [receive_valid (by rw [hx]; rfl) hgenesis]
      refine ⟨hab.tail hopened rfl hheard, .complete false rfl, nofun, [reply], [], ?_, ?_, ?_⟩
      · rw [hflight]
        rfl
      · exact (if_pos ha).symm
      · rw [hanswers, said_eq_kept rfl, hoffers]
        rfl
  | opened x hx hheld hkept =>
      obtain ⟨greetings, answers, hlane, hlen, hanswers⟩ := hba.lane
      rw [said_eq_nil hb, List.append_eq_nil_iff] at hanswers
      rw [hanswers.2, List.map_nil, List.append_nil] at hlane
      rw [receive_valid (by rw [hx]; rfl) hgenesis]
      refine ⟨hab.tail hopened rfl hheard, .complete true rfl, nofun, greetings, [x], ?_, ?_, ?_⟩
      · rw [hlane]
        simp
      · rw [hlen, hx]
        rfl
      · rw [hanswers.1, said_eq_kept rfl, hkept]
        rfl
  | complete initiator hx =>
      rw [hba.stage.awaits_eq_false_iff.2 ⟨initiator, hx⟩] at hb
      exact nomatch hb

/-- An announcement finds the exchange of the receiver complete, and is heard. -/
theorem deliver_announce (hab : Converging a b) (hba : Converging b a) {x : Announce}
    {reply : Handshake} {rest : List Message} {genesis : Hash}
    (hqueue : a.inFlight = .announce x :: rest) :
    Converging { a with inFlight := rest } (b.receive genesis reply (.announce x)) ∧
      Converging (b.receive genesis reply (.announce x)) { a with inFlight := rest } := by
  obtain ⟨hb, announces, rfl, hheard⟩ := hab.lane_tail_announce hqueue
  obtain ⟨initiator, hx⟩ := hba.stage.awaits_eq_false_iff.1 hb
  rw [receive_announce hx]
  refine ⟨hab.tail (hab.exchange_ne_none hqueue) hb hheard, .complete initiator hx, ?_, hba.lane⟩
  intro hnone
  exact nomatch hx.symm.trans hnone

theorem heard_sublist (hab : Converging a b) : b.heard.Sublist (a.offers.map Offer.announce) := by
  obtain ⟨greetings, announces, -, -, hheard⟩ := hab.lane
  have hprefix : b.heard.Sublist a.said := hheard ▸ List.sublist_append_left b.heard announces
  refine hprefix.trans ?_
  rw [said]
  split
  · exact List.nil_sublist _
  · exact Offer.kept_sublist a.offers

/-- With nothing in flight, the receiver was greeted by a sender that has opened the exchange, and
has heard all that the sender has said. -/
theorem settled (hab : Converging a b) (ha : a.inFlight = []) :
    (a.exchange.isSome && b.awaits) = false ∧ b.heard = a.said := by
  obtain ⟨greetings, announces, hlane, hlen, hheard⟩ := hab.lane
  rw [ha] at hlane
  obtain ⟨hgreetings, hannounces⟩ := List.append_eq_nil_iff.1 hlane.symm
  rw [List.map_eq_nil_iff.1 hgreetings] at hlen
  rw [List.map_eq_nil_iff.1 hannounces, List.append_nil] at hheard
  refine ⟨?_, hheard⟩
  split at hlen
  · exact nomatch hlen
  · next hsome => exact Bool.eq_false_iff.2 hsome

/-- With nothing in flight, either the parties have not met or both have been greeted. -/
theorem untouched_or_greeted (hab : Converging a b) (hba : Converging b a)
    (ha : a.inFlight = []) (hb : b.inFlight = []) :
    (a.exchange = none ∧ b.exchange = none) ∨ (a.awaits = false ∧ b.awaits = false) := by
  obtain ⟨hsent, -⟩ := hab.settled ha
  obtain ⟨hanswered, -⟩ := hba.settled hb
  cases hx : a.exchange with
  | none =>
      rw [awaits_of_none hx, Bool.and_true] at hanswered
      exact .inl ⟨rfl, Option.not_isSome_iff_eq_none.1 (by simp [hanswered])⟩
  | some x =>
      rw [hx, Option.isSome_some, Bool.true_and] at hsent
      obtain ⟨initiator, hcomplete⟩ := hba.stage.awaits_eq_false_iff.1 hsent
      rw [hcomplete, Option.isSome_some, Bool.true_and] at hanswered
      exact .inr ⟨hanswered, hsent⟩

theorem heard_eq_kept (hab : Converging a b) (hba : Converging b a)
    (ha : a.inFlight = []) (hb : b.inFlight = []) : b.heard = Offer.kept a.offers := by
  rw [(hab.settled ha).2]
  rcases hab.untouched_or_greeted hba ha hb with ⟨hx, -⟩ | ⟨hgreeted, -⟩
  · rw [said_eq_nil (awaits_of_none hx), hab.stage.offers_eq_nil hx]
    rfl
  · exact said_eq_kept hgreeted

end Converging

theorem Step.converging {terms : Side → Terms} {e e' : Side → Party} (hstep : Step terms e e')
    (hgenesis : ∀ i, (terms i).genesis = (terms i.other).genesis)
    (hcarries : ∀ i, Carries (terms i) (e i)) (he : ∀ i, Converging (e i) (e i.other)) :
    ∀ i, Converging (e' i) (e' i.other) := by
  have hback : ∀ i, Converging (e i.other) (e i) :=
    Side.swap (R := fun i j => Converging (e i) (e j)) he
  cases hstep with
  | offer i h a hh ha hi hother =>
      refine Side.forall_of i ?_ ?_
      · rw [hi, hother]
        exact (he i).offer_sender h a
      · rw [Side.other_other, hi, hother]
        exact (hback i).offer_receiver h a
  | deliver i reply m rest hreply hqueue hi hother =>
      have hpair : Converging (e' i) (e' i.other) ∧ Converging (e' i.other) (e' i) := by
        rw [hi, hother]
        rcases handshake_or_announce_of_kind ((he i).head_matches hqueue) with ⟨h, rfl⟩ | ⟨a, rfl⟩
        · have hsent : (terms i).Allows (.handshake h) :=
            (hcarries i).inFlight _ (hqueue ▸ List.mem_cons_self)
          exact (he i).deliver_handshake (hback i) hqueue
            (((terms i).genesis_eq hsent).trans (hgenesis i))
        · exact (he i).deliver_announce (hback i) hqueue
      refine Side.forall_of i hpair.1 ?_
      rw [Side.other_other]
      exact hpair.2

theorem Reach.converging {terms : Side → Terms} {e : Side → Party} (hreach : Reach terms e)
    (hgenesis : ∀ i, (terms i).genesis = (terms i.other).genesis) :
    ∀ i, Converging (e i) (e i.other) := by
  induction hreach with
  | start => exact fun _ => .start
  | step hreach hstep ih => exact hstep.converging hgenesis hreach.carries ih

end ChainPeer.Party
