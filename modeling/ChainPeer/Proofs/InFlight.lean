import ChainPeer.Proofs.Ledger

/-!
# Outstanding means sent and not settled

The requests that a site counts as outstanding are exactly those that were sent and of which nothing
has come since: no response with the id, no departure of the peer, no reset. So a request with an
outstanding id is never sent again, and no id is taken for outstanding that nobody was asked for.
-/

namespace ChainPeer

variable {σ : Type}

/-- The request was sent to the peer and has not been settled since. The latest moment comes
first. -/
def Unsettled (p : PeerId) (r : BlockRequest) : List Moment → Prop
  | [] => False
  | m :: past => m.asked? = some (p, r) ∨ m.settles p r.id = false ∧ Unsettled p r past

/-- Whenever a request was sent, every earlier one with its id had been settled. -/
def Spaced (past : List Moment) : Prop :=
  ∀ later m earlier p r, past = later ++ m :: earlier → m.asked? = some (p, r) →
    ∀ q r', r'.id = r.id → ¬ Unsettled q r' earlier

theorem unsettled_cons {p : PeerId} {r : BlockRequest} {m : Moment} {past : List Moment} :
    Unsettled p r (m :: past) ↔
      m.asked? = some (p, r) ∨ m.settles p r.id = false ∧ Unsettled p r past :=
  Iff.rfl

theorem unsettled_cons_of_not_asked {p : PeerId} {r : BlockRequest} {m : Moment}
    {past : List Moment} (hm : m.asked? = none) :
    Unsettled p r (m :: past) ↔ m.settles p r.id = false ∧ Unsettled p r past := by
  rw [unsettled_cons, hm]
  exact or_iff_right nofun

theorem unsettled_iff_exists {p : PeerId} {r : BlockRequest} {past : List Moment} :
    Unsettled p r past ↔
      ∃ later m earlier, past = later ++ m :: earlier ∧ m.asked? = some (p, r) ∧
        ∀ m' ∈ later, m'.settles p r.id = false := by
  induction past with
  | nil =>
      constructor
      · exact False.elim
      · rintro ⟨later, m, earlier, heq, -⟩
        exact List.append_ne_nil_of_right_ne_nil later (List.cons_ne_nil m earlier) heq.symm
  | cons m past ih =>
      rw [unsettled_cons, ih]
      constructor
      · rintro (hasked | ⟨hsettles, later, m', earlier, rfl, hasked, hlater⟩)
        · exact ⟨[], m, past, rfl, hasked, nofun⟩
        · refine ⟨m :: later, m', earlier, rfl, hasked, ?_⟩
          intro x hx
          rcases List.mem_cons.1 hx with rfl | hx
          · exact hsettles
          · exact hlater x hx
      · rintro ⟨later, m', earlier, heq, hasked, hlater⟩
        cases later with
        | nil =>
            obtain ⟨rfl, -⟩ := List.cons.inj heq
            exact .inl hasked
        | cons x later =>
            obtain ⟨rfl, rfl⟩ := List.cons.inj heq
            refine .inr ⟨hlater m List.mem_cons_self, later, m', earlier, rfl, hasked, ?_⟩
            intro x hx
            exact hlater x (List.mem_cons_of_mem m hx)

theorem Spaced.nil : Spaced [] := by
  intro later m earlier p r heq
  exact absurd heq.symm (List.append_ne_nil_of_right_ne_nil later (List.cons_ne_nil m earlier))

theorem Spaced.cons {m : Moment} {past : List Moment} (h : Spaced past)
    (hm : ∀ p r, m.asked? = some (p, r) → ∀ q r', r'.id = r.id → ¬ Unsettled q r' past) :
    Spaced (m :: past) := by
  intro later m' earlier p r heq hasked
  cases later with
  | nil =>
      obtain ⟨rfl, rfl⟩ := List.cons.inj heq
      exact hm p r hasked
  | cons x later =>
      obtain ⟨rfl, rfl⟩ := List.cons.inj heq
      exact h later m' earlier p r rfl hasked

theorem Spaced.cons_of_not_asked {m : Moment} {past : List Moment} (h : Spaced past)
    (hm : m.asked? = none) : Spaced (m :: past) := by
  refine h.cons fun p r hasked => ?_
  rw [hm] at hasked
  exact nomatch hasked

namespace Ledger

/-- The outstanding requests are those that were sent and not settled, a request is sent again only
when it was settled, and no more responses were handed over than requests were sent. -/
structure Exact (l : Ledger) : Prop where
  outstanding : ∀ id entry, l.requests.get? id = some entry ↔
    ∃ p r, entry = ⟨some p, some r.start⟩ ∧ r.id = id ∧ Unsettled p r l.past
  spaced : Spaced l.past
  balance : ∀ id, l.past.countP (·.answers id) + (l.requests.has id).toNat ≤
    l.past.countP (·.asks id)

theorem Exact.start : Exact ⟨.empty, []⟩ where
  outstanding id entry := by
    rw [Outstanding.get?_empty]
    exact iff_of_false nofun fun ⟨_, _, _, _, h⟩ => h
  spaced := .nil
  balance id := by simp [Outstanding.has_empty]

variable {l : Ledger}

theorem Exact.idle (h : l.Exact) {m : Moment} (hm : m.IsIdle) :
    Exact { l with past := m :: l.past } where
  outstanding id entry := by
    rw [h.outstanding]
    have hsame : ∀ p r, Unsettled p r (m :: l.past) ↔ Unsettled p r l.past := by
      intro p r
      rw [unsettled_cons_of_not_asked hm.asked, hm.settles]
      exact and_iff_right rfl
    simp only [hsame]
  spaced := h.spaced.cons_of_not_asked hm.asked
  balance id := by
    have hbalance := h.balance id
    rw [List.countP_cons, List.countP_cons, hm.asks, hm.answers]
    exact hbalance

theorem Exact.not_unsettled (h : l.Exact) {r : BlockRequest} (hnew : l.requests.has r.id = false)
    (q : PeerId) (r' : BlockRequest) (hid : r'.id = r.id) : ¬ Unsettled q r' l.past := by
  intro hunsettled
  have hentry := (h.outstanding r.id ⟨some q, some r'.start⟩).2 ⟨q, r', rfl, hid, hunsettled⟩
  rw [Outstanding.has_eq_false_iff.1 hnew] at hentry
  exact nomatch hentry

theorem Exact.asked (h : l.Exact) (p : PeerId) {r : BlockRequest}
    (hnew : l.requests.has r.id = false) :
    Exact
      { requests := l.requests.put r.id ⟨some p, some r.start⟩
        past := .saw (.sent p .sync (Message.request r).payload) :: l.past } where
  outstanding id entry := by
    have hasked := Moment.asked?_sent_request p r
    rw [Outstanding.get?_put]
    by_cases hid : r.id = id
    · rw [if_pos hid]
      constructor
      · intro hentry
        exact ⟨p, r, (Option.some.inj hentry).symm, hid, .inl hasked⟩
      · rintro ⟨q, r', rfl, hid', hthis | ⟨-, hbefore⟩⟩
        · obtain ⟨rfl, rfl⟩ := Prod.mk.inj (Option.some.inj (hasked.symm.trans hthis))
          rfl
        · exact absurd hbefore (h.not_unsettled hnew q r' (hid'.trans hid.symm))
    · rw [if_neg hid, h.outstanding]
      constructor
      · rintro ⟨q, r', rfl, hid', hbefore⟩
        exact ⟨q, r', rfl, hid', .inr ⟨rfl, hbefore⟩⟩
      · rintro ⟨q, r', rfl, hid', hthis | ⟨-, hbefore⟩⟩
        · obtain ⟨rfl, rfl⟩ := Prod.mk.inj (Option.some.inj (hasked.symm.trans hthis))
          exact absurd hid' hid
        · exact ⟨q, r', rfl, hid', hbefore⟩
  spaced := by
    refine h.spaced.cons fun q r' hasked => ?_
    obtain ⟨rfl, rfl⟩ :=
      Prod.mk.inj (Option.some.inj ((Moment.asked?_sent_request p r).symm.trans hasked))
    exact h.not_unsettled hnew
  balance id := by
    have hbalance := h.balance id
    have hasks : (Moment.saw (.sent p .sync (Message.request r).payload)).asks id =
        decide (r.id = id) := by
      rw [Moment.asks, Moment.asked?_sent_request]
      rfl
    have hanswers : (Moment.saw (.sent p .sync (Message.request r).payload)).answers id = false :=
      rfl
    rw [List.countP_cons, List.countP_cons, hasks, hanswers, Outstanding.has_put]
    by_cases hid : r.id = id
    · subst hid
      simp only [hnew, Bool.toNat_false, decide_true, Bool.true_or, Bool.toNat_true,
        Bool.false_eq_true, if_false, if_true] at hbalance ⊢
      omega
    · simp only [hid, decide_false, Bool.false_or, Bool.false_eq_true, if_false]
      exact hbalance

/-- What is left outstanding when some requests are settled. -/
theorem Exact.outstanding_settled (h : l.Exact) {m : Moment} {requests : Outstanding}
    (hm : m.asked? = none)
    (hleft : ∀ id p start, requests.get? id = some ⟨some p, start⟩ ↔
      m.settles p id = false ∧ l.requests.get? id = some ⟨some p, start⟩)
    (hwithin : ∀ id entry, requests.get? id = some entry → l.requests.get? id = some entry)
    (id : UInt64) (entry : Pending) :
    requests.get? id = some entry ↔
      ∃ p r, entry = ⟨some p, some r.start⟩ ∧ r.id = id ∧ Unsettled p r (m :: l.past) := by
  simp only [unsettled_cons_of_not_asked hm]
  constructor
  · intro hentry
    obtain ⟨p, r, rfl, rfl, hunsettled⟩ := (h.outstanding id entry).1 (hwithin id entry hentry)
    exact ⟨p, r, rfl, rfl, ((hleft r.id p _).1 hentry).1, hunsettled⟩
  · rintro ⟨p, r, rfl, rfl, hsettles, hunsettled⟩
    have hbefore := (h.outstanding r.id ⟨some p, some r.start⟩).2 ⟨p, r, rfl, rfl, hunsettled⟩
    exact (hleft r.id p _).2 ⟨hsettles, hbefore⟩

theorem Exact.answered (h : l.Exact) (p : PeerId) {x : BlockResponse}
    (hhas : l.requests.has x.id = true) :
    Exact
      { requests := (l.requests.remove x.id).2
        past := .saw (.answered p x) :: l.past } where
  outstanding := by
    refine h.outstanding_settled rfl ?_ ?_
    · intro id q start
      have hsettles : (Moment.saw (.answered p x)).settles q id = decide (x.id = id) := rfl
      rw [Outstanding.get?_remove, hsettles]
      by_cases hid : x.id = id <;> simp [hid]
    · intro id entry hentry
      rw [Outstanding.get?_remove] at hentry
      split at hentry
      · exact nomatch hentry
      · exact hentry
  spaced := h.spaced.cons_of_not_asked rfl
  balance id := by
    have hbalance := h.balance id
    have hanswers : (Moment.saw (.answered p x)).answers id = decide (x.id = id) := rfl
    have hasks : (Moment.saw (.answered p x)).asks id = false := rfl
    rw [List.countP_cons, List.countP_cons, hasks, hanswers, Outstanding.has_remove]
    by_cases hid : x.id = id
    · subst hid
      simp only [hhas, Bool.toNat_true, ne_eq, not_true_eq_false, decide_false, Bool.false_and,
        Bool.toNat_false, decide_true, if_true, Bool.false_eq_true, if_false] at hbalance ⊢
      omega
    · simp only [hid, ne_eq, not_false_eq_true, decide_true, Bool.true_and, decide_false,
        Bool.false_eq_true, if_false]
      exact hbalance

theorem Exact.settled (h : l.Exact) {m : Moment} {requests : Outstanding}
    (hm : m.asked? = none) (hanswers : ∀ id, m.answers id = false)
    (hleft : ∀ id p start, requests.get? id = some ⟨some p, start⟩ ↔
      m.settles p id = false ∧ l.requests.get? id = some ⟨some p, start⟩)
    (hwithin : ∀ id entry, requests.get? id = some entry → l.requests.get? id = some entry) :
    Exact { requests, past := m :: l.past } where
  outstanding := h.outstanding_settled hm hleft hwithin
  spaced := h.spaced.cons_of_not_asked hm
  balance id := by
    have hbalance := h.balance id
    have hasks : m.asks id = false := by
      rw [Moment.asks, hm]
      rfl
    have hhas : requests.has id = true → l.requests.has id = true := by
      intro hhas
      obtain ⟨entry, hentry⟩ := Option.isSome_iff_exists.1 hhas
      exact Option.isSome_iff_exists.2 ⟨entry, hwithin id entry hentry⟩
    have hle : (requests.has id).toNat ≤ (l.requests.has id).toNat := by
      cases hnow : requests.has id with
      | false => exact Nat.zero_le _
      | true => exact Nat.le_of_eq (congrArg Bool.toNat (hhas hnow).symm)
    rw [List.countP_cons, List.countP_cons, hasks, hanswers]
    simp only [Bool.false_eq_true, if_false]
    omega

theorem Exact.departed (h : l.Exact) (p : PeerId) :
    Exact
      { requests := (l.requests.removePeer p).2
        past := .did (.forget .sync p) :: l.past } := by
  refine h.settled rfl (fun _ => rfl) ?_ ?_
  · intro id q start
    have hsettles : (Moment.did (.forget .sync p)).settles q id = decide (p = q) := rfl
    rw [Outstanding.get?_removePeer, hsettles, Option.filter_eq_some_iff, and_comm,
      decide_eq_true_iff, decide_eq_false_iff_not, ne_eq, Option.some.injEq, eq_comm]
  · intro id entry hentry
    rw [Outstanding.get?_removePeer] at hentry
    exact (Option.filter_eq_some_iff.1 hentry).1

theorem Exact.dropped (h : l.Exact) :
    Exact { requests := .empty, past := .did (.reset .sync) :: l.past } := by
  refine h.settled rfl (fun _ => rfl) ?_ ?_
  · intro id p start
    rw [Outstanding.get?_empty]
    exact iff_of_false nofun fun h => nomatch h.1
  · intro id entry hentry
    rw [Outstanding.get?_empty] at hentry
    exact nomatch hentry

theorem Step.exact {l' : Ledger} (hstep : Step l l') (h : l.Exact) : l'.Exact := by
  cases hstep with
  | idle hm => exact h.idle hm
  | asked p r hnew => exact h.asked p hnew
  | answered p x hhas => exact h.answered p hhas
  | departed p => exact h.departed p
  | dropped => exact h.dropped

end Ledger

/-- Whatever is called on a site without outstanding requests, whatever peers send to it and
whatever cannot be sent, at the end of each call: a request is outstanding, with the peer and the
first block that were asked for, exactly if it was sent to this peer and no response with its id was
handed over since, the peer has not departed since and there was no reset since; between two
requests that were sent with the same id, the first one was settled in one of these ways; and of
each id, no more responses were handed over than requests were sent. -/
theorem Site.requests_exact (w : World σ) (deeds : List Deed) {s : Site σ}
    (hrequests : s.node.requests = .empty) (hheld : s.node.exchanges.HoldsAnnounces) :
    let c := s.lived w deeds
    (∀ id entry, c.site.node.requests.get? id = some entry ↔
      ∃ p r, entry = ⟨some p, some r.start⟩ ∧ r.id = id ∧
        ∃ later m earlier, c.past = later ++ m :: earlier ∧ m.asked? = some (p, r) ∧
          ∀ m' ∈ later, m'.settles p r.id = false) ∧
    (∀ later m' between m earlier p r p' r',
      c.past = later ++ m' :: (between ++ m :: earlier) → m.asked? = some (p, r) →
      m'.asked? = some (p', r') → r'.id = r.id → ∃ x ∈ between, x.settles p r.id = true) ∧
    ∀ id, c.past.countP (·.answers id) ≤ c.past.countP (·.asks id) := by
  have hstart : Ledger.Exact ⟨s.node.requests, []⟩ := hrequests ▸ Ledger.Exact.start
  have hexact : (s.lived w deeds).ledger.Exact :=
    (s.steps_lived w deeds hheld).preserves Ledger.Exact (fun _ _ hstep h => hstep.exact h) hstart
  refine ⟨fun id entry => ?_, ?_, fun id => ?_⟩
  · simp only [← unsettled_iff_exists]
    exact hexact.outstanding id entry
  · intro later m' between m earlier p r p' r' hpast hasked hasked' hid
    -- A request that nothing has settled in between would still be open when its id is sent again.
    refine Classical.byContradiction fun hnone => ?_
    have hopen : ∀ x ∈ between, x.settles p r.id = false := by
      intro x hx
      rw [← Bool.not_eq_true]
      exact fun hsettles => hnone ⟨x, hx, hsettles⟩
    have hunsettled := unsettled_iff_exists.2 ⟨between, m, earlier, rfl, hasked, hopen⟩
    exact hexact.spaced later m' _ p' r' hpast hasked' p r hid.symm hunsettled
  · have hbalance := hexact.balance id
    exact Nat.le_trans (Nat.le_add_right _ _) hbalance

namespace Site

/-- The supplier is asked, the stranger answers, and the supplier is asked again. -/
def askedTwice : List Deed :=
  [.request supplier idleRequest, .handle .sync stranger (.response ⟨5, []⟩),
    .request supplier idleRequest]

/-- The second request is outstanding, so it was sent and has not been answered since, and no more
than the one response was handed over. -/
theorem requests_exact_of_askedTwice :
    let c := lived (World.idle .zero) askedTwice ⟨.new .default, ()⟩
    (∃ r later m earlier, r.id = 5 ∧ c.past = later ++ m :: earlier ∧
      m.asked? = some (supplier, r) ∧ ∀ m' ∈ later, m'.settles supplier r.id = false) ∧
    c.past.countP (·.answers 5) ≤ c.past.countP (·.asks 5) := by
  obtain ⟨houtstanding, -, hbalance⟩ := requests_exact (World.idle .zero) askedTwice
    (s := ⟨.new .default, ()⟩) rfl (ExchangeTable.holds_empty _)
  refine ⟨?_, hbalance 5⟩
  obtain ⟨p, r, hentry, hid, later, m, earlier, hpast, hasked, hopen⟩ :=
    (houtstanding 5 ⟨some supplier, some (.number 9)⟩).1 (by decide +kernel)
  obtain rfl : supplier = p := Option.some.inj (Pending.mk.inj hentry).1
  exact ⟨r, later, m, earlier, hid, hpast, hasked, hopen⟩

end Site

end ChainPeer
