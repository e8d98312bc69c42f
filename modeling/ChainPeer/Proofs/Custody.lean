import ChainPeer.Exchange

/-!
# Messages in the care of a table of exchanges

Messages for a peer are given to a table of exchanges and handed back by it, at once or when the
exchange completes. Whatever is called on the table, in whatever order: a message is held back only
in an exchange in which no handshake was received, a message that was given is handed back at most
once, and none is lost without a cause. The calls of a run are told apart by their number, so two
equal messages given at different times are two. How far an exchange has come is also told by four
fields of which each is assigned to on its own; that they fit together is no part of their type.
-/

namespace ChainPeer

/-- How far an exchange has come, field by field. -/
structure Progress where
  received : Bool := false
  validated : Bool := false
  initiated : Bool := false
  heldBack : Option Message := none

/-- The fields of an exchange. -/
def Exchange.progress (x : Exchange) : Progress :=
  ⟨x.isReceived, x.isComplete, x.isInitiator, x.heldBack?⟩

/-- The fields once a valid handshake of the peer was received. -/
def Progress.complete (r : Progress) : Progress :=
  { r with received := true, validated := true, heldBack := none }

/-- The fields once there is a message to be held back; a peer whose handshake was received gets no
message later. -/
def Progress.hold (r : Progress) (m : Message) : Progress :=
  if r.received then r else { r with heldBack := some m }

theorem Exchange.progress_completed (x : Exchange) :
    x.completed.progress = x.progress.complete := by
  cases x <;> rfl

namespace ExchangeTable

/-- The message held back for a peer. -/
def heldBack? (t : ExchangeTable) (p : PeerId) : Option Message :=
  (t.get? p).bind Exchange.heldBack?

theorem heldBack?_of_get? {t : ExchangeTable} {p : PeerId} {x : Exchange}
    (h : t.get? p = some x) : t.heldBack? p = x.heldBack? := by
  rw [heldBack?, h]
  rfl

theorem heldBack?_of_none {t : ExchangeTable} {p : PeerId} (h : t.get? p = none) :
    t.heldBack? p = none := by
  rw [heldBack?, h]
  rfl

theorem heldBack?_empty (protocol : Protocol) (p : PeerId) : (empty protocol).heldBack? p = none :=
  heldBack?_of_none (get?_empty protocol p)

theorem heldBack?_insert (t : ExchangeTable) (p q : PeerId) (x : Exchange) :
    (t.insert q x).heldBack? p = if q = p then x.heldBack? else t.heldBack? p := by
  rw [heldBack?, get?_insert]
  split <;> rfl

theorem heldBack?_erase (t : ExchangeTable) (p q : PeerId) :
    (t.erase q).heldBack? p = if q = p then none else t.heldBack? p := by
  rw [heldBack?, get?_erase]
  split <;> rfl

end ExchangeTable

/-- What can be called on a table of exchanges. -/
inductive TableCall where
  | insert (p : PeerId) (x : Exchange)
  | erase (p : PeerId)
  | reject (p : PeerId)
  | accept (p : PeerId)
  | complete (p : PeerId)
  | route (p : PeerId) (m : Message)
  | clear

namespace TableCall

/-- The table after a call. -/
def apply (t : ExchangeTable) : TableCall → ExchangeTable
  | insert p x => t.insert p x
  | erase p => t.erase p
  | reject p => t.reject p
  | accept p => (t.accept p).2
  | complete p => ((t.complete? p).map Prod.snd).getD t
  | route p m => (t.route p m).2
  | clear => t.clear

/-- The fields kept for a peer after a call. -/
def advance (p : PeerId) (r : Option Progress) : TableCall → Option Progress
  | insert q x => if q = p then some x.progress else r
  | erase q => if q = p then none else r
  | reject q => if q = p then some { received := true } else r
  | accept q => if q = p then some (r.getD {}).complete else r
  | complete q => if q = p then r.map Progress.complete else r
  | route q m =>
    if q = p then some ((r.map (·.hold m)).getD { initiated := true, heldBack := some m }) else r
  | clear => none

/-- The message for a peer that a call gives to the table. -/
def given? (p : PeerId) : TableCall → Option Message
  | insert q x => if q = p then x.heldBack? else none
  | route q m => if q = p then some m else none
  | erase _ | reject _ | accept _ | complete _ | clear => none

/-- The message for a peer that a call hands back. -/
def handed? (t : ExchangeTable) (p : PeerId) : TableCall → Option Message
  | accept q => if q = p then (t.accept q).1 else none
  | complete q => if q = p then (t.complete? q).bind Prod.fst else none
  | route q m =>
    match (t.route q m).1 with
    | .sendNow m => if q = p then some m else none
    | .openExchange | .heldBack | .refused => none
  | insert .. | erase _ | reject _ | clear => none

/-- Whether a call refuses the message for a peer that it gives. -/
def refuses (t : ExchangeTable) (p : PeerId) : TableCall → Bool
  | route q m =>
    match (t.route q m).1 with
    | .refused => q = p
    | .sendNow _ | .openExchange | .heldBack => false
  | insert .. | erase _ | reject _ | accept _ | complete _ | clear => false

/-- Whether a call takes the place of what was held back for a peer: it queues a later message, or
the exchange with the peer is overwritten, erased, rejected or cleared. -/
def displaces (t : ExchangeTable) (p : PeerId) : TableCall → Bool
  | insert q _ | erase q | reject q => q = p
  | clear => true
  | route q m =>
    match (t.route q m).1 with
    | .openExchange | .heldBack => q = p
    | .sendNow _ | .refused => false
  | accept _ | complete _ => false

variable {t : ExchangeTable} {p : PeerId} {c : TableCall} {m : Message}

theorem progress_insert (t : ExchangeTable) (p q : PeerId) (x : Exchange) :
    ((t.insert q x).get? p).map Exchange.progress =
      if q = p then some x.progress else (t.get? p).map Exchange.progress := by
  rw [ExchangeTable.get?_insert]
  split <;> rfl

theorem progress_apply (t : ExchangeTable) (p : PeerId) (c : TableCall) :
    ((c.apply t).get? p).map Exchange.progress =
      c.advance p ((t.get? p).map Exchange.progress) := by
  cases c with
  | insert q x => exact progress_insert t p q x
  | erase q =>
      rw [apply, advance, ExchangeTable.get?_erase]
      split <;> rfl
  | reject q => exact progress_insert t p q .rejected
  | accept q =>
      rw [apply, advance, ExchangeTable.accept, progress_insert]
      split
      · next hq =>
        subst hq
        rw [Exchange.progress_completed]
        cases t.get? q <;> rfl
      · rfl
  | complete q =>
      rw [apply, advance, ExchangeTable.complete?]
      cases hx : t.get? q with
      | none =>
          split
          · next hq =>
            subst hq
            simp [hx]
          · rfl
      | some x =>
          simp only [Option.map_some, Option.getD_some, progress_insert]
          split
          · next hq =>
            subst hq
            rw [hx, Exchange.progress_completed]
            rfl
          · rfl
  | route q m =>
      rw [apply, advance, ExchangeTable.route]
      by_cases hq : q = p
      · subst hq
        cases hx : t.get? q with
        | none => simp [progress_insert, Exchange.opened, Exchange.progress, Exchange.isReceived,
            Exchange.isComplete, Exchange.isInitiator, Exchange.heldBack?]
        | some x =>
            cases x <;> simp [progress_insert, hx, Progress.hold, Exchange.progress,
              Exchange.isReceived, Exchange.isComplete, Exchange.isInitiator, Exchange.heldBack?]
      · rw [if_neg hq]
        split
        · rw [progress_insert, if_neg hq]
        · rfl
        · rfl
        · rw [progress_insert, if_neg hq]
  | clear => simp [apply, advance, ExchangeTable.clear]

theorem handed?_accept (t : ExchangeTable) (p q : PeerId) :
    (accept q).handed? t p = if q = p then t.heldBack? p else none := by
  rw [handed?, ExchangeTable.accept]
  split
  · next hq =>
    subst hq
    rw [ExchangeTable.heldBack?]
    cases t.get? q <;> rfl
  · rfl

theorem handed?_complete (t : ExchangeTable) (p q : PeerId) :
    (complete q).handed? t p = if q = p then t.heldBack? p else none := by
  rw [handed?, ExchangeTable.complete?]
  split
  · next hq =>
    subst hq
    rw [ExchangeTable.heldBack?]
    cases t.get? q <;> rfl
  · rfl

theorem heldBack?_accept (t : ExchangeTable) (p q : PeerId) :
    ((accept q).apply t).heldBack? p = if q = p then none else t.heldBack? p :=
  t.heldBack?_insert p q _

theorem heldBack?_complete (t : ExchangeTable) (p q : PeerId) :
    ((complete q).apply t).heldBack? p = if q = p then none else t.heldBack? p := by
  rw [apply, ExchangeTable.complete?]
  cases hx : t.get? q with
  | none =>
      split
      · next hq => exact ExchangeTable.heldBack?_of_none (hq ▸ hx)
      · rfl
  | some x => exact t.heldBack?_insert p q _

/-- What is held back for a peer after a call: what the call gives if it takes the place of what was
held back, nothing if it hands that back, and else what was held back before. -/
theorem heldBack?_apply (t : ExchangeTable) (p : PeerId) (c : TableCall) :
    (c.apply t).heldBack? p =
      if c.displaces t p then c.given? p
      else if (c.handed? t p).isSome then none
      else t.heldBack? p := by
  have htaken : ∀ q, (if q = p then none else t.heldBack? p) =
      if (if q = p then t.heldBack? p else none).isSome then none else t.heldBack? p := by
    intro q
    by_cases hq : q = p
    · cases hheld : t.heldBack? p <;> simp [hq]
    · simp [hq]
  cases c with
  | insert q x =>
      rw [apply, ExchangeTable.heldBack?_insert]
      by_cases hq : q = p <;> simp [displaces, given?, handed?, hq]
  | erase q =>
      rw [apply, ExchangeTable.heldBack?_erase]
      by_cases hq : q = p <;> simp [displaces, given?, handed?, hq]
  | reject q =>
      rw [apply, ExchangeTable.reject, ExchangeTable.heldBack?_insert]
      by_cases hq : q = p <;> simp [displaces, given?, handed?, hq, Exchange.heldBack?]
  | accept q =>
      rw [heldBack?_accept, handed?_accept]
      exact htaken q
  | complete q =>
      rw [heldBack?_complete, handed?_complete]
      exact htaken q
  | clear => simp [apply, displaces, given?, ExchangeTable.clear, ExchangeTable.heldBack?_empty]
  | route q m =>
      rw [apply, displaces, given?, handed?, ExchangeTable.route]
      cases hx : t.get? q with
      | none =>
          dsimp only
          rw [ExchangeTable.heldBack?_insert]
          by_cases hq : q = p <;> simp [hq, Exchange.opened, Exchange.heldBack?]
      | some x =>
          cases x with
          | awaiting initiator heldBack =>
              dsimp only
              rw [ExchangeTable.heldBack?_insert]
              by_cases hq : q = p <;> simp [hq, Exchange.heldBack?]
          | rejected => rfl
          | complete initiator =>
              by_cases hq : q = p
              · subst hq
                simp [ExchangeTable.heldBack?_of_get? hx, Exchange.heldBack?]
              · simp [hq]

/-- A call that hands a message back either gives it, and then nothing was held back, or it gives
nothing and hands back what was held back. -/
theorem handed?_eq_some (h : c.handed? t p = some m) :
    c.displaces t p = false ∧ c.refuses t p = false ∧
      (c.given? p = some m ∧ t.heldBack? p = none ∨
        c.given? p = none ∧ t.heldBack? p = some m) := by
  cases c with
  | insert | erase | reject | clear => exact nomatch h
  | accept q =>
      rw [handed?_accept] at h
      split at h
      · exact ⟨rfl, rfl, .inr ⟨rfl, h⟩⟩
      · exact nomatch h
  | complete q =>
      rw [handed?_complete] at h
      split at h
      · exact ⟨rfl, rfl, .inr ⟨rfl, h⟩⟩
      · exact nomatch h
  | route q m' =>
      rw [displaces, refuses, given?]
      rw [handed?] at h
      cases hx : t.get? q with
      | none =>
          rw [ExchangeTable.route, hx] at h
          exact nomatch h
      | some x =>
          cases x with
          | awaiting | rejected =>
              rw [ExchangeTable.route, hx] at h
              exact nomatch h
          | complete initiator =>
              rw [ExchangeTable.route, hx] at h
              rw [ExchangeTable.route, hx]
              dsimp only at h
              split at h
              · next hq =>
                subst hq
                exact ⟨rfl, rfl, .inl ⟨by rw [if_pos rfl, h], ExchangeTable.heldBack?_of_get? hx⟩⟩
              · exact nomatch h

theorem displaces_of_given? (h : c.given? p = some m) (hkept : c.refuses t p = false)
    (hback : c.handed? t p = none) : c.displaces t p = true := by
  cases c with
  | erase | reject | accept | complete | clear => exact nomatch h
  | insert q x =>
      rw [given?] at h
      split at h
      · next hq => exact decide_eq_true hq
      · exact nomatch h
  | route q m' =>
      rw [given?] at h
      split at h
      · next hq =>
        subst hq
        cases hroute : (t.route q m').1 with
        | openExchange | heldBack =>
            rw [displaces, hroute]
            exact decide_eq_true rfl
        | sendNow m'' =>
            rw [handed?, hroute] at hback
            exact absurd ((if_pos rfl).symm.trans hback) (Option.some_ne_none m'')
        | refused =>
            rw [refuses, hroute] at hkept
            exact absurd rfl (of_decide_eq_false hkept)
      · exact nomatch h

theorem refuses_of_displaces (h : c.displaces t p = true) : c.refuses t p = false := by
  cases c with
  | insert | erase | reject | accept | complete | clear => rfl
  | route q m =>
      cases hroute : (t.route q m).1 with
      | openExchange | heldBack | sendNow => rw [refuses, hroute]
      | refused =>
          rw [displaces, hroute] at h
          exact nomatch h

/-! ## Runs -/

section Runs

variable (protocol : Protocol) (calls : List TableCall) (p : PeerId)

/-- The table after the first `n` calls. -/
def tableAt (n : Nat) : ExchangeTable := (calls.take n).foldl apply (.empty protocol)

/-- The fields kept for a peer after the first `n` calls. -/
def progressAt (n : Nat) : Option Progress := (calls.take n).foldl (advance p) none

/-- The message for a peer that call number `k` gives. -/
def givenAt (k : Nat) : Option Message := calls[k]?.bind (given? p)

/-- The message for a peer that call number `k` hands back. -/
def handedAt (k : Nat) : Option Message := calls[k]?.bind (handed? (tableAt protocol calls k) p)

/-- Whether call number `k` refuses the message for a peer that it gives. -/
def refusedAt (k : Nat) : Bool := calls[k]?.any (refuses (tableAt protocol calls k) p)

/-- Whether call number `k` takes the place of what was held back for a peer. -/
def displacedAt (k : Nat) : Bool := calls[k]?.any (displaces (tableAt protocol calls k) p)

/-- The number of the last call before call number `n` that took the place of what was held back for
a peer. -/
def lastDisplaced : Nat → Nat
  | 0 => 0
  | n + 1 => if displacedAt protocol calls p n then n else lastDisplaced n

/-- The number of the call that gave the message that call number `k` hands back: the call itself
or the last one that queued a message. -/
def origin (k : Nat) : Nat :=
  if (givenAt calls p k).isSome then k else lastDisplaced protocol calls p k

variable {protocol calls p} {k n : Nat}

theorem tableAt_succ {c : TableCall} (h : calls[n]? = some c) :
    tableAt protocol calls (n + 1) = c.apply (tableAt protocol calls n) := by
  rw [tableAt, List.take_add_one, h, List.foldl_append]
  rfl

theorem tableAt_succ_of_none (h : calls[n]? = none) :
    tableAt protocol calls (n + 1) = tableAt protocol calls n := by
  rw [tableAt, List.take_add_one, h, List.foldl_append]
  rfl

theorem progress_tableAt (protocol : Protocol) (calls : List TableCall) (p : PeerId) (n : Nat) :
    ((tableAt protocol calls n).get? p).map Exchange.progress = progressAt calls p n := by
  have hfold : ∀ (calls : List TableCall) (t : ExchangeTable),
      ((calls.foldl apply t).get? p).map Exchange.progress =
        calls.foldl (advance p) ((t.get? p).map Exchange.progress) := by
    intro calls
    induction calls with
    | nil => exact fun t => rfl
    | cons c calls ih =>
        intro t
        rw [List.foldl_cons, List.foldl_cons, ih, progress_apply]
  rw [tableAt, hfold, ExchangeTable.get?_empty]
  rfl

theorem heldBack?_tableAt_succ (n : Nat) :
    (tableAt protocol calls (n + 1)).heldBack? p =
      if displacedAt protocol calls p n then givenAt calls p n
      else if (handedAt protocol calls p n).isSome then none
      else (tableAt protocol calls n).heldBack? p := by
  cases hcall : calls[n]? with
  | none =>
      rw [tableAt_succ_of_none hcall, displacedAt, handedAt, hcall]
      rfl
  | some c =>
      rw [tableAt_succ hcall, heldBack?_apply, displacedAt, handedAt, givenAt, hcall]
      rfl

theorem handedAt_eq_some (h : handedAt protocol calls p k = some m) :
    displacedAt protocol calls p k = false ∧ refusedAt protocol calls p k = false ∧
      (givenAt calls p k = some m ∧ (tableAt protocol calls k).heldBack? p = none ∨
        givenAt calls p k = none ∧ (tableAt protocol calls k).heldBack? p = some m) := by
  obtain ⟨c, hcall, hback⟩ := Option.bind_eq_some_iff.1 h
  rw [displacedAt, refusedAt, givenAt, hcall]
  exact handed?_eq_some hback

theorem displacedAt_of_givenAt (h : givenAt calls p k = some m)
    (hkept : refusedAt protocol calls p k = false)
    (hback : handedAt protocol calls p k = none) : displacedAt protocol calls p k = true := by
  obtain ⟨c, hcall, hgiven⟩ := Option.bind_eq_some_iff.1 h
  rw [refusedAt, hcall] at hkept
  rw [handedAt, hcall] at hback
  rw [displacedAt, hcall]
  exact displaces_of_given? hgiven hkept hback

/-- What is held back was given by the last call that took the place of what was held back before,
and has neither been displaced nor been handed back since. -/
theorem givenAt_lastDisplaced (h : (tableAt protocol calls n).heldBack? p = some m) :
    lastDisplaced protocol calls p n < n ∧
      displacedAt protocol calls p (lastDisplaced protocol calls p n) = true ∧
      givenAt calls p (lastDisplaced protocol calls p n) = some m ∧
      ∀ j, lastDisplaced protocol calls p n < j → j < n →
        displacedAt protocol calls p j = false ∧ handedAt protocol calls p j = none := by
  induction n with
  | zero =>
      rw [show tableAt protocol calls 0 = .empty protocol from rfl,
        ExchangeTable.heldBack?_empty] at h
      exact nomatch h
  | succ n ih =>
      rw [heldBack?_tableAt_succ] at h
      rw [lastDisplaced]
      split at h
      · next hdisplaced =>
        rw [if_pos hdisplaced]
        exact ⟨Nat.lt_succ_self n, hdisplaced, h, fun j hlt hle => by omega⟩
      · next hdisplaced =>
        split at h
        · exact nomatch h
        · next hback =>
          obtain ⟨hlt, hqueued, hgiven, hsince⟩ := ih h
          rw [if_neg hdisplaced]
          refine ⟨Nat.lt_succ_of_lt hlt, hqueued, hgiven, fun j hj hjn => ?_⟩
          rcases Nat.lt_succ_iff_lt_or_eq.1 hjn with hjn | rfl
          · exact hsince j hj hjn
          · exact ⟨Bool.eq_false_iff.2 hdisplaced, Option.not_isSome_iff_eq_none.1 hback⟩

theorem handedAt_of_displacedAt (h : displacedAt protocol calls p k = true) :
    handedAt protocol calls p k = none := by
  cases hback : handedAt protocol calls p k with
  | none => rfl
  | some m => exact absurd (h.symm.trans (handedAt_eq_some hback).1) Bool.noConfusion

theorem refusedAt_of_displacedAt (h : displacedAt protocol calls p k = true) :
    refusedAt protocol calls p k = false := by
  rw [displacedAt] at h
  rw [refusedAt]
  cases hcall : calls[k]? with
  | none => rfl
  | some c =>
      rw [hcall] at h
      exact refuses_of_displaces h

theorem origin_of_givenAt (h : givenAt calls p k = some m) : origin protocol calls p k = k := by
  rw [origin, h]
  rfl

theorem origin_of_not_givenAt (h : givenAt calls p k = none) :
    origin protocol calls p k = lastDisplaced protocol calls p k := by
  rw [origin, h]
  rfl

/-- A message that is handed back was given before and not refused, and has not been displaced
since. -/
theorem givenAt_origin (h : handedAt protocol calls p k = some m) :
    origin protocol calls p k ≤ k ∧
      givenAt calls p (origin protocol calls p k) = some m ∧
      refusedAt protocol calls p (origin protocol calls p k) = false ∧
      ∀ j, origin protocol calls p k < j → j < k → displacedAt protocol calls p j = false := by
  obtain ⟨-, hkept, ⟨hgiven, -⟩ | ⟨hgiven, hheld⟩⟩ := handedAt_eq_some h
  · rw [origin_of_givenAt hgiven]
    exact ⟨Nat.le_refl k, hgiven, hkept, fun j hlt hle => by omega⟩
  · obtain ⟨hlt, hqueued, hlast, hsince⟩ := givenAt_lastDisplaced hheld
    rw [origin_of_not_givenAt hgiven]
    exact ⟨Nat.le_of_lt hlt, hlast, refusedAt_of_displacedAt hqueued,
      fun j hj hjk => (hsince j hj hjk).1⟩

theorem origin_ne_of_lt {k' : Nat} {m' : Message} (hlt : k < k')
    (h : handedAt protocol calls p k = some m) (h' : handedAt protocol calls p k' = some m') :
    origin protocol calls p k ≠ origin protocol calls p k' := by
  intro heq
  have hle := (givenAt_origin h).1
  obtain ⟨-, -, ⟨hgiven, -⟩ | ⟨hgiven, hheld⟩⟩ := handedAt_eq_some h'
  · rw [origin_of_givenAt hgiven] at heq
    omega
  · obtain ⟨-, hqueued, -, hsince⟩ := givenAt_lastDisplaced hheld
    rw [origin_of_not_givenAt hgiven] at heq
    rw [heq] at hle
    -- The message was queued by call number `k` or before it, and nothing was handed back since.
    rcases Nat.eq_or_lt_of_le hle with rfl | hafter
    · rw [handedAt_of_displacedAt hqueued] at h
      exact nomatch h
    · rw [(hsince k hafter hlt).2] at h
      exact nomatch h

theorem handed_or_held {i : Nat} (hgiven : givenAt calls p i = some m)
    (hkept : refusedAt protocol calls p i = false) (hlt : i < n)
    (hsince : ∀ j, i < j → j < n → displacedAt protocol calls p j = false) :
    (∃ k < n, origin protocol calls p k = i ∧ handedAt protocol calls p k = some m) ∨
      (tableAt protocol calls n).heldBack? p = some m ∧ lastDisplaced protocol calls p n = i := by
  -- The induction is on the calls that follow the one that gave the message.
  induction n with
  | zero => exact absurd hlt (Nat.not_lt_zero i)
  | succ n ih =>
      rcases Nat.lt_succ_iff_lt_or_eq.1 hlt with hlt | rfl
      · have hstays : displacedAt protocol calls p n = false :=
          hsince n hlt (Nat.lt_succ_self n)
        rcases ih hlt (fun j hj hjn => hsince j hj (Nat.lt_succ_of_lt hjn)) with
          ⟨k, hk, horigin, hback⟩ | ⟨hheld, hlast⟩
        · exact .inl ⟨k, Nat.lt_succ_of_lt hk, horigin, hback⟩
        · cases hback : handedAt protocol calls p n with
          | none =>
              refine .inr ⟨?_, ?_⟩
              · rw [heldBack?_tableAt_succ, hstays, hback]
                exact hheld
              · rw [lastDisplaced, hstays]
                exact hlast
          | some m' =>
              obtain ⟨-, -, ⟨-, hnothing⟩ | ⟨hnone, hsame⟩⟩ := handedAt_eq_some hback
              · rw [hheld] at hnothing
                exact nomatch hnothing
              · obtain rfl : m = m' := Option.some.inj (hheld.symm.trans hsame)
                exact .inl ⟨n, Nat.lt_succ_self n, (origin_of_not_givenAt hnone).trans hlast, hback⟩
      · cases hback : handedAt protocol calls p i with
        | some m' =>
            obtain ⟨-, -, ⟨hsame, -⟩ | ⟨hnone, -⟩⟩ := handedAt_eq_some hback
            · obtain rfl : m = m' := Option.some.inj (hgiven.symm.trans hsame)
              exact .inl ⟨i, Nat.lt_succ_self i, origin_of_givenAt hgiven, hback⟩
            · rw [hgiven] at hnone
              exact nomatch hnone
        | none =>
            have hqueued := displacedAt_of_givenAt hgiven hkept hback
            refine .inr ⟨?_, ?_⟩
            · rw [heldBack?_tableAt_succ, hqueued]
              exact hgiven
            · rw [lastDisplaced, hqueued]
              rfl

end Runs

/-- Whatever is called on an empty table. The fields kept for each peer are those of its exchange:
a handshake that was found valid was received, and a message is held back only as long as none was
received. Every message that a call hands back comes from a call of its own that gave this message
for this peer, was not refused, and was displaced by nothing in between; and a message that was given
and not refused was handed back or is held back, as long as nothing has displaced it. -/
theorem handed_back_once (protocol : Protocol) (calls : List TableCall) (p : PeerId) :
    (∀ n, ((tableAt protocol calls n).get? p).map Exchange.progress = progressAt calls p n ∧
      ∀ r, progressAt calls p n = some r →
        (r.validated = true → r.received = true) ∧
          (r.heldBack.isSome = true → r.received = false)) ∧
    ∃ origin : Nat → Nat,
      (∀ k m, handedAt protocol calls p k = some m →
        origin k ≤ k ∧ givenAt calls p (origin k) = some m ∧
          refusedAt protocol calls p (origin k) = false ∧
          ∀ j, origin k < j → j < k → displacedAt protocol calls p j = false) ∧
      (∀ k k', (handedAt protocol calls p k).isSome = true →
        (handedAt protocol calls p k').isSome = true → origin k = origin k' → k = k') ∧
      ∀ i m n, givenAt calls p i = some m → refusedAt protocol calls p i = false → i < n →
        (∀ j, i < j → j < n → displacedAt protocol calls p j = false) →
        (∃ k < n, origin k = i ∧ handedAt protocol calls p k = some m) ∨
          (tableAt protocol calls n).heldBack? p = some m := by
  have hprogress := progress_tableAt protocol calls p
  refine ⟨fun n => ⟨hprogress n, fun r hr => ?_⟩, origin protocol calls p, fun k m => givenAt_origin,
    fun k k' h h' heq => ?_, fun i m n hgiven hkept hlt hsince => ?_⟩
  · obtain ⟨x, -, rfl⟩ := Option.map_eq_some_iff.1 ((hprogress n).trans hr)
    cases x <;> simp [Exchange.progress, Exchange.isComplete, Exchange.isReceived, Exchange.heldBack?]
  · obtain ⟨m, h⟩ := Option.isSome_iff_exists.1 h
    obtain ⟨m', h'⟩ := Option.isSome_iff_exists.1 h'
    rcases Nat.lt_trichotomy k k' with hlt | hsame | hlt
    · exact absurd heq (origin_ne_of_lt hlt h h')
    · exact hsame
    · exact absurd heq.symm (origin_ne_of_lt hlt h' h)
  · exact (handed_or_held hgiven hkept hlt hsince).imp_right And.left

/-- Of two messages held back for a peer only the later one is handed back, and once. -/
example (m m' : Message) :
    (List.range 4).map (handedAt Channel.blockAnnounces.protocol
      [route default m, route default m', complete default, complete default] default) =
        [none, none, some m', none] := rfl

end TableCall

end ChainPeer
