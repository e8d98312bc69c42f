import ChainPeer.Proofs.Exchanges
import ChainPeer.Proofs.Gate
import ChainPeer.Proofs.Requests

/-!
# One handshake an exchange

While the exchange with a peer lasts, a node passes one handshake for the peer to the transport,
whichever of the two has opened it, whatever cannot be sent and whoever departs meanwhile: a node
waits only for the answer to a handshake of its own.
-/

namespace ChainPeer

/-- Whether a call to the world passes on a handshake for a peer, in vain or not. -/
def Event.greets (p : PeerId) : Event → Bool
  | .sent peer .blockAnnounces payload | .notSent peer .blockAnnounces payload =>
    peer = p && (Handshake.codec.decode? payload).isSome
  | _ => false

namespace Event

variable (p q : PeerId) (ok : Bool)

theorem greets_attempt_handshake (h : Handshake) :
    (attempt ok q (.handshake h)).greets p = decide (q = p) := by
  have hdecode : Handshake.codec.decode? (Message.handshake h).payload = some h := by
    apply Handshake.lawful_codec.decode?_eq_some_iff.2
    exact ⟨trivial, Message.payload_of_blockAnnounces rfl⟩
  cases ok <;> simp [attempt, greets, Message.channel, Message.kind, MessageKind.channel, hdecode]

theorem greets_attempt_announce (a : Announce) : (attempt ok q (.announce a)).greets p = false := by
  have hdecode : Handshake.codec.decode? (Message.announce a).payload = none := by
    apply Option.eq_none_iff_forall_ne_some.2
    intro h hread
    have hpayload := (Handshake.lawful_codec.decode?_eq_some_iff.1 hread).2
    rw [Message.payload_of_blockAnnounces rfl] at hpayload
    exact Message.encodeBare_handshake_ne_announce h a hpayload.symm
  cases ok <;> simp [attempt, greets, Message.channel, Message.kind, MessageKind.channel, hdecode]

theorem greets_attempt_request (r : BlockRequest) : (attempt ok q (.request r)).greets p = false := by
  cases ok <;> rfl

end Event

/-- Only announcements are held back, and only until the peer answers a handshake of ours. -/
def Exchange.Regular : Exchange → Prop
  | .awaiting initiator heldBack =>
    initiator = true ∧ ∀ m, heldBack = some m → ∃ a, m = .announce a
  | .rejected | .complete _ => True

namespace ExchangeTable

def Regular (t : ExchangeTable) : Prop := ∀ p x, t.get? p = some x → x.Regular

variable {t t' : ExchangeTable} {p : PeerId} {x : Exchange}

theorem Regular.within (h : t'.Regular) (ht : t.Within t') : t.Regular :=
  fun p x hx => h p x (ht p x hx)

theorem Regular.insert (h : t.Regular) (p : PeerId) (hx : x.Regular) : (t.insert p x).Regular := by
  intro q y hy
  rw [get?_insert] at hy
  split at hy
  · rw [← Option.some.inj hy]
    exact hx
  · exact h q y hy

theorem Regular.holdsAnnounces (h : t.Regular) : t.HoldsAnnounces := by
  intro p x m hx hm
  have hregular := h p x hx
  cases x with
  | awaiting initiator heldBack => exact hregular.2 m hm
  | rejected | complete => cases hm

end ExchangeTable

namespace Site

variable {σ : Type} {w : World σ} {p q : PeerId} {n k : Nat} {s s' s'' : Site (σ × List Event)}

/-- The number of handshakes that were passed on for a peer. -/
def greetings (p : PeerId) (s : Site (σ × List Event)) : Nat := s.world.2.countP (Event.greets p)

/-- As many handshakes as may be passed on for a peer before an exchange with it ends. -/
def allowance (p : PeerId) (s : Site σ) : Nat := (s.node.exchanges.get? p).isNone.toNat

/-- From the one regular site to the other, which is regular too, at most `n` handshakes are passed
on for the peer. -/
def Greets (p : PeerId) (n : Nat) (s s' : Site (σ × List Event)) : Prop :=
  s.node.exchanges.Regular →
    s'.node.exchanges.Regular ∧ s'.greetings p ≤ s.greetings p + n

theorem Greets.trans (h : s.Greets p n s') (h' : s'.Greets p k s'') :
    s.Greets p (n + k) s'' := by
  intro hs
  obtain ⟨hs', hfirst⟩ := h hs
  obtain ⟨hs'', hsecond⟩ := h' hs'
  exact ⟨hs'', by omega⟩

theorem Greets.mono (h : s.Greets p n s') (hn : n ≤ k) : s.Greets p k s' := by
  intro hs
  obtain ⟨hs', hcount⟩ := h hs
  exact ⟨hs', by omega⟩

theorem Greets.silent (htrace : s'.world.2 = s.world.2)
    (hexchanges : s.node.exchanges.Regular → s'.node.exchanges.Regular) : s.Greets p 0 s' := by
  intro hs
  refine ⟨hexchanges hs, ?_⟩
  unfold greetings
  rw [htrace]
  omega

theorem Greets.called {e : Event} (htrace : s'.world.2 = e :: s.world.2)
    (hexchanges : s'.node.exchanges = s.node.exchanges) :
    s.Greets p (e.greets p).toNat s' := by
  intro hs
  refine ⟨hexchanges ▸ hs, ?_⟩
  unfold greetings
  rw [htrace, List.countP_cons]
  cases e.greets p <;> simp

theorem Greets.called_of_not {e : Event} (he : e.greets p = false)
    (htrace : s'.world.2 = e :: s.world.2)
    (hexchanges : s'.node.exchanges = s.node.exchanges) : s.Greets p 0 s' := by
  have hcalled : s.Greets p (e.greets p).toNat s' := .called htrace hexchanges
  rw [he] at hcalled
  exact hcalled

theorem le_allowance (h : s.node.exchanges.get? q = none) :
    (decide (q = p)).toNat ≤ s.allowance p := by
  by_cases hq : q = p
  · subst hq
    simp [allowance, h]
  · simp [hq]

/-! ## The handlers -/

theorem greets_send {m : Message} {greets : Bool}
    (hm : ∀ ok, (Event.attempt ok q m).greets p = greets) (s : Site (σ × List Event)) :
    s.Greets p greets.toNat (s.send w.traced q m).2 := by
  rcases send_traced_cases w q m s with ⟨a, hsend⟩ | ⟨e, a, hsend⟩
  · rw [hsend, ← hm true]
    exact .called rfl rfl
  · rw [hsend, ← hm false]
    exact .called rfl rfl

theorem greets_genesis (p : PeerId) (s : Site (σ × List Event)) :
    s.Greets p 0 (s.genesis w.traced).2 := by
  obtain ⟨t, a, hgenesis, hwithin⟩ := exists_genesis w s
  rw [hgenesis]
  exact .silent rfl fun hs => hs.within hwithin

theorem greets_forget (p q : PeerId) (s : Site (σ × List Event)) :
    s.Greets p 0 (s.update (·.forget .blockAnnounces q)) :=
  .silent rfl fun hs => hs.within (ExchangeTable.erase_within _ q)

theorem greets_insert {x : Exchange} (hx : s.node.exchanges.Regular → x.Regular) (p q : PeerId) :
    s.Greets p 0 (s.update ({ · with exchanges := s.node.exchanges.insert q x })) :=
  .silent rfl fun hs => hs.insert q (hx hs)

theorem greets_sendHandshake (p q : PeerId) (s : Site (σ × List Event)) :
    s.Greets p (decide (q = p)).toNat (s.sendHandshake w.traced q).2 := by
  have hlookup : s.Greets p 0 (s.localHandshake w.traced).2 := greets_genesis p s
  have hsend := greets_send (w := w)
    (fun ok => Event.greets_attempt_handshake p q ok (s.localHandshake w.traced).1)
    (s.localHandshake w.traced).2
  exact (hlookup.trans hsend).mono (by omega)

theorem greets_flush {heldBack : Option Message}
    (hheld : ∀ m, heldBack = some m → ∃ a, m = .announce a) (p q : PeerId)
    (s : Site (σ × List Event)) : s.Greets p 0 (s.flush w.traced q heldBack).2 := by
  cases heldBack with
  | none => exact .silent rfl id
  | some m =>
      obtain ⟨a, rfl⟩ := hheld m rfl
      exact greets_send (fun ok => Event.greets_attempt_announce p q ok a) s

theorem greets_announceTo (p q : PeerId) (a : Announce) (s : Site (σ × List Event)) :
    s.Greets p (s.allowance p) (s.announceTo w.traced q (.announce a)).2 := by
  have hheld : ∀ m, some (Message.announce a) = some m → ∃ a', m = .announce a' :=
    fun m hm => ⟨a, (Option.some.inj hm).symm⟩
  unfold announceTo ExchangeTable.route
  cases hx : s.node.exchanges.get? q with
  | none =>
      have hopened := greets_insert (s := s) (x := .opened (some (.announce a)))
        (fun _ => ⟨rfl, hheld⟩) p q
      have hgreet := (hopened.trans (greets_sendHandshake (w := w) p q _)).mono
        (k := s.allowance p) (by have := le_allowance (p := p) hx; omega)
      dsimp only
      split
      · next s' hs' =>
        rw [hs'] at hgreet
        exact hgreet
      · next e s' hs' =>
        rw [hs'] at hgreet
        exact hgreet.trans (greets_forget p q s')
  | some x =>
      cases x with
      | awaiting initiator heldBack =>
          have hreplaced := greets_insert (s := s) (x := .awaiting initiator (some (.announce a)))
            (fun hs => ⟨(hs q _ hx).1, hheld⟩) p q
          exact hreplaced.mono (Nat.zero_le _)
      | rejected => exact Greets.mono (.silent rfl id) (Nat.zero_le _)
      | complete initiator =>
          have hsend := greets_send (w := w)
            (fun ok => Event.greets_attempt_announce p q ok a) s
          exact hsend.mono (Nat.zero_le _)

theorem greets_onReply (p q : PeerId) (h : Handshake) (s : Site (σ × List Event)) :
    s.Greets p 0 (s.onReply w.traced q h).2 := by
  have hvalidate : s.Greets p 0 (s.validate w.traced h).2 := greets_genesis p s
  unfold onReply
  split
  · next e s' hs' =>
    rw [hs'] at hvalidate
    exact hvalidate.trans (greets_forget p q s'.countInvalid)
  · next s' hs' =>
    rw [hs'] at hvalidate
    apply hvalidate.trans (k := 0)
    dsimp only
    split
    · exact .silent rfl id
    · next heldBack exchanges hcomplete =>
      obtain ⟨x, hx, hpair⟩ := Option.map_eq_some_iff.1 hcomplete
      obtain ⟨rfl, rfl⟩ := Prod.mk.inj hpair
      have hcompleted : s'.Greets p 0 ((s'.noteHandshake q h).update
          ({ · with exchanges := s'.node.exchanges.insert q x.completed })) :=
        .silent rfl fun hs => hs.insert q trivial
      intro hs
      have hheld := fun m hm => hs.holdsAnnounces q x m hx hm
      exact hcompleted.trans (greets_flush hheld p q _) hs

theorem greets_onOpening (p q : PeerId) (h : Handshake) (s : Site (σ × List Event)) :
    s.Greets p (decide (q = p)).toNat (s.onOpening w.traced q h).2 := by
  have hvalidate : s.Greets p 0 (s.validate w.traced h).2 := greets_genesis p s
  unfold onOpening
  split
  · next e s' hs' =>
    rw [hs'] at hvalidate
    have hrejected : s'.Greets p 0
        (s'.countInvalid.update fun n => { n with exchanges := n.exchanges.reject q }) :=
      .silent rfl fun hs => hs.insert q trivial
    exact (hvalidate.trans hrejected).mono (Nat.zero_le _)
  · next s' hs' =>
    rw [hs'] at hvalidate
    have haccepted : s'.Greets p 0 ((s'.noteHandshake q h).update
        ({ · with exchanges := (s'.node.exchanges.accept q).2 })) :=
      .silent rfl fun hs => hs.insert q trivial
    have hgreet := (hvalidate.trans haccepted).trans (greets_sendHandshake (w := w) p q _)
    intro hs
    have hheld := fun m hm =>
      (hvalidate hs).1.holdsAnnounces.heldBack_of_getD (p := q) (m := m) hm
    have hall := (hgreet.trans (greets_flush (w := w) hheld p q _)).mono
      (k := (decide (q = p)).toNat) (by omega)
    exact hall hs

theorem greets_onHandshake (p q : PeerId) (h : Handshake) (s : Site (σ × List Event)) :
    s.Greets p (s.allowance p) (s.onHandshake w.traced q h).2 := by
  unfold onHandshake
  split
  · exact Greets.mono (.silent rfl id) (Nat.zero_le _)
  · exact Greets.mono (.silent rfl id) (Nat.zero_le _)
  · exact (greets_onReply p q h s).mono (Nat.zero_le _)
  · next heldBack hx =>
    -- No exchange waits for a peer that we have not greeted.
    intro hs
    exact absurd (hs q _ hx).1 (by decide)
  · next hx => exact (greets_onOpening p q h s).mono (le_allowance hx)

theorem greets_followUp (p q : PeerId) (request : Option BlockRequest)
    (s : Site (σ × List Event)) : s.Greets p 0 (s.followUp w.traced q request).2 := by
  cases request with
  | none => exact .silent rfl id
  | some r =>
      cases hhas : s.node.requests.has r.id with
      | true =>
          rw [followUp, requestBlocks_of_has hhas]
          exact .silent rfl id
      | false =>
          rw [followUp]
          rcases requestBlocks_of_not_has (w := w) (p := q) hhas with ⟨a, hask⟩ | ⟨e, a, hask⟩
          · rw [hask]
            exact .called_of_not (Event.greets_attempt_request p q true r) rfl rfl
          · rw [hask]
            exact .called_of_not (Event.greets_attempt_request p q false r) rfl rfl

theorem greets_onAnnounce (p q : PeerId) (a : Announce) (s : Site (σ × List Event)) :
    s.Greets p 0 (s.onAnnounce w.traced q a).2 := by
  unfold onAnnounce
  split
  · have hnoted : s.Greets p 0
        (if a.isBest then s.update (·.noteReport q none a.number a.headerHash) else s) := by
      split <;> exact .silent rfl id
    have hannounced : ∀ s : Site (σ × List Event),
        s.Greets p 0 { s with world := (w.traced.announced q a s.world).2 } := fun s =>
      .called_of_not (e := .announced q a) rfl rfl rfl
    exact (hnoted.trans (hannounced _)).trans (greets_followUp p q _ _)
  · exact .silent rfl id

end Site

/-! ## Runs -/

namespace Call

/-- Nothing but announcements is announced. -/
def Announces : Call → Prop
  | announceTo _ m | announce m => ∃ a, m = .announce a
  | handle .. | forget _ | reset => True

/-- The call concerns at most one peer, if it is not the reset. -/
def IsSingle : Call → Prop
  | announce _ => False
  | handle .. | announceTo .. | forget _ | reset => True

/-- The calls that a call consists of: one for each connected peer if it is to announce something
to all. -/
def unrolled (w : World σ) (s : Site σ) : Call → List Call
  | announce m => (w.connected s.world).map (announceTo · m)
  | c => [c]

end Call

namespace Site

variable {σ : Type} {w : World σ} {p : PeerId} {s : Site (σ × List Event)} {calls : List Call}

/-- The calls that calls consist of which are made one after the other. -/
def unrolled (w : World σ) : List Call → Site σ → List Call
  | [], _ => []
  | c :: calls, s => c.unrolled w s ++ (c.run w s).unrolled w calls

theorem greets_run {c : Call} (hannounces : c.Announces) (hsingle : c.IsSingle) (p : PeerId)
    (s : Site (σ × List Event)) : s.Greets p (s.allowance p) (c.run w.traced s) := by
  cases c with
  | handle q m =>
      cases m with
      | handshake h => exact greets_onHandshake p q h s
      | announce a => exact (greets_onAnnounce p q a s).mono (Nat.zero_le _)
      | request | response | status | transactions =>
          exact Greets.mono (.silent rfl id) (Nat.zero_le _)
  | announceTo q m =>
      obtain ⟨a, rfl⟩ := hannounces
      exact greets_announceTo p q a s
  | announce m => exact hsingle.elim
  | forget q => exact (greets_forget p q s).mono (Nat.zero_le _)
  | reset =>
      have hreset : s.Greets p 0 (Call.reset.run w.traced s) :=
        .silent rfl fun _ q x hx => by simp [Call.run, update, Node.reset, ExchangeTable.clear] at hx
      exact hreset.mono (Nat.zero_le _)

theorem after_unrolled_call (w : World σ) (c : Call) (s : Site σ) :
    s.after w (c.unrolled w s) = c.run w s := by
  cases c with
  | announce m =>
      unfold after Call.unrolled
      rw [List.foldl_map]
      rfl
  | handle | announceTo | forget | reset => rfl

/-- What is done to all connected peers at once is done to one after the other. -/
theorem after_unrolled (w : World σ) (calls : List Call) (s : Site σ) :
    s.after w (s.unrolled w calls) = s.after w calls := by
  induction calls generalizing s with
  | nil => rfl
  | cons c calls ih => rw [unrolled, after_append, after_unrolled_call, ih, after_cons]

theorem announces_of_mem_unrolled (w : World σ) (hcalls : ∀ c ∈ calls, c.Announces) (s : Site σ) :
    ∀ c ∈ s.unrolled w calls, c.Announces ∧ c.IsSingle := by
  induction calls generalizing s with
  | nil => exact fun c hc => absurd hc List.not_mem_nil
  | cons c calls ih =>
      obtain ⟨hc, hcalls⟩ := List.forall_mem_cons.1 hcalls
      intro c' hc'
      rw [unrolled, List.mem_append] at hc'
      rcases hc' with hc' | hc'
      · cases c with
        | announce m =>
            obtain ⟨q, -, rfl⟩ := List.mem_map.1 hc'
            exact ⟨hc, trivial⟩
        | handle | announceTo | forget | reset =>
            obtain rfl := List.mem_singleton.1 hc'
            exact ⟨hc, trivial⟩
      · exact ih hcalls _ c' hc'

theorem regular_after (hcalls : ∀ c ∈ calls, c.Announces ∧ c.IsSingle)
    (hs : s.node.exchanges.Regular) : (s.after w.traced calls).node.exchanges.Regular := by
  induction calls generalizing s with
  | nil => exact hs
  | cons c calls ih =>
      obtain ⟨⟨hannounces, hsingle⟩, hcalls⟩ := List.forall_mem_cons.1 hcalls
      exact ih hcalls (greets_run hannounces hsingle default s hs).1

/-- As long as there is an exchange with the peer, no handshake is passed on for it. -/
theorem greetings_after_le (hcalls : ∀ c ∈ calls, c.Announces ∧ c.IsSingle)
    (hs : s.node.exchanges.Regular)
    (hlasts : ∀ first rest, calls = first ++ rest → rest ≠ [] →
      ((s.after w.traced first).node.exchanges.get? p).isSome) :
    (s.after w.traced calls).greetings p ≤ s.greetings p := by
  induction calls generalizing s with
  | nil => exact Nat.le_refl _
  | cons c calls ih =>
      obtain ⟨⟨hannounces, hsingle⟩, hcalls⟩ := List.forall_mem_cons.1 hcalls
      obtain ⟨hregular, hfirst⟩ := greets_run (w := w) hannounces hsingle p s hs
      have hnow : (s.node.exchanges.get? p).isSome := hlasts [] _ rfl (List.cons_ne_nil c calls)
      have hnone : s.allowance p = 0 := by
        unfold allowance
        rw [Option.isNone_eq_false_iff.2 hnow]
        rfl
      have hrest := ih hcalls hregular fun first rest heq hrest =>
        hlasts (c :: first) rest (congrArg (c :: ·) heq) hrest
      rw [after_cons]
      omega

/-- A node that has no exchange with anybody is called in any way, though nothing but announcements
is announced. Then the run is that of its single calls, and from one moment between them at which
there is no exchange with a peer to the next one, at most one handshake is passed on for the peer;
and at each of the moments, once a handshake of the peer was received, another one changes
nothing. -/
theorem greeted_once (hcalls : ∀ c ∈ calls, c.Announces)
    (hs : ∀ q, s.node.exchanges.get? q = none) (p : PeerId) :
    s.after w.traced (s.unrolled w.traced calls) = s.after w.traced calls ∧
      ∀ before later, s.unrolled w.traced calls = before ++ later →
        (∀ between rest, later = between ++ rest →
          (∀ first second, between = first ++ second → first ≠ [] → second ≠ [] →
            ((s.after w.traced (before ++ first)).node.exchanges.get? p).isSome) →
          (s.after w.traced (before ++ between)).greetings p ≤
            (s.after w.traced before).greetings p + 1) ∧
        ∀ x h, (s.after w.traced before).node.exchanges.get? p = some x → x.isReceived →
          (s.after w.traced before).handle w.traced .blockAnnounces p (.handshake h) =
            (.ok (), s.after w.traced before) := by
  refine ⟨after_unrolled _ calls s, fun before later hrun => ⟨?_, ?_⟩⟩
  · intro between rest hlater hlasts
    have hall := announces_of_mem_unrolled w.traced hcalls s
    rw [hrun, hlater, List.forall_mem_append, List.forall_mem_append] at hall
    obtain ⟨hbefore, hbetween, -⟩ := hall
    have hempty : s.node.exchanges.Regular := fun q x hx => by simp [hs q] at hx
    have hregular := regular_after (w := w) hbefore hempty
    rw [after_append]
    cases between with
    | nil => exact Nat.le_succ _
    | cons c between =>
        obtain ⟨⟨hannounces, hsingle⟩, hbetween⟩ := List.forall_mem_cons.1 hbetween
        obtain ⟨hfirst, hcount⟩ := greets_run (w := w) hannounces hsingle p _ hregular
        have hrest := greetings_after_le (p := p) (w := w) hbetween hfirst
          fun first second heq hsecond => by
            have hsome := hlasts (c :: first) second (congrArg (c :: ·) heq)
              (List.cons_ne_nil c first) hsecond
            rw [after_append] at hsome
            exact hsome
        have hallowance : (s.after w.traced before).allowance p ≤ 1 := Bool.toNat_le _
        rw [after_cons]
        omega
  · intro x h hx hreceived
    rw [handle, onHandshake, hx]
    cases x with
    | awaiting => exact absurd hreceived Bool.false_ne_true
    | rejected | complete => rfl

def guestExchange : List Call :=
  [.announceTo guest (.announce guestBlock), .handle guest (.handshake (guestGreeting .zero)),
    .announceTo guest (.announce guestBlock)]

/-- The guest is greeted once, and a further handshake of it changes nothing. -/
theorem greeted_once_of_guest :
    let s := after (World.idle .zero).traced guestExchange ⟨.new .default, (), []⟩
    s.greetings guest = 1 ∧ s.greetings guest ≤ 1 ∧
      s.handle (World.idle .zero).traced .blockAnnounces guest
        (.handshake (guestGreeting .zero)) = (.ok (), s) := by
  have hcalls : ∀ c ∈ guestExchange, c.Announces := by
    simp [guestExchange, Call.Announces]
  have hnew : ∀ q, (Node.new .default).exchanges.get? q = none := ExchangeTable.get?_empty _
  obtain ⟨-, hmoments⟩ := greeted_once (w := World.idle .zero) (s := ⟨.new .default, (), []⟩)
    hcalls hnew guest
  refine ⟨by decide +kernel, ?_, ?_⟩
  · obtain ⟨hcount, -⟩ := hmoments [] guestExchange rfl
    refine hcount guestExchange [] rfl fun first second hsplit hfirst hsecond => ?_
    have htake : first = guestExchange.take first.length := by rw [hsplit, List.take_left]
    have hlength : first.length = 1 ∨ first.length = 2 := by
      have hsum : guestExchange.length = first.length + second.length := by
        rw [hsplit, List.length_append]
      have hthree : guestExchange.length = 3 := rfl
      have hleft := List.length_pos_iff.2 hfirst
      have hright := List.length_pos_iff.2 hsecond
      omega
    rw [htake]
    rcases hlength with hone | htwo
    · rw [hone]
      decide +kernel
    · rw [htwo]
      decide +kernel
  · obtain ⟨-, hrepeated⟩ := hmoments guestExchange [] rfl
    exact hrepeated (.complete true) (guestGreeting .zero) (by decide +kernel) rfl

end Site

end ChainPeer
