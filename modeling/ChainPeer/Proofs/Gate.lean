import ChainPeer.Proofs.Standing

/-!
# The gate of the handshake

Announcements pass between a node and a peer only behind handshakes. Nothing that the peer announces
counts, and nothing is announced to it, before a handshake of the peer with the right genesis block
was handled. What is announced to it comes after a handshake of the node; only if the handshake that
answers the peer's own could not be sent, the announcements follow all the same.
-/

namespace ChainPeer

variable {σ : Type} {w : World σ} {genesis : Hash} {p : PeerId} {o : Occasion}
  {Allowed : Occasion → Prop} {st st' : Standing}

/-- Among the calls, a valid handshake of the peer was handled. -/
def Call.Welcomed (p : PeerId) (genesis : Hash) (calls : List Call) : Prop :=
  ∃ h : Handshake, h.genesis = genesis ∧ Call.handle p (.handshake h) ∈ calls

theorem Call.eq_handle_of_gives {c : Call} {m : Message} (h : c.Gives p (.heard m)) :
    c = .handle p m := by
  cases c with
  | handle q m' =>
      obtain ⟨rfl, hm⟩ := h
      rw [Occasion.heard.inj hm]
  | announceTo q m' => exact nomatch h.2
  | announce m' => exact nomatch h
  | forget q => exact nomatch h.2
  | reset => exact nomatch h

theorem Call.Welcomed.of_gives {calls : List Call} {h : Handshake} (hvalid : h.genesis = genesis)
    (hgives : ∃ c ∈ calls, c.Gives p (.heard (.handshake h))) : Welcomed p genesis calls := by
  obtain ⟨c, hc, hgives⟩ := hgives
  rw [Call.eq_handle_of_gives hgives] at hc
  exact ⟨h, hvalid, hc⟩

/-- An announcement that is handled does not welcome the peer. -/
theorem Call.Welcomed.of_append_announce {calls : List Call} {a : Announce}
    (h : Welcomed p genesis (calls ++ [.handle p (.announce a)])) : Welcomed p genesis calls := by
  obtain ⟨h, hvalid, hmem⟩ := h
  rcases List.mem_append.1 hmem with hmem | hmem
  · exact ⟨h, hvalid, hmem⟩
  · exact nomatch List.mem_singleton.1 hmem

theorem Event.attempt_handshake_ne (ok ok' : Bool) (p q : PeerId) (h : Handshake) (a : Announce) :
    attempt ok p (.handshake h) ≠ attempt ok' q (.announce a) := by
  have hpayload : (Message.handshake h).payload ≠ (Message.announce a).payload := by
    rw [Message.payload_of_blockAnnounces rfl, Message.payload_of_blockAnnounces rfl]
    exact Message.encodeBare_handshake_ne_announce h a
  cases ok <;> cases ok' <;> simp [attempt, hpayload]

theorem Event.announced_ne_attempt (ok : Bool) (p q : PeerId) (a : Announce) (m : Message) :
    announced p a ≠ attempt ok q m := by
  cases ok <;> nofun

/-! ## Behind the handshake of the peer -/

/-- The exchange with the peer is complete. -/
def Standing.IsComplete (st : Standing) : Prop :=
  ∃ initiator, st.exchange = some (.complete initiator)

theorem Standing.exists_dealings_note (p : PeerId) (e : Event) (st : Standing) :
    ∃ new, (st.note p e).dealings = new ++ st.dealings ∧ ∀ e' ∈ new, e' = e := by
  unfold Standing.note
  split
  · exact ⟨[e], rfl, fun _ => List.mem_singleton.1⟩
  · exact ⟨[], rfl, by simp⟩

theorem Standing.exists_dealings_flush (p : PeerId) (ok : Bool) (heldBack : Option Message)
    (st : Standing) :
    ∃ new, (st.flush p ok heldBack).dealings = new ++ st.dealings ∧
      ∀ e ∈ new, ∃ m, e = .attempt ok p m := by
  cases heldBack with
  | none => exact ⟨[], rfl, by simp⟩
  | some m =>
      obtain ⟨new, hnew, hall⟩ := st.exists_dealings_note p (.attempt ok p m)
      exact ⟨new, hnew, fun e he => ⟨m, hall e he⟩⟩

/-- What a turn adds to the calls that concern the peer: handshakes of the node, an announcement of
the peer on a complete exchange, and other messages to the peer, which are sent on a complete
exchange or in answer to a valid handshake. -/
theorem Turn.exists_dealings (h : Turn w genesis p o st st') :
    ∃ new, st'.dealings = new ++ st.dealings ∧ ∀ e ∈ new,
      (∃ ok h, e = .attempt ok p (.handshake h)) ∨
      (∃ a, e = .announced p a ∧ o = .heard (.announce a) ∧ st.IsComplete) ∨
      ∃ ok m, e = .attempt ok p m ∧
        (st.IsComplete ∨ ∃ h : Handshake, h.genesis = genesis ∧ o = .heard (.handshake h)) := by
  cases h with
  | ignored | refused | repeated | unheard => exact ⟨[], rfl, by simp⟩
  | forgotten | held | dismissed | rejected => exact ⟨[], rfl, by simp⟩
  | opened m hh hx =>
      obtain ⟨new, hnew, hall⟩ := Standing.exists_dealings_note p _ _
      exact ⟨new, hnew, fun e he => .inl ⟨_, _, hall e he⟩⟩
  | unopened hh hx =>
      obtain ⟨new, hnew, hall⟩ := Standing.exists_dealings_note p _ _
      exact ⟨new, hnew, fun e he => .inl ⟨_, _, hall e he⟩⟩
  | sentNow ok m hx =>
      obtain ⟨new, hnew, hall⟩ := st.exists_dealings_note p (.attempt ok p m)
      exact ⟨new, hnew, fun e he => .inr (.inr ⟨ok, m, hall e he, .inl ⟨_, hx⟩⟩)⟩
  | completed ok hvalid hx =>
      obtain ⟨new, hnew, hall⟩ := Standing.exists_dealings_flush p ok _ _
      refine ⟨new, hnew, fun e he => .inr (.inr ?_)⟩
      obtain ⟨m, hm⟩ := hall e he
      exact ⟨ok, m, hm, .inr ⟨_, hvalid, rfl⟩⟩
  | accepted ok ok' hvalid hreply hx =>
      obtain ⟨new, hnew, hall⟩ := Standing.exists_dealings_note p _ _
      obtain ⟨new', hnew', hall'⟩ := Standing.exists_dealings_flush p ok' _ _
      refine ⟨new' ++ new, ?_, fun e he => ?_⟩
      · rw [hnew', hnew, List.append_assoc]
        rfl
      · rcases List.mem_append.1 he with he | he
        · obtain ⟨m, hm⟩ := hall' e he
          exact .inr (.inr ⟨ok', m, hm, .inr ⟨_, hvalid, rfl⟩⟩)
        · exact .inl ⟨_, _, hall e he⟩
  | heard a hx =>
      obtain ⟨new, hnew, hall⟩ := Standing.exists_dealings_note p (.announced p a)
        (if a.isBest then st.credit none a.number a.headerHash else st)
      refine ⟨new, ?_, fun e he => .inr (.inl ⟨a, hall e he, rfl, _, hx⟩)⟩
      rw [Standing.hear, hnew]
      split <;> rfl

/-- An exchange completes only with a valid handshake of the peer. -/
theorem Turn.isComplete (h : Turn w genesis p o st st') (hst' : st'.IsComplete) :
    st.IsComplete ∨ ∃ h : Handshake, h.genesis = genesis ∧ o = .heard (.handshake h) := by
  cases h with
  | ignored | refused | repeated | unheard => exact .inl hst'
  | forgotten | opened | held | dismissed | rejected =>
      obtain ⟨initiator, hx⟩ := hst'
      exact nomatch hx
  | unopened => exact .inl hst'
  | sentNow _ _ hx => exact .inl ⟨_, hx⟩
  | completed _ hvalid => exact .inr ⟨_, hvalid, rfl⟩
  | accepted _ _ hvalid => exact .inr ⟨_, hvalid, rfl⟩
  | heard _ hx => exact .inl ⟨_, hx⟩

/-- Until the peer has gone nothing happens to a rejected peer. -/
theorem Turn.eq_of_rejected (h : Turn w genesis p o st st') (hx : st.exchange = some .rejected)
    (ho : o ≠ .departed) : st' = st := by
  cases h with
  | ignored | refused | repeated | unheard => rfl
  | forgotten => exact absurd rfl ho
  | opened _ _ hx' | unopened _ hx' => simp [hx] at hx'
  | held _ hx' | sentNow _ _ hx' | heard _ hx' => simp [hx] at hx'
  | completed _ _ hx' | dismissed _ hx' => simp [hx] at hx'
  | accepted _ _ _ _ hx' | rejected _ hx' => simp [hx] at hx'

/-- An invalid handshake with which the peer opens the exchange has the peer rejected. -/
theorem Turn.eq_of_invalid {h : Handshake} (hturn : Turn w genesis p (.heard (.handshake h)) st st')
    (hx : st.exchange = none) (hinvalid : h.genesis ≠ genesis) :
    st' = { st with exchange := some .rejected } := by
  cases hturn with
  | ignored _ hm => exact absurd rfl hm
  | repeated _ hx' => simp [hx] at hx'
  | completed _ hvalid | accepted _ _ hvalid => exact absurd hvalid hinvalid
  | dismissed _ hx' => simp [hx] at hx'
  | rejected => rfl

/-- What is known of a peer changes with an announcement only on a complete exchange. -/
theorem Turn.isComplete_of_facts_ne {a : Announce}
    (hturn : Turn w genesis p (.heard (.announce a)) st st') (hfacts : st'.facts ≠ st.facts) :
    st.IsComplete := by
  cases hturn with
  | ignored | unheard => exact absurd rfl hfacts
  | heard _ hx => exact ⟨_, hx⟩

/-- With an exchange that is complete only if the peer was welcomed, turns that welcome it at most
then announce to it and take its announcements only if it was. -/
theorem Turns.gated {Welcome : Prop} (h : Turns w genesis p Allowed st st')
    (hallowed : ∀ h : Handshake, h.genesis = genesis → Allowed (.heard (.handshake h)) → Welcome)
    (hst : st.IsComplete → Welcome) :
    (st'.IsComplete → Welcome) ∧ ∃ new, st'.dealings = new ++ st.dealings ∧
      (∀ a, .announced p a ∈ new → Welcome ∧ Allowed (.heard (.announce a))) ∧
      ∀ ok a, .attempt ok p (.announce a) ∈ new → Welcome := by
  refine h.preserves (fun st' => (st'.IsComplete → Welcome) ∧
    ∃ new, st'.dealings = new ++ st.dealings ∧
      (∀ a, .announced p a ∈ new → Welcome ∧ Allowed (.heard (.announce a))) ∧
      ∀ ok a, .attempt ok p (.announce a) ∈ new → Welcome) ?_ ⟨hst, [], rfl, nofun, nofun⟩
  rintro o st₁ st₂ ho hturn ⟨hcomplete, new, hnew, hannounced, hattempt⟩
  have hwelcome : (st₁.IsComplete ∨ ∃ h : Handshake, h.genesis = genesis ∧
      o = .heard (.handshake h)) → Welcome := by
    rintro (hst₁ | ⟨h, hvalid, rfl⟩)
    · exact hcomplete hst₁
    · exact hallowed h hvalid ho
  obtain ⟨more, hmore, hall⟩ := hturn.exists_dealings
  refine ⟨fun hst₂ => hwelcome (hturn.isComplete hst₂), more ++ new, ?_, fun a ha => ?_,
    fun ok a ha => ?_⟩
  · rw [hmore, hnew, List.append_assoc]
  · rcases List.mem_append.1 ha with ha | ha
    · rcases hall _ ha with ⟨ok, h, heq⟩ | ⟨a', heq, rfl, hst₁⟩ | ⟨ok, m, heq, -⟩
      · exact absurd heq (Event.announced_ne_attempt ok p p a _)
      · obtain rfl : a = a' := (Event.announced.inj heq).2
        exact ⟨hcomplete hst₁, ho⟩
      · exact absurd heq (Event.announced_ne_attempt ok p p a m)
    · exact hannounced a ha
  · rcases List.mem_append.1 ha with ha | ha
    · rcases hall _ ha with ⟨ok', h, heq⟩ | ⟨a', heq, -⟩ | ⟨-, -, -, hdue⟩
      · exact absurd heq.symm (Event.attempt_handshake_ne ok' ok p p h a)
      · exact absurd heq.symm (Event.announced_ne_attempt ok p p a' _)
      · exact hwelcome hdue
    · exact hattempt ok a ha

/-! ## Behind the handshake of the node -/

variable {config : Config} {Answering : List Event → Prop} {d : List Event}

/-- Among the calls that concern the peer, the latest first, a handshake of the node was sent, or else
one could not be sent when a valid handshake was to be answered. -/
def Greeted (w : World σ) (config : Config) (genesis : Hash) (p : PeerId)
    (Answering : List Event → Prop) (d : List Event) : Prop :=
  ∃ h, w.Greets config genesis h ∧
    (.attempt true p (.handshake h) ∈ d ∨
      ∃ earlier, Answering earlier ∧ .attempt false p (.handshake h) :: earlier <:+ d)

/-- Every announcement that was sent to the peer comes after a greeting. -/
def Orderly (w : World σ) (config : Config) (genesis : Hash) (p : PeerId)
    (Answering : List Event → Prop) (d : List Event) : Prop :=
  ∀ a earlier, .attempt true p (.announce a) :: earlier <:+ d →
    Greeted w config genesis p Answering earlier

/-- An exchange that is under way or complete comes after a greeting, and was opened by the node if
it is still under way. -/
def Owes (w : World σ) (config : Config) (genesis : Hash) (p : PeerId)
    (Answering : List Event → Prop) (d : List Event) : Option Exchange → Prop
  | none | some .rejected => True
  | some (.awaiting false _) => False
  | some (.awaiting true _) | some (.complete _) => Greeted w config genesis p Answering d

theorem Greeted.cons (h : Greeted w config genesis p Answering d) (e : Event) :
    Greeted w config genesis p Answering (e :: d) := by
  obtain ⟨h, hh, hsent | ⟨earlier, hanswering, hfailed⟩⟩ := h
  · exact ⟨h, hh, .inl (List.mem_cons_of_mem e hsent)⟩
  · exact ⟨h, hh, .inr ⟨earlier, hanswering, hfailed.trans (List.suffix_cons e d)⟩⟩

theorem Orderly.nil : Orderly w config genesis p Answering [] := by
  intro a earlier h
  exact absurd (List.suffix_nil.1 h) (List.cons_ne_nil _ _)

theorem Orderly.cons (h : Orderly w config genesis p Answering d) {e : Event}
    (he : ∀ a, e = .attempt true p (.announce a) → Greeted w config genesis p Answering d) :
    Orderly w config genesis p Answering (e :: d) := by
  intro a earlier hsuffix
  rcases List.suffix_cons_iff.1 hsuffix with heq | hsuffix
  · obtain ⟨rfl, rfl⟩ := List.cons.inj heq
    exact he a rfl
  · exact h a earlier hsuffix

theorem Owes.cons {x : Option Exchange} (h : Owes w config genesis p Answering d x) (e : Event) :
    Owes w config genesis p Answering (e :: d) x := by
  match x, h with
  | none, _ | some .rejected, _ => trivial
  | some (.awaiting true _), h | some (.complete _), h => exact Greeted.cons h e

/-- With a peer without an exchange at first, to which the given calls have been made since, all was
done in order. -/
structure InOrder (w : World σ) (config : Config) (genesis : Hash) (p : PeerId)
    (Answering : List Event → Prop) (base d : List Event) (st : Standing) : Prop where
  config_eq : st.config = config
  dealings_eq : st.dealings = d ++ base
  orderly : Orderly w config genesis p Answering d
  owes : Owes w config genesis p Answering d st.exchange

namespace InOrder

variable {base : List Event}

theorem of_exchange (h : InOrder w config genesis p Answering base d st) {x : Option Exchange}
    (hx : Owes w config genesis p Answering d x) :
    InOrder w config genesis p Answering base d { st with exchange := x } :=
  ⟨h.config_eq, h.dealings_eq, h.orderly, hx⟩

theorem credit (h : InOrder w config genesis p Answering base d st) (roles : Option Roles)
    (number : BlockNumber) (hash : Hash) :
    InOrder w config genesis p Answering base d (st.credit roles number hash) :=
  ⟨h.config_eq, h.dealings_eq, h.orderly, h.owes⟩

theorem note (h : InOrder w config genesis p Answering base d st) {e : Event}
    (he : ∀ a, e = .attempt true p (.announce a) → Greeted w config genesis p Answering d) :
    ∃ d', InOrder w config genesis p Answering base d' (st.note p e) := by
  by_cases hconcerns : e.concerns p = true
  · refine ⟨e :: d, h.config_eq, ?_, h.orderly.cons he, h.owes.cons e⟩
    rw [Standing.note, if_pos hconcerns, h.dealings_eq, List.cons_append]
  · refine ⟨d, ?_⟩
    rwa [Standing.note, if_neg hconcerns]

theorem flush (h : InOrder w config genesis p Answering base d st)
    (hgreeted : Greeted w config genesis p Answering d) (ok : Bool) (heldBack : Option Message) :
    ∃ d', InOrder w config genesis p Answering base d' (st.flush p ok heldBack) := by
  cases heldBack with
  | none => exact ⟨d, h⟩
  | some m => exact h.note fun _ _ => hgreeted

/-- The node attempts to send its handshake. -/
theorem greet (h : InOrder w config genesis p Answering base d st) (ok : Bool) (g : Handshake) :
    InOrder w config genesis p Answering base (.attempt ok p (.handshake g) :: d)
      (st.note p (.attempt ok p (.handshake g))) := by
  have hconcerns : (Event.attempt ok p (.handshake g)).concerns p = true := by
    rw [Event.concerns_attempt]
    exact decide_eq_true ⟨rfl, rfl⟩
  refine ⟨h.config_eq, ?_, h.orderly.cons fun a heq => ?_, h.owes.cons _⟩
  · rw [Standing.note, if_pos hconcerns, h.dealings_eq, List.cons_append]
  · exact absurd heq (Event.attempt_handshake_ne ok true p p g a)

end InOrder

theorem Turn.inOrder {base : List Event} (hturn : Turn w genesis p o st st')
    (ho : ∀ h : Handshake, h.genesis = genesis → o = .heard (.handshake h) → Answering d)
    (h : InOrder w config genesis p Answering base d st) :
    ∃ d', InOrder w config genesis p Answering base d' st' := by
  have howes := h.owes
  cases hturn with
  | ignored | refused | repeated | unheard => exact ⟨d, h⟩
  | forgotten | dismissed | rejected => exact ⟨d, h.of_exchange trivial⟩
  | opened m hh hx =>
      rw [h.config_eq] at hh
      exact ⟨_, (h.greet true _).of_exchange ⟨_, hh, .inl List.mem_cons_self⟩⟩
  | unopened hh hx => exact ⟨_, h.greet false _⟩
  | @held _ initiator _ m hx =>
      rw [hx] at howes
      cases initiator with
      | false => exact howes.elim
      | true => exact ⟨d, h.of_exchange howes⟩
  | sentNow ok m hx =>
      rw [hx] at howes
      exact h.note fun _ _ => howes
  | completed ok hvalid hx =>
      rw [hx] at howes
      exact ((h.credit _ _ _).of_exchange (x := some (.complete true)) howes).flush howes ok _
  | @accepted _ _ ok ok' g reply hvalid hreply hx =>
      rw [h.config_eq] at hreply
      have hgreeted : Greeted w config genesis p Answering
          (.attempt ok p (.handshake reply) :: d) := by
        refine ⟨reply, hreply, ?_⟩
        cases ok with
        | true => exact .inl List.mem_cons_self
        | false => exact .inr ⟨d, ho g hvalid rfl, List.suffix_refl _⟩
      have hgreet := ((h.credit (some g.roles) g.bestNumber g.bestHash).greet ok reply).of_exchange
        (x := some (.complete false)) hgreeted
      exact hgreet.flush hgreeted ok' _
  | heard a hx =>
      have hcredit : InOrder w config genesis p Answering base d
          (if a.isBest then st.credit none a.number a.headerHash else st) := by
        split
        · exact h.credit _ _ _
        · exact h
      exact hcredit.note fun a' heq => absurd heq (Event.announced_ne_attempt true p p a _)

/-- A peer that meets a node, its handshake with a genesis block, and a block that it announces. -/
def guest : PeerId := ⟨.identity, [1]⟩

def guestGreeting (genesis : Hash) : Handshake := ⟨.full, 5, .zero, genesis⟩

def guestBlock : Announce := ⟨.zero, 1, .zero, .zero, [[7]], false⟩

namespace Site

variable {s : Site (σ × List Event)}

/-- As long as the peer has not gone, nothing happens between a node and a peer whose handshake it
has rejected. -/
theorem standing_after_of_rejected (hw : w.Steady genesis) {calls : List Call}
    (hx : (s.standing p).exchange = some .rejected)
    (hcalls : ∀ c ∈ calls, c ≠ .forget p ∧ c ≠ .reset) :
    (s.after w.traced calls).standing p = s.standing p := by
  refine (turns_after hw calls p s).preserves (fun st => st = s.standing p) ?_ rfl
  rintro o st st' ⟨c, hc, hgives⟩ hturn rfl
  refine hturn.eq_of_rejected hx ?_
  rintro rfl
  cases c with
  | forget q =>
      obtain ⟨rfl, -⟩ := hgives
      exact (hcalls _ hc).1 rfl
  | reset => exact (hcalls _ hc).2 rfl
  | handle q m => exact nomatch hgives.2
  | announceTo q m => exact nomatch hgives.2
  | announce m => exact nomatch hgives

/-- Since a peer had no exchange, whatever was called and whatever could not be sent: what the peer
announces is passed on, or changes what is known of it, only after a valid handshake of the peer was
handled, and an announcement goes out to it, or fails to, only after one was handled or while one
is. And if the first handshake of the peer is not valid, nothing more happens between it and the
node until the peer has gone. -/
theorem gated_after (hw : w.Steady genesis) (hs : (s.standing p).exchange = none) :
    (∀ (before : List Call) (call : Call),
      ∃ new, ((s.after w.traced (before ++ [call])).standing p).dealings =
          new ++ ((s.after w.traced before).standing p).dealings ∧
        (∀ a, .announced p a ∈ new → Call.Welcomed p genesis before) ∧
        (∀ a, call = .handle p (.announce a) →
          ((s.after w.traced (before ++ [call])).standing p).facts ≠
            ((s.after w.traced before).standing p).facts → Call.Welcomed p genesis before) ∧
        ∀ ok a, .attempt ok p (.announce a) ∈ new →
          Call.Welcomed p genesis (before ++ [call])) ∧
    ∀ (h : Handshake) (calls : List Call), h.genesis ≠ genesis →
      (∀ c ∈ calls, c ≠ .forget p ∧ c ≠ .reset) →
      (s.after w.traced (.handle p (.handshake h) :: calls)).standing p =
        { s.standing p with exchange := some .rejected } := by
  constructor
  · intro before call
    have hnone : ¬ (s.standing p).IsComplete := by
      rintro ⟨initiator, hx⟩
      rw [hs] at hx
      exact nomatch hx
    obtain ⟨hcomplete, -⟩ := (turns_after hw before p s).gated
      (fun h hvalid hgives => Call.Welcomed.of_gives hvalid hgives)
      (fun hst => absurd hst hnone)
    have hwelcomed : ((s.after w.traced before).standing p).IsComplete →
        Call.Welcomed p genesis (before ++ [call]) := fun hst =>
      let ⟨h, hvalid, hmem⟩ := hcomplete hst
      ⟨h, hvalid, List.mem_append_left _ hmem⟩
    obtain ⟨-, new, hnew, hannounced, hattempt⟩ :=
      (turns_run hw call p (s.after w.traced before)).gated
        (fun h hvalid hgives => Call.Welcomed.of_gives hvalid
          ⟨call, List.mem_append_right _ (List.mem_singleton.2 rfl), hgives⟩) hwelcomed
    rw [after_append]
    refine ⟨new, hnew, fun a ha => ?_, ?_, hattempt⟩
    · obtain ⟨hwelcome, hgives⟩ := hannounced a ha
      rw [Call.eq_handle_of_gives hgives] at hwelcome
      exact hwelcome.of_append_announce
    · rintro a rfl hfacts
      have hturn := (deals_handle hw p (.announce a) (s.after w.traced before)).turn
      exact hcomplete (hturn.isComplete_of_facts_ne hfacts)
  · intro h calls hinvalid hcalls
    have hrejected := (deals_onHandshake hw p h s).turn.eq_of_invalid hs hinvalid
    rw [after_cons]
    exact (standing_after_of_rejected hw (congrArg Standing.exchange hrejected) hcalls).trans
      hrejected

/-- The guest announces its block after a valid handshake, and gets no further after one of another
chain. -/
theorem gated_after_guest :
    Call.Welcomed guest .zero [.handle guest (.handshake (guestGreeting .zero))] ∧
      ((after (World.idle .zero).traced
        [.handle guest (.handshake (guestGreeting (.sha256 []))),
          .handle guest (.handshake (guestGreeting .zero)), .announceTo guest (.announce guestBlock)]
        ⟨.new .default, (), []⟩).standing guest).dealings = [] := by
  have hsteady : (World.idle .zero).Steady .zero := fun _ => rfl
  let s : Site (Unit × List Event) := ⟨.new .default, (), []⟩
  have hnone : (s.standing guest).exchange = none := by decide +kernel
  obtain ⟨hgate, hshut⟩ := gated_after hsteady hnone
  constructor
  · obtain ⟨new, hnew, hannounced, -⟩ := hgate [.handle guest (.handshake (guestGreeting .zero))]
      (.handle guest (.announce guestBlock))
    have hheard : new = [.announced guest guestBlock] := by
      refine List.append_cancel_right (hnew.symm.trans ?_)
      decide +kernel
    exact hannounced guestBlock (hheard ▸ List.mem_singleton.2 rfl)
  · exact congrArg Standing.dealings (hshut (guestGreeting (.sha256 [])) _ (by decide +kernel) (by simp))

/-- One of the calls is to handle a valid handshake of the peer, and until then `d` was all that the
calls had done with the peer. -/
def MustAnswer (w : World σ) (genesis : Hash) (p : PeerId) (calls : List Call)
    (s : Site (σ × List Event)) (d : List Event) : Prop :=
  ∃ before h, before ++ [.handle p (.handshake h)] <+: calls ∧ h.genesis = genesis ∧
    ((s.after w.traced before).standing p).dealings = d ++ (s.standing p).dealings

theorem inOrder_run (hw : w.Steady genesis) (c : Call) {base : List Event}
    (h : InOrder w config genesis p Answering base d (s.standing p))
    (hanswering : ∀ g : Handshake, g.genesis = genesis → c = .handle p (.handshake g) →
      Answering d) :
    ∃ d', InOrder w config genesis p Answering base d' ((c.run w.traced s).standing p) := by
  by_cases hc : ∃ m, c = .handle p m
  · obtain ⟨m, rfl⟩ := hc
    refine (deals_handle hw p m s).turn.inOrder (fun g hvalid heq => hanswering g hvalid ?_) h
    rw [Occasion.heard.inj heq]
  · refine (turns_run hw c p s).preserves
      (fun st => ∃ d', InOrder w config genesis p Answering base d' st) ?_ ⟨d, h⟩
    rintro o st st' hgives hturn ⟨d', hd'⟩
    refine hturn.inOrder (fun g _ heq => ?_) hd'
    subst heq
    exact absurd ⟨_, Call.eq_handle_of_gives hgives⟩ hc

theorem inOrder_after (hw : w.Steady genesis) {calls before rest : List Call}
    (hcalls : before ++ rest = calls)
    (h : ∃ d, InOrder w config genesis p (s.MustAnswer w genesis p calls) (s.standing p).dealings d
      ((s.after w.traced before).standing p)) :
    ∃ d, InOrder w config genesis p (s.MustAnswer w genesis p calls) (s.standing p).dealings d
      ((s.after w.traced calls).standing p) := by
  induction rest generalizing before with
  | nil =>
      obtain rfl : before = calls := by rwa [List.append_nil] at hcalls
      exact h
  | cons c rest ih =>
      obtain ⟨d, hd⟩ := h
      have hnext : before ++ [c] ++ rest = calls := by rw [← hcalls, ← List.append_cons]
      refine ih hnext ?_
      rw [after_append]
      refine inOrder_run hw c hd fun g hvalid hc => ⟨before, g, ?_, hvalid, hd.dealings_eq⟩
      rw [← hc]
      exact ⟨rest, hnext⟩

/-- Since a peer had no exchange, whatever was called and whatever could not be sent: every
announcement that was sent to the peer comes after a handshake of the node that was sent to it too,
or that was the answer to a valid one of the peer and could not be sent. -/
theorem orderly_after (hw : w.Steady genesis) (hs : (s.standing p).exchange = none)
    (calls : List Call) :
    ∃ new, ((s.after w.traced calls).standing p).dealings = new ++ (s.standing p).dealings ∧
      ∀ a earlier, .attempt true p (.announce a) :: earlier <:+ new →
        ∃ h, w.Greets s.node.config genesis h ∧
          (.attempt true p (.handshake h) ∈ earlier ∨
            ∃ d, s.MustAnswer w genesis p calls d ∧
              .attempt false p (.handshake h) :: d <:+ earlier) := by
  have hstart : InOrder w s.node.config genesis p (s.MustAnswer w genesis p calls)
      (s.standing p).dealings [] (s.standing p) :=
    ⟨rfl, rfl, .nil, by rw [hs]; trivial⟩
  obtain ⟨d, hd⟩ := inOrder_after hw (List.nil_append calls) ⟨[], hstart⟩
  exact ⟨d, hd.dealings_eq, hd.orderly⟩

/-- The node is asked to announce a block to the guest, which then answers its handshake. -/
theorem orderly_after_guest :
    ∃ h, (World.idle .zero).Greets .default .zero h ∧
      Event.attempt true guest (.handshake h) ∈
        [Event.attempt true guest (.handshake ⟨.authority, 0, .zero, .zero⟩)] := by
  have hsteady : (World.idle .zero).Steady .zero := fun _ => rfl
  let s : Site (Unit × List Event) := ⟨.new .default, (), []⟩
  have hnone : (s.standing guest).exchange = none := by decide +kernel
  obtain ⟨new, hnew, hall⟩ := orderly_after hsteady hnone [.announceTo guest (.announce guestBlock),
    .handle guest (.handshake (guestGreeting .zero))]
  have hsent : new = [.attempt true guest (.announce guestBlock),
      .attempt true guest (.handshake ⟨.authority, 0, .zero, .zero⟩)] := by
    refine List.append_cancel_right (hnew.symm.trans ?_)
    decide +kernel
  subst hsent
  obtain ⟨h, hgreets, hsent | ⟨d, -, hfailed⟩⟩ := hall guestBlock _ (List.suffix_refl _)
  · exact ⟨h, hgreets, hsent⟩
  · exact nomatch List.mem_singleton.1 (hfailed.subset List.mem_cons_self)

end Site

/-- A world in which the first thing that is sent is lost and nothing else happens. -/
def World.hesitant (genesis : Hash) : World Bool where
  localPeer _ := default
  connected _ := []
  listening _ := []
  send _ _ _ awake := if awake then (.ok (), true) else (.error .closed, true)
  accept _ s := s
  watch s := s
  setBootstrap _ s := s
  bootstrap s := ((.ok (), []), s)
  close s := ((.ok (), []), s)
  genesis s := ((genesis, []), s)
  head _ := (0, genesis)
  isSynced _ := true
  announced _ _ s := (none, s)
  answered _ _ s := (none, s)
  serve _ s := (.error .unavailable, s)
  seen _ s := (none, s)
  deliver := none

/-- The answer to the guest's handshake is lost, and a block is announced to the guest although no
handshake was ever sent to it. -/
theorem Site.announced_without_handshake :
    (World.hesitant .zero).Steady .zero ∧
      ((⟨.new .default, false, []⟩ : Site (Bool × List Event)).standing guest).exchange = none ∧
      ∃ earlier, ((Site.after (World.hesitant .zero).traced
          [.handle guest (.handshake (guestGreeting .zero)), .announceTo guest (.announce guestBlock)]
          ⟨.new .default, false, []⟩).standing guest).dealings =
            .attempt true guest (.announce guestBlock) :: earlier ∧
        ∀ h, .attempt true guest (.handshake h) ∉ earlier := by
  refine ⟨fun _ => rfl, by decide +kernel,
    [.attempt false guest (.handshake ⟨.authority, 0, .zero, .zero⟩)], by decide +kernel, ?_⟩
  intro h hmem
  exact nomatch List.mem_singleton.1 hmem

end ChainPeer
