import ChainPeer.Proofs.Course

/-!
# What messages lead to

On its own a node asks for blocks only as the last thing that it does with a message, if the other
subsystems want to follow the message up. Whatever else it does makes no request outstanding; it
still awaits a handshake of every peer of which it awaited one, but for the peer that has just sent
something on the channel of announcements; and the node counts what it sends.
-/

namespace ChainPeer

/-- Whether a call to the world passed a payload to a peer. -/
def Event.isSent : Event → Bool
  | .sent .. => true
  | _ => false

theorem Event.countP_isSent_attempt (ok : Bool) (p : PeerId) (m : Message) (trace : List Event) :
    (attempt ok p m :: trace).countP isSent = trace.countP isSent + ok.toNat := by
  cases ok <;> simp [attempt, isSent, List.countP_cons]

theorem Event.IsNotice.isSent_eq_false {e : Event} (he : e.IsNotice) : e.isSent = false := by
  cases e with
  | sent => exact he.elim
  | _ => rfl

theorem Node.messagesSent_countSent (n : Node) :
    n.countSent.metrics.messagesSent = n.metrics.messagesSent + 1 := rfl

namespace Site

variable {σ : Type}

/-- From the one site to the other, no request has become outstanding but the given one, to the given
peer. Unless this one was outstanding before, the last thing that the world was called for was to
send it. Handshakes are still awaited of all peers but perhaps of the one that greets. -/
structure Leads (greeter : Option PeerId) (ask : Option (PeerId × BlockRequest))
    (s s' : Site (σ × List Event)) : Prop where
  expects : ∀ p, greeter ≠ some p → s.node.exchanges.expectsHandshake p = true →
    s'.node.exchanges.expectsHandshake p = true
  free : ∀ id, (∀ x ∈ ask, x.2.id ≠ id) → s.node.requests.has id = false →
    s'.node.requests.has id = false
  asks : ∃ events, s'.world.2 = events ++ s.world.2 ∧
    ∀ x ∈ ask, s.node.requests.has x.2.id = false →
      ∃ ok earlier, events = .attempt ok x.1 (.request x.2) :: earlier

/-- As `Leads`, and as many messages are counted as payloads were passed to peers. -/
structure Proceeds (greeter : Option PeerId) (ask : Option (PeerId × BlockRequest))
    (s s' : Site (σ × List Event)) : Prop extends Leads greeter ask s s' where
  account : s'.node.metrics.messagesSent + s.world.2.countP Event.isSent =
    s.node.metrics.messagesSent + s'.world.2.countP Event.isSent

variable {w : World σ} {p q : PeerId} {greeter : Option PeerId}
  {ask : Option (PeerId × BlockRequest)} {s s' s'' : Site (σ × List Event)}

theorem Leads.trans (h : s.Leads greeter none s') (h' : s'.Leads greeter ask s'') :
    s.Leads greeter ask s'' where
  expects p hp hs := h'.expects p hp (h.expects p hp hs)
  free id hid hs := h'.free id hid (h.free id nofun hs)
  asks := by
    obtain ⟨first, hfirst, -⟩ := h.asks
    obtain ⟨second, hsecond, hask⟩ := h'.asks
    refine ⟨second ++ first, by rw [hsecond, hfirst, List.append_assoc], fun x hx hs => ?_⟩
    obtain ⟨ok, earlier, rfl⟩ := hask x hx (h.free x.2.id nofun hs)
    exact ⟨ok, earlier ++ first, rfl⟩

theorem Proceeds.trans (h : s.Proceeds greeter none s') (h' : s'.Proceeds greeter ask s'') :
    s.Proceeds greeter ask s'' where
  toLeads := h.toLeads.trans h'.toLeads
  account := by
    have hfirst := h.account
    have hsecond := h'.account
    omega

/-- The world was not called, and nothing was counted as sent. -/
theorem Proceeds.silent
    (hexpects : ∀ p, greeter ≠ some p → s.node.exchanges.expectsHandshake p = true →
      s'.node.exchanges.expectsHandshake p = true)
    (hfree : ∀ id, s.node.requests.has id = false → s'.node.requests.has id = false)
    (hsent : s'.node.metrics.messagesSent = s.node.metrics.messagesSent)
    (htrace : s'.world.2 = s.world.2) : s.Proceeds greeter none s' where
  expects := hexpects
  free id _ := hfree id
  asks := ⟨[], htrace, nofun⟩
  account := by rw [hsent, htrace]

/-- Nothing has changed of what matters here. -/
theorem Proceeds.same (hexchanges : s'.node.exchanges = s.node.exchanges)
    (hrequests : s'.node.requests = s.node.requests)
    (hsent : s'.node.metrics.messagesSent = s.node.metrics.messagesSent)
    (htrace : s'.world.2 = s.world.2) : s.Proceeds greeter none s' := by
  refine .silent (fun p _ => ?_) (fun id => ?_) hsent htrace
  · rw [hexchanges]
    exact id
  · rw [hrequests]
    exact fun h => h

theorem Proceeds.refl (s : Site (σ × List Event)) : s.Proceeds greeter none s :=
  .same rfl rfl rfl rfl

/-- What is done afterwards changes nothing of what matters here. -/
theorem Proceeds.before (h : s.Proceeds greeter ask s')
    (hexchanges : s''.node.exchanges = s'.node.exchanges)
    (hrequests : s''.node.requests = s'.node.requests)
    (hsent : s''.node.metrics.messagesSent = s'.node.metrics.messagesSent)
    (htrace : s''.world.2 = s'.world.2) : s.Proceeds greeter ask s'' where
  expects := by
    rw [hexchanges]
    exact h.expects
  free := by
    rw [hrequests]
    exact h.free
  asks := by
    rw [htrace]
    exact h.asks
  account := by
    rw [hsent, htrace]
    exact h.account

/-- The world was called for something else than to send a message. -/
theorem Proceeds.called {e : Event} (he : e.isSent = false)
    (hnode : s'.node = s.node) (htrace : s'.world.2 = e :: s.world.2) :
    s.Proceeds greeter none s' where
  expects p _ := by
    rw [hnode]
    exact id
  free id _ := by
    rw [hnode]
    exact fun h => h
  asks := ⟨[e], htrace, nofun⟩
  account := by
    rw [hnode, htrace, List.countP_cons_of_neg]
    rw [he]
    exact Bool.false_ne_true

/-- Some exchanges are dropped. -/
theorem Proceeds.within (hwithin : s'.node.exchanges.Within s.node.exchanges)
    (hrequests : s'.node.requests = s.node.requests)
    (hsent : s'.node.metrics.messagesSent = s.node.metrics.messagesSent)
    (htrace : s'.world.2 = s.world.2) : s.Proceeds greeter none s' := by
  refine .silent (fun p _ => hwithin.expectsHandshake) (fun id => ?_) hsent htrace
  rw [hrequests]
  exact fun h => h

/-! ## Sending and requesting -/

theorem proceeds_send (q : PeerId) (m : Message) (s : Site (σ × List Event)) :
    s.Proceeds greeter none (s.send w.traced q m).2 := by
  rcases send_traced_cases w q m s with ⟨a, hsend⟩ | ⟨e, a, hsend⟩
  · rw [hsend]
    refine ⟨⟨fun p _ => id, fun id _ h => h, [.attempt true q m], rfl, nofun⟩, ?_⟩
    rw [Node.messagesSent_countSent, Event.countP_isSent_attempt, Bool.toNat_true]
    omega
  · rw [hsend]
    refine ⟨⟨fun p _ => id, fun id _ h => h, [.attempt false q m], rfl, nofun⟩, ?_⟩
    rw [Event.countP_isSent_attempt]
    rfl

theorem proceeds_requestBlocks (q : PeerId) (r : BlockRequest) (s : Site (σ × List Event)) :
    s.Proceeds greeter (some (q, r)) (s.requestBlocks w.traced q r).2 := by
  cases hhas : s.node.requests.has r.id with
  | true =>
      rw [requestBlocks_of_has hhas]
      refine ⟨⟨fun p _ => id, fun id _ h => h, [], rfl, ?_⟩, rfl⟩
      rintro x ⟨⟩ hfree
      exact absurd (hhas.symm.trans hfree) Bool.noConfusion
  | false =>
      have hasks : ∀ ok, ∀ x ∈ some (q, r), s.node.requests.has x.2.id = false →
          ∃ ok' earlier, [Event.attempt ok q (.request r)] =
            .attempt ok' x.1 (.request x.2) :: earlier := by
        rintro ok x ⟨⟩ -
        exact ⟨ok, [], rfl⟩
      rcases requestBlocks_of_not_has (w := w) (p := q) hhas with ⟨a, hask⟩ | ⟨e, a, hask⟩
      · rw [hask]
        refine ⟨⟨fun p _ => id, fun id hid h => ?_, _, rfl, hasks true⟩, ?_⟩
        · rw [Outstanding.has_put, h, Bool.or_false]
          exact decide_eq_false (hid (q, r) rfl)
        · dsimp only
          rw [Node.messagesSent_countSent, Event.countP_isSent_attempt, Bool.toNat_true]
          omega
      · rw [hask]
        refine ⟨⟨fun p _ => id, fun id _ h => h, _, rfl, hasks false⟩, ?_⟩
        rw [Event.countP_isSent_attempt]
        rfl

/-! ## Courses -/

variable {report : Option Report} {x : Except HandlerError Unit × Site (σ × List Event)}

theorem Stroke.proceeds (h : Stroke w.traced (.loose greeter) s x) :
    s.Proceeds greeter none x.2 := by
  cases h with
  | aside hf => exact .same hf.exchanges hf.requests hf.messagesSent rfl
  | lookUp =>
      rw [genesis_eq]
      exact .within (s.node.exchanges.eraseAll_within _) rfl rfl rfl
  | forget q => exact .within (s.node.exchanges.erase_within q) rfl rfl rfl
  | route q _ =>
      exact .silent (fun p _ => ExchangeTable.expectsHandshake_route q _) (fun _ h => h) rfl rfl
  | settle hq hx =>
      -- The exchange that may come to any state is the one with the peer that greets.
      refine .silent (fun p hp => ?_) (fun _ h => h) rfl rfl
      have hne := fun h => hp (hq.trans (congrArg some h))
      dsimp only [update]
      rw [ExchangeTable.expectsHandshake_insert_of_ne hne]
      exact id
  | send q _ => exact proceeds_send q _ s
  | notify ha =>
      obtain ⟨e, he, htrace⟩ := ha.exists_notice
      exact .called he.isSent_eq_false rfl htrace
  | @answered q x _ _ =>
      have hremoved : s.Proceeds greeter none
          (s.update fun n => { n with requests := (n.requests.remove x.id).2 }) := by
        refine .silent (fun p _ h => h) (fun id hfree => ?_) rfl rfl
        dsimp only [update]
        rw [Outstanding.has_remove, hfree, Bool.and_false]
      exact hremoved.trans (.called (e := .answered q x) rfl rfl rfl)
  | lose => exact .refl s

theorem Course.proceeds (h : Course w.traced (.loose greeter) p report ask s x) :
    s.Proceeds greeter ask x.2 := by
  induction h with
  | done s => exact .refl s
  | last h => exact h.proceeds
  | ask q r s => exact proceeds_requestBlocks q r s
  | step h _ ih => exact h.proceeds.trans ih
  | @note r _ s _ _ ih =>
      have hnoted : s.Proceeds greeter none
          (s.update (·.noteReport p r.roles r.number r.hash)) := .same rfl rfl rfl rfl
      exact hnoted.trans ih
  | tidy _ hf ih => exact ih.before hf.exchanges hf.requests hf.messagesSent rfl

/-- Whatever is read off a stream, at most one peer is asked for blocks because of it: the one that
has sent it. -/
theorem proceeds_onFrame (c : Channel) (q : PeerId) (frame : Except FrameError (Option Bytes))
    (s : Site (σ × List Event)) :
    s.Proceeds (c.greeter? q) (s.asksInFrame w.traced c q frame) (s.onFrame w.traced c q frame).2 := by
  obtain ⟨r, hframe⟩ := exists_course_onFrame w.traced c q frame s
  exact hframe.proceeds

end Site

end ChainPeer
