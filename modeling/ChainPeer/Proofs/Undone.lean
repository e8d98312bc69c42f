import ChainPeer.Proofs.Exchanges
import ChainPeer.Proofs.Requests

/-!
# What cannot be sent is undone

A message for a peer opens the exchange with it, and a request is noted as outstanding, before
anything is sent. If that fails the exchange is erased and the request is taken out, whatever they
say by then. This leaves the state as it was because the exchange was opened only where there was
none, and the request noted only if its id was free.
-/

namespace ChainPeer

namespace ExchangeTable

theorem ext_get? {t t' : ExchangeTable} (hprotocol : t.protocol = t'.protocol)
    (h : ∀ p, t.get? p = t'.get? p) : t = t' := by
  have hentries : t.entries = t'.entries := Std.ExtTreeMap.ext_getElem? h
  cases t with
  | mk protocol entries =>
      subst hprotocol hentries
      rfl

/-- An exchange that was opened where there was none leaves nothing behind once it is erased,
whatever else was erased meanwhile. -/
theorem erase_eraseAll_insert {t : ExchangeTable} {p : PeerId} (hnone : t.get? p = none)
    (x : Exchange) (peers : List PeerId) :
    ((t.insert p x).eraseAll peers).erase p = t.eraseAll peers := by
  apply ext_get?
  · exact (protocol_eraseAll (t.insert p x) peers).trans (protocol_eraseAll t peers).symm
  · intro q
    rw [get?_erase, get?_eraseAll, get?_eraseAll, get?_insert]
    by_cases hq : p = q
    · subst hq
      simp [hnone]
    · simp [hq]

end ExchangeTable

namespace Site

variable {σ : Type} {w : World σ} {p : PeerId} {s s' : Site (σ × List Event)} {e : HandlerError}

theorem sendHandshake_of_error (h : s.sendHandshake w.traced p = (.error e, s')) :
    s'.node = { s.node with exchanges := s.node.exchanges.eraseAll (w.genesis s.world.1).1.2 } ∧
      ∃ g, s'.world.2 = .attempt false p (.handshake g) :: s.world.2 := by
  have hmade := genesis_eq w.traced s
  rw [sendHandshake, localHandshake, hmade] at h
  rcases send_traced_cases w p _ _ with ⟨a, hsend⟩ | ⟨e', a, hsend⟩
  · cases hsend.symm.trans h
  · obtain ⟨-, rfl⟩ := Prod.mk.inj (hsend.symm.trans h)
    exact ⟨rfl, _, rfl⟩

theorem announceTo_of_error {m : Message} (h : s.announceTo w.traced p m = (.error e, s')) :
    ∃ departed m',
      (departed = [] ∧ m' = m ∨
        departed = (w.genesis s.world.1).1.2 ∧ ∃ g, m' = .handshake g) ∧
      s'.node = { s.node with exchanges := s.node.exchanges.eraseAll departed } ∧
      s'.world.2 = .attempt false p m' :: s.world.2 := by
  rw [announceTo, ExchangeTable.route] at h
  cases hx : s.node.exchanges.get? p with
  | none =>
      rw [hx] at h
      dsimp only at h
      split at h
      · cases h
      · next e' s'' hgreet =>
        obtain ⟨-, rfl⟩ := Prod.mk.inj h
        obtain ⟨hnode, g, htrace⟩ := sendHandshake_of_error hgreet
        refine ⟨_, _, .inr ⟨rfl, g, rfl⟩, ?_, htrace⟩
        -- The entry that is erased is the one that was just made, or it is gone already.
        have hundone := ExchangeTable.erase_eraseAll_insert hx (.opened (some m))
          (w.genesis s.world.1).1.2
        rw [← hundone, update, hnode]
        rfl
  | some x =>
      rw [hx] at h
      cases x with
      | awaiting | rejected => cases h
      | complete initiator =>
          rcases send_traced_cases w p m s with ⟨a, hsend⟩ | ⟨e', a, hsend⟩
          · cases hsend.symm.trans h
          · obtain ⟨-, rfl⟩ := Prod.mk.inj (hsend.symm.trans h)
            exact ⟨[], m, .inl ⟨rfl, rfl⟩, rfl, rfl⟩

theorem requestBlocks_of_failed {r : BlockRequest}
    (h : s.requestBlocks w.traced p r = (.error e, s')) :
    s'.node = s.node ∧ s'.world.2 = .attempt false p (.request r) :: s.world.2 := by
  cases hhas : s.node.requests.has r.id with
  | true =>
      rw [requestBlocks_of_has hhas] at h
      cases h
  | false =>
      rcases requestBlocks_of_not_has (w := w) (p := p) hhas with ⟨a, hask⟩ | ⟨e', a, hask⟩
      · cases hask.symm.trans h
      · obtain ⟨-, rfl⟩ := Prod.mk.inj (hask.symm.trans h)
        exact ⟨rfl, rfl⟩

theorem requestBlocks_of_done {r : BlockRequest}
    (h : s.requestBlocks w.traced p r = (.ok (), s')) :
    s'.node.requests.has r.id = true ∧
      (s.node.requests.has r.id = true → s' = s) ∧
      (s.node.requests.has r.id = false →
        s'.world.2 = .attempt true p (.request r) :: s.world.2) := by
  cases hhas : s.node.requests.has r.id with
  | true =>
      obtain ⟨-, rfl⟩ := Prod.mk.inj ((requestBlocks_of_has hhas).symm.trans h)
      exact ⟨hhas, fun _ => rfl, fun hnew => nomatch hnew⟩
  | false =>
      rcases requestBlocks_of_not_has (w := w) (p := p) hhas with ⟨a, hask⟩ | ⟨e', a, hask⟩
      · obtain ⟨-, rfl⟩ := Prod.mk.inj (hask.symm.trans h)
        refine ⟨?_, (fun hold => nomatch hold), fun _ => rfl⟩
        dsimp only
        rw [Outstanding.has_put, decide_eq_true rfl, Bool.true_or]
      · cases hask.symm.trans h

/-- An announcement or a request that fails leaves nothing behind but one attempt to send. Whatever
the state of the node: its exchanges, its requests, what it knows of the peers and what it counts
are as they were before, less the exchanges with peers that departed meanwhile on their own, and the
attempt was in vain, so the transport took no payload. A request that does not fail is outstanding
afterwards, and it was sent if and only if its id was not outstanding before. -/
theorem undone_of_unsent (w : World σ) (p : PeerId) (s : Site (σ × List Event)) :
    (∀ m e s', s.announceTo w.traced p m = (.error e, s') →
      ∃ departed m',
        (departed = [] ∧ m' = m ∨
          departed = (w.genesis s.world.1).1.2 ∧ ∃ g, m' = .handshake g) ∧
        s'.node = departed.foldl (fun n q => n.forget .blockAnnounces q) s.node ∧
        s'.world.2 = .attempt false p m' :: s.world.2) ∧
    (∀ r e s', s.requestBlocks w.traced p r = (.error e, s') →
      s'.node = s.node ∧ s'.world.2 = .attempt false p (.request r) :: s.world.2) ∧
    ∀ r s', s.requestBlocks w.traced p r = (.ok (), s') →
      s'.node.requests.has r.id = true ∧
        (s.node.requests.has r.id = true → s' = s) ∧
        (s.node.requests.has r.id = false →
          s'.world.2 = .attempt true p (.request r) :: s.world.2) := by
  refine ⟨fun m e s' h => ?_, fun r e s' => requestBlocks_of_failed,
    fun r s' => requestBlocks_of_done⟩
  obtain ⟨departed, m', hsent, hnode, htrace⟩ := announceTo_of_error h
  refine ⟨departed, m', hsent, ?_, htrace⟩
  rw [hnode, Node.forgetAll_eq]

end Site

/-- A world in which nothing can be sent, and the supplier departs while the genesis block is looked
up. -/
def World.severed : World Unit :=
  { World.idle .zero with
    send := fun _ _ _ _ => (.error .closed, ())
    genesis := fun _ => ((.zero, [supplier]), ()) }

/-- With the supplier still to answer our handshake, neither the announcement nor the request to the
stranger can be sent; the request could be in a world where sending works. -/
theorem Site.undone_of_unsent_of_severed :
    let s : Site (Unit × List Event) :=
      ⟨{ Node.new .default with
          exchanges := (ExchangeTable.empty Channel.blockAnnounces.protocol).insert supplier (.opened none) },
        (), []⟩
    let announced := (s.announceTo World.severed.traced stranger (.request idleRequest)).2
    let asked := (s.requestBlocks World.severed.traced stranger idleRequest).2
    announced.node = s.node.forget .blockAnnounces supplier ∧ asked.node = s.node ∧
      (s.requestBlocks (World.idle .zero).traced stranger idleRequest).2.world.2 =
        [.attempt true stranger (.request idleRequest)] := by
  intro s announced asked
  have hfree : s.node.requests.has idleRequest.id = false := Outstanding.has_empty _
  obtain ⟨hannounce, hrequest, -⟩ := undone_of_unsent World.severed stranger s
  obtain ⟨-, -, hdone⟩ := undone_of_unsent (World.idle .zero) stranger s
  refine ⟨?_, ?_, ?_⟩
  · obtain ⟨departed, m', ⟨-, hsame⟩ | ⟨hdeparted, -⟩, hnode, htrace⟩ :=
      hannounce (.request idleRequest) (.send .closed) announced rfl
    · -- The trace shows a handshake, not the message.
      rw [hsame] at htrace
      exact absurd htrace (by decide +kernel)
    · rw [hnode, hdeparted]
      rfl
  · exact (hrequest idleRequest _ asked (requestBlocks_of_error hfree rfl)).1
  · exact (hdone idleRequest _ (requestBlocks_of_ok hfree rfl)).2.2 hfree

end ChainPeer
