import ChainPeer.Proofs.Streams
import ChainPeer.Proofs.Undone

/-!
# What is to blame for a stream that is given up

Nothing that a peer sends makes handling its messages fail: a message cannot be handled only because
something could not be sent meanwhile, or because the exchange with the peer went away while the
genesis block was looked up. So where all is sent and the peer does not depart, only the bytes of a
stream that form no frame end it.
-/

namespace ChainPeer

/-- Whether a call to the world is an attempt to send something in vain. -/
def Event.isUnsent : Event → Bool
  | .notSent .. => true
  | _ => false

theorem Event.IsNotice.isUnsent_eq_false {e : Event} (he : e.IsNotice) : e.isUnsent = false := by
  cases e with
  | notSent => exact he.elim
  | _ => rfl

namespace Site

variable {σ : Type}

/-- How often something could not be sent so far. -/
def unsent (s : Site (σ × List Event)) : Nat := s.world.2.countP Event.isUnsent

/-- An operation fails only because something cannot be sent. -/
structure Blames (s : Site (σ × List Event))
    (x : Except HandlerError Unit × Site (σ × List Event)) : Prop where
  unsent_le : s.unsent ≤ x.2.unsent
  unsent_lt : ∀ e, x.1 = .error e → (∃ t, e = .send t) ∧ s.unsent < x.2.unsent

variable {w : World σ} {p : PeerId} {s s' : Site (σ × List Event)}

theorem Blames.of_ok (h : s.unsent ≤ s'.unsent) : s.Blames (.ok (), s') :=
  ⟨h, fun _ he => nomatch he⟩

theorem Blames.of_attempt (e : TransportError) (n : Node) (a : σ) (m : Message) :
    s.Blames (.error (.send e), ⟨n, a, .attempt false p m :: s.world.2⟩) := by
  have hlt : s.unsent < unsent ⟨n, a, .attempt false p m :: s.world.2⟩ := by
    rw [unsent, unsent, List.countP_cons_of_pos rfl]
    exact Nat.lt_succ_self _
  exact ⟨Nat.le_of_lt hlt, fun _ he => ⟨⟨e, (Except.error.inj he).symm⟩, hlt⟩⟩

theorem Blames.of_le {x : Except HandlerError Unit × Site (σ × List Event)} (hx : s'.Blames x)
    (h : s.unsent ≤ s'.unsent) : s.Blames x := by
  refine ⟨Nat.le_trans h hx.unsent_le, fun e he => ?_⟩
  obtain ⟨hsend, hlt⟩ := hx.unsent_lt e he
  exact ⟨hsend, Nat.lt_of_le_of_lt h hlt⟩

/-- The world was called for something that was not left unsent. -/
theorem Blames.called {e : Event} (he : e.isUnsent = false) (htrace : s'.world.2 = e :: s.world.2) :
    s.Blames (.ok (), s') := by
  refine .of_ok (Nat.le_of_eq ?_)
  rw [unsent, unsent, htrace, List.countP_cons_of_neg]
  rw [he]
  exact Bool.false_ne_true

/-! ## Sending and requesting -/

theorem blames_send (p : PeerId) (m : Message) (s : Site (σ × List Event)) :
    s.Blames (s.send w.traced p m) := by
  rcases send_traced_cases w p m s with ⟨a, hsend⟩ | ⟨e, a, hsend⟩
  · rw [hsend]
    exact .of_ok (Nat.le_refl _)
  · rw [hsend]
    exact .of_attempt e _ a m

theorem blames_requestBlocks (p : PeerId) (r : BlockRequest) (s : Site (σ × List Event)) :
    s.Blames (s.requestBlocks w.traced p r) := by
  cases hhas : s.node.requests.has r.id with
  | true =>
      rw [requestBlocks_of_has hhas]
      exact .of_ok (Nat.le_refl _)
  | false =>
      rcases requestBlocks_of_not_has (w := w) (p := p) hhas with ⟨a, hask⟩ | ⟨e, a, hask⟩
      · rw [hask]
        exact .of_ok (Nat.le_refl _)
      · rw [hask]
        exact .of_attempt e _ a _

/-! ## Courses -/

variable {b : Bounds} {report : Option Report} {ask : Option (PeerId × BlockRequest)}
  {x : Except HandlerError Unit × Site (σ × List Event)}

theorem Stroke.blames (h : Stroke w.traced b s x) (hkept : ¬ b.mayLose) : s.Blames x := by
  cases h with
  | lookUp =>
      rw [genesis_eq]
      exact .of_ok (Nat.le_refl _)
  | aside | forget | route | settle => exact .of_ok (Nat.le_refl _)
  | send q _ => exact blames_send q _ s
  | notify ha =>
      obtain ⟨e, he, htrace⟩ := ha.exists_notice
      exact .called he.isUnsent_eq_false htrace
  | answered q _ => exact .of_ok (Nat.le_refl _)
  | lose _ hlose => exact absurd hlose hkept

/-- Where no exchange can be found gone, an operation fails only because something cannot be sent.
What was sent in vain on the way counts even if it is no error. -/
theorem Course.blames (h : Course w.traced b p report ask s x) (hkept : ¬ b.mayLose) :
    s.Blames x := by
  induction h with
  | done => exact .of_ok (Nat.le_refl _)
  | last h => exact h.blames hkept
  | ask q r s => exact blames_requestBlocks q r s
  | step h _ ih => exact ih.of_le (h.blames hkept).unsent_le
  | note _ _ ih => exact ih.of_le (Nat.le_refl _)
  | tidy _ _ ih => exact ⟨ih.unsent_le, ih.unsent_lt⟩

/-! ## Messages and streams -/

/-- Nothing but the departure of the peer makes an exchange be found gone. -/
theorem blames_handle (hstays : p ∉ (w.genesis s.world.1).1.2) (c : Channel) (m : Message) :
    s.Blames (s.handle w.traced c p m) := by
  let b : Bounds := ⟨fun _ => True, c.greeter? p, False⟩
  have hheld : s.node.exchanges.Holds b.held := fun _ _ _ _ _ => trivial
  exact (course_handle (b := b) rfl hheld hstays m).blames id

theorem unsent_takeIn {c : Channel} {payloads : List Bytes}
    (hstays : ∀ taken, taken <+: payloads →
      p ∉ (w.genesis (s.takeIn w.traced c p taken).2.world.1).1.2) :
    s.unsent ≤ (s.takeIn w.traced c p payloads).2.unsent ∧
      ((s.takeIn w.traced c p payloads).1.2 ≠ none →
        s.unsent < (s.takeIn w.traced c p payloads).2.unsent) := by
  induction payloads generalizing s with
  | nil => exact ⟨Nat.le_refl _, fun h => absurd rfl h⟩
  | cons payload payloads ih =>
      have hnext := fun taken (htaken : taken <+: payloads) =>
        hstays (payload :: taken) (List.cons_prefix_cons.2 ⟨rfl, htaken⟩)
      have hblames := fun m => blames_handle (s := s) (hstays [] List.nil_prefix) c m
      rcases payload_cases w.traced c p payload s with
        ⟨e, hdecode⟩ | ⟨m, e, t, hdecode, hhandle⟩ | ⟨m, t, hdecode, hhandle⟩
      · simp only [takeIn_of_dropped hdecode] at hnext ⊢
        exact ih hnext
      · -- No payload is taken after this one.
        have hfailed := hblames m
        rw [hhandle] at hfailed
        rw [takeIn_of_error hdecode hhandle]
        exact ⟨hfailed.unsent_le, fun _ => (hfailed.unsent_lt e rfl).2⟩
      · have hhandled := hblames m
        rw [hhandle] at hhandled
        simp only [takeIn_of_handled hdecode hhandle] at hnext ⊢
        obtain ⟨hle, hlt⟩ := ih hnext
        exact ⟨Nat.le_trans hhandled.unsent_le hle,
          fun h => Nat.lt_of_le_of_lt hhandled.unsent_le (hlt h)⟩

/-- Whatever a peer sends, in whatever state of the node and whatever the other subsystems answer:
as long as the peer does not depart while the genesis block is looked up, a message cannot be handled
only because something could not be sent. So a stream during which all that was sent could be sent is
read to its end; it is given up, and reported, only for a frame that could not be read. -/
theorem fault_of_sent (w : World σ) (c : Channel) (p : PeerId) (s : Site (σ × List Event)) :
    (∀ m e, p ∉ (w.genesis s.world.1).1.2 → (s.handle w.traced c p m).1 = .error e →
      (∃ t, e = .send t) ∧ s.unsent < (s.handle w.traced c p m).2.unsent) ∧
    ∀ source : ByteSource,
      let frames := source.readFrames s.node.config.maxFrameLength
      let t := (s.readStream w.traced c p source).2
      (∀ taken, taken <+: frames.1 →
        p ∉ (w.genesis (s.takeIn w.traced c p taken).2.world.1).1.2) →
      t.unsent = s.unsent →
      match frames.2 with
      | none =>
        (s.readStream w.traced c p source).1 = .closed ∧ t.node.reports = s.node.reports
      | some e =>
        (s.readStream w.traced c p source).1 = .failed ∧
          t.node.reports = s.node.reports.add ⟨p, c.protocol, .frame e⟩ := by
  refine ⟨fun m e hstays => (blames_handle hstays c m).unsent_lt e, ?_⟩
  intro source frames t hstays hsent
  obtain ⟨-, hlt⟩ := unsent_takeIn hstays
  have hread := readStream_eq w.traced c p source s
  have ht : t = _ := congrArg Prod.snd hread
  rw [ht] at hsent
  have hhandled : (s.takeIn w.traced c p frames.1).1.2 = none :=
    Classical.byContradiction fun herror =>
      Nat.lt_irrefl _ (Nat.lt_of_lt_of_eq (hlt herror) hsent)
  have hfault : s.faultIn w.traced c p source = frames.2.map .frame := by
    rw [faultIn, hhandled]
    rfl
  rw [ht, hread]
  dsimp only
  rw [hfault]
  cases frames.2 <;> exact ⟨rfl, rfl⟩

/-- The stream of a stranger that greets and finishes is read to its end. Where nothing can be sent,
its greeting as an answer to ours cannot be handled, as the request held back cannot be sent. -/
theorem fault_of_sent_of_greeting :
    let greeting : Message := .handshake ⟨.full, 5, .zero, .zero⟩
    let source := ByteSource.ofBytes (Frame.encode greeting.payload)
    let s : Site (Unit × List Event) := ⟨.new .default, (), []⟩
    let opened : Site (Unit × List Event) :=
      ⟨{ Node.new .default with
          exchanges := (ExchangeTable.empty Channel.blockAnnounces.protocol).insert stranger
            (.opened (some (.request idleRequest))) },
        (), []⟩
    (s.readStream (World.idle .zero).traced .blockAnnounces stranger source).1 = .closed ∧
      opened.unsent <
        (opened.handle World.severed.traced .blockAnnounces stranger greeting).2.unsent := by
  intro greeting source s opened
  obtain ⟨-, hstream⟩ := fault_of_sent (World.idle .zero) .blockAnnounces stranger s
  obtain ⟨hhandle, -⟩ := fault_of_sent World.severed .blockAnnounces stranger opened
  have hframes : source.readFrames s.node.config.maxFrameLength = ([greeting.payload], none) := by
    have hlimit : greeting.payload.length ≤ s.node.config.maxFrameLength := by decide +kernel
    have hholds : source.Holds (Frame.encode greeting.payload ++ []) none := ⟨rfl, rfl⟩
    obtain ⟨rest, hrest, hread⟩ :=
      ByteSource.readFrames_encode_append (by decide +kernel) hlimit hholds
    rw [hread, ByteSource.readFrames_of_holds_nil hrest]
    decide +kernel
  have hsent : (s.readStream (World.idle .zero).traced .blockAnnounces stranger source).2.unsent =
      s.unsent := by
    rw [readStream_eq, faultIn, hframes]
    decide +kernel
  have hclosed := hstream source (fun _ _ => List.not_mem_nil) hsent
  rw [hframes] at hclosed
  exact ⟨hclosed.1, (hhandle greeting (.send .closed) (by decide +kernel) rfl).2⟩

end Site

end ChainPeer
