import ChainPeer.Node.Stream
import ChainPeer.Proofs.Exchanges

/-!
# What a node notes of the streams it reads

The frames and decode errors that a node counts, the streams it gave up and their reports are noted
for its operator. Nothing that a node does with a message, and nothing it is asked to do, reads or
changes them: with other counts and other reports it would do the same.
-/

namespace ChainPeer

/-- What a node notes of the streams it reads. -/
structure Intake where
  framesReceived : Nat
  decodeErrors : Nat
  streamErrors : Nat
  reports : ReportQueue

namespace Node

def intake (n : Node) : Intake :=
  ⟨n.metrics.framesReceived, n.metrics.decodeErrors, n.metrics.streamErrors, n.reports⟩

def withIntake (n : Node) (i : Intake) : Node :=
  { n with
    metrics := { n.metrics with
      framesReceived := i.framesReceived
      decodeErrors := i.decodeErrors
      streamErrors := i.streamErrors }
    reports := i.reports }

end Node

namespace Site

variable {σ : Type}

/-- The site that has noted something else of the streams it read. -/
def withIntake (s : Site σ) (i : Intake) : Site σ := s.update (·.withIntake i)

@[simp] theorem world_withIntake (s : Site σ) (i : Intake) : (s.withIntake i).world = s.world := rfl

@[simp] theorem intake_withIntake (s : Site σ) (i : Intake) : (s.withIntake i).node.intake = i := rfl

@[simp] theorem withIntake_intake (s : Site σ) : s.withIntake s.node.intake = s := rfl

/-- An operation neither reads nor changes what the node notes of the streams it reads. -/
def Aloof {α : Type} (f : Site σ → α × Site σ) : Prop :=
  ∀ s i, f (s.withIntake i) = ((f s).1, (f s).2.withIntake i)

/-- The same of an operation that gives nothing but the site. -/
def Unmoved (f : Site σ → Site σ) : Prop := Aloof fun s => ((), f s)

variable {α β : Type}

theorem Aloof.of_eq {f : Site σ → α × Site σ} (hf : Aloof f) {s t : Site σ} {a : α}
    (h : f s = (a, t)) (i : Intake) : f (s.withIntake i) = (a, t.withIntake i) := by
  have hs := hf s i
  rwa [h] at hs

theorem Aloof.intake_eq {f : Site σ → α × Site σ} (hf : Aloof f) (s : Site σ) :
    (f s).2.node.intake = s.node.intake := by
  have hsame := hf s s.node.intake
  rw [withIntake_intake] at hsame
  rw [hsame]
  rfl

theorem Aloof.bind {f : Site σ → α × Site σ} {g : α → Site σ → β × Site σ} (hf : Aloof f)
    (hg : ∀ a, Aloof (g a)) : Aloof fun s => g (f s).1 (f s).2 := by
  intro s i
  dsimp only
  rw [hf s i]
  exact hg (f s).1 (f s).2 i

theorem Aloof.drop {f : Site σ → α × Site σ} (hf : Aloof f) : Unmoved fun s => (f s).2 :=
  fun s i => congrArg (fun x => ((), x.2)) (hf s i)

theorem Unmoved.andThen {f : Site σ → Site σ} {g : Site σ → α × Site σ} (hf : Unmoved f)
    (hg : Aloof g) : Aloof fun s => g (f s) :=
  Aloof.bind hf fun _ => hg

theorem Unmoved.trans {f g : Site σ → Site σ} (hf : Unmoved f) (hg : Unmoved g) :
    Unmoved fun s => g (f s) :=
  hf.andThen hg

theorem Unmoved.foldl {f : Site σ → β → Site σ} (hf : ∀ b, Unmoved (f · b)) (l : List β) :
    Unmoved fun s => l.foldl f s := by
  induction l with
  | nil => exact fun s i => rfl
  | cons b l ih => exact (hf b).trans ih

theorem aloof_return (a : α) : Aloof fun s : Site σ => (a, s) := fun _ _ => rfl

/-! ## Sending and requesting -/

variable (w : World σ) (p : PeerId)

theorem aloof_send (m : Message) : Aloof fun s : Site σ => s.send w p m := by
  intro s i
  simp only [send, world_withIntake]
  split <;> rfl

theorem aloof_requestBlocks (r : BlockRequest) : Aloof fun s : Site σ => s.requestBlocks w p r := by
  intro s i
  cases hadd : s.node.requests.addTo r.id p (some r.start) with
  | mk new requests =>
      have hadd' : (s.withIntake i).node.requests.addTo r.id p (some r.start) = (new, requests) :=
        hadd
      simp only [requestBlocks, hadd, hadd']
      cases new with
      | false => rfl
      | true =>
          cases hs' : (s.update ({ · with requests })).send w p (.request r) with
          | mk result s' =>
              have hsend := (aloof_send w p (.request r)).of_eq hs' i
              have hnoted : (s.withIntake i).update ({ · with requests }) =
                  (s.update ({ · with requests })).withIntake i := rfl
              dsimp only
              rw [hnoted, hsend, hs']
              cases result <;> rfl

theorem aloof_followUp (request : Option BlockRequest) :
    Aloof fun s : Site σ => s.followUp w p request := by
  cases request with
  | none => exact aloof_return _
  | some r => exact aloof_requestBlocks w p r

theorem aloof_genesis : Aloof fun s : Site σ => s.genesis w := by
  intro s i
  dsimp only
  rw [genesis_eq, genesis_eq]
  rfl

/-! ## Announcing -/

theorem aloof_localHandshake : Aloof fun s : Site σ => s.localHandshake w := by
  intro s i
  have hgenesis := (aloof_genesis w).of_eq (rfl : s.genesis w = _) i
  dsimp only
  rw [localHandshake, hgenesis]
  rfl

theorem aloof_validate (h : Handshake) : Aloof fun s : Site σ => s.validate w h := by
  intro s i
  have hgenesis := (aloof_genesis w).of_eq (rfl : s.genesis w = _) i
  dsimp only
  rw [validate, hgenesis]
  rfl

theorem aloof_sendHandshake : Aloof fun s : Site σ => s.sendHandshake w p :=
  (aloof_localHandshake w).bind fun h => aloof_send w p (.handshake h)

theorem aloof_flush (heldBack : Option Message) : Aloof fun s : Site σ => s.flush w p heldBack := by
  cases heldBack with
  | none => exact aloof_return _
  | some m => exact aloof_send w p m

theorem aloof_announceTo (m : Message) : Aloof fun s : Site σ => s.announceTo w p m := by
  intro s i
  cases hroute : s.node.exchanges.route p m with
  | mk route exchanges =>
      have hroute' : (s.withIntake i).node.exchanges.route p m = (route, exchanges) := hroute
      simp only [announceTo, hroute, hroute']
      cases route with
      | sendNow m => exact aloof_send w p m (s.update ({ · with exchanges })) i
      | heldBack | refused => rfl
      | openExchange =>
          cases hs' : (s.update ({ · with exchanges })).sendHandshake w p with
          | mk result s' =>
              have hgreet := (aloof_sendHandshake w p).of_eq hs' i
              have hrouted : (s.withIntake i).update ({ · with exchanges }) =
                  (s.update ({ · with exchanges })).withIntake i := rfl
              dsimp only
              rw [hrouted, hgreet]
              cases result <;> rfl

theorem unmoved_announce (m : Message) : Unmoved fun s : Site σ => s.announce w m :=
  fun s i => Unmoved.foldl (fun p => (aloof_announceTo w p m).drop) (w.connected s.world) s i

theorem aloof_onReply (h : Handshake) : Aloof fun s : Site σ => s.onReply w p h := by
  intro s i
  cases hs' : s.validate w h with
  | mk valid s' =>
      have hvalidate := (aloof_validate w h).of_eq hs' i
      dsimp only
      rw [onReply, onReply, hvalidate, hs']
      cases valid with
      | error e => rfl
      | ok u =>
          have hexchanges : ((s'.withIntake i).noteHandshake p h).node.exchanges =
              s'.node.exchanges := rfl
          have hexchanges' : (s'.noteHandshake p h).node.exchanges = s'.node.exchanges := rfl
          dsimp only
          rw [hexchanges, hexchanges']
          cases s'.node.exchanges.complete? p with
          | none => rfl
          | some found =>
              exact aloof_flush w p found.1
                ((s'.noteHandshake p h).update ({ · with exchanges := found.2 })) i

theorem aloof_onOpening (h : Handshake) : Aloof fun s : Site σ => s.onOpening w p h := by
  intro s i
  cases hs' : s.validate w h with
  | mk valid s' =>
      have hvalidate := (aloof_validate w h).of_eq hs' i
      dsimp only
      rw [onOpening, onOpening, hvalidate, hs']
      cases valid with
      | error e => rfl
      | ok u =>
          exact (aloof_sendHandshake w p).drop.andThen
            (aloof_flush w p (s'.node.exchanges.accept p).1)
            ((s'.noteHandshake p h).update
              ({ · with exchanges := (s'.node.exchanges.accept p).2 })) i

theorem aloof_onHandshake (h : Handshake) : Aloof fun s : Site σ => s.onHandshake w p h := by
  intro s i
  have hexchanges : (s.withIntake i).node.exchanges = s.node.exchanges := rfl
  dsimp only
  rw [onHandshake, onHandshake, hexchanges]
  split
  · rfl
  · rfl
  · exact aloof_onReply w p h s i
  · exact aloof_onOpening w p h s i
  · exact aloof_onOpening w p h s i

theorem aloof_onAnnounce (a : Announce) : Aloof fun s : Site σ => s.onAnnounce w p a := by
  intro s i
  have hexchanges : (s.withIntake i).node.exchanges = s.node.exchanges := rfl
  dsimp only
  rw [onAnnounce, onAnnounce, hexchanges]
  split
  · cases a.isBest with
    | true =>
        exact aloof_followUp w p (w.announced p a s.world).1
          ({ s.update (·.noteReport p none a.number a.headerHash) with
            world := (w.announced p a s.world).2 }) i
    | false =>
        exact aloof_followUp w p (w.announced p a s.world).1
          ({ s with world := (w.announced p a s.world).2 }) i
  · rfl

/-! ## Status and gossip -/

theorem aloof_sendStatus : Aloof fun s : Site σ => s.sendStatus w p := by
  intro s i
  have hgenesis := (aloof_genesis w).of_eq (rfl : s.genesis w = _) i
  dsimp only
  rw [sendStatus, localStatus, hgenesis]
  exact aloof_send w p (.status (s.localStatus w).1) _ i

theorem unmoved_forward (m : Message) (except : Option PeerId) :
    Unmoved fun s : Site σ => s.forward w m except :=
  fun s i => Unmoved.foldl (fun p => (aloof_send w p m).drop)
    ((w.connected s.world).filter fun p => some p ≠ except) s i

theorem unmoved_gossip (m : Message) (except : Option PeerId) :
    Unmoved fun s : Site σ => (s.gossip w m except).2 := by
  have hseen : Unmoved fun s : Site σ =>
      s.update fun n => { n with seen := (n.seen.insert m.gossipHash).2 } := fun s i => rfl
  exact hseen.trans (unmoved_forward w m except)

theorem aloof_onStatus (m : Status) : Aloof fun s : Site σ => s.onStatus w p m := by
  intro s i
  cases hs' : s.genesis w with
  | mk ours s' =>
      have hgenesis := (aloof_genesis w).of_eq hs' i
      dsimp only
      rw [onStatus, onStatus, hgenesis, hs']
      dsimp only
      have hsettings : (s'.withIntake i).node.config = s'.node.config := rfl
      rw [hsettings]
      split
      · rfl
      · exact aloof_followUp w p (w.seen m.bestNumber s'.world).1
          ({ s'.update (·.noteReport p (some m.roles) m.bestNumber m.bestHash) with
            world := (w.seen m.bestNumber s'.world).2 }) i

theorem unmoved_deliver (m : Message) : Unmoved fun s : Site σ => s.deliver w p m := by
  intro s i
  simp only [deliver]
  split <;> rfl

theorem unmoved_onGossip (m : Message) : Unmoved fun s : Site σ => s.onGossip w p m := by
  intro s i
  have hseen : (s.withIntake i).node.seen = s.node.seen := rfl
  dsimp only
  rw [onGossip, onGossip, hseen]
  split
  · rfl
  · next seen _ =>
    exact (unmoved_deliver w p m).trans (unmoved_forward w m (some p))
      (s.update ({ · with seen })) i

/-! ## Syncing -/

theorem aloof_onRequest (r : BlockRequest) : Aloof fun s : Site σ => s.onRequest w p r := by
  intro s i
  dsimp only
  rw [onRequest, onRequest, world_withIntake]
  split
  · next response world _ =>
    exact aloof_send w p (.response response) ({ s with world }) i
  · rfl

theorem aloof_onResponse (x : BlockResponse) : Aloof fun s : Site σ => s.onResponse w p x := by
  intro s i
  have hrequests : (s.withIntake i).node.requests = s.node.requests := rfl
  dsimp only
  rw [onResponse, onResponse, hrequests]
  split
  · rfl
  · next requests _ =>
    exact aloof_followUp w p (w.answered p x s.world).1
      ({ s.update ({ · with requests }) with world := (w.answered p x s.world).2 }) i

/-! ## Calls -/

theorem aloof_handle (c : Channel) (m : Message) : Aloof fun s : Site σ => s.handle w c p m := by
  cases c with
  | blockAnnounces =>
      cases m with
      | handshake h => exact aloof_onHandshake w p h
      | announce a => exact aloof_onAnnounce w p a
      | request | response | status | transactions => exact aloof_return _
  | sync =>
      cases m with
      | request r => exact aloof_onRequest w p r
      | response x => exact aloof_onResponse w p x
      | handshake | announce | status | transactions => exact aloof_return _
  | legacy =>
      cases m with
      | status m => exact aloof_onStatus w p m
      | transactions m =>
          exact (unmoved_onGossip w p (.transactions m)).andThen (aloof_return (Except.ok ()))
      | handshake | announce | request | response => exact aloof_return _

end Site

end ChainPeer
