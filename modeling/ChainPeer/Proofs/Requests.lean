import ChainPeer.Proofs.Standing

/-!
# Requests for blocks and their responses

What sending, requesting, serving and answering do to the outstanding requests and to the trace of a
site: one equation for each way in which they can end. Responses are told apart by their ids alone;
the peer that was asked is kept for the case that it departs, and nobody looks at it when a response
arrives.
-/

namespace ChainPeer

/-! ## Reading payloads of the channel -/

def Message.request? : Message → Option BlockRequest
  | request r => some r
  | _ => none

def Message.response? : Message → Option BlockResponse
  | response x => some x
  | _ => none

/-- The request that a payload of the sync channel stands for. -/
def BlockRequest.read? (payload : Bytes) : Option BlockRequest :=
  (Message.decodeTagged payload payload.length).toOption.bind Message.request?

/-- The response that a payload of the sync channel stands for. -/
def BlockResponse.read? (payload : Bytes) : Option BlockResponse :=
  (Message.decodeTagged payload payload.length).toOption.bind Message.response?

namespace Message

theorem payload_of_sync {m : Message} (h : m.channel = .sync) : m.payload = m.encodeTagged := by
  have hchannel : m.channel ≠ .blockAnnounces := by
    rw [h]
    decide
  rw [payload, if_neg hchannel]

theorem length_encodeBare_le (m : Message) : m.encodeBare.length ≤ m.encodeTagged.length :=
  Nat.le_succ _

theorem decodeTagged_encodeTagged {m : Message} (hm : m.Sized) {limit : Nat}
    (hlimit : m.encodeBare.length ≤ limit) : decodeTagged m.encodeTagged limit = .ok m :=
  decodeTagged_eq_ok_iff.2 ⟨hlimit, hm, rfl⟩

theorem kind_eq_of_decodeTagged {m m' : Message} {limit : Nat}
    (h : decodeTagged m.encodeTagged limit = .ok m') : m'.kind = m.kind := by
  rw [encodeTagged, decodeTagged_cons] at h
  exact (decodeBare_eq_ok_iff.1 h).1

end Message

theorem BlockRequest.read?_request (r : BlockRequest) :
    read? (Message.request r).payload = some r := by
  have hdecode := Message.decodeTagged_encodeTagged (m := .request r) trivial
    (Message.length_encodeBare_le _)
  rw [read?, Message.payload_of_sync rfl, hdecode]
  rfl

theorem BlockResponse.read?_response {x : BlockResponse} (hx : (Message.response x).Sized) :
    read? (Message.response x).payload = some x := by
  have hdecode := Message.decodeTagged_encodeTagged hx (Message.length_encodeBare_le _)
  rw [read?, Message.payload_of_sync rfl, hdecode]
  rfl

theorem BlockRequest.read?_response (x : BlockResponse) :
    read? (Message.response x).payload = none := by
  rw [read?, Message.payload_of_sync rfl]
  cases hdecode : Message.decodeTagged (Message.response x).encodeTagged
      (Message.response x).encodeTagged.length with
  | error e => rfl
  | ok m =>
      have hkind := Message.kind_eq_of_decodeTagged hdecode
      cases m <;> first | rfl | exact nomatch hkind

theorem BlockResponse.read?_request (r : BlockRequest) :
    read? (Message.request r).payload = none := by
  rw [read?, Message.payload_of_sync rfl]
  cases hdecode : Message.decodeTagged (Message.request r).encodeTagged
      (Message.request r).encodeTagged.length with
  | error e => rfl
  | ok m =>
      have hkind := Message.kind_eq_of_decodeTagged hdecode
      cases m <;> first | rfl | exact nomatch hkind

/-! ## What the operations do -/

/-- Sending to the peer on the channel works. -/
def World.Reaches {σ : Type} (w : World σ) (p : PeerId) (c : Channel) : Prop :=
  ∀ payload a, (w.send p c payload a).1 = .ok ()

theorem World.Reaches.exists_send {σ : Type} {w : World σ} {p : PeerId} {c : Channel}
    (hw : w.Reaches p c) (payload : Bytes) (a : σ) :
    ∃ a', w.send p c payload a = (.ok (), a') := by
  have hok := hw payload a
  cases hresult : w.send p c payload a with
  | mk result a' =>
      rw [hresult] at hok
      exact ⟨a', congrArg (·, a') hok⟩

namespace Node

/-- The node that counts a message as sent. -/
def countSent (n : Node) : Node := n.count fun m => { m with messagesSent := m.messagesSent + 1 }

/-- The node that counts a response that it has not asked for. -/
def countUnsolicited (n : Node) : Node :=
  n.count fun m => { m with unsolicitedResponses := m.unsolicitedResponses + 1 }

end Node

namespace Site

variable {σ : Type} {w : World σ} {p : PeerId}

theorem send_traced_of_ok {m : Message} {a : σ} {s : Site (σ × List Event)}
    (h : w.send p m.channel m.payload s.world.1 = (.ok (), a)) :
    s.send w.traced p m =
      (.ok (), ⟨s.node.countSent, a, .attempt true p m :: s.world.2⟩) := by
  simp only [send, World.traced, Transport.traced, h]
  rfl

theorem send_traced_of_error {m : Message} {e : TransportError} {a : σ}
    {s : Site (σ × List Event)} (h : w.send p m.channel m.payload s.world.1 = (.error e, a)) :
    s.send w.traced p m =
      (.error (.send e), ⟨s.node, a, .attempt false p m :: s.world.2⟩) := by
  simp only [send, World.traced, Transport.traced, h]
  rfl

theorem send_traced_cases (w : World σ) (p : PeerId) (m : Message) (s : Site (σ × List Event)) :
    (∃ a, s.send w.traced p m =
      (.ok (), ⟨s.node.countSent, a, .attempt true p m :: s.world.2⟩)) ∨
    ∃ e a, s.send w.traced p m = (.error (.send e), ⟨s.node, a, .attempt false p m :: s.world.2⟩) := by
  cases hresult : w.send p m.channel m.payload s.world.1 with
  | mk result a =>
      cases result with
      | ok u => exact .inl ⟨a, send_traced_of_ok hresult⟩
      | error e => exact .inr ⟨e, a, send_traced_of_error hresult⟩

theorem send_of_reaches {m : Message} (hw : w.Reaches p m.channel)
    (s : Site (σ × List Event)) :
    ∃ a, s.send w.traced p m =
      (.ok (), ⟨s.node.countSent, a, .attempt true p m :: s.world.2⟩) := by
  obtain ⟨a, hsend⟩ := hw.exists_send m.payload s.world.1
  exact ⟨a, send_traced_of_ok hsend⟩

/-- Sending changes no more of the node than what it counts. -/
theorem node_send (w : World σ) (p : PeerId) (m : Message) (s : Site σ) :
    ∃ metrics, (s.send w p m).2.node = { s.node with metrics } := by
  rw [send]
  split
  · exact ⟨_, rfl⟩
  · exact ⟨s.node.metrics, rfl⟩

theorem world_send (w : World σ) (p : PeerId) (m : Message) (s : Site σ) :
    (s.send w p m).2.world = (w.send p m.channel m.payload s.world).2 := by
  rw [send]
  split
  · next heq => rw [heq]
  · next heq => rw [heq]

theorem node_requestBlocks (w : World σ) (p : PeerId) (r : BlockRequest) (s : Site σ) :
    ∃ requests metrics, (s.requestBlocks w p r).2.node = { s.node with requests, metrics } := by
  rw [requestBlocks]
  split
  · exact ⟨s.node.requests, s.node.metrics, rfl⟩
  · next requests _ =>
    obtain ⟨metrics, hsend⟩ :=
      node_send w p (.request r) (s.update ({ · with requests }))
    split
    · next hs' =>
      rw [hs'] at hsend
      exact ⟨requests, metrics, hsend⟩
    · next hs' =>
      rw [hs'] at hsend
      exact ⟨_, metrics, by rw [update, hsend]; rfl⟩

theorem requestBlocks_of_has {s : Site σ} {r : BlockRequest}
    (h : s.node.requests.has r.id = true) : s.requestBlocks w p r = (.ok (), s) := by
  rw [requestBlocks, Outstanding.addTo_of_has h]

section NewId

variable {s : Site (σ × List Event)} {r : BlockRequest}

theorem requestBlocks_of_ok (hnew : s.node.requests.has r.id = false) {a : σ}
    (h : w.send p .sync (Message.request r).payload s.world.1 = (.ok (), a)) :
    s.requestBlocks w.traced p r =
      (.ok (), ⟨{ s.node.countSent with
          requests := s.node.requests.put r.id ⟨some p, some r.start⟩ },
        a, .attempt true p (.request r) :: s.world.2⟩) := by
  have hsend := send_traced_of_ok (m := .request r) (s := s.update
    ({ · with requests := s.node.requests.put r.id ⟨some p, some r.start⟩ })) h
  rw [requestBlocks, Outstanding.addTo_of_not_has hnew]
  dsimp only
  rw [hsend]
  rfl

/-- A request that could not be sent leaves nothing behind but the attempt. -/
theorem requestBlocks_of_error (hnew : s.node.requests.has r.id = false) {e : TransportError}
    {a : σ} (h : w.send p .sync (Message.request r).payload s.world.1 = (.error e, a)) :
    s.requestBlocks w.traced p r =
      (.error (.send e), ⟨s.node, a, .attempt false p (.request r) :: s.world.2⟩) := by
  have hsend := send_traced_of_error (m := .request r) (s := s.update
    ({ · with requests := s.node.requests.put r.id ⟨some p, some r.start⟩ })) h
  have hundone := Outstanding.remove_put hnew ⟨some p, some r.start⟩
  rw [requestBlocks, Outstanding.addTo_of_not_has hnew]
  dsimp only
  rw [hsend]
  simp only [update, hundone]

theorem requestBlocks_of_not_has (hnew : s.node.requests.has r.id = false) :
    (∃ a, s.requestBlocks w.traced p r =
      (.ok (), ⟨{ s.node.countSent with
          requests := s.node.requests.put r.id ⟨some p, some r.start⟩ },
        a, .attempt true p (.request r) :: s.world.2⟩)) ∨
    ∃ e a, s.requestBlocks w.traced p r =
      (.error (.send e), ⟨s.node, a, .attempt false p (.request r) :: s.world.2⟩) := by
  cases hresult : w.send p .sync (Message.request r).payload s.world.1 with
  | mk result a =>
      cases result with
      | ok u => exact .inl ⟨a, requestBlocks_of_ok hnew hresult⟩
      | error e => exact .inr ⟨e, a, requestBlocks_of_error hnew hresult⟩

theorem exists_requestBlocks (hw : w.Reaches p .sync)
    (hnew : s.node.requests.has r.id = false) :
    ∃ a, s.requestBlocks w.traced p r =
      (.ok (), ⟨{ s.node.countSent with
          requests := s.node.requests.put r.id ⟨some p, some r.start⟩ },
        a, .attempt true p (.request r) :: s.world.2⟩) := by
  obtain ⟨a, hsend⟩ := hw.exists_send (Message.request r).payload s.world.1
  exact ⟨a, requestBlocks_of_ok hnew hsend⟩

end NewId

theorem onRequest_traced (w : World σ) (p : PeerId) (r : BlockRequest)
    (s : Site (σ × List Event)) :
    s.onRequest w.traced p r =
      match w.serve r s.world.1 with
      | (.ok x, a) =>
        (⟨s.node, a, .served r none :: s.world.2⟩ : Site (σ × List Event)).send w.traced p
          (.response x)
      | (.error e, a) => (.ok (), ⟨s.node, a, .served r (some e) :: s.world.2⟩) := by
  cases hserve : w.serve r s.world.1 with
  | mk result a =>
      cases result <;>
        simp [onRequest, World.traced, Subsystems.traced, hserve, refusal?]

theorem onResponse_of_not_has {s : Site σ} {x : BlockResponse}
    (h : s.node.requests.has x.id = false) :
    s.onResponse w p x = (.ok (), s.update Node.countUnsolicited) := by
  rw [onResponse, Outstanding.remove, h]
  rfl

theorem onResponse_of_has {s : Site (σ × List Event)} {x : BlockResponse}
    (h : s.node.requests.has x.id = true) :
    s.onResponse w.traced p x =
      (⟨{ s.node with requests := (s.node.requests.remove x.id).2 },
        (w.answered p x s.world.1).2, .answered p x :: s.world.2⟩ :
        Site (σ × List Event)).followUp w.traced p (w.answered p x s.world.1).1 := by
  have hremove : s.node.requests.remove x.id = (true, (s.node.requests.remove x.id).2) := by
    rw [Outstanding.remove, h]
  rw [onResponse, hremove]
  rfl

/-! ## Responses and the peers that were asked -/

/-- A response is told by its id, whoever sends it. With no outstanding request of this id it is
counted and nothing else happens. Otherwise it is handed over as a response of the peer that sent
it and the request is no longer outstanding, whichever peer was asked, if any; no other request is
taken out. A request that follows up is sent to the peer that sent the response, unless its id is
outstanding, and becomes outstanding if it could be sent. Nothing else is sent. -/
theorem handle_response (w : World σ) (q : PeerId) (x : BlockResponse)
    (s : Site (σ × List Event)) :
    (s.node.requests.get? x.id = none →
      s.handle w.traced .sync q (.response x) = (.ok (), s.update Node.countUnsolicited)) ∧
    ∀ entry, s.node.requests.get? x.id = some entry →
      let s' := (s.handle w.traced .sync q (.response x)).2
      let others := (s.node.requests.remove x.id).2
      s'.node.metrics.unsolicitedResponses = s.node.metrics.unsolicitedResponses ∧
      ((∀ r, (w.answered q x s.world.1).1 = some r → others.get? r.id ≠ none) ∧
          s'.world.2 = .answered q x :: s.world.2 ∧ s'.node.requests = others ∨
        ∃ r, (w.answered q x s.world.1).1 = some r ∧ others.get? r.id = none ∧
          ((s'.world.2 = .attempt true q (.request r) :: .answered q x :: s.world.2 ∧
              s'.node.requests = others.put r.id ⟨some q, some r.start⟩) ∨
            (s'.world.2 = .attempt false q (.request r) :: .answered q x :: s.world.2 ∧
              s'.node.requests = others))) := by
  constructor
  · intro hnone
    exact onResponse_of_not_has (Outstanding.has_eq_false_iff.2 hnone)
  · intro entry hentry
    have hhas : s.node.requests.has x.id = true := by
      rw [Outstanding.has, hentry]
      rfl
    have hhandle : s.handle w.traced .sync q (.response x) = s.onResponse w.traced q x := rfl
    rw [hhandle, onResponse_of_has hhas]
    cases hnext : (w.answered q x s.world.1).1 with
    | none => exact ⟨rfl, .inl ⟨fun r hr => (by simp at hr), rfl, rfl⟩⟩
    | some r =>
        rw [followUp]
        cases hnew : (s.node.requests.remove x.id).2.has r.id with
        | true =>
            rw [requestBlocks_of_has hnew]
            refine ⟨rfl, .inl ⟨?_, rfl, rfl⟩⟩
            rintro _ ⟨⟩ hfree
            rw [Outstanding.has_eq_false_iff.2 hfree] at hnew
            cases hnew
        | false =>
            have hfree := Outstanding.has_eq_false_iff.1 hnew
            rcases requestBlocks_of_not_has (w := w) (p := q)
              (s := ⟨{ s.node with requests := (s.node.requests.remove x.id).2 },
                (w.answered q x s.world.1).2, .answered q x :: s.world.2⟩) hnew with
              ⟨a, hask⟩ | ⟨e, a, hask⟩
            · rw [hask]
              exact ⟨rfl, .inr ⟨r, rfl, hfree, .inl ⟨rfl, rfl⟩⟩⟩
            · rw [hask]
              exact ⟨rfl, .inr ⟨r, rfl, hfree, .inr ⟨rfl, rfl⟩⟩⟩

end Site

/-- The peer that is asked for blocks, another peer that answers, and the request. -/
def supplier : PeerId := ⟨.identity, [1]⟩

def stranger : PeerId := ⟨.identity, [2]⟩

def idleRequest : BlockRequest := ⟨5, 1, .number 9, none, .ascending, none⟩

namespace Site

/-- A node that has nothing to do but to wait for the answer of the supplier. -/
def waiting : Site (Unit × List Event) :=
  (requestBlocks (World.idle .zero).traced supplier idleRequest ⟨.new .default, (), []⟩).2

/-- The response of the stranger counts as the answer, and one with another id does not. -/
theorem handle_response_of_stranger :
    (waiting.handle (World.idle .zero).traced .sync stranger (.response ⟨5, []⟩)).2.world.2 =
        .answered stranger ⟨5, []⟩ :: waiting.world.2 ∧
      (waiting.handle (World.idle .zero).traced .sync stranger (.response ⟨6, []⟩)).2 =
        waiting.update Node.countUnsolicited := by
  obtain ⟨-, haccepted⟩ := handle_response (World.idle .zero) stranger ⟨5, []⟩ waiting
  obtain ⟨hignored, -⟩ := handle_response (World.idle .zero) stranger ⟨6, []⟩ waiting
  constructor
  · obtain ⟨-, ⟨-, htrace, -⟩ | ⟨r, hnext, -⟩⟩ :=
      haccepted ⟨some supplier, some (.number 9)⟩ (by decide +kernel)
    · exact htrace
    · exact nomatch hnext
  · rw [hignored (by decide +kernel)]

/-- The request was sent to the supplier, and the stranger answers it: its response is handed over,
the request is taken out, and nothing is counted as unsolicited. -/
theorem answered_by_stranger :
    let s := (waiting.handle (World.idle .zero).traced .sync stranger (.response ⟨5, []⟩)).2
    stranger ≠ supplier ∧ waiting.node.requests.peer? 5 = some supplier ∧
      s.world.2 = .answered stranger ⟨5, []⟩ :: waiting.world.2 ∧
      s.node.requests.get? 5 = none ∧ s.node.metrics.unsolicitedResponses = 0 := by
  decide +kernel

end Site

end ChainPeer
