import ChainPeer.Proofs.Requests
import Mathlib.Data.List.Nodup

/-!
# Traders

What a node has to do with one other node that it asks for blocks and that asks it for blocks. What
a trader owes an answer for is settled by the trader on the other side: a request is in flight to it
or refused by it, or else its response is in flight back.
-/

namespace ChainPeer

/-! ## Ids of requests and responses -/

def requestIds (ms : List Message) : List UInt64 :=
  (ms.filterMap Message.request?).map BlockRequest.id

def responseIds (ms : List Message) : List UInt64 :=
  (ms.filterMap Message.response?).map BlockResponse.id

def refusedIds (served : List (BlockRequest × Option Refusal)) : List UInt64 :=
  (served.filter (·.2.isSome)).map (·.1.id)

def grantedIds (served : List (BlockRequest × Option Refusal)) : List UInt64 :=
  (served.filter (·.2.isNone)).map (·.1.id)

section Ids

variable (ms : List Message) (r : BlockRequest) (x : BlockResponse)
  (served : List (BlockRequest × Option Refusal)) (c : Refusal)

theorem requestIds_cons_request : requestIds (.request r :: ms) = r.id :: requestIds ms := rfl

theorem requestIds_append_request : requestIds (ms ++ [.request r]) = requestIds ms ++ [r.id] := by
  simp [requestIds, Message.request?]

theorem responseIds_cons_response : responseIds (.response x :: ms) = x.id :: responseIds ms := rfl

theorem responseIds_append_request : responseIds (ms ++ [.request r]) = responseIds ms := by
  simp [responseIds, Message.response?]

theorem responseIds_append_response :
    responseIds (ms ++ [.response x]) = responseIds ms ++ [x.id] := by
  simp [responseIds, Message.response?]

theorem refusedIds_append_granted : refusedIds (served ++ [(r, none)]) = refusedIds served := by
  simp [refusedIds]

theorem refusedIds_append_refused :
    refusedIds (served ++ [(r, some c)]) = refusedIds served ++ [r.id] := by
  simp [refusedIds]

theorem grantedIds_append_granted :
    grantedIds (served ++ [(r, none)]) = grantedIds served ++ [r.id] := by
  simp [grantedIds]

theorem grantedIds_append_refused :
    grantedIds (served ++ [(r, some c)]) = grantedIds served := by
  simp [grantedIds]

end Ids

/-! ## What a trader does -/

/-- One of two nodes that ask each other for blocks: what it has outstanding, its messages to the
other one that are in flight, oldest first, the requests that it has sent, the requests of the other
one with their refusals, and the responses that it has handed over or not asked for. -/
structure Trader where
  requests : Outstanding
  inFlight : List Message
  asked : List BlockRequest
  served : List (BlockRequest × Option Refusal)
  heard : List BlockResponse
  unsolicited : Nat

namespace Trader

def start : Trader := ⟨.empty, [], [], [], [], 0⟩

/-- The trader asks the other one, whose peer id is given, for blocks. -/
def ask (p : PeerId) (r : BlockRequest) (e : Trader) : Trader :=
  if e.requests.has r.id then e
  else
    { e with
      requests := e.requests.put r.id ⟨some p, some r.start⟩
      inFlight := e.inFlight ++ [.request r]
      asked := e.asked ++ [r] }

/-- The trader asks for the blocks that it wants next, if any. -/
def followUp (p : PeerId) (next : Option BlockRequest) (e : Trader) : Trader :=
  match next with
  | some r => e.ask p r
  | none => e

/-- The trader answers a request or refuses it. -/
def serve (r : BlockRequest) (result : Except Refusal BlockResponse) (e : Trader) : Trader :=
  match result with
  | .ok x =>
    { e with inFlight := e.inFlight ++ [.response x], served := e.served ++ [(r, none)] }
  | .error c => { e with served := e.served ++ [(r, some c)] }

/-- The trader takes in a response, after which it may want more blocks. -/
def hear (p : PeerId) (x : BlockResponse) (next : Option BlockRequest) (e : Trader) : Trader :=
  if e.requests.has x.id then
    { e with requests := (e.requests.remove x.id).2, heard := e.heard ++ [x] }.followUp p next
  else { e with unsolicited := e.unsolicited + 1 }

/-- The trader takes in a message of the other one. -/
def receive (p : PeerId) (serves : BlockRequest → Except Refusal BlockResponse)
    (next : BlockResponse → Option BlockRequest) (m : Message) (e : Trader) : Trader :=
  match m with
  | .request r => e.serve r (serves r)
  | .response x => e.hear p x (next x)
  | _ => e

/-- The oldest message of the trader arrives. -/
def pass (rest : List Message) (e : Trader) : Trader := { e with inFlight := rest }

/-! ## What traders owe each other -/

/-- Each outstanding request of the one trader has the id of exactly one of these: a request in
flight, a request that the other one has refused, a response in flight back. What the other one was
asked so far, and what it has answered, has arrived in order. -/
structure Fair (p : PeerId) (e f : Trader) : Prop where
  owed : ∀ id, (requestIds e.inFlight).count id + (refusedIds f.served).count id +
    (responseIds f.inFlight).count id = (e.requests.has id).toNat
  peer : ∀ id entry, e.requests.get? id = some entry → entry.peer = some p
  served : f.served.map Prod.fst ++ e.inFlight.filterMap Message.request? = e.asked
  heard : e.heard.map BlockResponse.id ++ responseIds f.inFlight = grantedIds f.served
  unsolicited : e.unsolicited = 0

theorem Fair.start (p : PeerId) : Fair p start start where
  owed id := by simp [Trader.start, requestIds, responseIds, refusedIds, Outstanding.has_empty]
  peer id entry hentry := by
    rw [Trader.start, Outstanding.get?_empty] at hentry
    exact nomatch hentry
  served := rfl
  heard := rfl
  unsolicited := rfl

variable {p : PeerId} {e f e' f' : Trader}

theorem ask_of_has {r : BlockRequest} (h : e.requests.has r.id = true) : e.ask p r = e :=
  if_pos h

theorem ask_of_not_has {r : BlockRequest} (h : e.requests.has r.id = false) :
    e.ask p r =
      { e with
        requests := e.requests.put r.id ⟨some p, some r.start⟩
        inFlight := e.inFlight ++ [.request r]
        asked := e.asked ++ [r] } := by
  rw [ask, if_neg]
  rw [h]
  decide

/-- Of the other trader only what it was asked and what it sends back matters. -/
theorem Fair.of_other (h : Fair p e f) (hserved : f'.served = f.served)
    (hresponses : responseIds f'.inFlight = responseIds f.inFlight) : Fair p e f' where
  owed id := by
    rw [hserved, hresponses]
    exact h.owed id
  peer := h.peer
  served := by
    rw [hserved]
    exact h.served
  heard := by
    rw [hserved, hresponses]
    exact h.heard
  unsolicited := h.unsolicited

/-- Of the trader itself its answers to the other one do not matter. -/
theorem Fair.of_own (h : Fair p e f) (hrequests : e'.requests = e.requests)
    (hflight : e'.inFlight.filterMap Message.request? = e.inFlight.filterMap Message.request?)
    (hasked : e'.asked = e.asked) (hheard : e'.heard = e.heard)
    (hunsolicited : e'.unsolicited = e.unsolicited) : Fair p e' f where
  owed id := by
    rw [requestIds, hflight, hrequests]
    exact h.owed id
  peer := by
    rw [hrequests]
    exact h.peer
  served := by
    rw [hflight, hasked]
    exact h.served
  heard := by
    rw [hheard]
    exact h.heard
  unsolicited := hunsolicited.trans h.unsolicited

theorem Fair.ask (h : Fair p e f) (r : BlockRequest) : Fair p (e.ask p r) f := by
  cases hhas : e.requests.has r.id with
  | true =>
      rw [ask_of_has hhas]
      exact h
  | false =>
      rw [ask_of_not_has hhas]
      constructor
      · intro id
        have howed := h.owed id
        dsimp only
        rw [requestIds_append_request, List.count_append, List.count_singleton,
          Outstanding.has_put]
        -- Under the id of the request nothing was owed before.
        by_cases hid : r.id = id
        · subst hid
          rw [hhas, Bool.toNat_false] at howed
          simp only [BEq.rfl, if_true, decide_true, Bool.true_or, Bool.toNat_true]
          omega
        · simp only [beq_iff_eq, hid, if_false, decide_false, Bool.false_or]
          omega
      · intro id entry hentry
        rw [Outstanding.get?_put] at hentry
        split at hentry
        · rw [← Option.some.inj hentry]
        · exact h.peer id entry hentry
      · rw [← h.served]
        simp [Message.request?]
      · exact h.heard
      · exact h.unsolicited

theorem Fair.followUp (h : Fair p e f) (next : Option BlockRequest) :
    Fair p (e.followUp p next) f := by
  cases next with
  | none => exact h
  | some r => exact h.ask r

theorem served_ask (r : BlockRequest) : (e.ask p r).served = e.served := by
  rw [Trader.ask]
  split <;> rfl

theorem responseIds_ask (r : BlockRequest) :
    responseIds (e.ask p r).inFlight = responseIds e.inFlight := by
  rw [Trader.ask]
  split
  · rfl
  · exact responseIds_append_request e.inFlight r

theorem Fair.ask_other {q : PeerId} (h : Fair p e f) (r : BlockRequest) : Fair p e (f.ask q r) :=
  h.of_other (served_ask r) (responseIds_ask r)

theorem Fair.followUp_other {q : PeerId} (h : Fair p e f) (next : Option BlockRequest) :
    Fair p e (f.followUp q next) := by
  cases next with
  | none => exact h
  | some r => exact h.ask_other r

/-- The oldest message is a request, and the other one answers it or refuses it. -/
theorem Fair.serve (h : Fair p e f) {r : BlockRequest} {rest : List Message}
    (hflight : e.inFlight = .request r :: rest) {result : Except Refusal BlockResponse}
    (hresult : ∀ x, result = .ok x → x.id = r.id) : Fair p (e.pass rest) (f.serve r result) := by
  have hasked : (f.served.map Prod.fst ++ [r]) ++ rest.filterMap Message.request? = e.asked := by
    rw [← h.served, hflight, List.append_assoc]
    rfl
  have howed := h.owed
  rw [hflight, requestIds_cons_request] at howed
  cases result with
  | ok x =>
      have hid := hresult x rfl
      constructor
      · intro id
        have howed := howed id
        rw [List.count_cons] at howed
        dsimp only [pass, Trader.serve]
        rw [refusedIds_append_granted, responseIds_append_response, hid, List.count_append,
          List.count_singleton]
        omega
      · exact h.peer
      · simpa [pass, Trader.serve] using hasked
      · dsimp only [pass, Trader.serve]
        rw [responseIds_append_response, grantedIds_append_granted, hid, ← h.heard,
          List.append_assoc]
      · exact h.unsolicited
  | error c =>
      constructor
      · intro id
        have howed := howed id
        rw [List.count_cons] at howed
        dsimp only [pass, Trader.serve]
        rw [refusedIds_append_refused, List.count_append, List.count_singleton]
        omega
      · exact h.peer
      · simpa [pass, Trader.serve] using hasked
      · dsimp only [pass, Trader.serve]
        rw [grantedIds_append_refused]
        exact h.heard
      · exact h.unsolicited

theorem Fair.serve_other (h : Fair p f e) {r : BlockRequest} {rest : List Message}
    (hflight : e.inFlight = .request r :: rest) (result : Except Refusal BlockResponse) :
    Fair p (f.serve r result) (e.pass rest) := by
  have hpassed : Fair p f (e.pass rest) := by
    refine h.of_other rfl ?_
    rw [hflight]
    rfl
  cases result with
  | ok x =>
      refine hpassed.of_own rfl ?_ rfl rfl rfl
      simp [Trader.serve, Message.request?]
  | error c => exact hpassed.of_own rfl rfl rfl rfl rfl

/-- The oldest message of the other one is a response. It has been asked for. -/
theorem Fair.hear (h : Fair p e f) {x : BlockResponse} {rest : List Message}
    (hflight : f.inFlight = .response x :: rest) (next : Option BlockRequest) :
    Fair p (e.hear p x next) (f.pass rest) := by
  have hids : responseIds f.inFlight = x.id :: responseIds rest := by
    rw [hflight, responseIds_cons_response]
  -- The response is in flight, so its id is owed, and nothing else is owed under this id.
  have hhas : e.requests.has x.id = true := by
    have howed := h.owed x.id
    rw [hids, List.count_cons_self] at howed
    cases hhas : e.requests.has x.id with
    | true => rfl
    | false =>
        rw [hhas, Bool.toNat_false] at howed
        omega
  rw [Trader.hear, if_pos hhas]
  refine Fair.followUp ?_ next
  constructor
  · intro id
    have howed := h.owed id
    rw [hids, List.count_cons] at howed
    dsimp only [pass]
    rw [Outstanding.has_remove]
    by_cases hid : x.id = id
    · subst hid
      simp only [hhas, BEq.rfl, if_true, Bool.toNat_true] at howed
      simp only [ne_eq, not_true_eq_false, decide_false, Bool.false_and, Bool.toNat_false]
      omega
    · simp only [beq_iff_eq, hid, if_false] at howed
      simp only [ne_eq, hid, not_false_eq_true, decide_true, Bool.true_and]
      omega
  · intro id entry hentry
    rw [Outstanding.get?_remove] at hentry
    split at hentry
    · exact nomatch hentry
    · exact h.peer id entry hentry
  · exact h.served
  · have hheard := h.heard
    rw [hids] at hheard
    simpa [pass] using hheard
  · exact h.unsolicited

theorem Fair.hear_other {q : PeerId} (h : Fair p f e) {x : BlockResponse} {rest : List Message}
    (hflight : f.inFlight = .response x :: rest) (next : Option BlockRequest) :
    Fair p (f.pass rest) (e.hear q x next) := by
  have hpassed : Fair p (f.pass rest) e := by
    refine h.of_own rfl ?_ rfl rfl rfl
    rw [hflight]
    rfl
  rw [Trader.hear]
  split
  · refine Fair.followUp_other ?_ next
    exact hpassed.of_other rfl rfl
  · exact hpassed.of_other rfl rfl

theorem Fair.receive {q : PeerId} (hef : Fair p e f) (hfe : Fair q f e) {m : Message}
    {rest : List Message} (hflight : e.inFlight = m :: rest) (hm : m.channel = .sync)
    {serves : BlockRequest → Except Refusal BlockResponse}
    (hserves : ∀ r x, serves r = .ok x → x.id = r.id)
    (next : BlockResponse → Option BlockRequest) :
    Fair p (e.pass rest) (f.receive q serves next m) ∧
      Fair q (f.receive q serves next m) (e.pass rest) := by
  cases m with
  | request r => exact ⟨hef.serve hflight (hserves r), hfe.serve_other hflight (serves r)⟩
  | response x => exact ⟨hef.hear_other hflight (next x), hfe.hear hflight (next x)⟩
  | handshake | announce | status | transactions => exact nomatch hm

/-- Nothing is owed twice, and nothing but what is outstanding is owed. -/
theorem Fair.nodup (h : Fair p e f) :
    (requestIds e.inFlight ++ refusedIds f.served ++ responseIds f.inFlight).Nodup := by
  rw [List.nodup_iff_count_le_one]
  intro id
  rw [List.count_append, List.count_append, h.owed]
  exact Bool.toNat_le _

theorem Fair.peer?_iff (h : Fair p e f) (id : UInt64) :
    e.requests.peer? id = some p ↔
      id ∈ requestIds e.inFlight ++ refusedIds f.served ++ responseIds f.inFlight := by
  rw [← List.count_pos_iff, List.count_append, List.count_append, h.owed,
    Outstanding.peer?, Outstanding.has]
  cases hentry : e.requests.get? id with
  | none => simp
  | some entry => simp [h.peer id entry hentry]

/-! ## What is in flight -/

/-- All messages in flight are of some sort. -/
def Carries (P : Message → Prop) (e : Trader) : Prop := ∀ m ∈ e.inFlight, P m

variable {P : Message → Prop}

theorem Carries.start : start.Carries P := nofun

theorem Carries.push (h : e.Carries P) {m : Message} (hm : P m)
    (hflight : e'.inFlight = e.inFlight ++ [m]) : e'.Carries P := by
  intro m' hm'
  rw [hflight, List.mem_append, List.mem_singleton] at hm'
  rcases hm' with hm' | rfl
  · exact h m' hm'
  · exact hm

theorem Carries.pass (h : e.Carries P) {m : Message} {rest : List Message}
    (hflight : e.inFlight = m :: rest) : (e.pass rest).Carries P := by
  intro m' hm'
  have hmem : m' ∈ e.inFlight := by
    rw [hflight]
    exact List.mem_cons_of_mem m hm'
  exact h m' hmem

theorem Carries.ask (h : e.Carries P) {r : BlockRequest} (hr : P (.request r)) :
    (e.ask p r).Carries P := by
  rw [Trader.ask]
  split
  · exact h
  · exact h.push hr rfl

theorem Carries.receive (h : e.Carries P) {serves : BlockRequest → Except Refusal BlockResponse}
    {next : BlockResponse → Option BlockRequest} (hserves : ∀ r x, serves r = .ok x → P (.response x))
    (hnext : ∀ x r, next x = some r → P (.request r)) (m : Message) :
    (e.receive p serves next m).Carries P := by
  cases m with
  | request r =>
      rw [Trader.receive]
      cases hresult : serves r with
      | ok x => exact h.push (hserves r x hresult) rfl
      | error c => exact h
  | response x =>
      rw [Trader.receive, hear]
      split
      · cases hwanted : next x with
        | none => exact h
        | some r =>
            refine Carries.ask ?_ (hnext x r hwanted)
            exact h
      · exact h
  | handshake | announce | status | transactions => exact h

end Trader

end ChainPeer
