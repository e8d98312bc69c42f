import ChainPeer.Proofs.Traffic
import Mathlib.Algebra.Group.Nat.Defs

/-!
# Conduits

One peer sends to another on a protocol for as long as they stay connected, neither of their
endpoints closes and the streams are read. Whatever else a fabric is asked to do meanwhile, for
other peers or on other protocols, leaves the way from the one to the other and its streams as they
are.
-/

namespace ChainPeer

/-- Two connected peers with their endpoints, a protocol on which the one sends to the other, what
becomes there of the streams on it, and how many streams there were when they were connected. -/
structure Conduit where
  sender : PeerId
  receiver : PeerId
  source : Nat
  target : Nat
  protocol : Protocol
  reception : Reception
  since : Nat

namespace Conduit

open Fabric (Act)

variable {c : Conduit} {f f' f'' : Fabric} {act : Act} {i k : Nat} {a b p : PeerId}

def lane (c : Conduit) : Lane := ⟨c.source, c.receiver, c.protocol⟩

/-- A payload that the reader of a stream takes. -/
def Fits (c : Conduit) (payload : Bytes) : Prop :=
  payload.length ≤ Fabric.frameLimit c.reception ∧ payload.length < 2 ^ 64

instance : DecidablePred c.Fits := fun _ => inferInstanceAs (Decidable (_ ∧ _))

/-- A stream of the conduit that is still open, or was opened since the peers were connected. -/
def Carries (c : Conduit) (k : Nat) (pipe : Pipe) : Prop :=
  pipe.lane = c.lane ∧ (c.since ≤ k ∨ pipe.isOpen = true)

/-- The peers have just been connected, and were not before. -/
structure Joins (c : Conduit) (f : Fabric) : Prop where
  joined : ∃ f₀ : Fabric, f₀.Grown ∧ f₀.Dials f ∧ c.receiver ∉ (f₀.endpoint c.source).connected
  connected : c.receiver ∈ (f.endpoint c.source).connected
  source : f.directory[c.sender]? = some c.source
  target : f.directory[c.receiver]? = some c.target
  registered : (f.endpoint c.target).receptions[c.protocol]? = some c.reception
  reads : c.reception ≠ .drop
  since : c.since = f.pipes.length

/-- The act neither disconnects the peers nor closes one of their endpoints, does not change what
becomes of the streams, and sends nothing that is too long for their reader, who is not gone
either. -/
def Spares (c : Conduit) (f : Fabric) : Act → Prop
  | .disconnect a b => ¬ (a = c.sender ∧ b = c.receiver) ∧ ¬ (a = c.receiver ∧ b = c.sender)
  | .close i => i ≠ c.source ∧ i ≠ c.target
  | .accept i protocol _ => ¬ (i = c.target ∧ protocol = c.protocol)
  | .abandon k => ∀ pipe, f.pipes[k]? = some pipe → ¬ c.Carries k pipe
  | .send lane payload => lane = c.lane → c.Fits payload
  | _ => True

/-- The traffic since the peers were connected, for as long as the acts spare the conduit. -/
inductive Lasts (c : Conduit) (f : Fabric) : Traffic → Prop where
  | start : Lasts c f { fabric := f }
  | step {t : Traffic} (h : Lasts c f t) (act : Act) (hspares : c.Spares t.fabric act) :
      Lasts c f (t.step act)

/-! ## What does not disturb a conduit -/

/-- A payload can be sent from the one endpoint to the other. -/
structure Way (c : Conduit) (f : Fabric) : Prop where
  source : f.directory[c.sender]? = some c.source
  target : f.directory[c.receiver]? = some c.target
  isOpen : (f.endpoint c.source).isClosed = false
  connected : c.receiver ∈ (f.endpoint c.source).connected
  registered : (f.endpoint c.target).receptions[c.protocol]? = some c.reception

/-- From the one fabric to the other, nothing happens to the conduit and its streams. -/
structure Undisturbed (c : Conduit) (f f' : Fabric) : Prop where
  way : c.Way f → c.Way f'
  length_le : f.pipes.length ≤ f'.pipes.length
  carried : ∀ k pipe, c.Carries k pipe → (f'.pipes[k]? = some pipe ↔ f.pipes[k]? = some pipe)

theorem Undisturbed.refl (c : Conduit) (f : Fabric) : c.Undisturbed f f :=
  ⟨id, Nat.le_refl _, fun _ _ _ => Iff.rfl⟩

theorem Undisturbed.trans (h : c.Undisturbed f f') (h' : c.Undisturbed f' f'') :
    c.Undisturbed f f'' where
  way hway := h'.way (h.way hway)
  length_le := Nat.le_trans h.length_le h'.length_le
  carried k pipe hcarries := (h'.carried k pipe hcarries).trans (h.carried k pipe hcarries)

/-- From the one fabric to the other, nothing changes but the streams and what is queued. -/
structure Streams (f f' : Fabric) : Prop where
  endpoints : f'.endpoints = f.endpoints
  directory : f'.directory = f.directory
  length_le : f.pipes.length ≤ f'.pipes.length

theorem Way.streams (h : c.Way f) (hs : Streams f f') : c.Way f' := by
  constructor
  · rw [hs.directory]
    exact h.source
  · rw [hs.directory]
    exact h.target
  · rw [Fabric.endpoint_congr hs.endpoints]
    exact h.isOpen
  · rw [Fabric.endpoint_congr hs.endpoints]
    exact h.connected
  · rw [Fabric.endpoint_congr hs.endpoints]
    exact h.registered

theorem Streams.undisturbed (hs : Streams f f') (hcarried : ∀ k pipe, c.Carries k pipe →
    (f'.pipes[k]? = some pipe ↔ f.pipes[k]? = some pipe)) : c.Undisturbed f f' :=
  ⟨fun h => h.streams hs, hs.length_le, hcarried⟩

theorem undisturbed_requeue (c : Conduit) (f : Fabric) (notices : List Notice)
    (tasks : List Task) : c.Undisturbed f (f.requeue notices tasks) :=
  Streams.undisturbed ⟨rfl, rfl, Nat.le_refl _⟩ fun _ _ _ => Iff.rfl

theorem undisturbed_update {g : Endpoint → Endpoint}
    (hclosed : i = c.source → ∀ e, (g e).isClosed = e.isClosed)
    (hconnected : i = c.source → ∀ e, c.receiver ∈ e.connected → c.receiver ∈ (g e).connected)
    (hreceptions : i = c.target →
      ∀ e, (g e).receptions[c.protocol]? = e.receptions[c.protocol]?) :
    c.Undisturbed f (f.update i g) where
  way h := by
    constructor
    · exact h.source
    · exact h.target
    · rw [Fabric.endpoint_update]
      split
      · next hi =>
        rw [hclosed hi.1]
        exact h.isOpen
      · exact h.isOpen
    · rw [Fabric.endpoint_update]
      split
      · next hi => exact hconnected hi.1 _ h.connected
      · exact h.connected
    · rw [Fabric.endpoint_update]
      split
      · next hi =>
        rw [hreceptions hi.1]
        exact h.registered
      · exact h.registered
  length_le := Nat.le_refl _
  carried _ _ _ := Iff.rfl

theorem undisturbed_link (c : Conduit) (f : Fabric) (i : Nat) (p : PeerId) (address : Multiaddr) :
    c.Undisturbed f (f.link i p address) := by
  obtain ⟨notices, tasks, hlink⟩ := f.link_eq i p address
  rw [hlink]
  refine Undisturbed.trans ?_ (undisturbed_requeue c _ notices tasks)
  apply undisturbed_update
  · exact fun _ _ => rfl
  · exact fun _ e h => Std.ExtTreeSet.mem_insert.2 (.inr h)
  · exact fun _ _ => rfl

theorem undisturbed_part (hne : ¬ (i = c.source ∧ p = c.receiver)) :
    c.Undisturbed f (f.part i p) := by
  rcases f.part_eq i p with hsame | ⟨notices, tasks, hpart⟩
  · rw [hsame]
    exact .refl c f
  · rw [hpart]
    refine Undisturbed.trans ?_ (undisturbed_requeue c _ notices tasks)
    apply undisturbed_update
    · exact fun _ _ => rfl
    · intro hi e h
      have hp : ¬ p = c.receiver := fun hp => hne ⟨hi, hp⟩
      simpa [hp] using h
    · exact fun _ _ => rfl

theorem undisturbed_connect (c : Conduit) (f : Fabric) (a b : PeerId) :
    c.Undisturbed f (f.connect a b).2 := by
  rcases f.connect_cases a b with ⟨e, hsame⟩ | ⟨i, j, x, y, -, -, -, -, hconnect⟩
  · rw [hsame]
    exact .refl c f
  · rw [hconnect]
    exact (undisturbed_link c f i b x).trans (undisturbed_link c _ j a y)

theorem undisturbed_bootstrap (c : Conduit) (f : Fabric) (i : Nat) :
    c.Undisturbed f (f.bootstrap i) := by
  have hfold : ∀ (a : PeerId) (peers : List PeerId) (f : Fabric),
      c.Undisturbed f (peers.foldl (fun f p => (f.connect a p).2) f) := by
    intro a peers
    induction peers with
    | nil => exact fun f => .refl c f
    | cons p peers ih => exact fun f => (undisturbed_connect c f a p).trans (ih _)
  exact hfold _ _ f

/-- Streams of other lanes may be let go. -/
theorem undisturbed_release {selects : Pipe → Bool}
    (hother : ∀ pipe, selects pipe = true → pipe.lane ≠ c.lane) :
    c.Undisturbed f (f.release selects) := by
  obtain ⟨tasks, hrelease⟩ := f.exists_release selects
  rw [hrelease]
  apply Streams.undisturbed
  · exact ⟨rfl, rfl, Nat.le_of_eq (List.length_map _).symm⟩
  · intro k pipe hcarries
    dsimp only
    rw [List.getElem?_map, Option.map_eq_some_iff]
    have hkept : ∀ old : Pipe, old.lane = c.lane →
        (if selects old then { old with isOpen := false } else old) = old := by
      intro old hold
      exact if_neg fun hselects => hother old hselects hold
    constructor
    · rintro ⟨old, hold, rfl⟩
      have hlane : old.lane = c.lane := by
        have hlane := hcarries.1
        split at hlane <;> exact hlane
      rw [hkept old hlane]
      exact hold
    · exact fun hpipe => ⟨pipe, hpipe, hkept pipe hcarries.1⟩

theorem undisturbed_disconnect (hsound : f.Sound) (hway : c.Way f)
    (hforth : ¬ (a = c.sender ∧ b = c.receiver)) (hback : ¬ (a = c.receiver ∧ b = c.sender)) :
    c.Undisturbed f (f.disconnect a b) := by
  rcases f.disconnect_cases a b with ⟨-, hsame⟩ | ⟨i, j, ha, hb, hdisconnect⟩
  · rw [hsame]
    exact .refl c f
  · -- An endpoint has only one peer, so only the two peers could let go of the streams.
    have hi : ¬ (i = c.source ∧ b = c.receiver) := by
      rintro ⟨rfl, rfl⟩
      exact hforth ⟨hsound.eq_of_directory ha hway.source, rfl⟩
    have hj : ¬ (j = c.source ∧ a = c.receiver) := by
      rintro ⟨rfl, rfl⟩
      exact hback ⟨rfl, hsound.eq_of_directory hb hway.source⟩
    have hother : ∀ {n : Nat} {q : PeerId}, ¬ (n = c.source ∧ q = c.receiver) →
        ∀ pipe : Pipe, (pipe.sender = n && pipe.peer = q : Bool) = true →
          pipe.lane ≠ c.lane := by
      intro n q hne pipe hselects hlane
      obtain ⟨hsender, hpeer, -⟩ := Lane.mk.inj hlane
      obtain ⟨hn, hq⟩ : pipe.sender = n ∧ pipe.peer = q := by simpa using hselects
      exact hne ⟨hn.symm.trans hsender, hq.symm.trans hpeer⟩
    rw [hdisconnect]
    exact (((undisturbed_release (hother hi)).trans (undisturbed_release (hother hj))).trans
      (undisturbed_part hi)).trans (undisturbed_part hj)

/-- An endpoint that is not of the conduit disconnects from peers one after the other. -/
theorem undisturbed_disconnect_all (hsound : f.Sound) (hway : c.Way f) (hsender : a ≠ c.sender)
    (hreceiver : a ≠ c.receiver) (peers : List PeerId) :
    c.Undisturbed f (peers.foldl (fun f p => f.disconnect a p) f) := by
  induction peers generalizing f with
  | nil => exact .refl c f
  | cons p peers ih =>
      have hnext : c.Undisturbed f (f.disconnect a p) :=
        undisturbed_disconnect hsound hway (fun h => hsender h.1) (fun h => hreceiver h.1)
      exact hnext.trans (ih (hsound.disconnect a p) (hnext.way hway))

theorem undisturbed_close (hsound : f.Sound) (hway : c.Way f) (hsource : i ≠ c.source)
    (htarget : i ≠ c.target) : c.Undisturbed f (f.close i) := by
  unfold Fabric.close
  dsimp only
  split
  · exact .refl c f
  · let begun := f.update i ({ · with isClosed := true })
    have hbegun : c.Undisturbed f begun :=
      undisturbed_update (fun h => absurd h hsource) (fun h => absurd h hsource) fun _ _ => rfl
    have hsound' : begun.Sound := by
      apply hsound.update <;>
      exact fun _ => rfl
    have hparted : c.Undisturbed begun ((begun.connected i).foldl
        (fun g p => g.disconnect (f.endpoint i).peer p) begun) := by
      by_cases hi : i < f.endpoints.length
      · have hown : f.directory[(f.endpoint i).peer]? = some i := (hsound.listed _ i).2 ⟨hi, rfl⟩
        apply undisturbed_disconnect_all hsound' (hbegun.way hway)
        · intro hpeer
          rw [hpeer, hway.source] at hown
          exact hsource (Option.some.inj hown).symm
        · intro hpeer
          rw [hpeer, hway.target] at hown
          exact htarget (Option.some.inj hown).symm
      · have hnobody : begun.connected i = [] := by
          unfold Fabric.connected
          rw [Fabric.endpoint_of_length_le (by simpa [begun, Fabric.update] using hi)]
          rfl
        rw [hnobody]
        exact .refl c begun
    refine (hbegun.trans hparted).trans (undisturbed_release fun pipe hselects hlane => ?_)
    have hi : pipe.sender = i := by simpa using hselects
    exact hsource (hi.symm.trans (congrArg Lane.sender hlane))

theorem undisturbed_host (hsound : f.Sound) (hnew : f.directory[p]? = none) (watcher : Watcher) :
    c.Undisturbed f (f.host p watcher) where
  way h := by
    have hsource : (f.host p watcher).endpoint c.source = f.endpoint c.source := by
      rw [Fabric.endpoint_host, if_neg]
      exact Nat.ne_of_lt ((hsound.listed _ _).1 h.source).1
    have htarget : (f.host p watcher).endpoint c.target = f.endpoint c.target := by
      rw [Fabric.endpoint_host, if_neg]
      exact Nat.ne_of_lt ((hsound.listed _ _).1 h.target).1
    constructor
    · exact Fabric.directory_host_of_some hnew watcher h.source
    · exact Fabric.directory_host_of_some hnew watcher h.target
    · rw [hsource]
      exact h.isOpen
    · rw [hsource]
      exact h.connected
    · rw [htarget]
      exact h.registered
  length_le := Nat.le_refl _
  carried _ _ _ := Iff.rfl

/-- A stream may change that is not one of the conduit. -/
theorem undisturbed_touches (h : f.Touches k f')
    (hother : ∀ pipe, f.pipes[k]? = some pipe → ¬ c.Carries k pipe) : c.Undisturbed f f' := by
  cases h with
  | none hsame => exact hsame ▸ .refl c f
  | @one pipe pipe' tasks hset hpipe hlane hreceiver hopen =>
      subst hset
      have hold := hother pipe hpipe
      have hnew : ¬ c.Carries k pipe' := by
        rintro ⟨hlane', hlater⟩
        exact hold ⟨hlane.symm.trans hlane', hlater.imp_right hopen⟩
      apply Streams.undisturbed
      · exact ⟨rfl, rfl, Nat.le_of_eq (List.length_set ..).symm⟩
      · intro n other hcarries
        dsimp only
        by_cases hn : k = n
        · subst hn
          have hk := (List.getElem?_eq_some_iff.1 hpipe).1
          rw [List.getElem?_set_self hk, hpipe, Option.some.injEq, Option.some.injEq]
          apply iff_of_false
          · rintro rfl
            exact hnew hcarries
          · rintro rfl
            exact hold hcarries
        · rw [List.getElem?_set_ne hn]

theorem undisturbed_append {pipe : Pipe} {notices : List Notice} {tasks : List Task}
    (hother : pipe.lane ≠ c.lane) :
    c.Undisturbed f { f with pipes := f.pipes ++ [pipe], notices, tasks } := by
  apply Streams.undisturbed
  · refine ⟨rfl, rfl, ?_⟩
    rw [List.length_append]
    exact Nat.le_add_right ..
  · intro n other hcarries
    dsimp only
    rw [List.getElem?_append]
    split
    · exact Iff.rfl
    · next hn =>
      apply iff_of_false
      · intro hsome
        have hmem := List.mem_of_getElem? hsome
        rw [List.mem_singleton.1 hmem] at hcarries
        exact hother hcarries.1
      · rw [List.getElem?_eq_none (Nat.not_lt.1 hn)]
        nofun

/-- The act is neither to send on the lane nor to read one of the streams of the conduit. -/
def Passes (c : Conduit) (f : Fabric) : Act → Prop
  | .send lane _ => lane ≠ c.lane
  | .read k => ∀ pipe, f.pipes[k]? = some pipe → ¬ c.Carries k pipe
  | _ => True

theorem undisturbed_send {lane : Lane} (hother : lane ≠ c.lane) (payload : Bytes) :
    c.Undisturbed f (f.send lane.sender lane.peer lane.protocol payload).2 := by
  rcases f.send_cases lane payload with hsame | ⟨g, k, pipe, hpipe, hlane, hsend, hopened⟩
  · rw [hsame]
    exact .refl c f
  · have hne : pipe.lane ≠ c.lane := hlane ▸ hother
    have hbefore : c.Undisturbed f g := by
      rcases hopened with rfl | ⟨notices, tasks, rfl⟩
      · exact .refl c g
      · exact undisturbed_append hne
    rw [hsend]
    refine hbefore.trans (undisturbed_touches (g.touches_write k payload) ?_)
    intro pipe' hpipe' hcarries
    obtain rfl : pipe = pipe' := Option.some.inj (hpipe.symm.trans hpipe')
    exact hne hcarries.1

theorem undisturbed_perform (hsound : f.Sound) (hway : c.Way f) (hspares : c.Spares f act)
    (hpasses : c.Passes f act) : c.Undisturbed f (f.perform act) := by
  cases act with
  | host p watcher =>
      change c.Undisturbed f (if f.directory[p]?.isSome then f else f.host p watcher)
      split
      · exact .refl c f
      · next hnew => exact undisturbed_host hsound (Option.not_isSome_iff_eq_none.1 hnew) watcher
  | watch i watcher =>
      apply undisturbed_update
      · exact fun _ _ => rfl
      · exact fun _ _ h => h
      · exact fun _ _ => rfl
  | accept i protocol reception =>
      apply undisturbed_update
      · exact fun _ _ => rfl
      · exact fun _ _ h => h
      · intro hi e
        have hne : ¬ protocol = c.protocol := fun h => hspares ⟨hi, h⟩
        simp [Std.ExtTreeMap.getElem?_insert, hne]
  | setBootstrap i addresses =>
      apply undisturbed_update
      · exact fun _ _ => rfl
      · exact fun _ _ h => h
      · exact fun _ _ => rfl
  | connect a b => exact undisturbed_connect c f a b
  | disconnect a b => exact undisturbed_disconnect hsound hway hspares.1 hspares.2
  | bootstrap i => exact undisturbed_bootstrap c f i
  | close i => exact undisturbed_close hsound hway hspares.1 hspares.2
  | send lane payload => exact undisturbed_send hpasses payload
  | read k => exact undisturbed_touches (f.touches_take k) hpasses
  | abandon k => exact undisturbed_touches (f.touches_abandon k) hspares
  | settle notices tasks => exact undisturbed_requeue c f notices tasks

end Conduit

end ChainPeer
