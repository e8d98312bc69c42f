import ChainPeer.Proofs.Line
import Mathlib.Logic.Function.Basic

/-!
# Two nodes and the payloads between them

Two nodes that send each other payloads on one channel. What one of them sends waits in a queue until
the other one takes it in, oldest first. A step concerns the site of one node only, so what holds of
each node is shown for the one that takes the step and for the other one as it was.
-/

namespace ChainPeer

/-- Two nodes: how they are known, their settings and their worlds. -/
structure Duo (σ : Side → Type) where
  peer : Side → PeerId
  config : Side → Config
  world : (i : Side) → World (σ i)

/-- The sites of two nodes, and the number of payloads of each node that the other one has taken
in. -/
structure DuoState (σ : Side → Type) where
  site : (i : Side) → Site (σ i × List Event)
  taken : Side → Nat

variable {σ : Side → Type}

/-- A node has come to another site. -/
def DuoState.put (i : Side) (s : Site (σ i × List Event)) (st : DuoState σ) : DuoState σ where
  site := Function.update st.site i s
  taken := st.taken

namespace Duo

variable (D : Duo σ) (c : Channel)

/-- The payloads of a node that the other one has not yet taken in, oldest first. -/
def queue (st : DuoState σ) (i : Side) : List Bytes :=
  ((st.site i).sentTo (D.peer i.other) c).drop (st.taken i)

/-- A payload of a node is taken in by the other one. -/
def deliver (i : Side) (payload : Bytes) (st : DuoState σ) : DuoState σ where
  site := Function.update st.site i.other
    ((st.site i.other).onPayload (D.world i.other).traced c (D.peer i) payload).2
  taken := Function.update st.taken i (st.taken i + 1)

/-- Two nodes with their settings that have not done anything. -/
structure Fresh (st : DuoState σ) : Prop where
  config : ∀ i, (st.site i).node.config = D.config i
  trace : ∀ i, (st.site i).world.2 = []
  taken : ∀ i, st.taken i = 0

end Duo

section Sides

variable {P : (i : Side) → Site (σ i × List Event) → Nat → Prop} {st : DuoState σ} {i : Side}

theorem DuoState.forall_put {s : Site (σ i × List Event)} (hi : P i s (st.taken i))
    (hother : P i.other (st.site i.other) (st.taken i.other)) (j : Side) :
    P j ((st.put i s).site j) ((st.put i s).taken j) := by
  have hself : (st.put i s).site i = s := Function.update_self ..
  have hkept : (st.put i s).site i.other = st.site i.other :=
    Function.update_of_ne i.other_ne ..
  refine Side.forall_of (P := fun j => P j ((st.put i s).site j) (st.taken j)) i ?_ ?_ j
  · rw [hself]
    exact hi
  · rw [hkept]
    exact hother

/-- The one node stays at its site while its payload is taken off its queue, and the other one comes
to the site after the payload. -/
theorem Duo.forall_deliver {D : Duo σ} {c : Channel} {payload : Bytes}
    (hi : P i (st.site i) (st.taken i + 1))
    (hother : P i.other
      ((st.site i.other).onPayload (D.world i.other).traced c (D.peer i) payload).2
      (st.taken i.other)) (j : Side) :
    P j ((D.deliver c i payload st).site j) ((D.deliver c i payload st).taken j) := by
  have hkept : (D.deliver c i payload st).site i = st.site i :=
    Function.update_of_ne i.other_ne.symm ..
  have htold : (D.deliver c i payload st).site i.other =
      ((st.site i.other).onPayload (D.world i.other).traced c (D.peer i) payload).2 :=
    Function.update_self ..
  have htaken : (D.deliver c i payload st).taken i = st.taken i + 1 := Function.update_self ..
  have huntaken : (D.deliver c i payload st).taken i.other = st.taken i.other :=
    Function.update_of_ne i.other_ne ..
  refine Side.forall_of (P := fun j =>
    P j ((D.deliver c i payload st).site j) ((D.deliver c i payload st).taken j)) i ?_ ?_ j
  · rw [hkept, htaken]
    exact hi
  · rw [htold, huntaken]
    exact hother

end Sides

/-- Where a queue holds the payloads of messages, the oldest one is that of the first message. -/
theorem Message.exists_of_payloads {queue : List Bytes} {flight : List Message} {payload : Bytes}
    {rest : List Bytes} (hflight : queue = flight.map Message.payload)
    (hqueue : queue = payload :: rest) :
    ∃ m ms, flight = m :: ms ∧ m.payload = payload := by
  obtain ⟨m, ms, hm, hpayload, -⟩ := List.map_eq_cons_iff.1 (hflight.symm.trans hqueue)
  exact ⟨m, ms, hm, hpayload⟩

end ChainPeer
