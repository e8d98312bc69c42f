import ChainPeer.Proofs.Fabric
import Mathlib.Data.List.Chain

/-!
# Connections in a fabric

Whatever the endpoints of a fabric are asked to do, both ends of a connection agree, only connected
peers hold streams to each other, a closed endpoint has neither, and the watchers of an endpoint
learn in turn that a peer is connected and that it is not.
-/

namespace ChainPeer

/-- Changes of a connection that take turns, of which the first one establishes it and the last one
tells whether it is there. -/
structure Alternates (changes : List Bool) (now : Prop) : Prop where
  chain : changes.IsChain (· ≠ ·)
  first : ∀ c ∈ changes.head?, c = true
  last : changes.getLast? = some true ↔ now

theorem Alternates.nil : Alternates [] False :=
  ⟨.nil, nofun, by simp⟩

theorem Alternates.of_iff {changes : List Bool} {now now' : Prop} (h : Alternates changes now)
    (hnow : now ↔ now') : Alternates changes now' :=
  ⟨h.chain, h.first, h.last.trans hnow⟩

theorem Alternates.append {changes : List Bool} {before : Prop} (h : Alternates changes before)
    {c : Bool} (hc : ¬ (before ↔ c = true)) : Alternates (changes ++ [c]) (c = true) := by
  constructor
  · apply List.isChain_append.2
    refine ⟨h.chain, List.isChain_singleton c, fun x hx y hy => ?_⟩
    obtain rfl := Option.some.inj hy
    rw [Option.mem_def] at hx
    have hlast := h.last
    rw [hx, Option.some.injEq] at hlast
    rintro rfl
    exact hc hlast.symm
  · cases changes with
    | nil =>
        intro x hx
        obtain rfl := Option.some.inj hx
        have hbefore : ¬ before := fun hnow => nomatch h.last.2 hnow
        simpa [hbefore] using hc
    | cons x changes => exact h.first
  · rw [List.getLast?_append, List.getLast?_singleton]
    simp

namespace Fabric

variable {f f' g : Fabric} {told : List Notice} {i j k : Nat} {a b p q : PeerId} {now : Bool}

/-- Every peer has one endpoint, and somebody watches it. -/
structure Registered (f : Fabric) : Prop where
  listed : ∀ p i, f.directory[p]? = some i ↔ i < f.endpoints.length ∧ (f.endpoint i).peer = p
  watched : ∀ i < f.endpoints.length, (f.endpoint i).watcher ≠ .nobody

/-- Connections have two ends. -/
def Paired (f : Fabric) : Prop :=
  ∀ i q, q ∈ (f.endpoint i).connected →
    ∃ j, f.directory[q]? = some j ∧ (f.endpoint i).peer ∈ (f.endpoint j).connected

/-- With the notices that were passed on before, the notices tell of all changes. -/
def Recorded (told : List Notice) (f : Fabric) : Prop :=
  ∀ i q, Alternates (told.filterMap (Notice.change? i q) ++ f.changes i q)
    (q ∈ (f.endpoint i).connected)

/-- Nobody is connected to a closed endpoint. -/
def Shut (f : Fabric) : Prop :=
  ∀ i q, (f.endpoint i).isClosed = true → q ∉ (f.endpoint i).connected

/-- What holds at any time, also while an endpoint is about to close. -/
structure Coherent (told : List Notice) (f : Fabric) : Prop where
  registered : f.Registered
  paired : f.Paired
  proper : f.Proper
  recorded : f.Recorded told

theorem Registered.alike (h : f.Registered) (ha : f.Alike f') : f'.Registered where
  listed p i := by
    rw [ha.directory, ha.length, ha.peer]
    exact h.listed p i
  watched i hi := by
    rw [ha.watcher]
    exact h.watched i (ha.length ▸ hi)

theorem Registered.lt (h : f.Registered) (hp : f.directory[p]? = some i) :
    i < f.endpoints.length := ((h.listed p i).1 hp).1

theorem Registered.peer (h : f.Registered) (hp : f.directory[p]? = some i) :
    (f.endpoint i).peer = p := ((h.listed p i).1 hp).2

theorem Recorded.shifts (h : f.Recorded told) (hs : f.Shifts i p now f') : f'.Recorded told := by
  intro k q
  rw [hs.changes, ← List.append_assoc]
  have hkq := h k q
  by_cases hend : i = k ∧ p = q
  · obtain ⟨rfl, rfl⟩ := hend
    have hnow : p ∈ (f'.endpoint i).connected ↔ now = true := by
      rw [hs.connected, if_pos ⟨rfl, rfl⟩]
    split
    · next hnew => exact (hkq.append hnew.2.2).of_iff hnow.symm
    · next hsame =>
      have hbefore : p ∈ (f.endpoint i).connected ↔ now = true := by
        by_contra hnew
        exact hsame ⟨rfl, rfl, hnew⟩
      rw [List.append_nil]
      exact hkq.of_iff (hbefore.trans hnow.symm)
  · have hother := hs.connected k q
    rw [if_neg hend] at hother
    rw [if_neg fun hnew => hend ⟨hnew.1, hnew.2.1⟩, List.append_nil]
    exact hkq.of_iff hother.symm

theorem Coherent.calm (h : f.Coherent told) (hq : f.Calm f') : f'.Coherent told where
  registered := h.registered.alike hq.toAlike
  paired i q hmem := by
    rw [hq.connected] at hmem
    obtain ⟨j, hj, hback⟩ := h.paired i q hmem
    refine ⟨j, ?_, ?_⟩
    · rw [hq.directory]
      exact hj
    · rw [hq.peer, hq.connected]
      exact hback
  proper := hq.proper h.proper
  recorded i q := by
    rw [hq.changes, hq.connected]
    exact h.recorded i q

/-- From the one fabric to the other, connections are only taken back. -/
structure Dwindles (f f' : Fabric) : Prop where
  directory : f'.directory = f.directory
  isClosed : ∀ k, (f'.endpoint k).isClosed = (f.endpoint k).isClosed
  connected : ∀ k q, q ∈ (f'.endpoint k).connected → q ∈ (f.endpoint k).connected

theorem Dwindles.refl (f : Fabric) : f.Dwindles f := ⟨rfl, fun _ => rfl, fun _ _ hmem => hmem⟩

theorem Dwindles.trans (h : f.Dwindles g) (h' : g.Dwindles f') : f.Dwindles f' where
  directory := h'.directory.trans h.directory
  isClosed k := (h'.isClosed k).trans (h.isClosed k)
  connected k q hmem := h.connected k q (h'.connected k q hmem)

theorem Quiet.dwindles (h : f.Quiet f') : f.Dwindles f' :=
  ⟨h.directory, h.isClosed, fun k _ hmem => h.connected k ▸ hmem⟩

theorem Shut.dwindles (h : f.Shut) (hd : f.Dwindles f') : f'.Shut := by
  intro k q hclosed hmem
  rw [hd.isClosed] at hclosed
  exact h k q hclosed (hd.connected k q hmem)

/-! ## Connecting -/

theorem Coherent.link (h : f.Coherent told) (ha : f.directory[a]? = some i)
    (hb : f.directory[b]? = some j) (hi : f.Shifts i b true g) (hj : g.Shifts j a true f') :
    f'.Coherent told := by
  have halike : f.Alike f' := hi.toAlike.trans hj.toAlike
  have hconnected : ∀ k q, q ∈ (f'.endpoint k).connected ↔
      (j = k ∧ a = q) ∨ (i = k ∧ b = q) ∨ q ∈ (f.endpoint k).connected := by
    intro k q
    rw [hj.mem_connected_true, hi.mem_connected_true]
  constructor
  · exact h.registered.alike halike
  · intro k q hmem
    rw [halike.directory, halike.peer]
    rcases (hconnected k q).1 hmem with ⟨rfl, rfl⟩ | ⟨rfl, rfl⟩ | hold
    · refine ⟨i, ha, (hconnected i _).2 (.inr (.inl ⟨rfl, ?_⟩))⟩
      exact (h.registered.peer hb).symm
    · refine ⟨j, hb, (hconnected j _).2 (.inl ⟨rfl, ?_⟩)⟩
      exact (h.registered.peer ha).symm
    · obtain ⟨n, hn, hback⟩ := h.paired k q hold
      exact ⟨n, hn, (hconnected n _).2 (.inr (.inr hback))⟩
  · intro pipe hpipe hopen
    rw [hj.pipes, hi.pipes] at hpipe
    obtain ⟨hmem, hreceiver⟩ := h.proper pipe hpipe hopen
    refine ⟨(hconnected _ _).2 (.inr (.inr hmem)), ?_⟩
    rw [halike.directory]
    exact hreceiver
  · exact (h.recorded.shifts hi).shifts hj

/-- Connecting two peers either does nothing, or sets both ends if none of them is closed. -/
theorem Registered.connect_cases (h : f.Registered) (a b : PeerId) :
    (f.connect a b).2 = f ∨ ∃ i j g, f.directory[a]? = some i ∧ f.directory[b]? = some j ∧
      (f.endpoint i).isClosed = false ∧ (f.endpoint j).isClosed = false ∧
      f.Shifts i b true g ∧ g.Shifts j a true (f.connect a b).2 := by
  rcases f.connect_cases a b with ⟨e, hsame⟩ | ⟨i, j, x, y, ha, hb, hopen, hopen', hconnect⟩
  · exact .inl (congrArg Prod.snd hsame)
  · have hi := h.lt ha
    have hfirst := shifts_link hi (h.watched i hi) b x
    have hj : j < (f.link i b x).endpoints.length := hfirst.length ▸ h.lt hb
    have hwatched : ((f.link i b x).endpoint j).watcher ≠ .nobody := by
      rw [hfirst.watcher]
      exact h.watched j (h.lt hb)
    refine .inr ⟨i, j, _, ha, hb, hopen, hopen', hfirst, ?_⟩
    rw [hconnect]
    exact shifts_link hj hwatched a y

theorem Coherent.connect (h : f.Coherent told) (a b : PeerId) :
    (f.connect a b).2.Coherent told := by
  rcases h.registered.connect_cases a b with hsame | ⟨i, j, g, ha, hb, -, -, hi, hj⟩
  · rw [hsame]
    exact h
  · exact h.link ha hb hi hj

theorem Shut.connect (h : f.Shut) (hf : f.Registered) (a b : PeerId) :
    (f.connect a b).2.Shut := by
  rcases hf.connect_cases a b with hsame | ⟨i, j, g, -, -, hopen, hopen', hi, hj⟩
  · rw [hsame]
    exact h
  · intro k q hclosed hmem
    rw [hj.isClosed, hi.isClosed] at hclosed
    rw [hj.mem_connected_true, hi.mem_connected_true] at hmem
    rcases hmem with ⟨rfl, -⟩ | ⟨rfl, -⟩ | hold
    · rw [hopen'] at hclosed
      exact nomatch hclosed
    · rw [hopen] at hclosed
      exact nomatch hclosed
    · exact h k q hclosed hold

theorem Coherent.bootstrap (h : f.Coherent told) (hshut : f.Shut) (i : Nat) :
    (f.bootstrap i).Coherent told ∧ (f.bootstrap i).Shut := by
  have hfold : ∀ (a : PeerId) (peers : List PeerId) (f : Fabric), f.Coherent told → f.Shut →
      (peers.foldl (fun f p => (f.connect a p).2) f).Coherent told ∧
        (peers.foldl (fun f p => (f.connect a p).2) f).Shut := by
    intro a peers
    induction peers with
    | nil => exact fun f h hshut => ⟨h, hshut⟩
    | cons p peers ih =>
        exact fun f h hshut => ih _ (h.connect a p) (hshut.connect h.registered a p)
  exact hfold _ _ f h hshut

/-! ## Disconnecting -/

theorem disconnect_cases (f : Fabric) (a b : PeerId) :
    ((f.directory[a]? = none ∨ f.directory[b]? = none) ∧ f.disconnect a b = f) ∨
      ∃ i j, f.directory[a]? = some i ∧ f.directory[b]? = some j ∧
        f.disconnect a b =
          (((f.release fun pipe => pipe.sender = i && pipe.peer = b).release
            fun pipe => pipe.sender = j && pipe.peer = a).part i b).part j a := by
  unfold disconnect
  split
  · next i j ha hb => exact .inr ⟨i, j, ha, hb, rfl⟩
  · next hnone =>
    refine .inl ⟨?_, rfl⟩
    cases ha : f.directory[a]? with
    | none => exact .inl rfl
    | some i =>
        cases hb : f.directory[b]? with
        | none => exact .inr rfl
        | some j => exact absurd hb (hnone i j ha)

/-- Disconnecting two peers sets both ends once the pipes between them are let go. -/
theorem Coherent.disconnect_shifts (h : f.Coherent told) (ha : f.directory[a]? = some i)
    (hb : f.directory[b]? = some j) : ∃ g g',
      f.Quiet g ∧
      (∀ pipe ∈ g.pipes, pipe.isOpen = true →
        ¬ (pipe.sender = i ∧ pipe.peer = b) ∧ ¬ (pipe.sender = j ∧ pipe.peer = a)) ∧
      g.Shifts i b false g' ∧ g'.Shifts j a false (f.disconnect a b) := by
  rcases f.disconnect_cases a b with ⟨hnone, -⟩ | ⟨i', j', ha', hb', hdisconnect⟩
  · rw [ha, hb] at hnone
    rcases hnone with hnone | hnone <;> exact nomatch hnone
  · obtain rfl : i = i' := Option.some.inj (ha.symm.trans ha')
    obtain rfl : j = j' := Option.some.inj (hb.symm.trans hb')
    let g := (f.release fun pipe => pipe.sender = i && pipe.peer = b).release
      fun pipe => pipe.sender = j && pipe.peer = a
    have hquiet : f.Quiet g := (quiet_release _ _).trans (quiet_release _ _)
    have hg : g.Registered := h.registered.alike hquiet.toAlike
    have hfirst := shifts_part (hg.watched i) b
    have hsecond := shifts_part ((hg.alike hfirst.toAlike).watched j) a
    refine ⟨g, _, hquiet, fun pipe hpipe hopen => ?_, hfirst, ?_⟩
    · obtain ⟨hpipe, hright⟩ := mem_pipes_release hpipe hopen
      obtain ⟨-, hleft⟩ := mem_pipes_release hpipe hopen
      exact ⟨by simpa using hleft, by simpa using hright⟩
    · rw [hdisconnect]
      exact hsecond

theorem Coherent.unlink (h : f.Coherent told) (ha : f.directory[a]? = some i)
    (hb : f.directory[b]? = some j)
    (hpipes : ∀ pipe ∈ f.pipes, pipe.isOpen = true →
      ¬ (pipe.sender = i ∧ pipe.peer = b) ∧ ¬ (pipe.sender = j ∧ pipe.peer = a))
    (hi : f.Shifts i b false g) (hj : g.Shifts j a false f') : f'.Coherent told := by
  have halike : f.Alike f' := hi.toAlike.trans hj.toAlike
  have hconnected : ∀ k q, q ∈ (f'.endpoint k).connected ↔
      ¬ (j = k ∧ a = q) ∧ ¬ (i = k ∧ b = q) ∧ q ∈ (f.endpoint k).connected := by
    intro k q
    rw [hj.mem_connected_false, hi.mem_connected_false]
  constructor
  · exact h.registered.alike halike
  · intro k q hmem
    obtain ⟨hright, hleft, hold⟩ := (hconnected k q).1 hmem
    obtain ⟨n, hn, hback⟩ := h.paired k q hold
    have hk : f.directory[(f.endpoint k).peer]? = some k :=
      (h.registered.listed _ _).2 ⟨lt_of_mem_connected hold, rfl⟩
    rw [halike.directory, halike.peer]
    -- If the other end was taken back, so was this one: a peer has only one endpoint.
    refine ⟨n, hn, (hconnected n _).2 ⟨?_, ?_, hback⟩⟩
    · rintro ⟨rfl, rfl⟩
      refine hleft ⟨Option.some.inj (ha.symm.trans hk), ?_⟩
      exact (h.registered.peer hb).symm.trans (h.registered.peer hn)
    · rintro ⟨rfl, rfl⟩
      refine hright ⟨Option.some.inj (hb.symm.trans hk), ?_⟩
      exact (h.registered.peer ha).symm.trans (h.registered.peer hn)
  · intro pipe hpipe hopen
    rw [hj.pipes, hi.pipes] at hpipe
    obtain ⟨hmem, hreceiver⟩ := h.proper pipe hpipe hopen
    obtain ⟨hleft, hright⟩ := hpipes pipe hpipe hopen
    refine ⟨(hconnected _ _).2 ⟨fun hends => ?_, fun hends => ?_, hmem⟩, ?_⟩
    · exact hright ⟨hends.1.symm, hends.2.symm⟩
    · exact hleft ⟨hends.1.symm, hends.2.symm⟩
    · rw [halike.directory]
      exact hreceiver
  · exact (h.recorded.shifts hi).shifts hj

/-- Disconnecting two peers takes connections back, that of the two among them. -/
theorem Coherent.disconnect (h : f.Coherent told) (a b : PeerId) :
    (f.disconnect a b).Coherent told ∧ f.Dwindles (f.disconnect a b) ∧
      ∀ i, f.directory[a]? = some i → b ∉ ((f.disconnect a b).endpoint i).connected := by
  rcases f.disconnect_cases a b with ⟨hnone, hsame⟩ | ⟨i, j, ha, hb, -⟩
  · rw [hsame]
    refine ⟨h, .refl f, fun i ha hmem => ?_⟩
    obtain ⟨j, hb, -⟩ := h.paired i b hmem
    rw [ha, hb] at hnone
    rcases hnone with hnone | hnone <;> exact nomatch hnone
  · obtain ⟨g, g', hquiet, hpipes, hi, hj⟩ := h.disconnect_shifts ha hb
    have hg := h.calm hquiet.toCalm
    rw [← hquiet.directory] at ha hb
    have hconnected : ∀ k q, q ∈ ((f.disconnect a b).endpoint k).connected ↔
        ¬ (j = k ∧ a = q) ∧ ¬ (i = k ∧ b = q) ∧ q ∈ (f.endpoint k).connected := by
      intro k q
      rw [hj.mem_connected_false, hi.mem_connected_false, hquiet.connected]
    refine ⟨hg.unlink ha hb hpipes hi hj, ⟨?_, fun k => ?_, fun k q hmem => ?_⟩,
      fun k hk hmem => ?_⟩
    · rw [hj.directory, hi.directory, hquiet.directory]
    · rw [hj.isClosed, hi.isClosed, hquiet.isClosed]
    · exact ((hconnected k q).1 hmem).2.2
    · rw [← hquiet.directory] at hk
      exact ((hconnected k b).1 hmem).2.1 ⟨Option.some.inj (ha.symm.trans hk), rfl⟩

/-! ## Closing -/

/-- An endpoint that disconnects from peers one after the other. -/
theorem Coherent.disconnect_all (h : f.Coherent told) (ha : f.directory[a]? = some i)
    (peers : List PeerId) :
    let f' := peers.foldl (fun f p => f.disconnect a p) f
    f'.Coherent told ∧ f.Dwindles f' ∧ ∀ p ∈ peers, p ∉ (f'.endpoint i).connected := by
  induction peers generalizing f with
  | nil => exact ⟨h, .refl f, fun p hp => absurd hp List.not_mem_nil⟩
  | cons p peers ih =>
      obtain ⟨hnext, hfewer, hgone⟩ := h.disconnect a p
      have hp := hgone i ha
      rw [← hfewer.directory] at ha
      obtain ⟨hlast, hfewer', hgone'⟩ := ih hnext ha
      refine ⟨hlast, hfewer.trans hfewer', List.forall_mem_cons.2 ⟨fun hmem => ?_, hgone'⟩⟩
      exact hp (hfewer'.connected i p hmem)

theorem Coherent.close (h : f.Coherent told) (hshut : f.Shut) (hi : i < f.endpoints.length) :
    (f.close i).Coherent told ∧ (f.close i).Shut := by
  rw [Fabric.close]
  dsimp only
  split
  · exact ⟨h, hshut⟩
  · -- An endpoint that is about to close may still be connected, until it has disconnected.
    let begun := f.update i ({ · with isClosed := true })
    have hbegun : f.Calm begun := by
      apply calm_update <;>
      exact fun _ => rfl
    have hown : begun.directory[(f.endpoint i).peer]? = some i :=
      (h.registered.listed _ _).2 ⟨hi, rfl⟩
    obtain ⟨hparted, hfewer, hgone⟩ :=
      (h.calm hbegun).disconnect_all hown (begun.connected i)
    let parted := (begun.connected i).foldl (fun g p => g.disconnect (f.endpoint i).peer p) begun
    have hreleased : parted.Quiet (parted.release fun pipe => pipe.sender = i) := quiet_release _ _
    have hdwindles := hfewer.trans hreleased.dwindles
    refine ⟨hparted.calm hreleased.toCalm, fun k q hclosed hmem => ?_⟩
    have hbefore : q ∈ (begun.endpoint k).connected := hdwindles.connected k q hmem
    by_cases hk : i = k
    · subst hk
      have hlisted : q ∈ begun.connected i := Std.ExtTreeSet.mem_toList.2 hbefore
      exact hgone q hlisted (hreleased.connected i ▸ hmem)
    · have hother : begun.endpoint k = f.endpoint k := by
        rw [endpoint_update, if_neg fun h => hk h.1]
      rw [hdwindles.isClosed] at hclosed
      rw [hother] at hclosed hbefore
      exact hshut k q hclosed hbefore

/-! ## Adding endpoints -/

/-- Adds an endpoint for a peer that is watched from the start. -/
def host (f : Fabric) (p : PeerId) (watcher : Watcher) : Fabric :=
  (f.add p).2.watch (f.add p).1 watcher

theorem endpoint_host (f : Fabric) (p : PeerId) (watcher : Watcher) (k : Nat) :
    (f.host p watcher).endpoint k =
      if k = f.endpoints.length then { peer := p, port := f.ports + 1, watcher }
      else f.endpoint k := by
  have hadd : (f.add p).2.endpoint k =
      if k = f.endpoints.length then { peer := p, port := f.ports + 1 } else f.endpoint k := by
    simp only [add, reservePort, endpoint, List.getD_eq_getElem?_getD]
    rcases Nat.lt_trichotomy k f.endpoints.length with hk | hk | hk
    · rw [List.getElem?_append_left hk, if_neg (by omega)]
    · subst hk
      simp
    · rw [if_neg (by omega), List.getElem?_eq_none (by simp; omega),
        List.getElem?_eq_none (by omega)]
  unfold host watch
  rw [endpoint_update, hadd]
  by_cases hk : k = f.endpoints.length
  · subst hk
    simp [add, reservePort]
  · rw [if_neg hk, if_neg hk, if_neg fun h => hk h.1.symm]

theorem connected_host (f : Fabric) (p : PeerId) (watcher : Watcher) (k : Nat) :
    ((f.host p watcher).endpoint k).connected = (f.endpoint k).connected := by
  rw [endpoint_host]
  split
  · next hk =>
    rw [endpoint_of_length_le (by omega)]
    rfl
  · rfl

theorem directory_host (f : Fabric) (p : PeerId) (watcher : Watcher) (q : PeerId) :
    (f.host p watcher).directory[q]? =
      if p = q then some f.endpoints.length else f.directory[q]? := by
  have hinsert : (f.host p watcher).directory = f.directory.insert p f.endpoints.length := rfl
  rw [hinsert, Std.ExtTreeMap.getElem?_insert]
  simp

theorem length_host (f : Fabric) (p : PeerId) (watcher : Watcher) :
    (f.host p watcher).endpoints.length = f.endpoints.length + 1 := by
  simp [host, watch, update, add, reservePort]

theorem directory_host_of_some (hnew : f.directory[p]? = none) (watcher : Watcher)
    (hq : f.directory[q]? = some i) : (f.host p watcher).directory[q]? = some i := by
  rw [directory_host, if_neg]
  · exact hq
  · rintro rfl
    rw [hnew] at hq
    exact nomatch hq

theorem listed_host
    (h : ∀ p i, f.directory[p]? = some i ↔ i < f.endpoints.length ∧ (f.endpoint i).peer = p)
    (hnew : f.directory[p]? = none) (watcher : Watcher) (q : PeerId) (k : Nat) :
    (f.host p watcher).directory[q]? = some k ↔
      k < (f.host p watcher).endpoints.length ∧ ((f.host p watcher).endpoint k).peer = q := by
  rw [directory_host, length_host, endpoint_host]
  have hlisted := h q k
  split
  · next hq =>
    subst hq
    rw [hnew] at hlisted
    split
    · next hk =>
      subst hk
      simp
    · next hk =>
      constructor
      · exact fun h => absurd (Option.some.inj h).symm hk
      · exact fun h => nomatch hlisted.2 ⟨by omega, h.2⟩
  · next hq =>
    split
    · next hk =>
      subst hk
      constructor
      · exact fun h => absurd (hlisted.1 h).1 (by omega)
      · exact fun h => absurd h.2 hq
    · next hk =>
      rw [hlisted]
      constructor
      · exact fun h => ⟨by omega, h.2⟩
      · exact fun h => ⟨by omega, h.2⟩

theorem Proper.host (h : f.Proper) (hnew : f.directory[p]? = none) (watcher : Watcher) :
    (f.host p watcher).Proper := by
  intro pipe hpipe hopen
  obtain ⟨hmem, hreceiver⟩ := h pipe hpipe hopen
  refine ⟨?_, directory_host_of_some hnew watcher hreceiver⟩
  rw [connected_host]
  exact hmem

theorem Registered.host (h : f.Registered) (hnew : f.directory[p]? = none) {watcher : Watcher}
    (hwatcher : watcher ≠ .nobody) : (f.host p watcher).Registered where
  listed := listed_host h.listed hnew watcher
  watched k hk := by
    rw [endpoint_host]
    rw [length_host] at hk
    split
    · exact hwatcher
    · exact h.watched k (by omega)

theorem Coherent.host (h : f.Coherent told) (hnew : f.directory[p]? = none) {watcher : Watcher}
    (hwatcher : watcher ≠ .nobody) : (f.host p watcher).Coherent told := by
  constructor
  · exact h.registered.host hnew hwatcher
  · intro k q hmem
    rw [connected_host] at hmem
    obtain ⟨n, hn, hback⟩ := h.paired k q hmem
    have hk := lt_of_mem_connected hmem
    refine ⟨n, directory_host_of_some hnew watcher hn, ?_⟩
    rw [connected_host, endpoint_host, if_neg (by omega)]
    exact hback
  · exact h.proper.host hnew watcher
  · intro k q
    rw [connected_host]
    exact h.recorded k q

theorem Shut.host (h : f.Shut) (p : PeerId) (watcher : Watcher) : (f.host p watcher).Shut := by
  intro k q hclosed
  rw [connected_host]
  rw [endpoint_host] at hclosed
  split at hclosed
  · exact nomatch hclosed
  · exact h k q hclosed

/-! ## Runs -/

/-- A fabric and the notices passed on so far, after endpoints were added for different peers, each
watched from the start, and the network and the endpoints were asked to do things, one after the
other. Meanwhile the streams are read and the tasks are worked off in any way. -/
inductive Reachable : List Notice → Fabric → Prop where
  | empty : Reachable [] .empty
  | host {told : List Notice} {f : Fabric} {p : PeerId} {watcher : Watcher}
      (h : Reachable told f) (hnew : f.directory[p]? = none) (hwatcher : watcher ≠ .nobody) :
      Reachable told (f.host p watcher)
  | accept {told : List Notice} {f : Fabric} (h : Reachable told f) (i : Nat)
      (protocol : Protocol) (reception : Reception) :
      Reachable told (f.accept i protocol reception)
  | setBootstrap {told : List Notice} {f : Fabric} (h : Reachable told f) (i : Nat)
      (addresses : List Multiaddr) : Reachable told (f.setBootstrap i addresses)
  | connect {told : List Notice} {f : Fabric} (h : Reachable told f) (a b : PeerId) :
      Reachable told (f.connect a b).2
  | disconnect {told : List Notice} {f : Fabric} (h : Reachable told f) (a b : PeerId) :
      Reachable told (f.disconnect a b)
  | bootstrap {told : List Notice} {f : Fabric} (h : Reachable told f) (i : Nat) :
      Reachable told (f.bootstrap i)
  | send {told : List Notice} {f : Fabric} (h : Reachable told f) (i : Nat) (p : PeerId)
      (protocol : Protocol) (payload : Bytes) : Reachable told (f.send i p protocol payload).2
  | close {told : List Notice} {f : Fabric} {i : Nat} (h : Reachable told f)
      (hi : i < f.endpoints.length) : Reachable told (f.close i)
  | read {told : List Notice} {f : Fabric} (h : Reachable told f) (k : Nat) (unread : Bytes)
      (reader : Option Reception) :
      Reachable told { f with pipes := f.pipes.modify k fun pipe => { pipe with unread, reader } }
  | work {told : List Notice} {f : Fabric} (h : Reachable told f) (tasks : List Task) :
      Reachable told { f with tasks }
  | passOn {told : List Notice} {f : Fabric} (h : Reachable told f) :
      Reachable (told ++ f.notices) { f with notices := [] }

theorem coherent_empty : empty.Coherent [] ∧ empty.Shut := by
  have hconnected : ∀ k q, q ∉ (empty.endpoint k).connected := fun k q hmem =>
    absurd (lt_of_mem_connected hmem) (Nat.not_lt_zero k)
  refine ⟨⟨⟨fun p k => ?_, fun k hk => absurd hk (Nat.not_lt_zero k)⟩,
    fun k q hmem => absurd hmem (hconnected k q), fun pipe hpipe => absurd hpipe List.not_mem_nil,
    fun k q => ?_⟩, fun k q _ => hconnected k q⟩
  · constructor
    · exact fun h => by simp [empty] at h
    · exact fun h => absurd h.1 (Nat.not_lt_zero k)
  · exact Alternates.nil.of_iff (iff_of_false id (hconnected k q))

theorem Reachable.coherent (h : Reachable told f) : f.Coherent told ∧ f.Shut := by
  have hquiet : ∀ {told f f'}, Coherent told f ∧ f.Shut → f.Quiet f' →
      Coherent told f' ∧ f'.Shut :=
    fun hf hq => ⟨hf.1.calm hq.toCalm, hf.2.dwindles hq.dwindles⟩
  induction h with
  | empty => exact coherent_empty
  | host _ hnew hwatcher ih => exact ⟨ih.1.host hnew hwatcher, ih.2.host _ _⟩
  | accept _ i protocol reception ih => exact hquiet ih (quiet_accept _ i protocol reception)
  | setBootstrap _ i addresses ih => exact hquiet ih (quiet_setBootstrap _ i addresses)
  | connect _ a b ih => exact ⟨ih.1.connect a b, ih.2.connect ih.1.registered a b⟩
  | disconnect _ a b ih =>
      obtain ⟨hcoherent, hfewer, -⟩ := ih.1.disconnect a b
      exact ⟨hcoherent, ih.2.dwindles hfewer⟩
  | bootstrap _ i ih => exact ih.1.bootstrap ih.2 i
  | send _ i p protocol payload ih => exact hquiet ih (quiet_send _ i p protocol payload)
  | close _ hi ih => exact ih.1.close ih.2 hi
  | read _ k unread reader ih => exact hquiet ih (quiet_read _ k unread reader)
  | work _ tasks ih => exact hquiet ih (quiet_tasks _ tasks)
  | passOn _ ih =>
      refine ⟨⟨⟨ih.1.registered.listed, ih.1.registered.watched⟩, ih.1.paired, ih.1.proper,
        fun k q => ?_⟩, ih.2⟩
      have hrecorded := ih.1.recorded k q
      rw [List.filterMap_append]
      exact (List.append_nil _).symm ▸ hrecorded

/-- Both ends of a connection agree; open streams lead to connected peers; a closed endpoint is not
connected, and no stream leads from or to it; and what the owner of an endpoint was and will be told
of a peer takes turns, from the first connection to whether there is one now. -/
theorem Reachable.connections_agree (h : Reachable told f) :
    (∀ i j, i < f.endpoints.length → j < f.endpoints.length →
      ((f.endpoint j).peer ∈ (f.endpoint i).connected ↔
        (f.endpoint i).peer ∈ (f.endpoint j).connected)) ∧
      (∀ pipe ∈ f.pipes, pipe.isOpen = true →
        (f.endpoint pipe.receiver).peer = pipe.peer ∧
          pipe.peer ∈ (f.endpoint pipe.sender).connected) ∧
      (∀ i, (f.endpoint i).isClosed = true → (∀ q, q ∉ (f.endpoint i).connected) ∧
        ∀ pipe ∈ f.pipes, pipe.isOpen = true → pipe.sender ≠ i ∧ pipe.receiver ≠ i) ∧
      ∀ i q, Alternates ((told ++ f.notices).filterMap (Notice.change? i q))
        (q ∈ (f.endpoint i).connected) := by
  obtain ⟨hcoherent, hshut⟩ := h.coherent
  have hlisted := hcoherent.registered.listed
  have hback : ∀ i j, j < f.endpoints.length →
      (f.endpoint j).peer ∈ (f.endpoint i).connected →
      (f.endpoint i).peer ∈ (f.endpoint j).connected := by
    intro i j hj hmem
    obtain ⟨n, hn, hback⟩ := hcoherent.paired i _ hmem
    obtain rfl : j = n := Option.some.inj (((hlisted _ j).2 ⟨hj, rfl⟩).symm.trans hn)
    exact hback
  refine ⟨fun i j hi hj => ⟨hback i j hj, hback j i hi⟩, fun pipe hpipe hopen => ?_,
    fun i hclosed => ⟨fun q => hshut i q hclosed, fun pipe hpipe hopen => ?_⟩, fun i q => ?_⟩
  · obtain ⟨hmem, hreceiver⟩ := hcoherent.proper pipe hpipe hopen
    exact ⟨hcoherent.registered.peer hreceiver, hmem⟩
  · obtain ⟨hmem, hreceiver⟩ := hcoherent.proper pipe hpipe hopen
    obtain ⟨n, hn, hback⟩ := hcoherent.paired _ _ hmem
    obtain rfl : pipe.receiver = n := Option.some.inj (hreceiver.symm.trans hn)
    constructor
    · rintro rfl
      exact hshut _ _ hclosed hmem
    · rintro rfl
      exact hshut _ _ hclosed hback
  · rw [List.filterMap_append]
    exact hcoherent.recorded i q

def eastern : PeerId := ⟨.identity, [1]⟩

def western : PeerId := ⟨.identity, [2]⟩

def neighbours : Fabric := (empty.host eastern .log).host western .service

def parted : Fabric := (neighbours.connect eastern western).2.close 0

/-- The eastern endpoint closes after it was connected to the western one, which learns of both. -/
theorem connections_agree_of_parted :
    (parted.endpoint 0).isClosed = true ∧ (∀ q, q ∉ (parted.endpoint 0).connected) ∧
      eastern ∉ (parted.endpoint 1).connected ∧
      parted.notices.filterMap (Notice.change? 1 eastern) = [true, false] := by
  have heast : Reachable [] (empty.host eastern .log) :=
    .host .empty (by decide +kernel) (by decide)
  have hwest : Reachable [] neighbours := .host heast (by decide +kernel) (by decide)
  have hparted : Reachable [] parted := .close (.connect hwest eastern western) (by decide +kernel)
  obtain ⟨-, -, hclosed, halternates⟩ := hparted.connections_agree
  have hisClosed : (parted.endpoint 0).isClosed = true := by decide +kernel
  have hchanges : parted.notices.filterMap (Notice.change? 1 eastern) = [true, false] := by
    decide +kernel
  refine ⟨hisClosed, (hclosed 0 hisClosed).1, fun hmem => ?_, hchanges⟩
  have hlast := (halternates 1 eastern).last.2 hmem
  rw [List.nil_append, hchanges] at hlast
  exact nomatch hlast

end Fabric

end ChainPeer
