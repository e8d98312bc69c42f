import ChainPeer.Proofs.Connections

/-!
# Traffic in a fabric

What the owners of endpoints ask of a fabric, together with what was sent and what was read on the
way. Whatever is asked, whether or not anybody watches the connections, a peer has one endpoint and
an open stream leads to a connected peer.
-/

namespace ChainPeer

/-- Where streams go: from an endpoint to a peer on a protocol. -/
structure Lane where
  sender : Nat
  peer : PeerId
  protocol : Protocol
deriving DecidableEq

def Pipe.lane (pipe : Pipe) : Lane := ⟨pipe.sender, pipe.peer, pipe.protocol⟩

/-- A payload that was sent, and how that ended. -/
structure Sending where
  lane : Lane
  payload : Bytes
  result : Except TransportError Unit

namespace Fabric

/-- What a fabric may be asked to do. Also, a reader may read on or be gone, and what is queued may
be worked off in any way. -/
inductive Act where
  | host (p : PeerId) (watcher : Watcher)
  | watch (i : Nat) (watcher : Watcher)
  | accept (i : Nat) (protocol : Protocol) (reception : Reception)
  | setBootstrap (i : Nat) (addresses : List Multiaddr)
  | connect (a b : PeerId)
  | disconnect (a b : PeerId)
  | bootstrap (i : Nat)
  | close (i : Nat)
  | send (lane : Lane) (payload : Bytes)
  | read (k : Nat)
  | abandon (k : Nat)
  | settle (notices : List Notice) (tasks : List Task)

/-- The fabric with other notices and tasks queued. -/
def requeue (f : Fabric) (notices : List Notice) (tasks : List Task) : Fabric :=
  { f with notices, tasks }

/-- What an act makes of the fabric. A peer gets an endpoint only once. -/
def perform (f : Fabric) : Act → Fabric
  | .host p watcher => if f.directory[p]?.isSome then f else f.host p watcher
  | .watch i watcher => f.watch i watcher
  | .accept i protocol reception => f.accept i protocol reception
  | .setBootstrap i addresses => f.setBootstrap i addresses
  | .connect a b => (f.connect a b).2
  | .disconnect a b => f.disconnect a b
  | .bootstrap i => f.bootstrap i
  | .close i => f.close i
  | .send lane payload => (f.send lane.sender lane.peer lane.protocol payload).2
  | .read k => (f.take k).2
  | .abandon k => f.abandon k
  | .settle notices tasks => f.requeue notices tasks

/-- What an act sends. -/
def sendings (f : Fabric) : Act → List Sending
  | .send lane payload =>
    [⟨lane, payload, (f.send lane.sender lane.peer lane.protocol payload).1⟩]
  | _ => []

/-- The payload that an act reads, and off which pipe. -/
def readings (f : Fabric) : Act → List (Nat × Bytes)
  | .read k =>
    match (f.take k).1 with
    | some (.ok (some payload)) => [(k, payload)]
    | _ => []
  | _ => []

theorem lt_of_mem_readings {f : Fabric} {act : Act} {x : Nat × Bytes} (h : x ∈ f.readings act) :
    x.1 < f.pipes.length := by
  cases act with
  | read k =>
      unfold readings at h
      dsimp only at h
      split at h
      · next payload htake =>
        rw [List.mem_singleton.1 h]
        apply Nat.lt_of_not_le
        intro hk
        unfold take at htake
        rw [List.getElem?_eq_none hk] at htake
        exact nomatch htake
      · exact absurd h List.not_mem_nil
  | _ => exact absurd h List.not_mem_nil

end Fabric

/-- A fabric, with what was sent and what was read off which pipe since some time. -/
structure Traffic where
  fabric : Fabric
  sent : List Sending := []
  read : List (Nat × Bytes) := []

namespace Traffic

open Fabric (Act)

def step (t : Traffic) (act : Act) : Traffic where
  fabric := t.fabric.perform act
  sent := t.sent ++ t.fabric.sendings act
  read := t.read ++ t.fabric.readings act

/-- What was sent on a lane. -/
def sendings (t : Traffic) (lane : Lane) : List Sending := t.sent.filter (·.lane = lane)

/-- The payloads that were sent on a lane with success. -/
def accepted (t : Traffic) (lane : Lane) : List Bytes :=
  ((t.sendings lane).filter (·.result.isOk)).map Sending.payload

/-- The payloads that were read off a pipe. -/
def handed (t : Traffic) (k : Nat) : List Bytes := (t.read.filter (·.1 = k)).map Prod.snd

variable {t : Traffic}

theorem sendings_step (act : Act) (lane : Lane) :
    (t.step act).sendings lane =
      t.sendings lane ++ (t.fabric.sendings act).filter (·.lane = lane) :=
  List.filter_append ..

theorem handed_step (act : Act) (k : Nat) :
    (t.step act).handed k =
      t.handed k ++ ((t.fabric.readings act).filter (·.1 = k)).map Prod.snd := by
  unfold handed step
  rw [List.filter_append, List.map_append]

theorem accepted_congr {t' : Traffic} {lane : Lane} (h : t'.sendings lane = t.sendings lane) :
    t'.accepted lane = t.accepted lane := by
  unfold accepted
  rw [h]

section Send

variable {lane : Lane} {payload : Bytes}

theorem sendings_step_send
    (h : (t.fabric.send lane.sender lane.peer lane.protocol payload).1 = .ok ()) :
    (t.step (.send lane payload)).sendings lane =
      t.sendings lane ++ [⟨lane, payload, .ok ()⟩] := by
  have hsending : t.fabric.sendings (.send lane payload) = [⟨lane, payload, .ok ()⟩] := by
    unfold Fabric.sendings
    dsimp only
    rw [h]
  rw [sendings_step, hsending]
  simp

theorem accepted_step_send
    (h : (t.fabric.send lane.sender lane.peer lane.protocol payload).1 = .ok ()) :
    (t.step (.send lane payload)).accepted lane = t.accepted lane ++ [payload] := by
  unfold accepted
  rw [sendings_step_send h, List.filter_append, List.map_append]
  rfl

end Send

end Traffic

namespace Fabric

variable {f f' g : Fabric} {i j k : Nat} {a b p q : PeerId}

/-- The fabrics that acts lead to, from the one without endpoints. -/
def Grown (f : Fabric) : Prop := ∃ acts : List Act, f = acts.foldl perform empty

/-! ## One end of a connection, watched or not -/

theorem tell_eq (f : Fabric) (i : Nat) (e : ConnectionEvent) :
    ∃ notices tasks, f.tell i e = f.requeue notices tasks := by
  by_cases hwatcher : (f.endpoint i).watcher = .nobody
  · refine ⟨f.notices, f.tasks, ?_⟩
    unfold tell
    exact if_pos hwatcher
  · obtain ⟨tasks, htell⟩ := exists_tell hwatcher e
    exact ⟨_, tasks, htell⟩

theorem link_eq (f : Fabric) (i : Nat) (p : PeerId) (address : Multiaddr) :
    ∃ notices tasks, f.link i p address = (f.relink i (·.insert p)).requeue notices tasks := by
  unfold link join
  split
  · exact tell_eq _ i _
  · exact ⟨f.notices, f.tasks, rfl⟩

theorem part_eq (f : Fabric) (i : Nat) (p : PeerId) :
    f.part i p = f ∨
      ∃ notices tasks, f.part i p = (f.relink i (·.erase p)).requeue notices tasks := by
  unfold part
  split
  · exact .inr (tell_eq _ i _)
  · exact .inl rfl

theorem mem_connected_relink_insert (i : Nat) (p : PeerId) (h : q ∈ (f.endpoint k).connected) :
    q ∈ ((f.relink i (·.insert p)).endpoint k).connected := by
  unfold relink
  rw [endpoint_update]
  split
  · exact Std.ExtTreeSet.mem_insert.2 (.inr h)
  · exact h

theorem mem_connected_relink_erase (hne : ¬ (i = k ∧ p = q))
    (h : q ∈ (f.endpoint k).connected) :
    q ∈ ((f.relink i (·.erase p)).endpoint k).connected := by
  unfold relink
  rw [endpoint_update]
  split
  · next hk =>
    have hpq : ¬ p = q := fun hp => hne ⟨hk.1, hp⟩
    simpa [hpq] using h
  · exact h

/-- From the one fabric to the other, nothing changes but who is connected and what is queued. -/
structure Relinks (f f' : Fabric) : Prop where
  directory : f'.directory = f.directory
  pipes : f'.pipes = f.pipes
  length : f'.endpoints.length = f.endpoints.length
  isClosed : ∀ k, (f'.endpoint k).isClosed = (f.endpoint k).isClosed

theorem Relinks.refl (f : Fabric) : f.Relinks f :=
  ⟨rfl, rfl, rfl, fun _ => rfl⟩

theorem Relinks.trans (h : f.Relinks g) (h' : g.Relinks f') : f.Relinks f' where
  directory := h'.directory.trans h.directory
  pipes := h'.pipes.trans h.pipes
  length := h'.length.trans h.length
  isClosed k := (h'.isClosed k).trans (h.isClosed k)

theorem relinks_link (f : Fabric) (i : Nat) (p : PeerId) (address : Multiaddr) :
    f.Relinks (f.link i p address) := by
  obtain ⟨notices, tasks, hlink⟩ := link_eq f i p address
  have hrelink : f.Relinks (f.relink i (·.insert p)) :=
    ⟨rfl, rfl, (alike_relink f i _).length, isClosed_relink f i _⟩
  rw [hlink]
  exact ⟨rfl, rfl, hrelink.length, hrelink.isClosed⟩

theorem mem_connected_link (hi : i < f.endpoints.length) (p : PeerId) (address : Multiaddr) :
    q ∈ ((f.link i p address).endpoint k).connected ↔
      (i = k ∧ p = q) ∨ q ∈ (f.endpoint k).connected := by
  obtain ⟨notices, tasks, hlink⟩ := link_eq f i p address
  have hinsert : ∀ (s : Std.ExtTreeSet PeerId) (q : PeerId),
      q ∈ s.insert p ↔ if p = q then true = true else q ∈ s := by
    intro s q
    by_cases hq : p = q <;> simp [hq]
  rw [hlink]
  change q ∈ ((f.relink i (·.insert p)).endpoint k).connected ↔ _
  rw [mem_connected_relink hinsert hi]
  by_cases hkq : i = k ∧ p = q <;> simp [hkq]

/-! ## One stream -/

/-- From the one fabric to the other, no other pipe changes than one; it stays between the same
ends, and it is not open if it was not. -/
inductive Touches (k : Nat) (f f' : Fabric) : Prop where
  | none (hsame : f' = f)
  | one {pipe pipe' : Pipe} {tasks : List Task}
      (hset : f' = { f with pipes := f.pipes.set k pipe', tasks })
      (hpipe : f.pipes[k]? = some pipe) (hlane : pipe'.lane = pipe.lane)
      (hreceiver : pipe'.receiver = pipe.receiver)
      (hopen : pipe'.isOpen = true → pipe.isOpen = true)

theorem Touches.quiet (h : f.Touches k f') : f.Quiet f' := by
  cases h with
  | none hsame => exact hsame ▸ .refl f
  | one hset hpipe hlane hreceiver hopen =>
      subst hset
      obtain ⟨hsender, hpeer, -⟩ := Lane.mk.inj hlane
      exact (quiet_set hpipe hsender hreceiver hpeer hopen).trans (quiet_tasks _ _)

theorem touches_take (f : Fabric) (k : Nat) : f.Touches k (f.take k).2 := by
  unfold take
  split
  · exact .none rfl
  · next pipe hpipe =>
    split
    · exact .none rfl
    · exact .one rfl hpipe rfl rfl id

theorem touches_abandon (f : Fabric) (k : Nat) : f.Touches k (f.abandon k) := by
  unfold abandon
  cases hpipe : f.pipes[k]? with
  | none => exact .none (by rw [List.modify_eq_self (List.getElem?_eq_none_iff.1 hpipe)])
  | some pipe =>
      obtain ⟨hk, rfl⟩ := List.getElem?_eq_some_iff.1 hpipe
      have hset : f.pipes.modify k ({ · with reader := none }) =
          f.pipes.set k { f.pipes[k] with reader := none } := List.modify_eq_set_get _ hk
      rw [hset]
      exact .one rfl hpipe rfl rfl id

theorem touches_write (f : Fabric) (k : Nat) (payload : Bytes) :
    f.Touches k (f.write k payload).2 := by
  unfold write
  split
  · exact .none rfl
  · next pipe hpipe =>
    dsimp only
    split
    · exact .one rfl hpipe rfl rfl nofun
    · split
      all_goals
        dsimp only
        generalize hwritten : { f with pipes := f.pipes.set k _ } = g
        obtain ⟨tasks, hqueue⟩ := g.exists_queue (.read k)
        rw [hqueue, ← hwritten]
      · exact .one rfl hpipe rfl rfl id
      · exact .one rfl hpipe rfl rfl nofun

/-! ## Which stream is written to -/

theorem exists_of_pipe?_eq_some {protocol : Protocol} (h : f.pipe? i p protocol = some k) :
    ∃ pipe, f.pipes[k]? = some pipe ∧ pipe.isOpen = true ∧ pipe.lane = ⟨i, p, protocol⟩ := by
  obtain ⟨hk, hselects, -⟩ := List.findIdx?_eq_some_iff_getElem.1 h
  refine ⟨f.pipes[k], List.getElem?_eq_getElem hk, ?_⟩
  simpa [Pipe.lane, and_assoc] using hselects

theorem isOpen_of_pipe?_eq_none {pipe : Pipe} (hpipe : f.pipes[k]? = some pipe)
    (h : f.pipe? pipe.sender pipe.peer pipe.protocol = none) : pipe.isOpen = false := by
  have hselects := List.findIdx?_eq_none_iff.1 h pipe (List.mem_of_getElem? hpipe)
  simpa using hselects

theorem openPipe_eq {protocol : Protocol} {reception : Reception} (i : Nat)
    (hdirectory : f.directory[p]? = some j)
    (hreception : (f.endpoint j).receptions[protocol]? = some reception) :
    ∃ notices tasks, f.openPipe i p protocol = .ok (f.pipes.length, { f with
      pipes := f.pipes ++ [⟨i, j, p, protocol, reader? reception, [], true⟩]
      notices, tasks }) := by
  let pipe : Pipe := ⟨i, j, p, protocol, reader? reception, [], true⟩
  have hqueue : ∀ notices : List Notice, ∃ tasks,
      { f with pipes := f.pipes ++ [pipe], notices }.queue (.read f.pipes.length) =
        { f with pipes := f.pipes ++ [pipe], notices, tasks } :=
    fun notices => exists_queue _ _
  unfold openPipe
  simp only [hdirectory, hreception]
  cases reception with
  | service limit =>
      obtain ⟨tasks, hopened⟩ := hqueue f.notices
      exact ⟨_, tasks, congrArg (fun g => Except.ok (f.pipes.length, g)) hopened⟩
  | collect =>
      obtain ⟨tasks, hopened⟩ := hqueue (f.notices ++ [.opened j (f.endpoint i).peer protocol])
      exact ⟨_, tasks, congrArg (fun g => Except.ok (f.pipes.length, g)) hopened⟩
  | drop =>
      obtain ⟨tasks, hopened⟩ := hqueue (f.notices ++ [.opened j (f.endpoint i).peer protocol])
      exact ⟨_, tasks, congrArg (fun g => Except.ok (f.pipes.length, g)) hopened⟩

theorem exists_of_openPipe_eq_ok {protocol : Protocol} (h : f.openPipe i p protocol = .ok (k, f')) :
    ∃ j reception, f.directory[p]? = some j ∧
      (f.endpoint j).receptions[protocol]? = some reception := by
  unfold openPipe at h
  split at h
  · exact nomatch h
  · next j hj =>
    split at h
    · exact nomatch h
    · next reception hreception => exact ⟨j, reception, hj, hreception⟩

/-- A payload that is sent is refused, or written into a stream of its lane, which may have to be
opened before. -/
theorem send_cases (f : Fabric) (lane : Lane) (payload : Bytes) :
    (f.send lane.sender lane.peer lane.protocol payload).2 = f ∨
      ∃ g k pipe, g.pipes[k]? = some pipe ∧ pipe.lane = lane ∧
        (f.send lane.sender lane.peer lane.protocol payload).2 = (g.write k payload).2 ∧
        (g = f ∨ ∃ notices tasks, g = { f with pipes := f.pipes ++ [pipe], notices, tasks }) := by
  unfold send
  split
  · exact .inl rfl
  · split
    · exact .inl rfl
    · split
      · next k hk =>
        obtain ⟨pipe, hpipe, -, hlane⟩ := exists_of_pipe?_eq_some hk
        exact .inr ⟨f, k, pipe, hpipe, hlane, rfl, .inl rfl⟩
      · split
        · exact .inl rfl
        · next k g hopen =>
          obtain ⟨j, reception, hj, hreception⟩ := exists_of_openPipe_eq_ok hopen
          obtain ⟨notices, tasks, heq⟩ := openPipe_eq lane.sender hj hreception
          obtain ⟨rfl, rfl⟩ := Prod.mk.inj (Except.ok.inj (heq.symm.trans hopen))
          refine .inr ⟨_, f.pipes.length, _, ?_, rfl, rfl, .inr ⟨notices, tasks, rfl⟩⟩
          exact List.getElem?_concat_length

/-- A reader that admits a payload gets its frame. -/
theorem write_of_admits {pipe : Pipe} {reception : Reception} {payload : Bytes}
    (hpipe : f.pipes[k]? = some pipe) (hreader : pipe.reader = some reception)
    (hadmits : admits payload.length reception = true) :
    ∃ tasks, f.write k payload = (.ok (), { f with
      pipes := f.pipes.set k { pipe with unread := pipe.unread ++ Frame.encode payload }
      tasks }) := by
  unfold write
  rw [hpipe]
  dsimp only
  rw [hreader]
  dsimp only
  rw [if_pos (.inr hadmits)]
  obtain ⟨tasks, hqueue⟩ := exists_queue { f with
    pipes := f.pipes.set k { pipe with unread := pipe.unread ++ Frame.encode payload } } (.read k)
  exact ⟨tasks, congrArg (Prod.mk _) (hreader ▸ hqueue)⟩

/-! ## Endpoints and the streams between them -/

/-- A peer has one endpoint, and an open stream leads to a connected peer. -/
structure Sound (f : Fabric) : Prop where
  listed : ∀ p i, f.directory[p]? = some i ↔ i < f.endpoints.length ∧ (f.endpoint i).peer = p
  proper : f.Proper

theorem Sound.peer (h : f.Sound) (hp : f.directory[p]? = some i) : (f.endpoint i).peer = p :=
  ((h.listed p i).1 hp).2

theorem Sound.eq_of_directory (h : f.Sound) (hp : f.directory[p]? = some i)
    (hq : f.directory[q]? = some i) : p = q := (h.peer hp).symm.trans (h.peer hq)

theorem Sound.alike (h : f.Sound) (ha : f.Alike f') (hproper : f'.Proper) : f'.Sound where
  listed p i := by
    rw [ha.directory, ha.length, ha.peer]
    exact h.listed p i
  proper := hproper

theorem Sound.calm (h : f.Sound) (hc : f.Calm f') : f'.Sound :=
  h.alike hc.toAlike (hc.proper h.proper)

theorem Sound.update (h : f.Sound) {g : Endpoint → Endpoint} (hpeer : ∀ e, (g e).peer = e.peer)
    (hconnected : ∀ e, (g e).connected = e.connected) (i : Nat) : (f.update i g).Sound where
  listed p k := by
    have hlength : (f.update i g).endpoints.length = f.endpoints.length := List.length_modify ..
    rw [apply_endpoint_update hpeer, hlength]
    exact h.listed p k
  proper := h.proper.update hconnected i

theorem Sound.requeue (h : f.Sound) (notices : List Notice) (tasks : List Task) :
    (f.requeue notices tasks).Sound := ⟨h.listed, h.proper⟩

theorem Sound.link (h : f.Sound) (i : Nat) (p : PeerId) (address : Multiaddr) :
    (f.link i p address).Sound := by
  obtain ⟨notices, tasks, hlink⟩ := link_eq f i p address
  rw [hlink]
  apply Sound.requeue
  apply h.alike (alike_relink f i _)
  intro pipe hpipe hopen
  obtain ⟨hmem, hreceiver⟩ := h.proper pipe hpipe hopen
  exact ⟨mem_connected_relink_insert i p hmem, hreceiver⟩

theorem Sound.part (h : f.Sound)
    (hpipes : ∀ pipe ∈ f.pipes, pipe.isOpen = true → ¬ (i = pipe.sender ∧ p = pipe.peer)) :
    (f.part i p).Sound := by
  rcases part_eq f i p with hsame | ⟨notices, tasks, hpart⟩
  · rw [hsame]
    exact h
  · rw [hpart]
    apply Sound.requeue
    apply h.alike (alike_relink f i _)
    intro pipe hpipe hopen
    obtain ⟨hmem, hreceiver⟩ := h.proper pipe hpipe hopen
    exact ⟨mem_connected_relink_erase (hpipes pipe hpipe hopen) hmem, hreceiver⟩

theorem pipes_part (f : Fabric) (i : Nat) (p : PeerId) : (f.part i p).pipes = f.pipes := by
  rcases part_eq f i p with hsame | ⟨notices, tasks, hpart⟩
  · rw [hsame]
  · rw [hpart]
    rfl

theorem Sound.connect (h : f.Sound) (a b : PeerId) : (f.connect a b).2.Sound := by
  rcases f.connect_cases a b with ⟨e, hsame⟩ | ⟨i, j, x, y, -, -, -, -, hconnect⟩
  · rw [hsame]
    exact h
  · rw [hconnect]
    exact (h.link i b x).link j a y

theorem Sound.disconnect (h : f.Sound) (a b : PeerId) : (f.disconnect a b).Sound := by
  rcases f.disconnect_cases a b with ⟨-, hsame⟩ | ⟨i, j, -, -, hdisconnect⟩
  · rw [hsame]
    exact h
  · rw [hdisconnect]
    let g := (f.release fun pipe => pipe.sender = i && pipe.peer = b).release
      fun pipe => pipe.sender = j && pipe.peer = a
    have hg : g.Sound := (h.calm (quiet_release _ _).toCalm).calm (quiet_release _ _).toCalm
    have hpipes : ∀ pipe ∈ g.pipes, pipe.isOpen = true →
        ¬ (i = pipe.sender ∧ b = pipe.peer) ∧ ¬ (j = pipe.sender ∧ a = pipe.peer) := by
      intro pipe hpipe hopen
      obtain ⟨hpipe, hright⟩ := mem_pipes_release hpipe hopen
      obtain ⟨-, hleft⟩ := mem_pipes_release hpipe hopen
      constructor
      · rintro ⟨rfl, rfl⟩
        simp at hleft
      · rintro ⟨rfl, rfl⟩
        simp at hright
    refine (hg.part fun pipe hpipe hopen => (hpipes pipe hpipe hopen).1).part ?_
    rw [pipes_part]
    exact fun pipe hpipe hopen => (hpipes pipe hpipe hopen).2

theorem Sound.foldl {α : Type} {act : Fabric → α → Fabric}
    (hact : ∀ f x, f.Sound → (act f x).Sound) (h : f.Sound) (xs : List α) :
    (xs.foldl act f).Sound := by
  induction xs generalizing f with
  | nil => exact h
  | cons x xs ih => exact ih (hact f x h)

theorem Sound.close (h : f.Sound) (i : Nat) : (f.close i).Sound := by
  rw [Fabric.close]
  dsimp only
  split
  · exact h
  · have hbegun : (f.update i ({ · with isClosed := true })).Sound := by
      apply h.update <;>
      exact fun _ => rfl
    have hparted := hbegun.foldl (fun g p hg => hg.disconnect (f.endpoint i).peer p)
      ((f.update i ({ · with isClosed := true })).connected i)
    exact hparted.calm (quiet_release _ _).toCalm

theorem Sound.host (h : f.Sound) (hnew : f.directory[p]? = none) (watcher : Watcher) :
    (f.host p watcher).Sound :=
  ⟨listed_host h.listed hnew watcher, h.proper.host hnew watcher⟩

theorem Sound.perform (h : f.Sound) (act : Act) : (f.perform act).Sound := by
  cases act with
  | host p watcher =>
      change (if f.directory[p]?.isSome then f else f.host p watcher).Sound
      split
      · exact h
      · next hnew => exact h.host (Option.not_isSome_iff_eq_none.1 hnew) watcher
  | watch i watcher =>
      apply h.update <;>
      exact fun _ => rfl
  | accept i protocol reception => exact h.calm (quiet_accept f i protocol reception).toCalm
  | setBootstrap i addresses => exact h.calm (quiet_setBootstrap f i addresses).toCalm
  | connect a b => exact h.connect a b
  | disconnect a b => exact h.disconnect a b
  | bootstrap i => exact h.foldl (fun g p hg => hg.connect _ p) _
  | close i => exact h.close i
  | send lane payload => exact h.calm (quiet_send f _ _ _ payload).toCalm
  | read k => exact h.calm (touches_take f k).quiet.toCalm
  | abandon k => exact h.calm (touches_abandon f k).quiet.toCalm
  | settle notices tasks => exact h.requeue notices tasks

/-! ## Connecting -/

theorem relinks_connect (f : Fabric) (a b : PeerId) : f.Relinks (f.connect a b).2 := by
  rcases f.connect_cases a b with ⟨e, hsame⟩ | ⟨i, j, x, y, -, -, -, -, hconnect⟩
  · rw [hsame]
    exact .refl f
  · rw [hconnect]
    exact (f.relinks_link i b x).trans (relinks_link _ j a y)

/-- An endpoint that is closed gets no new connection. -/
theorem Sound.isOpen_of_connect (h : f.Sound) (hold : q ∉ (f.endpoint k).connected)
    (hnew : q ∈ ((f.connect a b).2.endpoint k).connected) : (f.endpoint k).isClosed = false := by
  rcases f.connect_cases a b with ⟨e, hsame⟩ | ⟨i, j, x, y, hi, hj, hopen, hopen', hconnect⟩
  · rw [hsame] at hnew
    exact absurd hnew hold
  · have hilt := ((h.listed _ _).1 hi).1
    have hjlt : j < (f.link i b x).endpoints.length := by
      rw [(f.relinks_link i b x).length]
      exact ((h.listed _ _).1 hj).1
    rw [hconnect, mem_connected_link hjlt, mem_connected_link hilt] at hnew
    rcases hnew with ⟨rfl, -⟩ | ⟨rfl, -⟩ | hnew
    · exact hopen'
    · exact hopen
    · exact absurd hnew hold

theorem Sound.connect_all (h : f.Sound) (a : PeerId) (peers : List PeerId) :
    let f' := peers.foldl (fun f p => (f.connect a p).2) f
    f.Relinks f' ∧ ∀ k q, q ∉ (f.endpoint k).connected → q ∈ (f'.endpoint k).connected →
      (f.endpoint k).isClosed = false := by
  induction peers generalizing f with
  | nil => exact ⟨.refl f, fun k q hold hnew => absurd hnew hold⟩
  | cons p peers ih =>
      have hfirst := f.relinks_connect a p
      obtain ⟨hrest, hopen⟩ := ih (h.connect a p)
      refine ⟨hfirst.trans hrest, fun k q hold hnew => ?_⟩
      by_cases hmem : q ∈ ((f.connect a p).2.endpoint k).connected
      · exact h.isOpen_of_connect hold hmem
      · rw [← hfirst.isClosed]
        exact hopen k q hmem hnew

/-- The one fabric becomes the other when two peers are connected, or one to all that it dials. -/
def Dials (f f' : Fabric) : Prop :=
  (∃ a b, f' = (f.connect a b).2) ∨ ∃ i, f' = f.bootstrap i

theorem Sound.dials (h : f.Sound) (hdials : f.Dials f') :
    f'.Sound ∧ f.Relinks f' ∧ ∀ k q, q ∉ (f.endpoint k).connected →
      q ∈ (f'.endpoint k).connected → (f.endpoint k).isClosed = false := by
  rcases hdials with ⟨a, b, rfl⟩ | ⟨i, rfl⟩
  · exact ⟨h.connect a b, f.relinks_connect a b, fun k q => h.isOpen_of_connect⟩
  · exact ⟨h.perform (.bootstrap i), h.connect_all _ _⟩

/-! ## Runs of acts -/

theorem sound_empty : empty.Sound :=
  ⟨coherent_empty.1.registered.listed, coherent_empty.1.proper⟩

theorem Grown.sound (h : f.Grown) : f.Sound := by
  obtain ⟨acts, rfl⟩ := h
  exact sound_empty.foldl (fun g act hg => hg.perform act) acts

end Fabric

end ChainPeer
