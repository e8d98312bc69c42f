import ChainPeer.Fabric

/-!
# What the operations of a fabric change

Whether peers are connected is noted at both ends. Connecting and disconnecting set one end after
the other, and each time the watcher of this end is told if the connection was not so before.
Everything else that a fabric does leaves the connections as they are.
-/

namespace ChainPeer

/-- What a notice says of the connection of an endpoint to a peer: whether it is there now. -/
def Notice.change? (i : Nat) (p : PeerId) : Notice → Option Bool
  | .connection j _ (.established q _) => if j = i ∧ q = p then some true else none
  | .connection j _ (.closed q) => if j = i ∧ q = p then some false else none
  | .opened .. => none

namespace Fabric

variable {f f' f'' : Fabric} {i j k : Nat} {p q : PeerId}

/-- What the notices say of the connection of an endpoint to a peer. -/
def changes (i : Nat) (p : PeerId) (f : Fabric) : List Bool :=
  f.notices.filterMap (Notice.change? i p)

theorem endpoint_update (f : Fabric) (i : Nat) (g : Endpoint → Endpoint) (k : Nat) :
    (f.update i g).endpoint k =
      if i = k ∧ k < f.endpoints.length then g (f.endpoint k) else f.endpoint k := by
  unfold update endpoint
  simp only [List.getD_eq_getElem?_getD, List.getElem?_modify]
  by_cases hk : k < f.endpoints.length
  · by_cases hi : i = k <;> simp [hk, hi]
  · simp [hk]

theorem apply_endpoint_update {α : Type} {proj : Endpoint → α} {g : Endpoint → Endpoint}
    (hg : ∀ e, proj (g e) = proj e) (f : Fabric) (i k : Nat) :
    proj ((f.update i g).endpoint k) = proj (f.endpoint k) := by
  rw [endpoint_update]
  split
  · exact hg _
  · rfl

theorem endpoint_of_length_le (h : f.endpoints.length ≤ k) : f.endpoint k = default := by
  unfold endpoint
  rw [List.getD_eq_getElem?_getD, List.getElem?_eq_none h]
  rfl

theorem endpoint_congr (h : f'.endpoints = f.endpoints) (k : Nat) :
    f'.endpoint k = f.endpoint k := by
  unfold endpoint
  rw [h]

theorem lt_of_mem_connected (h : q ∈ (f.endpoint k).connected) : k < f.endpoints.length := by
  apply Nat.lt_of_not_le
  intro hk
  rw [endpoint_of_length_le hk] at h
  exact Std.ExtTreeSet.not_mem_empty h

/-- The two fabrics have the same endpoints, as far as their peers go and who watches them. -/
structure Alike (f f' : Fabric) : Prop where
  length : f'.endpoints.length = f.endpoints.length
  directory : f'.directory = f.directory
  peer : ∀ k, (f'.endpoint k).peer = (f.endpoint k).peer
  watcher : ∀ k, (f'.endpoint k).watcher = (f.endpoint k).watcher

theorem Alike.of_eq (hendpoints : f'.endpoints = f.endpoints)
    (hdirectory : f'.directory = f.directory) : f.Alike f' := by
  refine ⟨by rw [hendpoints], hdirectory, fun k => ?_, fun k => ?_⟩ <;>
  rw [endpoint_congr hendpoints]

theorem Alike.trans (h : f.Alike f') (h' : f'.Alike f'') : f.Alike f'' where
  length := h'.length.trans h.length
  directory := h'.directory.trans h.directory
  peer k := (h'.peer k).trans (h.peer k)
  watcher k := (h'.watcher k).trans (h.watcher k)

theorem alike_update {g : Endpoint → Endpoint} (hpeer : ∀ e, (g e).peer = e.peer)
    (hwatcher : ∀ e, (g e).watcher = e.watcher) (f : Fabric) (i : Nat) :
    f.Alike (f.update i g) where
  length := List.length_modify ..
  directory := rfl
  peer := apply_endpoint_update hpeer f i
  watcher := apply_endpoint_update hwatcher f i

/-! ## Tasks and notices -/

theorem exists_queue (f : Fabric) (task : Task) : ∃ tasks, f.queue task = { f with tasks } := by
  unfold queue
  split
  · exact ⟨f.tasks, rfl⟩
  · exact ⟨f.tasks ++ [task], rfl⟩

theorem exists_tell (hwatched : (f.endpoint i).watcher ≠ .nobody) (e : ConnectionEvent) :
    ∃ tasks, f.tell i e = { f with
      notices := f.notices ++ [.connection i (f.endpoint i).watcher e], tasks } := by
  unfold tell
  rw [if_neg hwatched]
  dsimp only
  split
  · exact exists_queue _ _
  · exact ⟨f.tasks, rfl⟩

theorem exists_release (f : Fabric) (selects : Pipe → Bool) :
    ∃ tasks, f.release selects = { f with
      pipes := f.pipes.map fun pipe => if selects pipe then { pipe with isOpen := false } else pipe
      tasks } := by
  have hfold : ∀ (held : List (Pipe × Nat)) (f : Fabric),
      ∃ tasks, held.foldl (fun f x => f.queue (.read x.2)) f = { f with tasks } := by
    intro held
    induction held with
    | nil => exact fun f => ⟨f.tasks, rfl⟩
    | cons x held ih =>
        intro f
        obtain ⟨tasks, hqueue⟩ := f.exists_queue (.read x.2)
        obtain ⟨tasks', hrest⟩ := ih (f.queue (.read x.2))
        refine ⟨tasks', hrest.trans ?_⟩
        rw [hqueue]
  exact hfold _ _

/-! ## One end of a connection -/

/-- From the one fabric to the other, one end of a connection is set to be there or not, and its
watcher is told if it was not so before. -/
structure Shifts (i : Nat) (p : PeerId) (now : Bool) (f f' : Fabric) : Prop extends
    Alike f f' where
  isClosed : ∀ k, (f'.endpoint k).isClosed = (f.endpoint k).isClosed
  pipes : f'.pipes = f.pipes
  connected : ∀ k q, q ∈ (f'.endpoint k).connected ↔
    if i = k ∧ p = q then now = true else q ∈ (f.endpoint k).connected
  changes : ∀ k q, f'.changes k q = f.changes k q ++
    if i = k ∧ p = q ∧ ¬ (p ∈ (f.endpoint i).connected ↔ now = true) then [now] else []

/-- Changes which peers are noted as connected to an endpoint, without telling anybody. -/
def relink (f : Fabric) (i : Nat) (c : Std.ExtTreeSet PeerId → Std.ExtTreeSet PeerId) : Fabric :=
  f.update i fun e => { e with connected := c e.connected }

section Shifts

variable {c : Std.ExtTreeSet PeerId → Std.ExtTreeSet PeerId} {now : Bool}

theorem alike_relink (f : Fabric) (i : Nat)
    (c : Std.ExtTreeSet PeerId → Std.ExtTreeSet PeerId) : f.Alike (f.relink i c) :=
  alike_update (g := fun e => { e with connected := c e.connected }) (fun _ => rfl)
    (fun _ => rfl) f i

theorem isClosed_relink (f : Fabric) (i : Nat)
    (c : Std.ExtTreeSet PeerId → Std.ExtTreeSet PeerId) (k : Nat) :
    ((f.relink i c).endpoint k).isClosed = (f.endpoint k).isClosed :=
  apply_endpoint_update (g := fun e => { e with connected := c e.connected }) (fun _ => rfl) f i k

theorem mem_connected_relink (hc : ∀ s q, q ∈ c s ↔ if p = q then now = true else q ∈ s)
    (hi : i < f.endpoints.length) (k : Nat) (q : PeerId) :
    q ∈ ((f.relink i c).endpoint k).connected ↔
      if i = k ∧ p = q then now = true else q ∈ (f.endpoint k).connected := by
  unfold relink
  rw [endpoint_update]
  by_cases hk : i = k
  · subst hk
    simp [hi, hc]
  · simp [hk]

theorem shifts_relink (hc : ∀ s q, q ∈ c s ↔ if p = q then now = true else q ∈ s)
    (hi : i < f.endpoints.length) (hsame : p ∈ (f.endpoint i).connected ↔ now = true) :
    f.Shifts i p now (f.relink i c) := by
  refine ⟨alike_relink f i c, isClosed_relink f i c, rfl, mem_connected_relink hc hi,
    fun k q => ?_⟩
  rw [if_neg fun h => h.2.2 hsame, List.append_nil]
  rfl

theorem shifts_relink_tell (hc : ∀ s q, q ∈ c s ↔ if p = q then now = true else q ∈ s)
    (hi : i < f.endpoints.length) (hwatched : (f.endpoint i).watcher ≠ .nobody)
    (hnew : ¬ (p ∈ (f.endpoint i).connected ↔ now = true)) {e : ConnectionEvent}
    (he : ∀ k q w, (Notice.connection i w e).change? k q =
      if i = k ∧ p = q then some now else none) :
    f.Shifts i p now ((f.relink i c).tell i e) := by
  have halike := alike_relink f i c
  obtain ⟨tasks, htell⟩ := exists_tell (by rw [halike.watcher]; exact hwatched) e
  rw [htell]
  refine ⟨halike.trans (.of_eq rfl rfl), isClosed_relink f i c, rfl, mem_connected_relink hc hi,
    fun k q => ?_⟩
  unfold changes
  rw [List.filterMap_append, List.filterMap_cons, he]
  by_cases hkq : i = k ∧ p = q
  · obtain ⟨rfl, rfl⟩ := hkq
    rw [if_pos ⟨rfl, rfl⟩, if_pos ⟨rfl, rfl, hnew⟩]
    rfl
  · rw [if_neg hkq, if_neg fun h => hkq ⟨h.1, h.2.1⟩]
    rfl

end Shifts

/-- Notes the connection of an endpoint to a peer and tells of it if it is new. -/
def link (f : Fabric) (i : Nat) (p : PeerId) (address : Multiaddr) : Fabric :=
  (f.relink i (·.insert p)).join (!(f.endpoint i).connected.contains p) i p address

theorem shifts_link (hi : i < f.endpoints.length) (hwatched : (f.endpoint i).watcher ≠ .nobody)
    (p : PeerId) (address : Multiaddr) : f.Shifts i p true (f.link i p address) := by
  have hinsert : ∀ (s : Std.ExtTreeSet PeerId) (q : PeerId),
      q ∈ s.insert p ↔ if p = q then true = true else q ∈ s := by
    intro s q
    by_cases hq : p = q <;> simp [hq]
  unfold link join
  by_cases hp : p ∈ (f.endpoint i).connected
  · simp only [Std.ExtTreeSet.contains_iff_mem.2 hp]
    exact shifts_relink hinsert hi (iff_of_true hp rfl)
  · have hcontains := Bool.eq_false_iff.2 (mt Std.ExtTreeSet.contains_iff_mem.1 hp)
    simp only [hcontains]
    exact shifts_relink_tell hinsert hi hwatched (fun h => hp (h.2 rfl)) fun _ _ _ => rfl

theorem shifts_part (hwatched : i < f.endpoints.length → (f.endpoint i).watcher ≠ .nobody)
    (p : PeerId) : f.Shifts i p false (f.part i p) := by
  have herase : ∀ (s : Std.ExtTreeSet PeerId) (q : PeerId),
      q ∈ s.erase p ↔ if p = q then false = true else q ∈ s := by
    intro s q
    by_cases hq : p = q <;> simp [hq]
  unfold part
  by_cases hp : p ∈ (f.endpoint i).connected
  · have hi := lt_of_mem_connected hp
    rw [if_pos (Std.ExtTreeSet.contains_iff_mem.2 hp)]
    exact shifts_relink_tell herase hi (hwatched hi) (by simp [hp]) fun _ _ _ => rfl
  · rw [if_neg (mt Std.ExtTreeSet.contains_iff_mem.1 hp)]
    refine ⟨.of_eq rfl rfl, fun _ => rfl, rfl, fun k q => ?_, fun k q => by simp [hp]⟩
    split
    · next h =>
      obtain ⟨rfl, rfl⟩ := h
      simpa using hp
    · rfl

theorem Shifts.mem_connected_true (h : f.Shifts i p true f') :
    q ∈ (f'.endpoint k).connected ↔ (i = k ∧ p = q) ∨ q ∈ (f.endpoint k).connected := by
  rw [h.connected]
  by_cases hkq : i = k ∧ p = q <;> simp [hkq]

theorem Shifts.mem_connected_false (h : f.Shifts i p false f') :
    q ∈ (f'.endpoint k).connected ↔ ¬ (i = k ∧ p = q) ∧ q ∈ (f.endpoint k).connected := by
  rw [h.connected]
  by_cases hkq : i = k ∧ p = q <;> simp [hkq]

/-! ## Both ends -/

theorem queue_update (task : Task) (g : Endpoint → Endpoint) :
    (f.queue task).update j g = (f.update j g).queue task := by
  unfold queue
  rw [show (f.update j g).tasks = f.tasks from rfl]
  split <;> rfl

theorem tell_update {g : Endpoint → Endpoint} (hg : ∀ e, (g e).watcher = e.watcher)
    (e : ConnectionEvent) : (f.tell i e).update j g = (f.update j g).tell i e := by
  unfold tell
  rw [apply_endpoint_update hg]
  generalize (f.endpoint i).watcher = w
  cases w with
  | nobody => rfl
  | log => rfl
  | service =>
      cases e with
      | established => exact queue_update _ _
      | closed => rfl

theorem endpoint_tell (e : ConnectionEvent) : (f.tell i e).endpoint k = f.endpoint k := by
  by_cases hwatcher : (f.endpoint i).watcher = .nobody
  · unfold tell
    rw [if_pos hwatcher]
  · obtain ⟨tasks, htell⟩ := exists_tell hwatcher e
    rw [htell]
    rfl

theorem join_update {g : Endpoint → Endpoint} (hg : ∀ e, (g e).watcher = e.watcher) (isNew : Bool)
    (address : Multiaddr) :
    (f.join isNew i p address).update j g = (f.update j g).join isNew i p address := by
  cases isNew with
  | false => rfl
  | true => exact tell_update hg _

theorem endpoint_join (isNew : Bool) (address : Multiaddr) :
    (f.join isNew i p address).endpoint k = f.endpoint k := by
  cases isNew with
  | false => rfl
  | true => exact endpoint_tell _

/-- Connecting two peers sets the one end and then the other, unless it fails. -/
theorem connect_cases (f : Fabric) (a b : PeerId) :
    (∃ e, f.connect a b = (.error e, f)) ∨ ∃ i j address address',
      f.directory[a]? = some i ∧ f.directory[b]? = some j ∧
      (f.endpoint i).isClosed = false ∧ (f.endpoint j).isClosed = false ∧
      f.connect a b = (.ok (), (f.link i b address).link j a address') := by
  unfold connect
  split
  · exact .inl ⟨_, rfl⟩
  · exact .inl ⟨_, rfl⟩
  · next i j ha hb =>
    split
    · exact .inl ⟨_, rfl⟩
    · next hopen =>
      -- Both sets are changed before anybody is told; telling does not look at the sets.
      let joined := (f.relink i (·.insert b)).relink j (·.insert a)
      refine .inr ⟨i, j, (joined.endpoint j).address, (joined.endpoint i).address, ha, hb, ?_, ?_, ?_⟩
      · simpa using fun h => hopen (.inl h)
      · simpa using fun h => hopen (.inr h)
      · unfold link relink
        rw [join_update (g := fun e => { e with connected := e.connected.insert a }) (fun _ => rfl),
          endpoint_join]
        dsimp only
        rw [endpoint_join]
        rfl

/-! ## What leaves the connections as they are -/

/-- The pipe leads to the endpoint of its peer, which is connected to the sender. -/
def Permits (f : Fabric) (pipe : Pipe) : Prop :=
  pipe.peer ∈ (f.endpoint pipe.sender).connected ∧ f.directory[pipe.peer]? = some pipe.receiver

def Proper (f : Fabric) : Prop := ∀ pipe ∈ f.pipes, pipe.isOpen = true → f.Permits pipe

/-- From the one fabric to the other, no connection changes. -/
structure Calm (f f' : Fabric) : Prop extends Alike f f' where
  connected : ∀ k, (f'.endpoint k).connected = (f.endpoint k).connected
  changes : ∀ k q, f'.changes k q = f.changes k q
  proper : f.Proper → f'.Proper

/-- From the one fabric to the other, no connection changes and no endpoint closes. -/
structure Quiet (f f' : Fabric) : Prop extends Calm f f' where
  isClosed : ∀ k, (f'.endpoint k).isClosed = (f.endpoint k).isClosed

theorem Quiet.of_endpoints (hendpoints : f'.endpoints = f.endpoints)
    (hdirectory : f'.directory = f.directory) (hchanges : ∀ k q, f'.changes k q = f.changes k q)
    (hproper : f.Proper → f'.Proper) : f.Quiet f' := by
  refine ⟨⟨.of_eq hendpoints hdirectory, fun k => ?_, hchanges, hproper⟩, fun k => ?_⟩ <;>
  rw [endpoint_congr hendpoints]

theorem Quiet.refl (f : Fabric) : f.Quiet f := .of_endpoints rfl rfl (fun _ _ => rfl) id

theorem Quiet.trans (h : f.Quiet f') (h' : f'.Quiet f'') : f.Quiet f'' where
  toAlike := h.toAlike.trans h'.toAlike
  connected k := (h'.connected k).trans (h.connected k)
  changes k q := (h'.changes k q).trans (h.changes k q)
  proper hf := h'.proper (h.proper hf)
  isClosed k := (h'.isClosed k).trans (h.isClosed k)

theorem Proper.update {g : Endpoint → Endpoint} (h : f.Proper)
    (hconnected : ∀ e, (g e).connected = e.connected) (i : Nat) : (f.update i g).Proper := by
  intro pipe hpipe hopen
  obtain ⟨hmem, hreceiver⟩ := h pipe hpipe hopen
  refine ⟨?_, hreceiver⟩
  rw [apply_endpoint_update hconnected]
  exact hmem

theorem calm_update {g : Endpoint → Endpoint} (hpeer : ∀ e, (g e).peer = e.peer)
    (hwatcher : ∀ e, (g e).watcher = e.watcher) (hconnected : ∀ e, (g e).connected = e.connected)
    (f : Fabric) (i : Nat) : f.Calm (f.update i g) where
  toAlike := alike_update hpeer hwatcher f i
  connected := apply_endpoint_update hconnected f i
  changes _ _ := rfl
  proper hf := hf.update hconnected i

theorem quiet_update {g : Endpoint → Endpoint} (hpeer : ∀ e, (g e).peer = e.peer)
    (hwatcher : ∀ e, (g e).watcher = e.watcher) (hconnected : ∀ e, (g e).connected = e.connected)
    (hclosed : ∀ e, (g e).isClosed = e.isClosed) (f : Fabric) (i : Nat) :
    f.Quiet (f.update i g) :=
  ⟨calm_update hpeer hwatcher hconnected f i, apply_endpoint_update hclosed f i⟩

theorem quiet_accept (f : Fabric) (i : Nat) (protocol : Protocol) (reception : Reception) :
    f.Quiet (f.accept i protocol reception) := by
  apply quiet_update <;>
  exact fun _ => rfl

theorem quiet_setBootstrap (f : Fabric) (i : Nat) (addresses : List Multiaddr) :
    f.Quiet (f.setBootstrap i addresses) := by
  apply quiet_update <;>
  exact fun _ => rfl

theorem quiet_tasks (f : Fabric) (tasks : List Task) : f.Quiet { f with tasks } :=
  .of_endpoints rfl rfl (fun _ _ => rfl) id

theorem quiet_queue (f : Fabric) (task : Task) : f.Quiet (f.queue task) := by
  obtain ⟨tasks, hqueue⟩ := f.exists_queue task
  rw [hqueue]
  exact quiet_tasks f tasks

/-- The pipes that are open were there before, as far as their ends go. -/
theorem quiet_pipes {pipes : List Pipe}
    (hpipes : ∀ pipe ∈ pipes, pipe.isOpen = true → ∃ old ∈ f.pipes, old.isOpen = true ∧
      pipe.sender = old.sender ∧ pipe.receiver = old.receiver ∧ pipe.peer = old.peer) :
    f.Quiet { f with pipes } := by
  refine .of_endpoints rfl rfl (fun _ _ => rfl) fun hf pipe hpipe hopen => ?_
  obtain ⟨old, hold, hopen', hsender, hreceiver, hpeer⟩ := hpipes pipe hpipe hopen
  have hpermits : f.Permits old := hf old hold hopen'
  unfold Permits at hpermits ⊢
  rw [hsender, hreceiver, hpeer]
  exact hpermits

theorem mem_pipes_release {selects : Pipe → Bool} {pipe : Pipe}
    (hpipe : pipe ∈ (f.release selects).pipes) (hopen : pipe.isOpen = true) :
    pipe ∈ f.pipes ∧ selects pipe = false := by
  obtain ⟨tasks, hrelease⟩ := f.exists_release selects
  rw [hrelease] at hpipe
  obtain ⟨old, hold, rfl⟩ := List.mem_map.1 hpipe
  cases hselects : selects old with
  | true =>
      rw [hselects] at hopen
      exact nomatch hopen
  | false => exact ⟨hold, hselects⟩

theorem quiet_release (f : Fabric) (selects : Pipe → Bool) : f.Quiet (f.release selects) := by
  have hpipes : f.Quiet { f with pipes := (f.release selects).pipes } :=
    quiet_pipes fun pipe hpipe hopen =>
      ⟨pipe, (mem_pipes_release hpipe hopen).1, hopen, rfl, rfl, rfl⟩
  obtain ⟨tasks, hrelease⟩ := f.exists_release selects
  rw [hrelease] at hpipes ⊢
  exact hpipes.trans (quiet_tasks _ tasks)

/-- A pipe that stays between the same ends, unless it is let go. -/
theorem quiet_set {pipe pipe' : Pipe} (hpipe : f.pipes[k]? = some pipe)
    (hsender : pipe'.sender = pipe.sender) (hreceiver : pipe'.receiver = pipe.receiver)
    (hpeer : pipe'.peer = pipe.peer) (hopen : pipe'.isOpen = true → pipe.isOpen = true) :
    f.Quiet { f with pipes := f.pipes.set k pipe' } := by
  apply quiet_pipes
  intro new hnew hisOpen
  rcases List.mem_or_eq_of_mem_set hnew with hold | rfl
  · exact ⟨new, hold, hisOpen, rfl, rfl, rfl⟩
  · exact ⟨pipe, List.mem_of_getElem? hpipe, hopen hisOpen, hsender, hreceiver, hpeer⟩

theorem quiet_read (f : Fabric) (k : Nat) (unread : Bytes) (reader : Option Reception) :
    f.Quiet { f with pipes := f.pipes.modify k fun pipe => { pipe with unread, reader } } := by
  apply quiet_pipes
  intro pipe hpipe hopen
  obtain ⟨n, hn⟩ := List.mem_iff_getElem?.1 hpipe
  rw [List.getElem?_modify] at hn
  obtain ⟨old, hold, rfl⟩ := Option.map_eq_some_iff.1 hn
  refine ⟨old, List.mem_of_getElem? hold, ?_⟩
  split at hopen <;> simp_all

theorem quiet_write (f : Fabric) (k : Nat) (payload : Bytes) :
    f.Quiet (f.write k payload).2 := by
  unfold write
  split
  · exact .refl f
  · next pipe hpipe =>
    dsimp only
    split
    · exact quiet_set hpipe rfl rfl rfl nofun
    · split
      · refine Quiet.trans ?_ (quiet_queue _ _)
        exact quiet_set hpipe rfl rfl rfl id
      · refine Quiet.trans ?_ (quiet_queue _ _)
        exact quiet_set hpipe rfl rfl rfl nofun

theorem quiet_append {pipe : Pipe} (hpermits : f.Permits pipe) :
    f.Quiet { f with pipes := f.pipes ++ [pipe] } := by
  refine .of_endpoints rfl rfl (fun _ _ => rfl) fun hf old hold hopen => ?_
  rcases List.mem_append.1 hold with hold | hold
  · exact hf old hold hopen
  · rw [List.mem_singleton.1 hold]
    exact hpermits

theorem quiet_opened (f : Fabric) (j : Nat) (p : PeerId) (protocol : Protocol) :
    f.Quiet { f with notices := f.notices ++ [.opened j p protocol] } := by
  refine .of_endpoints rfl rfl (fun k q => ?_) id
  unfold changes
  rw [List.filterMap_append]
  exact List.append_nil _

theorem quiet_openPipe {protocol : Protocol} (hconnected : p ∈ (f.endpoint i).connected)
    (h : f.openPipe i p protocol = .ok (k, f')) : f.Quiet f' := by
  unfold openPipe at h
  split at h
  · exact nomatch h
  · next j hj =>
    split at h
    · exact nomatch h
    · next reception _ =>
      have hpermits : f.Permits ⟨i, j, p, protocol, reader? reception, [], true⟩ :=
        ⟨hconnected, hj⟩
      have happend := quiet_append hpermits
      dsimp only at h
      split at h
      · obtain ⟨rfl, rfl⟩ := Prod.mk.inj (Except.ok.inj h)
        exact happend.trans (quiet_queue _ _)
      all_goals
        obtain ⟨rfl, rfl⟩ := Prod.mk.inj (Except.ok.inj h)
        exact (happend.trans (quiet_opened _ j _ protocol)).trans (quiet_queue _ _)

theorem quiet_send (f : Fabric) (i : Nat) (p : PeerId) (protocol : Protocol) (payload : Bytes) :
    f.Quiet (f.send i p protocol payload).2 := by
  unfold send
  split
  · exact .refl f
  · split
    · exact .refl f
    · next hconnected =>
      have hmem : p ∈ (f.endpoint i).connected := by simpa using hconnected
      split
      · exact quiet_write f _ payload
      · split
        · exact .refl f
        · next k f' hpipe => exact (quiet_openPipe hmem hpipe).trans (quiet_write f' k payload)

end Fabric

end ChainPeer
