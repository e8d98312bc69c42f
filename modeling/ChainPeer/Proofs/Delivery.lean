import ChainPeer.Proofs.Conduit
import ChainPeer.Proofs.Grammar

/-!
# What comes out of a stream is what was put in

Everything that one peer sends to another on a protocol while they stay connected goes through a
single stream, which the first payload opens. The stream holds the frames around what its reader
has not read yet, so the reader gets the payloads in the order in which they were sent, without the
empty ones.
-/

namespace ChainPeer

/-! ## Reading frames back -/

namespace ByteSource

variable {s : ByteSource} {limit : Nat} {payloads : List Bytes}

/-- The next frame that is not a keepalive is read, and reading goes on behind it. -/
theorem readFrame_wire (hsize : ∀ p ∈ payloads, p.length ≤ limit ∧ p.length < 2 ^ 64)
    (h : s.Holds (Frame.wire payloads) none) :
    (∃ s', s.readFrame limit = (.ok none, s') ∧ s'.bytes = [] ∧ payloads.filter (· ≠ []) = []) ∨
      ∃ s' payload later, s.readFrame limit = (.ok (some payload), s') ∧
        s'.bytes = Frame.wire later ∧ later <:+ payloads ∧
        payloads.filter (· ≠ []) = payload :: later.filter (· ≠ []) := by
  induction payloads generalizing s with
  | nil =>
      obtain ⟨s', hread⟩ : ∃ s', s.readFrame limit = (.ok none, s') := readFrame_of_holds_nil h
      exact .inl ⟨s', hread, (readFrame_none hread).2, rfl⟩
  | cons payload payloads ih =>
      have hpayload := hsize payload List.mem_cons_self
      have hsize' : ∀ p ∈ payloads, p.length ≤ limit ∧ p.length < 2 ^ 64 :=
        fun p hp => hsize p (List.mem_cons_of_mem _ hp)
      rw [Frame.wire_cons] at h
      by_cases hne : payload = []
      · subst hne
        rw [Frame.encode, List.append_nil] at h
        obtain ⟨s₁, hread, h₁⟩ := readFrame_keepalive limit (Varint.spells_encode (by decide)) h
        rw [hread]
        rcases ih hsize' h₁ with hnone | ⟨s', next, later, hnext, hbytes, hlater, hfilter⟩
        · exact .inl hnone
        · exact .inr ⟨s', next, later, hnext, hbytes, hlater.trans (List.suffix_cons ..), hfilter⟩
      · obtain ⟨s', hread, h'⟩ := readFrame_encode hne hpayload.2 hpayload.1 h
        refine .inr ⟨s', payload, payloads, hread, h'.1, List.suffix_cons .., ?_⟩
        exact List.filter_cons_of_pos (by simpa using hne)

theorem readFrames_wire (hsize : ∀ p ∈ payloads, p.length ≤ limit ∧ p.length < 2 ^ 64)
    (h : s.Holds (Frame.wire payloads) none) :
    (s.readFrames limit).1 = payloads.filter (· ≠ []) := by
  induction payloads generalizing s with
  | nil => rw [readFrames_of_holds_nil h, List.filter_nil]
  | cons payload payloads ih =>
      have hpayload := hsize payload List.mem_cons_self
      rw [Frame.wire_cons] at h
      obtain ⟨s', h', hread⟩ := readFrames_encode_append hpayload.2 hpayload.1 h
      rw [hread, List.filter_cons]
      dsimp only
      rw [ih (fun p hp => hsize p (List.mem_cons_of_mem _ hp)) h']
      by_cases hne : payload = [] <;> simp [hne]

end ByteSource

theorem Frame.wire_concat (payloads : List Bytes) (payload : Bytes) :
    wire (payloads ++ [payload]) = wire payloads ++ encode payload := by
  unfold wire
  rw [List.flatMap_append, List.flatMap_singleton]

namespace Conduit

open Fabric (Act)

variable {c : Conduit} {f f' : Fabric} {t : Traffic} {act : Act} {k : Nat}
  {pending later : List Bytes} {payload : Bytes}

/-! ## The stream of a conduit -/

/-- The stream, with what its reader has not read yet. -/
def stream (c : Conduit) (unread : Bytes) : Pipe :=
  ⟨c.source, c.target, c.receiver, c.protocol, some c.reception, unread, true⟩

/-- There is no stream yet. -/
def Idle (c : Conduit) (f : Fabric) : Prop :=
  ∀ k pipe, f.pipes[k]? = some pipe → ¬ c.Carries k pipe

/-- There is one stream, which holds the frames around payloads that the reader takes. -/
structure Runs (c : Conduit) (k : Nat) (pending : List Bytes) (f : Fabric) : Prop where
  since_le : c.since ≤ k
  only : ∀ n pipe, c.Carries n pipe →
    (f.pipes[n]? = some pipe ↔ n = k ∧ pipe = c.stream (Frame.wire pending))
  fits : ∀ p ∈ pending, c.Fits p

theorem carries_stream (c : Conduit) (k : Nat) (unread : Bytes) : c.Carries k (c.stream unread) :=
  ⟨rfl, .inr rfl⟩

theorem Runs.pipe (h : c.Runs k pending f) :
    f.pipes[k]? = some (c.stream (Frame.wire pending)) :=
  (h.only k _ (c.carries_stream k _)).2 ⟨rfl, rfl⟩

theorem Idle.undisturbed (h : c.Idle f) (hu : c.Undisturbed f f') : c.Idle f' :=
  fun k pipe hpipe hcarries => h k pipe ((hu.carried k pipe hcarries).1 hpipe) hcarries

theorem Runs.undisturbed (h : c.Runs k pending f) (hu : c.Undisturbed f f') :
    c.Runs k pending f' :=
  ⟨h.since_le, fun n pipe hcarries => (hu.carried n pipe hcarries).trans (h.only n pipe hcarries),
    h.fits⟩

theorem Runs.set {tasks : List Task} (h : c.Runs k pending f) (hfits : ∀ p ∈ later, c.Fits p) :
    c.Runs k later { f with pipes := f.pipes.set k (c.stream (Frame.wire later)), tasks } := by
  refine ⟨h.since_le, fun n pipe hcarries => ?_, hfits⟩
  dsimp only
  by_cases hn : k = n
  · subst hn
    have hk := (List.getElem?_eq_some_iff.1 h.pipe).1
    rw [List.getElem?_set_self hk, Option.some.injEq]
    exact ⟨fun h => ⟨rfl, h.symm⟩, fun h => h.2.symm⟩
  · rw [List.getElem?_set_ne hn, h.only n pipe hcarries]
    exact iff_of_false (fun h => hn h.1.symm) fun h => hn h.1.symm

theorem Idle.append {notices : List Notice} {tasks : List Task} (h : c.Idle f)
    (hsince : c.since ≤ f.pipes.length) :
    c.Runs f.pipes.length []
      { f with pipes := f.pipes ++ [c.stream []], notices, tasks } := by
  refine ⟨hsince, fun n pipe hcarries => ?_, fun p hp => absurd hp List.not_mem_nil⟩
  dsimp only
  rcases Nat.lt_trichotomy n f.pipes.length with hn | rfl | hn
  · rw [List.getElem?_append_left hn]
    exact iff_of_false (fun hpipe => h n pipe hpipe hcarries) fun h => Nat.ne_of_lt hn h.1
  · rw [List.getElem?_concat_length, Option.some.injEq]
    exact ⟨fun h => ⟨rfl, h.symm⟩, fun h => h.2.symm⟩
  · rw [List.getElem?_eq_none (by rw [List.length_append]; exact hn)]
    exact iff_of_false nofun fun h => Nat.ne_of_gt hn h.1

/-! ## One act at the one end or the other -/

theorem admits_of_fits (hreads : c.reception ≠ .drop) (h : c.Fits payload) :
    Fabric.admits payload.length c.reception = true := by
  obtain ⟨hlimit, -⟩ := h
  cases hreception : c.reception with
  | service limit =>
      rw [hreception] at hlimit
      exact decide_eq_true hlimit
  | collect => rfl
  | drop => exact absurd hreception hreads

/-- A payload went into the stream, which now holds all of these. -/
structure Puts (c : Conduit) (k : Nat) (pending : List Bytes) (f : Fabric)
    (result : Except TransportError Unit × Fabric) : Prop where
  succeeded : result.1 = .ok ()
  streams : Streams f result.2
  runs : c.Runs k pending result.2

theorem puts_write (hreads : c.reception ≠ .drop) (h : c.Runs k pending f)
    (hfits : c.Fits payload) : c.Puts k (pending ++ [payload]) f (f.write k payload) := by
  obtain ⟨tasks, hwrite⟩ := Fabric.write_of_admits h.pipe rfl (admits_of_fits hreads hfits)
  have hfits' : ∀ p ∈ pending ++ [payload], c.Fits p := by
    intro p hp
    rcases List.mem_append.1 hp with hp | hp
    · exact h.fits p hp
    · exact List.mem_singleton.1 hp ▸ hfits
  have hset : c.Runs k (pending ++ [payload]) { f with
      pipes := f.pipes.set k (c.stream (Frame.wire (pending ++ [payload]))), tasks } := h.set hfits'
  rw [Frame.wire_concat] at hset
  rw [hwrite]
  exact ⟨rfl, ⟨rfl, rfl, Nat.le_of_eq (List.length_set ..).symm⟩, hset⟩

theorem send_of_way (h : c.Way f) (payload : Bytes) :
    f.send c.source c.receiver c.protocol payload =
      match f.pipe? c.source c.receiver c.protocol with
      | some k => f.write k payload
      | none =>
        match f.openPipe c.source c.receiver c.protocol with
        | .error e => (.error e, f)
        | .ok (k, f) => f.write k payload := by
  have hconnected : (!(f.endpoint c.source).connected.contains c.receiver) = false := by
    rw [Std.ExtTreeSet.contains_iff_mem.2 h.connected]
    rfl
  unfold Fabric.send
  rw [h.isOpen, hconnected]
  rfl

/-- The first payload opens the stream. -/
theorem puts_send_of_idle (hreads : c.reception ≠ .drop) (hway : c.Way f) (hidle : c.Idle f)
    (hsince : c.since ≤ f.pipes.length) (hfits : c.Fits payload) :
    c.Puts f.pipes.length [payload] f (f.send c.source c.receiver c.protocol payload) := by
  have hnone : f.pipe? c.source c.receiver c.protocol = none := by
    cases hpipe : f.pipe? c.source c.receiver c.protocol with
    | none => rfl
    | some k =>
        obtain ⟨pipe, hk, hopen, hlane⟩ := Fabric.exists_of_pipe?_eq_some hpipe
        exact absurd ⟨hlane, .inr hopen⟩ (hidle k pipe hk)
  have hreader : Fabric.reader? c.reception = some c.reception := by
    cases hreception : c.reception with
    | service limit => rfl
    | collect => rfl
    | drop => exact absurd hreception hreads
  obtain ⟨notices, tasks, hopen⟩ := Fabric.openPipe_eq c.source hway.target hway.registered
  rw [hreader] at hopen
  have hempty : c.Runs f.pipes.length []
      { f with pipes := f.pipes ++ [c.stream []], notices, tasks } := hidle.append hsince
  have hwritten := puts_write hreads hempty hfits
  have hlength : f.pipes.length ≤ (f.pipes ++ [c.stream []]).length := by
    rw [List.length_append]
    exact Nat.le_add_right ..
  rw [send_of_way hway, hnone]
  dsimp only
  rw [hopen]
  refine ⟨hwritten.succeeded, ?_, hwritten.runs⟩
  exact ⟨hwritten.streams.endpoints, hwritten.streams.directory,
    Nat.le_trans hlength hwritten.streams.length_le⟩

theorem puts_send_of_runs (hreads : c.reception ≠ .drop) (hway : c.Way f)
    (hruns : c.Runs k pending f) (hfits : c.Fits payload) :
    c.Puts k (pending ++ [payload]) f (f.send c.source c.receiver c.protocol payload) := by
  have hsome : f.pipe? c.source c.receiver c.protocol = some k := by
    cases hpipe : f.pipe? c.source c.receiver c.protocol with
    | none => exact nomatch Fabric.isOpen_of_pipe?_eq_none hruns.pipe hpipe
    | some n =>
        obtain ⟨pipe, hn, hopen, hlane⟩ := Fabric.exists_of_pipe?_eq_some hpipe
        exact congrArg some ((hruns.only n pipe ⟨hlane, .inr hopen⟩).1 hn).1
  rw [send_of_way hway, hsome]
  exact puts_write hreads hruns hfits

theorem readFrame_stream (hfits : ∀ p ∈ pending, c.Fits p) :
    let frame := Fabric.readFrame (Fabric.frameLimit c.reception) (c.stream (Frame.wire pending))
    (frame = (none, Frame.wire []) ∧ pending.filter (· ≠ []) = []) ∨
      ∃ payload later, frame = (some (.ok (some payload)), Frame.wire later) ∧
        later <:+ pending ∧ pending.filter (· ≠ []) = payload :: later.filter (· ≠ []) := by
  have hholds : (ByteSource.ofBytes (Frame.wire pending)).Holds (Frame.wire pending) none :=
    ⟨List.append_nil _, rfl⟩
  unfold Fabric.readFrame
  rcases ByteSource.readFrame_wire hfits hholds with
    ⟨s', hread, hbytes, hempty⟩ | ⟨s', payload, later, hread, hbytes, hlater, hfilter⟩
  · refine .inl ⟨?_, hempty⟩
    simp only [stream, hread, hbytes]
    rfl
  · refine .inr ⟨payload, later, ?_, hlater, hfilter⟩
    simp only [stream, hread, hbytes]

/-- The reader gets the next payload that is not empty, or waits if there is none. -/
theorem take_runs (hruns : c.Runs k pending f) :
    ∃ frame? f' later, f.take k = (frame?, f') ∧ Streams f f' ∧ c.Runs k later f' ∧
      ((frame? = none ∧ pending.filter (· ≠ []) = [] ∧ later = []) ∨
        ∃ payload, frame? = some (.ok (some payload)) ∧
          pending.filter (· ≠ []) = payload :: later.filter (· ≠ [])) := by
  have htake : f.take k =
      ((Fabric.readFrame (Fabric.frameLimit c.reception) (c.stream (Frame.wire pending))).1,
        { f with
          pipes := f.pipes.set k (c.stream (Fabric.readFrame (Fabric.frameLimit c.reception)
            (c.stream (Frame.wire pending))).2) }) := by
    unfold Fabric.take
    rw [hruns.pipe]
    rfl
  have hset : ∀ pipe, Streams f { f with pipes := f.pipes.set k pipe } :=
    fun pipe => ⟨rfl, rfl, Nat.le_of_eq (List.length_set ..).symm⟩
  rw [htake]
  rcases readFrame_stream hruns.fits with
    ⟨hframe, hempty⟩ | ⟨payload, later, hframe, hlater, hfilter⟩
  · rw [hframe]
    refine ⟨none, _, [], rfl, hset _, hruns.set ?_, .inl ⟨rfl, hempty, rfl⟩⟩
    exact fun p hp => absurd hp List.not_mem_nil
  · rw [hframe]
    refine ⟨_, _, later, rfl, hset _, hruns.set ?_, .inr ⟨payload, rfl, hfilter⟩⟩
    exact fun p hp => hruns.fits p (hlater.subset hp)

/-! ## Runs of acts -/

/-- What holds of the traffic since the peers were connected. -/
structure Flows (c : Conduit) (t : Traffic) : Prop where
  way : c.Way t.fabric
  since_le : c.since ≤ t.fabric.pipes.length
  read_lt : ∀ x ∈ t.read, x.1 < t.fabric.pipes.length
  succeeded : ∀ s ∈ t.sendings c.lane, s.result = .ok ()
  state : (t.sendings c.lane = [] ∧ c.Idle t.fabric) ∨
    ∃ k pending, t.sendings c.lane ≠ [] ∧ c.Runs k pending t.fabric ∧
      t.handed k ++ pending.filter (· ≠ []) = (t.accepted c.lane).filter (· ≠ [])

theorem read_lt_step (hread : ∀ x ∈ t.read, x.1 < t.fabric.pipes.length)
    (hlength : t.fabric.pipes.length ≤ (t.step act).fabric.pipes.length) :
    ∀ x ∈ (t.step act).read, x.1 < (t.step act).fabric.pipes.length := by
  intro x hx
  refine Nat.lt_of_lt_of_le ?_ hlength
  rcases List.mem_append.1 hx with hx | hx
  · exact hread x hx
  · exact Fabric.lt_of_mem_readings hx

theorem sendings_of_passes (h : c.Passes f act) :
    (f.sendings act).filter (·.lane = c.lane) = [] := by
  cases act with
  | send lane payload =>
      apply List.filter_cons_of_neg
      exact fun hlane => h (of_decide_eq_true hlane)
  | _ => rfl

theorem readings_of_passes {pipe : Pipe} (h : c.Passes f act) (hpipe : f.pipes[k]? = some pipe)
    (hcarries : c.Carries k pipe) : (f.readings act).filter (·.1 = k) = [] := by
  cases act with
  | read n =>
      have hne : n ≠ k := by
        rintro rfl
        exact h pipe hpipe hcarries
      unfold Fabric.readings
      dsimp only
      split
      · exact List.filter_cons_of_neg (by simpa using hne)
      · rfl
  | _ => rfl

/-- Whatever passes the conduit by adds nothing to what was sent and read there. -/
theorem Flows.pass (h : c.Flows t) (hu : c.Undisturbed t.fabric (t.fabric.perform act))
    (hpasses : c.Passes t.fabric act) : c.Flows (t.step act) := by
  have hsendings : (t.step act).sendings c.lane = t.sendings c.lane := by
    rw [Traffic.sendings_step, sendings_of_passes hpasses, List.append_nil]
  have haccepted := Traffic.accepted_congr hsendings
  refine ⟨hu.way h.way, Nat.le_trans h.since_le hu.length_le,
    read_lt_step h.read_lt hu.length_le, ?_, ?_⟩
  · rw [hsendings]
    exact h.succeeded
  · rw [hsendings, haccepted]
    rcases h.state with ⟨hnone, hidle⟩ | ⟨k, pending, hsome, hruns, hfifo⟩
    · exact .inl ⟨hnone, hidle.undisturbed hu⟩
    · refine .inr ⟨k, pending, hsome, hruns.undisturbed hu, ?_⟩
      rw [Traffic.handed_step, readings_of_passes hpasses hruns.pipe (c.carries_stream k _),
        List.map_nil, List.append_nil]
      exact hfifo

/-- The stream that a payload is put into was there before, or is new and was never read. -/
theorem Flows.exists_puts (h : c.Flows t) (hreads : c.reception ≠ .drop) (hfits : c.Fits payload) :
    ∃ k pending, c.Puts k (pending ++ [payload]) t.fabric
        (t.fabric.send c.source c.receiver c.protocol payload) ∧
      t.handed k ++ pending.filter (· ≠ []) = (t.accepted c.lane).filter (· ≠ []) := by
  rcases h.state with ⟨hnone, hidle⟩ | ⟨k, pending, -, hruns, hfifo⟩
  · refine ⟨t.fabric.pipes.length, [],
      puts_send_of_idle hreads h.way hidle h.since_le hfits, ?_⟩
    have hunread : t.handed t.fabric.pipes.length = [] := by
      unfold Traffic.handed
      rw [List.map_eq_nil_iff, List.filter_eq_nil_iff]
      intro x hx
      have hlt := h.read_lt x hx
      simpa using Nat.ne_of_lt hlt
    unfold Traffic.accepted
    rw [hunread, hnone]
    rfl
  · exact ⟨k, pending, puts_send_of_runs hreads h.way hruns hfits, hfifo⟩

theorem Flows.send (h : c.Flows t) (hreads : c.reception ≠ .drop) (hfits : c.Fits payload) :
    c.Flows (t.step (.send c.lane payload)) := by
  obtain ⟨k, pending, hputs, hfifo⟩ := h.exists_puts hreads hfits
  have hlength : t.fabric.pipes.length ≤ (t.step (.send c.lane payload)).fabric.pipes.length :=
    hputs.streams.length_le
  have hsendings : (t.step (.send c.lane payload)).sendings c.lane =
      t.sendings c.lane ++ [⟨c.lane, payload, .ok ()⟩] :=
    Traffic.sendings_step_send hputs.succeeded
  have haccepted : (t.step (.send c.lane payload)).accepted c.lane =
      t.accepted c.lane ++ [payload] := Traffic.accepted_step_send hputs.succeeded
  have hhanded : (t.step (.send c.lane payload)).handed k = t.handed k := by
    rw [Traffic.handed_step]
    exact List.append_nil _
  refine ⟨h.way.streams hputs.streams, Nat.le_trans h.since_le hlength,
    read_lt_step h.read_lt hlength, ?_, .inr ⟨k, pending ++ [payload], ?_, hputs.runs, ?_⟩⟩
  · rw [hsendings]
    intro s hs
    rcases List.mem_append.1 hs with hs | hs
    · exact h.succeeded s hs
    · rw [List.mem_singleton.1 hs]
  · rw [hsendings]
    exact List.append_ne_nil_of_right_ne_nil _ (List.cons_ne_nil _ _)
  · rw [hhanded, haccepted, List.filter_append, List.filter_append, ← List.append_assoc, hfifo]

theorem Flows.read {pipe : Pipe} (h : c.Flows t) (hpipe : t.fabric.pipes[k]? = some pipe)
    (hcarries : c.Carries k pipe) : c.Flows (t.step (.read k)) := by
  rcases h.state with ⟨-, hidle⟩ | ⟨n, pending, hsome, hruns, hfifo⟩
  · exact absurd hcarries (hidle k pipe hpipe)
  · obtain rfl : k = n := ((hruns.only k pipe hcarries).1 hpipe).1
    obtain ⟨frame?, f', later, htake, hstreams, hruns', hframe⟩ := take_runs hruns
    have hfabric : (t.step (.read k)).fabric = f' := congrArg Prod.snd htake
    have hsendings : (t.step (.read k)).sendings c.lane = t.sendings c.lane := by
      rw [Traffic.sendings_step]
      exact List.append_nil _
    have haccepted := Traffic.accepted_congr hsendings
    have hhanded : (t.step (.read k)).handed k ++ later.filter (· ≠ []) =
        t.handed k ++ pending.filter (· ≠ []) := by
      rw [Traffic.handed_step]
      unfold Fabric.readings
      dsimp only
      rw [htake]
      rcases hframe with ⟨rfl, hempty, rfl⟩ | ⟨payload, rfl, hfilter⟩
      · rw [hempty]
        simp
      · rw [hfilter]
        simp
    constructor
    · rw [hfabric]
      exact h.way.streams hstreams
    · rw [hfabric]
      exact Nat.le_trans h.since_le hstreams.length_le
    · apply read_lt_step h.read_lt
      rw [hfabric]
      exact hstreams.length_le
    · rw [hsendings]
      exact h.succeeded
    · rw [hsendings, haccepted, hfabric]
      exact .inr ⟨k, later, hsome, hruns', hhanded.trans hfifo⟩

theorem Flows.step (h : c.Flows t) (hsound : t.fabric.Sound) (hreads : c.reception ≠ .drop)
    (hspares : c.Spares t.fabric act) : c.Flows (t.step act) := by
  by_cases hpasses : c.Passes t.fabric act
  · exact h.pass (undisturbed_perform hsound h.way hspares hpasses) hpasses
  · cases act with
    | send lane payload =>
        obtain rfl : lane = c.lane := Classical.not_not.1 hpasses
        exact h.send hreads (hspares rfl)
    | read k =>
        unfold Passes at hpasses
        push Not at hpasses
        obtain ⟨pipe, hpipe, hcarries⟩ := hpasses
        exact h.read hpipe hcarries
    | _ => exact absurd trivial hpasses

/-- Before the peers were connected, no open stream led from the one to the other. -/
theorem Joins.flows (h : c.Joins f) : f.Sound ∧ c.Flows { fabric := f } := by
  obtain ⟨f₀, hgrown, hdials, hapart⟩ := h.joined
  obtain ⟨hsound, hrelinks, hopen⟩ := hgrown.sound.dials hdials
  have hisOpen : (f.endpoint c.source).isClosed = false := by
    rw [hrelinks.isClosed]
    exact hopen c.source c.receiver hapart h.connected
  refine ⟨hsound, ⟨h.source, h.target, hisOpen, h.connected, h.registered⟩,
    Nat.le_of_eq h.since, nofun, nofun, .inl ⟨rfl, ?_⟩⟩
  rintro k pipe hpipe ⟨hlane, hlater | hopen⟩
  · rw [h.since] at hlater
    exact absurd (List.getElem?_eq_some_iff.1 hpipe).1 (Nat.not_lt.2 hlater)
  · obtain ⟨hsender, hpeer, -⟩ := Lane.mk.inj hlane
    change f.pipes[k]? = some pipe at hpipe
    rw [hrelinks.pipes] at hpipe
    have hmem := (hgrown.sound.proper pipe (List.mem_of_getElem? hpipe) hopen).1
    rw [hsender, hpeer] at hmem
    exact hapart hmem

theorem Lasts.flows (hjoins : c.Joins f) (h : c.Lasts f t) : t.fabric.Sound ∧ c.Flows t := by
  induction h with
  | start => exact hjoins.flows
  | step _ act hspares ih =>
      exact ⟨ih.1.perform act, ih.2.step ih.1 hjoins.reads hspares⟩

/-- While two peers stay connected, all that the one sends to the other on a protocol succeeds.
There is one stream for it from the first payload on, and none before. What was read off this
stream, together with what is left to read, are the payloads in the order in which they were sent,
without the empty ones; and when there is nothing to read, all of them have been read. -/
theorem Lasts.delivers (hjoins : c.Joins f) (h : c.Lasts f t) :
    (∀ s ∈ t.sendings c.lane, s.result = .ok ()) ∧
      (t.sendings c.lane = [] → ∀ k pipe, c.since ≤ k → t.fabric.pipes[k]? = some pipe →
        pipe.lane ≠ c.lane) ∧
      (t.sendings c.lane ≠ [] → ∃ k pipe,
        (∀ n, (∃ other, c.since ≤ n ∧ t.fabric.pipes[n]? = some other ∧ other.lane = c.lane) ↔
          n = k) ∧
        t.fabric.pipes[k]? = some pipe ∧ pipe.receiver = c.target ∧
        pipe.reader = some c.reception ∧
        t.handed k ++
            (ByteSource.readFrames (Fabric.frameLimit c.reception) (.ofBytes pipe.unread)).1 =
          (t.accepted c.lane).filter (· ≠ []) ∧
        ((t.fabric.take k).1 = none →
          t.handed k = (t.accepted c.lane).filter (· ≠ []))) := by
  obtain ⟨-, hflows⟩ := h.flows hjoins
  refine ⟨hflows.succeeded, fun hnone k pipe hk hpipe hlane => ?_, fun hsome => ?_⟩
  · rcases hflows.state with ⟨-, hidle⟩ | ⟨n, pending, hsome, -, -⟩
    · exact hidle k pipe hpipe ⟨hlane, .inl hk⟩
    · exact hsome hnone
  · rcases hflows.state with ⟨hnone, -⟩ | ⟨k, pending, -, hruns, hfifo⟩
    · exact absurd hnone hsome
    · have hholds : (ByteSource.ofBytes (Frame.wire pending)).Holds (Frame.wire pending) none :=
        ⟨List.append_nil _, rfl⟩
      refine ⟨k, _, fun n => ⟨?_, ?_⟩, hruns.pipe, rfl, rfl, ?_, fun hwaits => ?_⟩
      · rintro ⟨other, hn, hother, hlane⟩
        exact ((hruns.only n other ⟨hlane, .inl hn⟩).1 hother).1
      · rintro rfl
        exact ⟨_, hruns.since_le, hruns.pipe, rfl⟩
      · change t.handed k ++ (ByteSource.readFrames _ (.ofBytes (Frame.wire pending))).1 = _
        rw [ByteSource.readFrames_wire hruns.fits hholds]
        exact hfifo
      · obtain ⟨frame?, f', later, htake, -, -, hframe⟩ := take_runs hruns
        rw [htake] at hwaits
        rcases hframe with ⟨-, hempty, -⟩ | ⟨payload, rfl, -⟩
        · rw [← hfifo, hempty, List.append_nil]
        · exact nomatch hwaits

def eastward : Conduit :=
  ⟨Fabric.western, Fabric.eastern, 1, 0, Channel.sync.protocol, .collect, 0⟩

def unjoined : Fabric :=
  ([.host Fabric.eastern .nobody, .host Fabric.western .log,
    .accept 0 Channel.sync.protocol .collect] : List Act).foldl Fabric.perform .empty

def joined : Fabric := (unjoined.connect Fabric.eastern Fabric.western).2

/-- Two payloads with a keepalive between them, of which the first one has been read. -/
def readOnce : Traffic :=
  ([.send eastward.lane [1, 2], .send eastward.lane [], .send eastward.lane [3],
    .read 0] : List Act).foldl Traffic.step { fabric := joined }

def readTwice : Traffic := readOnce.step (.read 0)

theorem joins_joined : eastward.Joins joined where
  joined := ⟨unjoined, ⟨_, rfl⟩, .inl ⟨Fabric.eastern, Fabric.western, rfl⟩, by decide +kernel⟩
  connected := by decide +kernel
  source := by decide +kernel
  target := by decide +kernel
  registered := by decide +kernel
  reads := by decide
  since := by decide +kernel

theorem delivers_eastward :
    eastward.Joins joined ∧ eastward.Lasts joined readTwice ∧ readTwice.sendings eastward.lane ≠ [] ∧
      (readTwice.fabric.take 0).1 = none ∧ readTwice.handed 0 = [[1, 2], [3]] := by
  have hfits : ∀ payload ∈ [[1, 2], [], [3]], eastward.Fits payload := by decide +kernel
  have hlasts : eastward.Lasts joined readTwice :=
    ((((Lasts.start.step (.send eastward.lane [1, 2]) fun _ => hfits _ (by decide)).step
      (.send eastward.lane []) fun _ => hfits _ (by decide)).step
      (.send eastward.lane [3]) fun _ => hfits _ (by decide)).step (.read 0) trivial).step
      (.read 0) trivial
  have hsome : readTwice.sendings eastward.lane ≠ [] := by decide +kernel
  have hwaits : (readTwice.fabric.take 0).1 = none := by decide +kernel
  have haccepted : readTwice.accepted eastward.lane = [[1, 2], [], [3]] := by decide +kernel
  obtain ⟨k, pipe, honly, -, -, -, -, hall⟩ := (hlasts.delivers joins_joined).2.2 hsome
  have hstream : readTwice.fabric.pipes[0]?.map Pipe.lane = some eastward.lane := by decide +kernel
  obtain ⟨other, hother, hlane⟩ := Option.map_eq_some_iff.1 hstream
  obtain rfl : 0 = k := (honly 0).1 ⟨other, Nat.le_refl 0, hother, hlane⟩
  refine ⟨joins_joined, hlasts, hsome, hwaits, ?_⟩
  rw [hall hwaits, haccepted]
  rfl

end Conduit

end ChainPeer
