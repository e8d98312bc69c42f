import ChainPeer.Proofs.Presence

/-!
# The life of a service

A service is made from a valid configuration, if its channel for reports can be made, starts once and
stops once. A start or a stop out of turn is refused and does nothing. In its turn it takes effect,
whatever happened before and whatever fails in the world.
-/

namespace ChainPeer

namespace Config

variable {c : Config}

/-- The addresses are those that the texts stand for, in their order. -/
theorem map_ofText?_of_addresses {addresses : List Multiaddr} (h : c.addresses = .ok addresses) :
    c.bootstrap.map Multiaddr.ofText? = addresses.map some := by
  rw [Config.addresses] at h
  generalize c.bootstrap = texts at h ⊢
  induction texts generalizing addresses with
  | nil =>
      cases h
      rfl
  | cons text texts ih =>
      rw [List.mapM_cons] at h
      rw [List.map_cons]
      -- Reading stops at the first text that is not an address.
      split at h
      · next address haddress =>
        obtain ⟨result, hrest⟩ : ∃ result, Config.addresses { c with bootstrap := texts } = result :=
          ⟨_, rfl⟩
        rw [Config.addresses] at hrest
        rw [hrest] at h
        cases result with
        | error e => cases h
        | ok rest =>
            cases h
            rw [haddress, ih hrest, List.map_cons]
      · cases h

/-- What is checked of a configuration includes its addresses. -/
theorem exists_addresses_of_validate (h : c.validate = .ok ()) :
    ∃ addresses, c.addresses = .ok addresses := by
  cases haddresses : c.addresses with
  | ok addresses => exact ⟨addresses, rfl⟩
  | error e =>
      -- Either one of the limits is refused, or the addresses are.
      rw [validate, haddresses] at h
      repeat' split at h
      all_goals cases h

end Config

/-! ## Moves -/

/-- What can be done with a service. The node and the world around it may also change in any other
way, past the service. -/
inductive Move (σ : Type) where
  | start
  | stop
  | act (a : Act)
  | change (f : Site σ → Site σ)

namespace Move

variable {σ : Type}

/-- How far the life of a service has come after a move. -/
def leads (stage : Stage) : Move σ → Stage
  | start => if stage = .idle then .running else stage
  | stop => if stage = .running then .stopped else stage
  | act _ | change _ => stage

/-- How far the life of a service that was idle has come after moves, the oldest first. -/
def stageAfter (moves : List (Move σ)) : Stage := moves.foldl leads .idle

/-- The moves have started a service that was idle, and since the first start there was no stop. -/
def Running (moves : List (Move σ)) : Prop :=
  ∃ before later, moves = before ++ start :: later ∧ start ∉ before ∧ stop ∉ later

variable {moves : List (Move σ)} {m : Move σ}

theorem stageAfter_concat : stageAfter (moves ++ [m]) = m.leads (stageAfter moves) := by
  rw [stageAfter, List.foldl_append]
  rfl

theorem not_running_nil : ¬ Running ([] : List (Move σ)) := by
  rintro ⟨before, later, heq, -⟩
  exact List.append_ne_nil_of_right_ne_nil before (List.cons_ne_nil _ later) heq.symm

theorem running_concat :
    Running (moves ++ [m]) ↔ m = start ∧ start ∉ moves ∨ m ≠ stop ∧ Running moves := by
  constructor
  · rintro ⟨before, later, heq, hfirst, hsince⟩
    -- The last move is the first start, or it came after it.
    rcases later.eq_nil_or_concat with rfl | ⟨later, m', rfl⟩
    · obtain ⟨rfl, hlast⟩ := List.append_inj' heq rfl
      exact .inl ⟨(List.cons.inj hlast).1, hfirst⟩
    · rw [List.concat_eq_append] at heq hsince
      rw [← List.cons_append, ← List.append_assoc] at heq
      obtain ⟨rfl, hlast⟩ := List.append_inj' heq rfl
      obtain ⟨rfl, -⟩ := List.cons.inj hlast
      refine .inr ⟨?_, before, later, rfl, hfirst, ?_⟩
      · rintro rfl
        exact hsince (List.mem_append_right later List.mem_cons_self)
      · exact fun hmem => hsince (List.mem_append_left _ hmem)
  · rintro (⟨rfl, hfirst⟩ | ⟨hm, before, later, rfl, hfirst, hsince⟩)
    · exact ⟨moves, [], rfl, hfirst, List.not_mem_nil⟩
    · refine ⟨before, later ++ [m], by rw [List.append_assoc, List.cons_append], hfirst, ?_⟩
      intro hmem
      rcases List.mem_append.1 hmem with hmem | hmem
      · exact hsince hmem
      · exact hm (List.mem_singleton.1 hmem).symm

theorem stageAfter_eq_idle_iff : stageAfter moves = .idle ↔ start ∉ moves := by
  induction moves using List.reverseRecOn with
  | nil => exact iff_of_true rfl List.not_mem_nil
  | append_singleton moves m ih =>
      rw [stageAfter_concat, List.mem_append, List.mem_singleton, not_or, ← ih]
      cases m with
      | start =>
          rw [leads]
          split <;> simp_all
      | stop =>
          rw [leads]
          split <;> simp_all
      | act | change => simp [leads]

theorem stageAfter_eq_running_iff : stageAfter moves = .running ↔ Running moves := by
  induction moves using List.reverseRecOn with
  | nil => exact iff_of_false nofun not_running_nil
  | append_singleton moves m ih =>
      rw [stageAfter_concat, running_concat, ← ih, ← stageAfter_eq_idle_iff]
      cases m with
      | start =>
          rw [leads]
          split <;> simp_all
      | stop =>
          rw [leads]
          split <;> simp_all
      | act | change => simp [leads]

example :
    stageAfter ([.stop, .start, .act .refresh, .stop, .start] : List (Move Unit)) = .stopped :=
  rfl

end Move

/-! ## Lives -/

namespace Service

variable {σ : Type} {w : World σ} {s : Service σ}

/-- The service after a move. -/
def move (w : World σ) (s : Service σ) : Move σ → Service σ
  | .start => (s.start w).2
  | .stop => (s.stop w).2
  | .act a => s.act w a
  | .change f => s.update f

/-- The service after moves, the oldest first. -/
def moved (w : World σ) (moves : List (Move σ)) (s : Service σ) : Service σ :=
  moves.foldl (move w) s

theorem start_of_ne_idle (h : s.stage ≠ .idle) : s.start w = (.error .alreadyStarted, s) :=
  if_pos h

theorem start_of_idle (h : s.stage = .idle) :
    (s.start w).1 = .ok () ∧ (s.start w).2.stage = .running := by
  refine ⟨?_, ?_⟩
  · rw [start, if_neg (not_not_intro h)]
    dsimp only
    split <;> rfl
  · rw [start_eq h, stage_after]
    rfl

theorem stop_of_ne_running (h : s.stage ≠ .running) : s.stop w = (.error .notRunning, s) :=
  if_pos h

/-- What no change of a connection touches, no number of changes does. -/
theorem foldl_onConnection {α : Type} {f : Service σ → α}
    (hf : ∀ e s, f (s.onConnection e) = f s) (events : List ConnectionEvent) (s : Service σ) :
    f (events.foldl (fun s e => s.onConnection e) s) = f s := by
  induction events generalizing s with
  | nil => rfl
  | cons e events ih => exact (ih (s.onConnection e)).trans (hf e s)

theorem stage_stop (h : s.stage = .running) : (s.stop w).2.stage = .stopped := by
  rw [stop, if_neg (not_not_intro h)]
  exact foldl_onConnection stage_onConnection _ _

theorem world_onConnection (e : ConnectionEvent) (s : Service σ) :
    (s.onConnection e).site.world = s.site.world := by
  cases e with
  | established p address =>
      rw [onConnection]
      split <;> rfl
  | closed p => rfl

/-- A running service that is stopped closes the transport and says how that went. Nothing else is
asked of the world. -/
theorem stop_of_running (h : s.stage = .running) :
    (s.stop w).1 = (w.close s.site.world).1.1.mapError .transport ∧
      (s.stop w).2.site.world = (w.close s.site.world).2 := by
  rw [stop, if_neg (not_not_intro h)]
  exact ⟨rfl, foldl_onConnection (f := fun s => s.site.world) world_onConnection _ _⟩

theorem stage_move (w : World σ) (m : Move σ) (s : Service σ) :
    (s.move w m).stage = m.leads s.stage := by
  cases m with
  | start =>
      rw [move, Move.leads]
      split
      · next hidle => exact (start_of_idle hidle).2
      · next hidle => rw [start_of_ne_idle hidle]
  | stop =>
      rw [move, Move.leads]
      split
      · next hrunning => exact stage_stop hrunning
      · next hrunning => rw [stop_of_ne_running hrunning]
  | act a => exact stage_after w [a] s
  | change f => rfl

theorem stage_moved (hidle : s.stage = .idle) (w : World σ) (moves : List (Move σ)) :
    (s.moved w moves).stage = Move.stageAfter moves := by
  induction moves using List.reverseRecOn with
  | nil => exact hidle
  | append_singleton moves m ih =>
      rw [Move.stageAfter_concat, ← ih, moved, List.foldl_append]
      exact stage_move w m _

/-- What `new` gives for a configuration that is valid. -/
theorem new_of_validate {config : Config} (h : config.validate = .ok ()) (world : σ) :
    ∃ addresses, config.addresses = .ok addresses ∧
      let site : Site σ := ⟨.new config, w.setBootstrap addresses world⟩
      new w config world =
        if ReportQueue.maxCapacity < config.errorCapacity then (.error .crashed, site.world)
        else (.ok ⟨site, .idle, site.overview w, [], config.refreshInterval⟩, site.world) := by
  obtain ⟨addresses, haddresses⟩ := Config.exists_addresses_of_validate h
  refine ⟨addresses, haddresses, ?_⟩
  rw [new, h, haddresses]

end Service

/-- Both worlds take the bootstrap addresses in the same way, and look the same in an overview. All
else may differ. -/
structure World.SameWhenMade {σ : Type} (v w : World σ) : Prop where
  setBootstrap_eq : v.setBootstrap = w.setBootstrap
  localPeer_eq : v.localPeer = w.localPeer
  listening_eq : v.listening = w.listening
  isSynced_eq : v.isSynced = w.isSynced

namespace Service

variable {σ : Type} {w : World σ}

/-- To make a service, nothing is called but what the two worlds have in common. -/
theorem new_congr {v : World σ} (h : v.SameWhenMade w) (config : Config) (world : σ) :
    new v config world = new w config world := by
  simp only [new, Site.overview, h.setBootstrap_eq, h.localPeer_eq, h.listening_eq, h.isSynced_eq]

end Service

/-- The node keeps nothing of any peer, and remembers no transactions. -/
structure Node.IsBlank (n : Node) : Prop where
  exchanges : n.exchanges = .empty n.exchanges.protocol
  requests : n.requests = .empty
  roster : n.roster = .empty
  seen : n.seen = .empty n.seen.capacity
  peers : n.metrics.peers = 0

namespace Service

variable {σ : Type} {w : World σ} {s : Service σ}

theorem isBlank_stop (h : s.stage = .running) : (s.stop w).2.site.node.IsBlank := by
  rw [stop, if_neg (not_not_intro h)]
  exact ⟨rfl, rfl, rfl, rfl, rfl⟩

/-- A configuration that is not valid is refused and the world is not called. For a valid one the
transport is told the bootstrap addresses, in their order. If a channel cannot have room for as many
reports as the configuration says, the program then crashes; otherwise there is a service, with a
first overview that says what is read off the world. All other calls to the world could do anything:
none is made. After any moves: a start is carried out if there was none before, however dialling
ends, and is refused otherwise. A stop is carried out if there was none since the first start, and is
refused otherwise. What is refused changes nothing. A stop that is carried out closes the transport;
if that fails the error is returned, and in any case nothing is kept. -/
theorem starts_and_stops_once (w : World σ) (config : Config) (world : σ × List Event) :
    (∀ e, config.validate = .error e →
      new w.traced config world = (.error (.refused (.config e)), world)) ∧
    (config.validate = .ok () → ∃ addresses,
      config.bootstrap.map Multiaddr.ofText? = addresses.map some ∧
      let told := (w.setBootstrap addresses world.1, .bootstrapSet addresses :: world.2)
      (∀ v : World (σ × List Event), v.SameWhenMade w.traced →
        new v config world = new w.traced config world) ∧
      (ReportQueue.maxCapacity < config.errorCapacity →
        new w.traced config world = (.error .crashed, told)) ∧
      (config.errorCapacity ≤ ReportQueue.maxCapacity → ∃ s,
        new w.traced config world = (.ok s, told) ∧ s.site = ⟨.new config, told⟩ ∧
        s.overview.health = ⟨0, !w.isSynced told.1, !config.noBootstrap⟩ ∧
        s.overview.network = ⟨w.localPeer told.1, w.listening told.1⟩ ∧
        ∀ moves : List (Move (σ × List Event)),
          let t := s.moved w.traced moves
          (.start ∉ moves → (t.start w.traced).1 = .ok ()) ∧
          (.start ∈ moves → t.start w.traced = (.error .alreadyStarted, t)) ∧
          (¬ Move.Running moves → t.stop w.traced = (.error .notRunning, t)) ∧
          (Move.Running moves →
            (t.stop w.traced).1 = (w.close t.site.world.1).1.1.mapError .transport ∧
            (t.stop w.traced).2.site.world =
              ((w.close t.site.world.1).2, .closed :: t.site.world.2) ∧
            (t.stop w.traced).2.site.node.IsBlank))) := by
  constructor
  · intro e he
    rw [new, he]
  · intro hvalid
    obtain ⟨addresses, haddresses, hnew⟩ := new_of_validate (w := w.traced) hvalid world
    refine ⟨addresses, Config.map_ofText?_of_addresses haddresses, ?_⟩
    intro told
    refine ⟨fun v hv => new_congr hv config world, fun hlarge => ?_, fun hsmall => ?_⟩
    · rw [hnew, if_pos hlarge]
      rfl
    · rw [hnew, if_neg (Nat.not_lt.2 hsmall)]
      refine ⟨_, rfl, rfl, rfl, rfl, fun moves => ?_⟩
      intro t
      -- The stage of the service tells which calls are out of turn.
      have hstage : t.stage = Move.stageAfter moves := stage_moved rfl w.traced moves
      refine ⟨fun hnone => ?_, fun hsome => ?_, fun hrests => ?_, fun hruns => ?_⟩
      · exact (start_of_idle (hstage.trans (Move.stageAfter_eq_idle_iff.2 hnone))).1
      · exact start_of_ne_idle fun hidle => Move.stageAfter_eq_idle_iff.1 (hstage ▸ hidle) hsome
      · exact stop_of_ne_running fun hrunning =>
          hrests (Move.stageAfter_eq_running_iff.1 (hstage ▸ hrunning))
      · have hrunning := hstage.trans (Move.stageAfter_eq_running_iff.2 hruns)
        obtain ⟨hresult, hworld⟩ := stop_of_running (w := w.traced) hrunning
        exact ⟨hresult, hworld, isBlank_stop hrunning⟩

/-- A valid configuration that leaves no room for its channel crashes the program. Two transports
that differ in nothing but where they listen give different services. -/
theorem new_crashes_and_reads :
    let greedy : Config := { Config.default with errorCapacity := 2 ^ 61 }
    let w : World Unit := World.idle .zero
    let v : World Unit := { w with listening := fun _ => [[.memory 1]] }
    let addresses (w : World Unit) :=
      (new w.traced .default ((), [])).1.toOption.map (·.overview.network.addresses)
    greedy.validate = .ok () ∧ (new w.traced greedy ((), [])).1 = .error .crashed ∧
      addresses w = some [] ∧ addresses v = some [[.memory 1]] :=
  ⟨rfl, rfl, rfl, rfl⟩

/-- A transport that can neither dial nor close keeps nobody from starting and stopping. -/
example :
    let w : World Unit :=
      { World.idle .zero with
        bootstrap := fun a => ((.error .closed, []), a)
        close := fun a => ((.error .closed, []), a) }
    let started := unstarted.start w.traced
    let stopped := started.2.stop w.traced
    started.1 = .ok () ∧ stopped.1 = .error (.transport .closed) ∧
      stopped.2.stop w.traced = (.error .notRunning, stopped.2) :=
  ⟨rfl, rfl, rfl⟩

end Service

end ChainPeer
