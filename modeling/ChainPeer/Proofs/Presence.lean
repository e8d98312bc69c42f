import ChainPeer.Proofs.Greeting

/-!
# Who is listed as connected

A service lists the peers of its roster. These are the connected peers and those that have reported
about themselves and have not left since, even if the report came in when the peer was not
connected. As long as peers report only while they are connected, the connected peers are listed
and nobody else.
-/

namespace ChainPeer

/-- The peer makes its reports only while it is connected. -/
def Service.ReportsConnected {σ : Type} (w : World σ) (p : PeerId) (connected : Bool)
    (s : Service σ) (acts : List Act) : Prop :=
  ∀ before c frame later, acts = before ++ .frame c p frame :: later →
    ((s.after w before).site.reportInFrame w c p frame).isSome = true →
      Act.connectsAfter p connected before = true

/-- The peers that a service lists, in their order. -/
def Service.listed {σ : Type} (s : Service σ) : List PeerId :=
  s.site.node.roster.toList.map Prod.fst

theorem Act.connectsAfter_append (p : PeerId) (connected : Bool) (acts acts' : List Act) :
    connectsAfter p connected (acts ++ acts') =
      connectsAfter p (connectsAfter p connected acts) acts' :=
  List.foldl_append

theorem Act.connectsAfter_of_stays {p : PeerId} {acts : List Act}
    (h : .connection (.closed p) ∉ acts) : connectsAfter p true acts = true := by
  induction acts with
  | nil => rfl
  | cons a acts ih =>
      obtain ⟨hne, hacts⟩ := not_or.1 (mt List.mem_cons.2 h)
      have hstill : a.connects p true = true := by
        cases a with
        | connection e =>
            cases e with
            | established q address => exact Bool.or_true _
            | closed q =>
                have hq : q ≠ p := fun hq => hne (hq ▸ rfl)
                simp [connects, hq]
        | _ => rfl
      rw [connectsAfter, List.foldl_cons, hstill]
      exact ih hacts

namespace Service

variable {σ : Type} {w : World σ} {p : PeerId} {s : Service σ} {acts : List Act}

theorem mem_listed (p : PeerId) (s : Service σ) :
    p ∈ s.listed ↔ s.site.node.roster.has p = true :=
  s.site.node.roster.mem_fst_toList p

theorem connectsAfter_of_reported {connected : Bool}
    (hreports : ReportsConnected w p connected s acts) (h : Reported w p s acts) :
    Act.connectsAfter p connected acts = true := by
  obtain ⟨before, c, frame, later, rfl, hreport, hstays⟩ := h
  have hbefore := hreports before c frame later rfl hreport
  rw [Act.connectsAfter_append, hbefore]
  refine Act.connectsAfter_of_stays fun hmem => ?_
  rcases List.mem_cons.1 hmem with heq | hmem
  · exact nomatch heq
  · exact hstays hmem

theorem stage_onConnection (e : ConnectionEvent) (s : Service σ) :
    (s.onConnection e).stage = s.stage := by
  cases e with
  | established p address =>
      rw [onConnection]
      split <;> rfl
  | closed p => rfl

theorem stage_after (w : World σ) (acts : List Act) (s : Service σ) :
    (s.after w acts).stage = s.stage := by
  induction acts generalizing s with
  | nil => rfl
  | cons a acts ih =>
      refine (ih (s.act w a)).trans ?_
      cases a with
      | connection e => exact stage_onConnection e s
      | publish m => cases m <;> rfl
      | greet p =>
          rw [act, greet]
          split <;> rfl
      | advance milliseconds =>
          rw [act, advance]
          split
          · rfl
          · split <;> rfl
      | frame | request | dial | refresh => rfl

/-- A running service that is stopped lists nobody. -/
theorem roster_stop (h : s.stage = .running) :
    (s.stop w).2.site.node.roster = .empty := by
  rw [stop, if_neg (not_not_intro h)]
  rfl

/-- From the beginning of its start on and whatever happens, a service lists the peers that are
connected, as the transport said at the start and changes of connections since, and the peers that
have reported about themselves and have not left since. So a peer that reports only while it is
connected is listed if and only if it is. Once the service is stopped nobody is connected to it, and
whatever happens then, the same holds. -/
theorem listed_iff (w : World σ) (hidle : s.stage = .idle) (hroster : s.site.node.roster = .empty)
    (acts : List Act) (p : PeerId) :
    (s.start w).2 = (s.attached w).after w (s.launch w) ∧
    let connected := decide (p ∈ w.connected (s.attached w).site.world)
    let t := (s.attached w).after w acts
    (p ∈ t.listed ↔ Act.connectsAfter p connected acts = true ∨
      Reported w p (s.attached w) acts) ∧
    (ReportsConnected w p connected (s.attached w) acts →
      (p ∈ t.listed ↔ Act.connectsAfter p connected acts = true)) ∧
    ∀ later, p ∈ ((t.stop w).2.after w later).listed ↔
      Act.connectsAfter p false later = true ∨ Reported w p (t.stop w).2 later := by
  refine ⟨start_eq hidle, ?_⟩
  have hlisted : p ∈ ((s.attached w).after w acts).listed ↔
      Act.connectsAfter p (decide (p ∈ w.connected (s.attached w).site.world)) acts = true ∨
        Reported w p (s.attached w) acts := by
    rw [mem_listed, has_after_iff, has_attached hroster]
  refine ⟨hlisted, fun hreports => ?_, fun later => ?_⟩
  · rw [hlisted]
    exact or_iff_left_of_imp (connectsAfter_of_reported hreports)
  · have hrunning : ((s.attached w).after w acts).stage = .running := stage_after w acts _
    rw [mem_listed, has_after_iff, roster_stop hrunning, Roster.has_empty]

/-- The stranger is listed while it is connected, and when its status has come in although it is
not connected. -/
theorem listed_iff_of_stranger :
    let w := (World.idle .zero).traced
    let t := unstarted.attached w
    let joins : Act := .connection (.established stranger none)
    stranger ∈ (t.after w [joins]).listed ∧
      stranger ∉ (t.after w [joins, .connection (.closed stranger)]).listed ∧
      stranger ∈ (t.after w [strangerStatus]).listed := by
  have hiff := fun acts => listed_iff (s := unstarted) (World.idle .zero).traced rfl rfl acts stranger
  refine ⟨?_, ?_, ?_⟩
  · exact (hiff _).2.1.2 (.inl (by decide +kernel))
  · intro hlisted
    have hreports : ReportsConnected (World.idle .zero).traced stranger
        (decide (stranger ∈ (World.idle .zero).traced.connected
          (unstarted.attached (World.idle .zero).traced).site.world))
        (unstarted.attached (World.idle .zero).traced)
        [.connection (.established stranger none), .connection (.closed stranger)] := by
      intro before c frame later heq
      have hmem : Act.frame c stranger frame ∈ before ++ .frame c stranger frame :: later :=
        List.mem_append_right before List.mem_cons_self
      rw [← heq] at hmem
      simp at hmem
    have hconnects := ((hiff _).2.2.1 hreports).1 hlisted
    revert hconnects
    decide +kernel
  · exact (hiff _).2.1.2 (.inr ⟨[], .legacy, _, [], rfl, by decide +kernel, List.not_mem_nil⟩)

/-- The stranger connects and leaves, and then its status comes in: it is listed from then on,
although it is not connected. -/
theorem listed_after_departure :
    let w := (World.idle .zero).traced
    let parting : List Act :=
      [.connection (.established stranger none), .connection (.closed stranger)]
    let parted := (unstarted.start w).2.after w parting
    parted.stage = .running ∧ stranger ∉ parted.listed ∧
      Act.connectsAfter stranger false (parting ++ [strangerStatus]) = false ∧
      stranger ∈ (parted.act w strangerStatus).listed := by
  decide +kernel

end Service

end ChainPeer
