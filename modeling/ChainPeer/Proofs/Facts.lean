import ChainPeer.Proofs.Course
import Mathlib.Data.List.DropRight
import Mathlib.Data.List.Induction

/-!
# What a roster keeps of the reports of a peer

A roster does not keep the reports of a peer, only what follows from them: the roles given last, and
the highest block with the hash that came with it last. What was reported before the peer was taken
out is forgotten. So a report that comes late, or over another channel than the newer ones, never
lowers the block that is known of the peer.
-/

namespace ChainPeer

/-- What follows from the reports of a peer, the oldest first: the roles that were given last, the
highest block that was reported, and the hash in the last report of this block. -/
def PeerFacts.ofReports (reports : List Report) : PeerFacts :=
  let highest := (reports.map Report.number).foldl max 0
  { roles := (reports.filterMap Report.roles).getLast?.getD 0
    bestNumber := highest
    bestHash := ((reports.filter (·.number = highest)).getLast?.map Report.hash).getD Hash.zero }

namespace Roster

/-- What can be done to a roster. -/
inductive Change where
  | insert (p : PeerId)
  | remove (p : PeerId)
  | report (p : PeerId) (x : Report)
  | clear

namespace Change

/-- The roster after a change. -/
def apply (r : Roster) : Change → Roster
  | insert p => (r.insert p).2
  | remove p => (r.remove p).2
  | report p x => r.note p (some x)
  | clear => .empty

/-- Whether a change takes a peer out. -/
def drops (p : PeerId) : Change → Bool
  | remove q => q = p
  | clear => true
  | insert _ | report .. => false

/-- Whether a change adds a peer that is not there. -/
def adds (p : PeerId) : Change → Bool
  | insert q | report q _ => q = p
  | remove _ | clear => false

/-- The report of a peer. -/
def report? (p : PeerId) : Change → Option Report
  | report q x => if q = p then some x else none
  | insert _ | remove _ | clear => none

/-- The changes since a peer was last taken out, the oldest first. -/
def since (p : PeerId) (changes : List Change) : List Change :=
  changes.rtakeWhile fun c => !c.drops p

end Change

/-- The roster after changes, the oldest first, with nobody in it before. -/
def ofChanges (changes : List Change) : Roster := changes.foldl Change.apply .empty

end Roster

/-! ## One more report -/

namespace PeerFacts

theorem bestNumber_le_report (facts : PeerFacts) (roles : Option Roles) (number : BlockNumber)
    (hash : Hash) : facts.bestNumber ≤ (facts.report roles number hash).bestNumber := by
  simp only [report]
  split
  · next h => exact h
  · exact UInt64.le_refl _

theorem ofReports_concat (reports : List Report) (x : Report) :
    ofReports (reports ++ [x]) = (ofReports reports).report x.roles x.number x.hash := by
  have hroles : ((reports ++ [x]).filterMap Report.roles).getLast?.getD 0 =
      x.roles.getD (ofReports reports).roles := by
    rw [List.filterMap_append, List.getLast?_append]
    cases hx : x.roles with
    | none => rw [List.filterMap_cons_none hx]; rfl
    | some roles => rw [List.filterMap_cons_some hx]; rfl
  have hhighest : ((reports ++ [x]).map Report.number).foldl max 0 =
      if (ofReports reports).bestNumber ≤ x.number then x.number
      else (ofReports reports).bestNumber := by
    rw [List.map_append, List.map_singleton, List.foldl_concat]
    rfl
  simp only [report]
  by_cases hle : (ofReports reports).bestNumber ≤ x.number
  · rw [if_pos hle] at hhighest ⊢
    have hlast : ((reports ++ [x]).filter (·.number = x.number)).getLast? = some x := by
      rw [List.filter_append, List.filter_cons_of_pos (by simp)]
      exact List.getLast?_concat
    rw [ofReports, hroles, hhighest, hlast]
    rfl
  · rw [if_neg hle] at hhighest ⊢
    have hlower : x.number ≠ (ofReports reports).bestNumber :=
      fun heq => hle (heq ▸ UInt64.le_refl _)
    have hsame : (reports ++ [x]).filter (·.number = (ofReports reports).bestNumber) =
        reports.filter (·.number = (ofReports reports).bestNumber) := by
      rw [List.filter_append, List.filter_cons_of_neg (by simpa using hlower)]
      exact List.append_nil _
    rw [ofReports, hroles, hhighest, hsame]
    rfl

/-- Of two reports of the same block the later one counts, and a lower block that is reported after
them gives nothing but the roles. -/
example (a b c : Hash) :
    ofReports [⟨some 1, 9, a⟩, ⟨none, 9, b⟩, ⟨some 4, 7, c⟩] = ⟨4, 9, b⟩ :=
  rfl

end PeerFacts

namespace Roster

/-! ## One more change -/

theorem get?_insert (r : Roster) (p q : PeerId) :
    (r.insert q).2.get? p = if q = p then some ((r.get? p).getD .unknown) else r.get? p := by
  rw [insert]
  split
  · next hhas =>
    by_cases hq : q = p
    · subst hq
      obtain ⟨facts, hfacts⟩ := Option.isSome_iff_exists.1 hhas
      rw [if_pos rfl, hfacts, Option.getD_some]
    · rw [if_neg hq]
  · next hhas =>
    by_cases hq : q = p
    · subst hq
      have hnone := Option.not_isSome_iff_eq_none.1 hhas
      rw [if_pos rfl, hnone]
      simp [get?]
    · simp [get?, Std.ExtTreeMap.getElem?_insert, hq]

theorem get?_remove (r : Roster) (p q : PeerId) :
    (r.remove q).2.get? p = if q = p then none else r.get? p := by
  simp [remove, get?, Std.ExtTreeMap.getElem?_erase]

theorem get?_apply (r : Roster) (c : Change) (p : PeerId) :
    (c.apply r).get? p =
      if c.drops p then none
      else if c.adds p then
        match c.report? p with
        | some x => some (((r.get? p).getD .unknown).report x.roles x.number x.hash)
        | none => some ((r.get? p).getD .unknown)
      else r.get? p := by
  cases c with
  | insert q => simp [Change.apply, Change.drops, Change.adds, Change.report?, get?_insert]
  | remove q => simp [Change.apply, Change.drops, Change.adds, get?_remove]
  | report q x =>
      by_cases hq : q = p
      · subst hq
        simp [Change.apply, Change.drops, Change.adds, Change.report?, note, get?_report]
      · simp [Change.apply, Change.drops, Change.adds, note, get?_report, hq]
  | clear => exact get?_empty p

theorem ofChanges_concat (changes : List Change) (c : Change) :
    ofChanges (changes ++ [c]) = c.apply (ofChanges changes) :=
  List.foldl_concat _ _ _ _

theorem Change.since_concat (p : PeerId) (changes : List Change) (c : Change) :
    since p (changes ++ [c]) = if c.drops p then [] else since p changes ++ [c] := by
  rw [since, List.rtakeWhile_concat]
  cases c.drops p <;> rfl

theorem Change.adds_of_report? {p : PeerId} {c : Change} {x : Report} (h : c.report? p = some x) :
    c.adds p = true := by
  cases c with
  | report q y =>
      rw [report?, Option.ite_none_right_eq_some] at h
      exact decide_eq_true h.1
  | insert | remove | clear => exact nomatch h

theorem Change.report?_of_not_adds {p : PeerId} {c : Change} (h : c.adds p = false) :
    c.report? p = none := by
  cases hx : c.report? p with
  | none => rfl
  | some x => exact nomatch h.symm.trans (adds_of_report? hx)

/-- A peer is in a roster if it was added since it was last taken out, with what follows from its
reports since then. -/
theorem get?_ofChanges (changes : List Change) (p : PeerId) :
    (ofChanges changes).get? p =
      if (Change.since p changes).any (·.adds p) then
        some (.ofReports ((Change.since p changes).filterMap (·.report? p)))
      else none := by
  -- The induction takes off the last change.
  induction changes using List.reverseRecOn with
  | nil => exact get?_empty p
  | append_singleton changes c ih =>
      rw [ofChanges_concat, get?_apply, Change.since_concat]
      cases hdrops : c.drops p with
      | true => rfl
      | false =>
          generalize hrecent : Change.since p changes = recent at ih ⊢
          have hknown : ((ofChanges changes).get? p).getD .unknown =
              .ofReports (recent.filterMap (·.report? p)) := by
            rw [ih]
            split
            · rfl
            · next hadds =>
              have hnone : recent.filterMap (·.report? p) = [] := by
                rw [List.filterMap_eq_nil_iff]
                intro c' hc'
                apply Change.report?_of_not_adds
                simpa using fun h => hadds (List.any_eq_true.2 ⟨c', hc', h⟩)
              rw [hnone]
              rfl
          simp only [Bool.false_eq_true, if_false, List.any_append, List.filterMap_append, hknown]
          cases hadds : c.adds p with
          | true =>
              cases hx : c.report? p with
              | none => simp [hadds, hx]
              | some x => simp [hadds, hx, PeerFacts.ofReports_concat]
          | false =>
              have hx := Change.report?_of_not_adds hadds
              simp [hadds, hx, ih]

/-! ## Late reports -/

/-- As long as a peer is not taken out, the best block that is known of it never falls. -/
theorem bestNumber_le_apply {r : Roster} {c : Change} {p : PeerId} {facts : PeerFacts}
    (hdrops : c.drops p = false) (hfacts : r.get? p = some facts) :
    ∃ facts', (c.apply r).get? p = some facts' ∧ facts.bestNumber ≤ facts'.bestNumber := by
  rw [get?_apply, hdrops, hfacts]
  cases c.adds p with
  | false => exact ⟨facts, rfl, UInt64.le_refl _⟩
  | true =>
      cases c.report? p with
      | none => exact ⟨facts, rfl, UInt64.le_refl _⟩
      | some x => exact ⟨_, rfl, facts.bestNumber_le_report x.roles x.number x.hash⟩

theorem bestNumber_le_onFrame {σ : Type} (w : World σ) {s : Site σ} {p : PeerId}
    {facts : PeerFacts} (hfacts : s.node.roster.get? p = some facts) (c : Channel) (q : PeerId)
    (frame : Except FrameError (Option Bytes)) :
    ∃ facts', (s.onFrame w c q frame).2.node.roster.get? p = some facts' ∧
      facts.bestNumber ≤ facts'.bestNumber := by
  rw [Site.roster_onFrame]
  cases s.reportInFrame w c q frame with
  | none => exact ⟨facts, hfacts, UInt64.le_refl _⟩
  | some x => exact bestNumber_le_apply (c := .report q x) rfl hfacts

/-- Whatever is done to a roster with nobody in it. A peer is in it if it was added or has reported
since it was last taken out, with the roles that it has given last since then, the highest block that
it has reported since then, and the hash in the last report of this block, each of them zero if there
is none. Adding a peer that is there changes nothing. The peers are listed once each, in their order,
with what is known of them. As long as a peer is not taken out, the best block known of it does not
fall, and no frame on any channel lowers it, whenever it comes. -/
theorem keeps_latest_and_highest {σ : Type} (w : World σ) (changes : List Change) (p : PeerId) :
    let r := ofChanges changes
    (r.get? p =
      if (Change.since p changes).any (·.adds p) then
        some (.ofReports ((Change.since p changes).filterMap (·.report? p)))
      else none) ∧
    (r.has p = true → r.insert p = (false, r)) ∧
    (r.has p = false → (r.insert p).1 = true) ∧
    r.toList.Pairwise (fun a b => compare a.1 b.1 = .lt) ∧
    (∀ facts, (p, facts) ∈ r.toList ↔ r.get? p = some facts) ∧
    (∀ (c : Change) facts, c.drops p = false → r.get? p = some facts →
      ∃ facts', (c.apply r).get? p = some facts' ∧ facts.bestNumber ≤ facts'.bestNumber) ∧
    ∀ (s : Site σ) (c : Channel) (q : PeerId) (frame : Except FrameError (Option Bytes)) facts,
      s.node.roster.get? p = some facts →
        ∃ facts', (s.onFrame w c q frame).2.node.roster.get? p = some facts' ∧
          facts.bestNumber ≤ facts'.bestNumber := by
  refine ⟨get?_ofChanges changes p, insert_of_has, insert_of_not_has, ?_, ?_, ?_, ?_⟩
  · exact Std.ExtTreeMap.ordered_keys_toList
  · exact fun facts => Std.ExtTreeMap.mem_toList_iff_getElem?_eq_some
  · exact fun c facts => bestNumber_le_apply
  · exact fun s c q frame facts hfacts => bestNumber_le_onFrame w hfacts c q frame

end Roster

end ChainPeer
