import ChainPeer.SeenWindow

/-!
# Windows of hashes seen, as lists

The set and the queue of a window hold the same hashes. A new hash goes to the end of the queue,
and the oldest one leaves from its front as soon as there are too many.
-/

namespace ChainPeer.SeenWindow

variable {w : SeenWindow} {x : Hash}

/-- The set and the queue of the window hold the same hashes, none of them twice. -/
structure Synced (w : SeenWindow) : Prop where
  contains_iff : ∀ h, w.members.contains h = true ↔ h ∈ w.toList
  nodup : w.toList.Nodup
  size_eq : w.members.size = w.toList.length

/-- The window holds no more hashes than there is room for. -/
structure Valid (w : SeenWindow) : Prop extends w.Synced where
  length_le : w.toList.length ≤ w.capacity

theorem valid_empty (capacity : Nat) : (empty capacity).Valid where
  contains_iff h := by simp [empty, toList]
  nodup := List.nodup_nil
  size_eq := rfl
  length_le := Nat.zero_le capacity

/-- The window with a hash added, even if there are too many then. -/
def push (w : SeenWindow) (x : Hash) : SeenWindow :=
  { w with members := w.members.insert x, newer := x :: w.newer }

theorem toList_push (w : SeenWindow) (x : Hash) : (w.push x).toList = w.toList ++ [x] := by
  rw [toList, toList, push, List.reverse_cons, List.append_assoc]

theorem Synced.push (hw : w.Synced) (hx : x ∉ w.toList) : (w.push x).Synced where
  contains_iff h := by
    rw [toList_push, SeenWindow.push, Std.ExtTreeSet.contains_insert, Bool.or_eq_true,
      beq_iff_eq, Std.LawfulEqCmp.compare_eq_iff_eq, hw.contains_iff, List.mem_append,
      List.mem_singleton]
    exact or_comm.trans (or_congr_right eq_comm)
  nodup := by
    rw [toList_push, List.nodup_append]
    refine ⟨hw.nodup, List.pairwise_singleton _ x, ?_⟩
    rintro h hmem _ hx' rfl
    exact hx (List.mem_singleton.1 hx' ▸ hmem)
  size_eq := by
    have hcontains : w.members.contains x ≠ true := fun h => hx ((hw.contains_iff x).1 h)
    rw [toList_push, SeenWindow.push, Std.ExtTreeSet.size_insert, if_neg, hw.size_eq,
      List.length_append, List.length_singleton]
    exact hcontains

theorem dropOldest_of_toList {oldest : Hash} {rest : List Hash} (h : w.toList = oldest :: rest) :
    w.dropOldest.members = w.members.erase oldest ∧ w.dropOldest.toList = rest ∧
      w.dropOldest.capacity = w.capacity := by
  unfold dropOldest
  cases holder : w.older with
  | cons oldest' older =>
      rw [toList, holder, List.cons_append] at h
      obtain ⟨rfl, rfl⟩ := List.cons.inj h
      exact ⟨rfl, rfl, rfl⟩
  | nil =>
      rw [toList, holder, List.nil_append] at h
      rw [h]
      exact ⟨rfl, List.append_nil rest, rfl⟩

theorem Synced.dropOldest {oldest : Hash} {rest : List Hash} (hw : w.Synced)
    (h : w.toList = oldest :: rest) : w.dropOldest.Synced := by
  obtain ⟨hmembers, hlist, -⟩ := dropOldest_of_toList h
  have hnodup := hw.nodup
  rw [h, List.nodup_cons] at hnodup
  refine ⟨fun x => ?_, ?_, ?_⟩
  · rw [hmembers, hlist, Std.ExtTreeSet.contains_erase, Bool.and_eq_true, hw.contains_iff, h,
      bne_iff_ne, Ne, Std.LawfulEqCmp.compare_eq_iff_eq, List.mem_cons]
    constructor
    · rintro ⟨hne, rfl | hmem⟩
      · exact absurd rfl hne
      · exact hmem
    · intro hmem
      refine ⟨?_, .inr hmem⟩
      rintro rfl
      exact hnodup.1 hmem
  · rw [hlist]
    exact hnodup.2
  · have hcontains : w.members.contains oldest = true :=
      (hw.contains_iff oldest).2 (h ▸ List.mem_cons_self)
    rw [hmembers, hlist, Std.ExtTreeSet.size_erase, if_pos, hw.size_eq, h, List.length_cons,
      Nat.add_sub_cancel]
    exact hcontains

theorem insert_of_mem (hw : w.Synced) (h : x ∈ w.toList) : w.insert x = (false, w) := by
  rw [insert, if_pos ((hw.contains_iff x).2 h)]

/-- A new hash goes to the end of the queue, from whose front the oldest one leaves if there is no
more room. -/
theorem insert_of_not_mem (hw : w.Valid) (h : x ∉ w.toList) :
    (w.insert x).1 = true ∧
      (w.insert x).2.toList = (w.toList ++ [x]).drop (w.toList.length + 1 - w.capacity) ∧
      (w.insert x).2.capacity = w.capacity ∧ (w.insert x).2.Valid := by
  have hsynced := hw.toSynced.push h
  have hlength := hw.length_le
  have hinsert : w.insert x =
      (true, if (w.push x).members.size > w.capacity then (w.push x).dropOldest else w.push x) := by
    rw [insert, if_neg fun hx => h ((hw.contains_iff x).1 hx)]
    rfl
  have hsize : (w.push x).members.size = w.toList.length + 1 := by
    rw [hsynced.size_eq, toList_push, List.length_append, List.length_singleton]
  rw [hinsert, hsize]
  by_cases hfull : w.toList.length + 1 > w.capacity
  · have hexcess : w.toList.length + 1 - w.capacity = 1 := by omega
    obtain ⟨oldest, rest, hlist⟩ := List.exists_cons_of_ne_nil
      (List.append_ne_nil_of_right_ne_nil w.toList (List.cons_ne_nil x []))
    have hpush : (w.push x).toList = oldest :: rest := (toList_push w x).trans hlist
    obtain ⟨-, hrest, hcapacity⟩ := dropOldest_of_toList hpush
    rw [if_pos hfull, hexcess, hlist, List.drop_one, List.tail_cons]
    refine ⟨rfl, hrest, hcapacity, hsynced.dropOldest hpush, ?_⟩
    have hlen := congrArg List.length hlist
    rw [List.length_append, List.length_singleton, List.length_cons] at hlen
    rw [hrest, hcapacity]
    change rest.length ≤ w.capacity
    omega
  · have hroom : w.toList.length + 1 - w.capacity = 0 := by omega
    rw [if_neg hfull, hroom, List.drop_zero]
    refine ⟨rfl, toList_push w x, rfl, hsynced, ?_⟩
    rw [toList_push, List.length_append, List.length_singleton]
    change w.toList.length + 1 ≤ w.capacity
    omega

/-- What was inserted is remembered, unless there is no room at all. -/
theorem mem_insert (hw : w.Valid) (hroom : 0 < w.capacity) : x ∈ (w.insert x).2.toList := by
  by_cases hx : x ∈ w.toList
  · rwa [insert_of_mem hw.toSynced hx]
  · have hlength := hw.length_le
    have hexcess : w.toList.length + 1 - w.capacity ≤ w.toList.length := by omega
    rw [(insert_of_not_mem hw hx).2.1, List.drop_append_of_le_length hexcess]
    exact List.mem_append_right _ List.mem_cons_self

theorem Valid.insert (hw : w.Valid) (x : Hash) :
    (w.insert x).2.Valid ∧ (w.insert x).2.capacity = w.capacity := by
  by_cases hx : x ∈ w.toList
  · rw [insert_of_mem hw.toSynced hx]
    exact ⟨hw, rfl⟩
  · obtain ⟨-, -, hcapacity, hvalid⟩ := insert_of_not_mem hw hx
    exact ⟨hvalid, hcapacity⟩

end ChainPeer.SeenWindow
