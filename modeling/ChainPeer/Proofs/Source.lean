import ChainPeer.Frame
import ChainPeer.Proofs.Varint

/-!
# Reading from a byte source

What is read off a source depends only on the bytes it still has to deliver and on the failure
that follows them, not on the pieces. Every statement here says what one read does to these two:
a length prefix and a payload are read back from their encodings with whatever follows left over,
and a source that ends inside of them is cut short.
-/

namespace ChainPeer.ByteSource

/-- The bytes that a source still has to deliver, and the failure that follows them. -/
def Holds (s : ByteSource) (bytes : Bytes) (failure : Option String) : Prop :=
  s.bytes = bytes ∧ s.failure = failure

variable {s : ByteSource} {failure : Option String} {rest : Bytes}

/-! ## Single bytes -/

theorem next_of_holds_cons {b : UInt8} (h : s.Holds (b :: rest) failure) :
    ∃ s', s.next = (.byte b, s') ∧ s'.Holds rest failure := by
  obtain ⟨hbytes, hfailure⟩ := h
  rcases s.next_cases with ⟨b', s', hnext, hcons, hkept⟩ | ⟨hnil, -⟩
  · obtain ⟨rfl, hrest⟩ := List.cons.inj (hbytes.symm.trans hcons)
    exact ⟨s', hnext, hrest.symm, hkept.trans hfailure⟩
  · exact nomatch hbytes.symm.trans hnil

theorem next_of_holds_nil (h : s.Holds [] none) :
    ∃ s', s.next = (.finished, s') ∧ s'.Holds [] none := by
  obtain ⟨hbytes, hfailure⟩ := h
  rcases s.next_cases with ⟨b, s', -, hcons, -⟩ | ⟨-, hnext⟩
  · exact nomatch hbytes.symm.trans hcons
  · rw [hfailure] at hnext
    exact ⟨⟨[], none⟩, hnext, rfl, rfl⟩

/-! ## Length prefixes -/

/-- Bytes that do not end a prefix are taken into it. -/
theorem readGroups_continues {groups : Bytes} (hgroups : Varint.Continues groups) (room : Nat)
    (seen : Bytes) (h : s.Holds (groups ++ rest) failure) :
    ∃ s', s'.Holds rest failure ∧
      readGroups (groups.length + room) seen s = readGroups room (seen ++ groups) s' := by
  induction groups generalizing s seen with
  | nil => exact ⟨s, h, by simp⟩
  | cons b groups ih =>
      obtain ⟨s₁, hnext, h₁⟩ := next_of_holds_cons h
      have hb : Varint.isLast b = false := hgroups b (by simp)
      have hgroups' : Varint.Continues groups := fun x hx => hgroups x (by simp [hx])
      obtain ⟨s', h', heq⟩ := ih hgroups' (seen ++ [b]) h₁
      refine ⟨s', h', ?_⟩
      rw [List.length_cons, Nat.add_right_comm, readGroups, hnext]
      simp only [hb, Bool.false_eq_true, if_false]
      rw [heq, List.append_assoc, List.singleton_append]

/-- A prefix is read up to the byte that ends it, whether or not it is accepted. -/
theorem readLength_concat {groups : Bytes} {last : UInt8} (hgroups : Varint.Continues groups)
    (hlast : Varint.isLast last = true) (hlen : (groups ++ [last]).length ≤ Varint.maxLength)
    (h : s.Holds ((groups ++ [last]) ++ rest) failure) :
    ∃ s', s'.Holds rest failure ∧ s.readLength =
      match Varint.decode? (groups ++ [last]) with
      | some n => (.ok (some n), s')
      | none => (.error .badLength, s') := by
  rw [List.append_assoc, List.singleton_append] at h
  rw [List.length_append, List.length_singleton] at hlen
  obtain ⟨room, hroom⟩ := Nat.exists_eq_add_of_le hlen
  obtain ⟨s₁, h₁, hgroupsEq⟩ := readGroups_continues hgroups (1 + room) [] h
  obtain ⟨s', hnext, h'⟩ := next_of_holds_cons h₁
  refine ⟨s', h', ?_⟩
  rw [readLength, hroom, Nat.add_assoc, hgroupsEq, Nat.add_comm 1 room, readGroups, hnext]
  cases hdecode : Varint.decode? (groups ++ [last]) <;>
    simp only [hlast, if_true, List.nil_append, hdecode]

/-- The shortest encoding of a number that ten groups can hold is accepted. Of the number only the
lower 64 bits are read. -/
theorem readLength_encode {n : Nat} (hn : n < 2 ^ 70)
    (h : s.Holds (Varint.encode n ++ rest) failure) :
    ∃ s', s.readLength = (.ok (some (UInt64.ofNat n)), s') ∧ s'.Holds rest failure := by
  obtain ⟨groups, last, hencode, hgroups, hlast, -⟩ := Varint.encode_eq_append n
  have hlen := Varint.length_encode_le_maxLength hn
  have hdecode := Varint.decode?_encode n
  rw [hencode] at h hlen hdecode
  obtain ⟨s', h', hread⟩ := readLength_concat hgroups hlast hlen h
  rw [hdecode] at hread
  exact ⟨s', hread, h'⟩

theorem readLength_of_holds_nil (h : s.Holds [] none) :
    ∃ s', s.readLength = (.ok none, s') ∧ s'.Holds [] none := by
  obtain ⟨s', hnext, h'⟩ := next_of_holds_nil h
  refine ⟨s', ?_, h'⟩
  rw [readLength, Varint.maxLength, readGroups, hnext]
  rfl

/-- A source that ends inside a length prefix. -/
theorem readLength_cut {groups : Bytes} (hgroups : Varint.Continues groups) (hne : groups ≠ [])
    (hlen : groups.length < Varint.maxLength) (h : s.Holds groups none) :
    ∃ s', s.readLength = (.error .truncated, s') := by
  obtain ⟨room, hroom⟩ := Nat.exists_eq_add_of_lt hlen
  rw [← List.append_nil groups] at h
  obtain ⟨s₁, h₁, hgroupsEq⟩ := readGroups_continues hgroups (room + 1) [] h
  obtain ⟨s', hnext, -⟩ := next_of_holds_nil h₁
  refine ⟨s', ?_⟩
  rw [readLength, hroom, Nat.add_assoc, hgroupsEq, readGroups, hnext]
  simp only [List.nil_append, hne, if_false]

/-! ## Payloads -/

theorem readPayload_append {payload : Bytes} (h : s.Holds (payload ++ rest) failure) :
    ∃ s', readPayload payload.length s = (.ok payload, s') ∧ s'.Holds rest failure := by
  obtain ⟨hbytes, hfailure⟩ := h
  rcases readPayload_cases payload.length s with ⟨payload', s', hread, hlen, htaken, hkept⟩ |
    ⟨hshort, -⟩
  · obtain ⟨rfl, hrest⟩ := List.append_inj (hbytes.symm.trans htaken) hlen.symm
    exact ⟨s', hread, hrest.symm, hkept.trans hfailure⟩
  · rw [hbytes, List.length_append] at hshort
    omega

/-- A source that ends inside a payload. -/
theorem readPayload_cut {n : Nat} {b : Bytes} (hlen : b.length < n) (h : s.Holds b none) :
    ∃ s', readPayload n s = (.error .truncated, s') := by
  obtain ⟨hbytes, hfailure⟩ := h
  rcases readPayload_cases n s with ⟨payload, s', -, hpayload, htaken, -⟩ | ⟨-, hread⟩
  · rw [hbytes] at htaken
    rw [htaken, List.length_append] at hlen
    omega
  · rw [hfailure] at hread
    exact ⟨⟨[], none⟩, hread⟩

end ChainPeer.ByteSource
