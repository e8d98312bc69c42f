import ChainPeer.Proofs.Frames

/-!
# The grammar of frames

Which bytes a read consumes. A payload was preceded by keepalives and by its length, and a source is
finished only after keepalives; a length that is not the shortest encoding of any number is refused.
The one looseness lies in prefixes of ten bytes, of whose last group only one bit is read: a length
is the shortest encoding of a number, but that number may be larger than what is made of it.
-/

namespace ChainPeer

/-- What a reader takes for a complete prefix: everything up to the first byte that may end one, or
as many bytes as a prefix may have. -/
def Varint.IsComplete (b : Bytes) : Prop :=
  (∃ groups last, b = groups ++ [last] ∧ Continues groups ∧ isLast last = true ∧
    b.length ≤ maxLength) ∨
  (Continues b ∧ b.length = maxLength)

/-- Keepalives one after the other: zeros, and prefixes of ten bytes that are read as zero. -/
inductive Frame.Idle : Bytes → Prop where
  | nil : Idle []
  | zero {rest : Bytes} (hrest : Idle rest) : Idle (0 :: rest)
  | wrapped {b rest : Bytes} (hb : Varint.Spells b 0) (hlen : b.length = Varint.maxLength)
      (hrest : Idle rest) : Idle (b ++ rest)

/-- Every length that is read as zero is a keepalive. -/
theorem Frame.Idle.cons {b rest : Bytes} (hb : Varint.Spells b 0) (hrest : Idle rest) :
    Idle (b ++ rest) := by
  rcases Nat.lt_or_ge b.length Varint.maxLength with hlt | hge
  · have hzero : b = [0] := (hb.eq_encode hlt).trans (Varint.spells_zero.eq_encode (by decide)).symm
    rw [hzero]
    exact hrest.zero
  · exact .wrapped hb (Nat.le_antisymm hb.length_le hge) hrest

namespace ByteSource

variable {s s' : ByteSource} {limit : Nat} {failure : Option String} {rest : Bytes}

/-! ## What was consumed -/

theorem bytes_of_next_byte {b : UInt8} (h : s.next = (.byte b, s')) : s.bytes = b :: s'.bytes := by
  rcases s.next_cases with ⟨b', rest, hnext, hbytes, -⟩ | ⟨-, hnext⟩
  · obtain ⟨hb, rfl⟩ := Prod.mk.inj (hnext.symm.trans h)
    rw [hbytes, Delivery.byte.inj hb]
  · have hfinal := (Prod.mk.inj (hnext.symm.trans h)).1
    split at hfinal <;> exact nomatch hfinal

theorem bytes_of_next_finished (h : s.next = (.finished, s')) : s.bytes = [] ∧ s'.bytes = [] := by
  rcases s.next_cases with ⟨b, rest, hnext, -, -⟩ | ⟨hbytes, hnext⟩
  · exact nomatch (Prod.mk.inj (hnext.symm.trans h)).1
  · refine ⟨hbytes, ?_⟩
    rw [← (Prod.mk.inj (hnext.symm.trans h)).2]
    rfl

theorem next_suffix (s : ByteSource) : s.next.2.bytes <:+ s.bytes := by
  rcases s.next_cases with ⟨b, rest, hnext, hbytes, -⟩ | ⟨-, hnext⟩
  · rw [hnext, hbytes]
    exact List.suffix_cons b _
  · rw [hnext]
    exact List.nil_suffix

theorem readGroups_suffix (room : Nat) (seen : Bytes) (s : ByteSource) :
    (readGroups room seen s).2.bytes <:+ s.bytes := by
  have hnext := next_suffix s
  fun_induction readGroups room seen s with
  | case1 => exact List.suffix_refl _
  | case2 seen s room b rest heq => rw [heq] at hnext; exact hnext
  | case3 seen s room b rest heq => rw [heq] at hnext; exact hnext
  | case4 seen s room b rest heq hlast ih =>
      rw [heq] at hnext
      exact (ih (next_suffix rest)).trans hnext
  | case5 s room rest heq => rw [heq] at hnext; exact hnext
  | case6 seen s room rest heq => rw [heq] at hnext; exact hnext
  | case7 seen s room reason rest heq => rw [heq] at hnext; exact hnext

theorem readLength_suffix {result : Except FrameError (Option UInt64)}
    (h : s.readLength = (result, s')) : s'.bytes <:+ s.bytes := by
  have hsuffix := readGroups_suffix Varint.maxLength [] s
  rw [show readGroups Varint.maxLength [] s = _ from h] at hsuffix
  exact hsuffix

theorem readPayload_ok {n : Nat} {payload : Bytes} (h : readPayload n s = (.ok payload, s')) :
    payload.length = n ∧ s.bytes = payload ++ s'.bytes := by
  rcases readPayload_cases n s with ⟨payload', rest, hread, hlen, hbytes, -⟩ | ⟨-, hread⟩
  · obtain ⟨hpayload, rfl⟩ := Prod.mk.inj (hread.symm.trans h)
    obtain rfl := Except.ok.inj hpayload
    exact ⟨hlen, hbytes⟩
  · exact nomatch (Prod.mk.inj (hread.symm.trans h)).1

theorem readPayload_error {n : Nat} {e : FrameError} (h : readPayload n s = (.error e, s')) :
    s'.bytes = [] := by
  rcases readPayload_cases n s with ⟨payload, rest, hread, -, -, -⟩ | ⟨-, hread⟩
  · exact nomatch (Prod.mk.inj (hread.symm.trans h)).1
  · rw [← (Prod.mk.inj (hread.symm.trans h)).2]
    rfl

theorem readFrame_suffix (limit : Nat) (s : ByteSource) :
    (s.readFrame limit).2.bytes <:+ s.bytes := by
  fun_induction readFrame limit s with
  | case1 s e rest h => exact readLength_suffix h
  | case2 s rest h => exact readLength_suffix h
  | case3 s rest h ih => exact ih.trans (readLength_suffix h)
  | case4 s length rest h => exact readLength_suffix h
  | case5 s length rest h _ _ payload rest' hpayload =>
      have hrest : rest'.bytes <:+ rest.bytes := ⟨payload, (readPayload_ok hpayload).2.symm⟩
      exact hrest.trans (readLength_suffix h)
  | case6 s length rest h _ _ e rest' hpayload =>
      rw [readPayload_error hpayload]
      exact List.nil_suffix

/-! ## What was read -/

theorem readGroups_some {room : Nat} {seen : Bytes} {n : UInt64}
    (h : readGroups room seen s = (.ok (some n), s')) :
    ∃ groups last, s.bytes = groups ++ last :: s'.bytes ∧ Varint.Continues groups ∧
      Varint.isLast last = true ∧ groups.length < room ∧
      Varint.decode? (seen ++ (groups ++ [last])) = some n := by
  fun_induction readGroups room seen s with
  | case1 => simp at h
  | case2 seen s room b rest hnext hlast n' hdecode =>
      obtain ⟨rfl, rfl⟩ := by simpa using h
      exact ⟨[], b, bytes_of_next_byte hnext, by simp [Varint.Continues], hlast, by simp, hdecode⟩
  | case3 => simp at h
  | case4 seen s room b rest hnext hlast ih =>
      obtain ⟨groups, last, hbytes, hgroups, hends, hlen, hdecode⟩ := ih h
      have hb : Varint.isLast b = false := by simpa using hlast
      refine ⟨b :: groups, last, ?_, ?_, hends, ?_, ?_⟩
      · rw [bytes_of_next_byte hnext, hbytes, List.cons_append]
      · intro x hx
        rcases List.mem_cons.1 hx with rfl | hx
        · exact hb
        · exact hgroups x hx
      · rw [List.length_cons]
        omega
      · rwa [List.append_assoc, List.singleton_append] at hdecode
  | case5 => simp at h
  | case6 => simp at h
  | case7 => simp at h

theorem readGroups_none {room : Nat} {seen : Bytes}
    (h : readGroups room seen s = (.ok none, s')) : seen = [] ∧ s.bytes = [] ∧ s'.bytes = [] := by
  fun_induction readGroups room seen s with
  | case1 => simp at h
  | case2 => simp at h
  | case3 => simp at h
  | case4 seen s room b rest hnext hlast ih => simp at ih h; exact absurd h (by simpa using ih)
  | case5 s room rest hnext =>
      obtain rfl : rest = s' := (Prod.mk.inj h).2
      exact ⟨rfl, bytes_of_next_finished hnext⟩
  | case6 => simp at h
  | case7 => simp at h

/-- A length was read off the shortest encoding of a number. -/
theorem readLength_some {n : UInt64} (h : s.readLength = (.ok (some n), s')) :
    ∃ b, s.bytes = b ++ s'.bytes ∧ Varint.Spells b n.toNat := by
  obtain ⟨groups, last, hbytes, hgroups, hlast, hlen, hdecode⟩ := readGroups_some h
  refine ⟨groups ++ [last], by rw [hbytes, List.append_assoc, List.singleton_append], ?_⟩
  refine Varint.spells_of_decode? hgroups hlast ?_ hdecode
  rw [List.length_append, List.length_singleton]
  omega

/-- A payload was read off keepalives, its length and itself. -/
theorem readFrame_some {q : Bytes} (h : s.readFrame limit = (.ok (some q), s')) :
    (1 ≤ q.length ∧ q.length ≤ limit) ∧
      ∃ idle b, Frame.Idle idle ∧ Varint.Spells b q.length ∧
        s.bytes = (idle ++ b ++ q) ++ s'.bytes := by
  fun_induction readFrame limit s with
  | case1 => simp at h
  | case2 => simp at h
  | case3 s rest hlength ih =>
      obtain ⟨b₀, hbytes₀, hspells₀⟩ := readLength_some hlength
      obtain ⟨hsize, idle, b, hidle, hspells, hbytes⟩ := ih h
      refine ⟨hsize, b₀ ++ idle, b, .cons hspells₀ hidle, hspells, ?_⟩
      rw [hbytes₀, hbytes]
      simp only [List.append_assoc]
  | case4 => simp at h
  | case5 s length rest hlength hzero hlimit payload rest' hpayload =>
      obtain ⟨rfl, rfl⟩ := by simpa using h
      obtain ⟨b, hbytes, hspells⟩ := readLength_some hlength
      obtain ⟨hlen, hrest⟩ := readPayload_ok hpayload
      have hpos : length.toNat ≠ 0 := fun h => hzero (UInt64.toNat_inj.1 h)
      refine ⟨⟨by omega, by omega⟩, [], b, .nil, hlen ▸ hspells, ?_⟩
      rw [hbytes, hrest, List.nil_append, List.append_assoc]
  | case6 => simp at h

/-- A source is finished only after keepalives. -/
theorem readFrame_none (h : s.readFrame limit = (.ok none, s')) :
    Frame.Idle s.bytes ∧ s'.bytes = [] := by
  fun_induction readFrame limit s with
  | case1 => simp at h
  | case2 s rest hlength =>
      obtain rfl : rest = s' := (Prod.mk.inj h).2
      obtain ⟨-, hbytes, hrest⟩ := readGroups_none hlength
      rw [hbytes]
      exact ⟨.nil, hrest⟩
  | case3 s rest hlength ih =>
      obtain ⟨b, hbytes, hspells⟩ := readLength_some hlength
      obtain ⟨hidle, hrest⟩ := ih h
      rw [hbytes]
      exact ⟨.cons hspells hidle, hrest⟩
  | case4 => simp at h
  | case5 => simp at h
  | case6 => simp at h

/-! ## What is refused -/

theorem readFrame_idle (limit : Nat) {idle : Bytes} (hidle : Frame.Idle idle)
    (h : s.Holds (idle ++ rest) failure) :
    ∃ s' : ByteSource, s.readFrame limit = s'.readFrame limit ∧ s'.Holds rest failure := by
  induction hidle generalizing s with
  | nil => exact ⟨s, rfl, h⟩
  | zero _ ih =>
      obtain ⟨s₁, hread₁, h₁⟩ := readFrame_keepalive limit Varint.spells_zero h
      obtain ⟨s', hread, h'⟩ := ih h₁
      exact ⟨s', hread₁.trans hread, h'⟩
  | wrapped hb _ _ ih =>
      rw [List.append_assoc] at h
      obtain ⟨s₁, hread₁, h₁⟩ := readFrame_keepalive limit hb h
      obtain ⟨s', hread, h'⟩ := ih h₁
      exact ⟨s', hread₁.trans hread, h'⟩

/-- A complete prefix that is not the shortest encoding of any number is refused. -/
theorem readLength_refused {b : Bytes} (hb : Varint.IsComplete b) (hbad : ∀ n, ¬ Varint.Spells b n)
    (h : s.Holds (b ++ rest) failure) : ∃ s', s.readLength = (.error .badLength, s') := by
  rcases hb with ⟨groups, last, rfl, hgroups, hlast, hlen⟩ | ⟨hgroups, hlen⟩
  · obtain ⟨s', -, hread⟩ := readLength_concat hgroups hlast hlen h
    cases hdecode : Varint.decode? (groups ++ [last]) with
    | none =>
        rw [hdecode] at hread
        exact ⟨s', hread⟩
    | some n => exact absurd (Varint.spells_of_decode? hgroups hlast hlen hdecode) (hbad _)
  · obtain ⟨s', -, hread⟩ := readGroups_continues hgroups 0 [] h
    rw [hlen, Nat.add_zero, readGroups] at hread
    exact ⟨s', hread⟩

/-- What a read consumes. A payload within the limit comes after keepalives and a prefix that spells
its length, which together with it is its frame unless the prefix has ten bytes; a source is
finished after keepalives; and a complete prefix that is not the shortest encoding of a number below
`2 ^ 70` is refused wherever it is reached. -/
theorem readFrame_grammar (limit : Nat) (s : ByteSource) :
    ∃ consumed, s.bytes = consumed ++ (s.readFrame limit).2.bytes ∧
      (∀ q, (s.readFrame limit).1 = .ok (some q) →
        (1 ≤ q.length ∧ q.length ≤ limit) ∧
          ∃ idle b, Frame.Idle idle ∧ Varint.Spells b q.length ∧ consumed = idle ++ b ++ q ∧
            (b.length < Varint.maxLength → consumed = idle ++ Frame.encode q)) ∧
      ((s.readFrame limit).1 = .ok none → Frame.Idle consumed) ∧
      ∀ idle b rest, s.bytes = idle ++ b ++ rest → Frame.Idle idle → Varint.IsComplete b →
        (∀ n, ¬ Varint.Spells b n) → (s.readFrame limit).1 = .error .badLength := by
  obtain ⟨consumed, hconsumed⟩ := readFrame_suffix limit s
  refine ⟨consumed, hconsumed.symm, ?_, ?_, ?_⟩
  · intro q hq
    obtain ⟨hsize, idle, b, hidle, hspells, hbytes⟩ := readFrame_some (Prod.ext hq rfl)
    rw [← hconsumed] at hbytes
    obtain rfl : consumed = idle ++ b ++ q := List.append_cancel_right hbytes
    refine ⟨hsize, idle, b, hidle, hspells, rfl, fun hlen => ?_⟩
    rw [Frame.encode, ← hspells.eq_encode hlen, List.append_assoc]
  · intro hnone
    obtain ⟨hidle, hrest⟩ := readFrame_none (Prod.ext hnone rfl)
    rwa [← hconsumed, hrest, List.append_nil] at hidle
  · intro idle b rest hbytes hidle hb hbad
    rw [List.append_assoc] at hbytes
    obtain ⟨s₁, hread, h₁⟩ := readFrame_idle limit hidle ⟨hbytes, rfl⟩
    obtain ⟨s', hlength⟩ := readLength_refused hb hbad h₁
    rw [hread, readFrame_of_readLength_error hlength]

/-- The shortest encoding of `2 ^ 64` is no encoding of a smaller number, and is taken for a
keepalive. -/
theorem readFrame_encode_two_pow_64 :
    Varint.IsComplete (List.replicate 9 0x80 ++ [2]) ∧
      (∀ n < 2 ^ 64, Varint.encode n ≠ List.replicate 9 0x80 ++ [2]) ∧
      ((ofBytes (List.replicate 9 0x80 ++ [2])).readFrame 1048576).1 = .ok none := by
  have hencode : Varint.encode (2 ^ 64) = List.replicate 9 0x80 ++ [2] := by cbv
  have hgroups : Varint.Continues (List.replicate 9 0x80) := fun b hb =>
    (List.eq_of_mem_replicate hb).symm ▸ rfl
  refine ⟨.inl ⟨_, 2, rfl, hgroups, rfl, by decide⟩, ?_, ?_⟩
  · intro n hn h
    have heq := Varint.encode_injective (h.trans hencode.symm)
    omega
  · have hspells : Varint.Spells (List.replicate 9 0x80 ++ [2]) 0 :=
      ⟨2 ^ 64, by decide, hencode.symm, by decide⟩
    have hholds : (ofBytes (List.replicate 9 0x80 ++ [2])).Holds
        ((List.replicate 9 0x80 ++ [2]) ++ []) none := ⟨rfl, rfl⟩
    obtain ⟨s₁, hread, h₁⟩ := readFrame_keepalive 1048576 hspells hholds
    obtain ⟨s', hnone⟩ := s₁.readFrame_of_holds_nil h₁
    rw [hread, hnone]

end ByteSource

end ChainPeer
