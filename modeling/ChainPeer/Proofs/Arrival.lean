import ChainPeer.Proofs.Grammar

/-!
# How the bytes arrive

Reading frames does not depend on the pieces in which a source delivers its bytes, on how often it
has to be waited for, or on what the read buffer happens to hold. Two sources with the same bytes
and the same failure after them give the same, read by read, and are left with the same bytes, also
when reading goes on after an error.
-/

namespace ChainPeer.ByteSource

/-- The same bytes are left, in whatever pieces, and the same failure after them. -/
def Alike (s t : ByteSource) : Prop :=
  s.bytes = t.bytes ∧ s.failure = t.failure

/-- Two reads that give the same and leave the same. -/
def Agree {α : Type} (x y : α × ByteSource) : Prop :=
  x.1 = y.1 ∧ x.2.Alike y.2

variable {s t : ByteSource} {limit : Nat}

theorem agree_of_eq {α : Type} {x y : α × ByteSource} (h : x = y) : Agree x y :=
  h ▸ ⟨rfl, rfl, rfl⟩

theorem Agree.exists_eq {α : Type} {x y : α × ByteSource} {a : α} (h : Agree x y)
    (hx : x = (a, s)) : ∃ t, y = (a, t) ∧ s.Alike t := by
  subst hx
  exact ⟨y.2, Prod.ext h.1.symm rfl, h.2⟩

/-! ## One read -/

theorem next_agree (h : s.Alike t) : Agree s.next t.next := by
  obtain ⟨hbytes, hfailure⟩ := h
  rcases s.next_cases with ⟨b, s', hs, hb, hkept⟩ | ⟨hnil, hs⟩
  · rcases t.next_cases with ⟨b', t', ht, hb', hkept'⟩ | ⟨hnil', -⟩
    · rw [hb, hb'] at hbytes
      obtain ⟨rfl, hrest⟩ := List.cons.inj hbytes
      rw [hs, ht]
      exact ⟨rfl, hrest, by rw [hkept, hkept', hfailure]⟩
    · rw [hb, hnil'] at hbytes
      exact nomatch hbytes
  · rcases t.next_cases with ⟨b', t', -, hb', -⟩ | ⟨-, ht⟩
    · rw [hnil, hb'] at hbytes
      exact nomatch hbytes
    · apply agree_of_eq
      rw [hs, ht, hfailure]

/-- By induction on the bytes that the prefix may still have: both prefixes get the same byte. -/
theorem readGroups_agree (room : Nat) (seen : Bytes) (h : s.Alike t) :
    Agree (readGroups room seen s) (readGroups room seen t) := by
  induction room generalizing seen s t with
  | zero => exact ⟨rfl, h⟩
  | succ room ih =>
      obtain ⟨hnext, hrest⟩ := next_agree h
      rw [readGroups, readGroups]
      generalize s.next = x at hnext hrest
      generalize t.next = y at hnext hrest
      obtain ⟨delivery, s'⟩ := x
      obtain ⟨delivery', t'⟩ := y
      obtain rfl : delivery = delivery' := hnext
      cases delivery with
      | byte b =>
          dsimp only
          split
          · split <;> exact ⟨rfl, hrest⟩
          · exact ih _ hrest
      | finished =>
          dsimp only
          split <;> exact ⟨rfl, hrest⟩
      | failed reason => exact ⟨rfl, hrest⟩

theorem readLength_agree (h : s.Alike t) : Agree s.readLength t.readLength :=
  readGroups_agree Varint.maxLength [] h

/-- Short reads add up to the same payload. -/
theorem readPayload_agree (n : Nat) (h : s.Alike t) :
    Agree (readPayload n s) (readPayload n t) := by
  obtain ⟨hbytes, hfailure⟩ := h
  rcases readPayload_cases n s with ⟨payload, s', hs, hlen, hpayload, hkept⟩ | ⟨hshort, hs⟩
  · rcases readPayload_cases n t with ⟨payload', t', ht, hlen', hpayload', hkept'⟩ | ⟨hshort', -⟩
    · rw [hpayload, hpayload'] at hbytes
      obtain ⟨rfl, hrest⟩ := List.append_inj hbytes (hlen.trans hlen'.symm)
      rw [hs, ht]
      exact ⟨rfl, hrest, by rw [hkept, hkept', hfailure]⟩
    · rw [← hbytes, hpayload, List.length_append] at hshort'
      omega
  · rcases readPayload_cases n t with ⟨payload', t', -, hlen', hpayload', -⟩ | ⟨-, ht⟩
    · rw [hbytes, hpayload', List.length_append] at hshort
      omega
    · apply agree_of_eq
      rw [hs, ht, hfailure]

theorem readFrame_agree (limit : Nat) (h : s.Alike t) :
    Agree (s.readFrame limit) (t.readFrame limit) := by
  fun_induction readFrame limit s generalizing t with
  | case1 s e s' hs =>
      obtain ⟨t', ht, hrest⟩ := (readLength_agree h).exists_eq hs
      rw [readFrame_of_readLength_error ht]
      exact ⟨rfl, hrest⟩
  | case2 s s' hs =>
      obtain ⟨t', ht, hrest⟩ := (readLength_agree h).exists_eq hs
      rw [readFrame_of_readLength_none ht]
      exact ⟨rfl, hrest⟩
  | case3 s s' hs ih =>
      obtain ⟨t', ht, hrest⟩ := (readLength_agree h).exists_eq hs
      rw [readFrame_of_readLength_some ht, if_pos rfl]
      exact ih hrest
  | case4 s length s' hs hzero hlarge =>
      obtain ⟨t', ht, hrest⟩ := (readLength_agree h).exists_eq hs
      rw [readFrame_of_readLength_some ht, if_neg hzero, if_pos hlarge]
      exact ⟨rfl, hrest⟩
  | case5 s length s' hs hzero hlarge payload s'' hread =>
      obtain ⟨t', ht, hrest⟩ := (readLength_agree h).exists_eq hs
      obtain ⟨t'', hread', hrest'⟩ := (readPayload_agree length.toNat hrest).exists_eq hread
      rw [readFrame_of_readLength_some ht, if_neg hzero, if_neg hlarge, hread']
      exact ⟨rfl, hrest'⟩
  | case6 s length s' hs hzero hlarge e s'' hread =>
      obtain ⟨t', ht, hrest⟩ := (readLength_agree h).exists_eq hs
      obtain ⟨t'', hread', hrest'⟩ := (readPayload_agree length.toNat hrest).exists_eq hread
      rw [readFrame_of_readLength_some ht, if_neg hzero, if_neg hlarge, hread']
      exact ⟨rfl, hrest'⟩

/-! ## Reads in a row -/

/-- What `count` reads in a row give, whether or not some of them fail. -/
def readings (limit : Nat) : (count : Nat) → ByteSource → List (Except FrameError (Option Bytes))
  | 0, _ => []
  | count + 1, s => (s.readFrame limit).1 :: readings limit count (s.readFrame limit).2

/-- What is left after as many reads. -/
def after (limit : Nat) : (count : Nat) → ByteSource → ByteSource
  | 0, s => s
  | count + 1, s => after limit count (s.readFrame limit).2

/-- How many bytes as many reads have taken. What they left in the read buffer does not count. -/
def taken (limit count : Nat) (s : ByteSource) : Nat :=
  s.bytes.length - (after limit count s).bytes.length

theorem readings_agree (limit count : Nat) (h : s.Alike t) :
    readings limit count s = readings limit count t ∧
      (after limit count s).Alike (after limit count t) := by
  induction count generalizing s t with
  | zero => exact ⟨rfl, h⟩
  | succ count ih =>
      obtain ⟨hresult, hrest⟩ := readFrame_agree limit h
      obtain ⟨hresults, hleft⟩ := ih hrest
      rw [readings, readings, hresult, hresults]
      exact ⟨rfl, hleft⟩

theorem after_suffix (limit count : Nat) (s : ByteSource) :
    (after limit count s).bytes <:+ s.bytes := by
  induction count generalizing s with
  | zero => exact List.suffix_refl s.bytes
  | succ count ih => exact (ih _).trans (readFrame_suffix limit s)

/-- In whatever pieces a byte string is delivered, with waits anywhere, and whatever comes after it:
as many reads as one likes give the same, failed ones included, and take as many bytes each as if
the whole string were delivered at once. -/
theorem readings_in_pieces (limit count : Nat) (pieces : List Bytes) (failure : Option String) :
    readings limit count ⟨pieces, failure⟩ = readings limit count ⟨[pieces.flatten], failure⟩ ∧
      taken limit count ⟨pieces, failure⟩ = taken limit count ⟨[pieces.flatten], failure⟩ ∧
      (after limit count ⟨pieces, failure⟩).bytes =
        pieces.flatten.drop (taken limit count ⟨pieces, failure⟩) := by
  have halike : Alike ⟨pieces, failure⟩ ⟨[pieces.flatten], failure⟩ :=
    ⟨(List.append_nil _).symm, rfl⟩
  obtain ⟨hresults, hleft⟩ := readings_agree limit count halike
  refine ⟨hresults, ?_, ?_⟩
  · rw [taken, taken, hleft.1, halike.1]
  · exact (List.suffix_iff_eq_drop.1 (after_suffix limit count ⟨pieces, failure⟩))

end ChainPeer.ByteSource
