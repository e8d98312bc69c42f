import ChainPeer.Varint
import Mathlib.Algebra.Group.Nat.Defs

/-!
# Variable-length integers read back

The shortest encoding of a number consists of bytes that do not end a prefix and one that does,
which is a zero only if it stands alone. Its groups join to the number again, and every prefix whose
last byte could not be left out is the shortest encoding of what its groups join to. Ten groups hold
70 bits, of which 64-bit arithmetic keeps 64: the accepted prefixes are the shortest encodings of
the numbers below `2 ^ 70`, and those of more than 64 bits are read as smaller ones.
-/

namespace ChainPeer.Varint

/-- Every byte of a prefix but the last. -/
def Continues (groups : Bytes) : Prop := ∀ b ∈ groups, isLast b = false

theorem toNat_byte {n : Nat} (h : n < 256) : (UInt8.ofNat n).toNat = n :=
  UInt8.toNat_ofNat_of_lt' h

theorem toNat_lt_of_isLast {b : UInt8} (h : isLast b = true) : b.toNat < 128 := by
  rw [isLast, decide_eq_true_eq, UInt8.lt_iff_toNat_lt] at h
  exact h

theorem le_toNat_of_not_isLast {b : UInt8} (h : isLast b = false) : 128 ≤ b.toNat := by
  rw [isLast, decide_eq_false_iff_not, UInt8.lt_iff_toNat_lt] at h
  exact Nat.not_lt.1 h

theorem isLast_ofNat {n : Nat} (h : n < 128) : isLast (UInt8.ofNat n) = true := by
  rw [isLast, decide_eq_true_eq, UInt8.lt_iff_toNat_lt, toNat_byte (by omega)]
  exact h

theorem isLast_ofNat_add (n : Nat) : isLast (UInt8.ofNat (n % 128 + 128)) = false := by
  have hlt : n % 128 + 128 < 256 := by omega
  rw [isLast, decide_eq_false_iff_not, UInt8.lt_iff_toNat_lt, toNat_byte hlt]
  change ¬ n % 128 + 128 < 128
  omega

theorem encode_of_lt {n : Nat} (h : n < 128) : encode n = [UInt8.ofNat n] := by
  rw [encode, if_pos h]

theorem encode_of_ge {n : Nat} (h : ¬ n < 128) :
    encode n = UInt8.ofNat (n % 128 + 128) :: encode (n / 128) := by
  rw [encode, if_neg h]

/-- An encoding ends with the first byte that may end a prefix, which is zero for zero only. -/
theorem encode_eq_append (n : Nat) :
    ∃ groups last, encode n = groups ++ [last] ∧ Continues groups ∧ isLast last = true ∧
      (last = 0 → n = 0) := by
  induction n using Nat.strongRecOn with
  | ind n ih =>
      by_cases hn : n < 128
      · refine ⟨[], UInt8.ofNat n, encode_of_lt hn, by simp [Continues], isLast_ofNat hn, ?_⟩
        intro hzero
        have htoNat : (UInt8.ofNat n).toNat = 0 := congrArg UInt8.toNat hzero
        rwa [toNat_byte (by omega)] at htoNat
      · obtain ⟨groups, last, hencode, hgroups, hlast, hzero⟩ := ih (n / 128) (by omega)
        refine ⟨UInt8.ofNat (n % 128 + 128) :: groups, last, ?_, ?_, hlast, ?_⟩
        · rw [encode_of_ge hn, hencode, List.cons_append]
        · intro b hb
          rcases List.mem_cons.1 hb with rfl | hb
          · exact isLast_ofNat_add n
          · exact hgroups b hb
        · intro h
          have hdiv := hzero h
          omega

theorem length_encode_le {width n : Nat} (h : n < 128 ^ width) (hwidth : 0 < width) :
    (encode n).length ≤ width := by
  induction width generalizing n with
  | zero => omega
  | succ width ih =>
      by_cases hn : n < 128
      · rw [encode_of_lt hn, List.length_singleton]
        omega
      · have hdiv : n / 128 < 128 ^ width := by
          rw [Nat.div_lt_iff_lt_mul (by omega), ← Nat.pow_succ]
          exact h
        have hpos : 0 < width := by
          rcases Nat.eq_zero_or_pos width with rfl | hpos
          · rw [Nat.pow_zero] at hdiv
            omega
          · exact hpos
        rw [encode_of_ge hn, List.length_cons]
        exact Nat.succ_le_succ (ih hdiv hpos)

theorem length_encode_le_maxLength {n : Nat} (h : n < 2 ^ 70) : (encode n).length ≤ maxLength :=
  length_encode_le h (by decide)

theorem toNat_value_cons (b : UInt8) (rest : Bytes) :
    (value (b :: rest)).toNat = b.toNat % 128 ||| 128 * (value rest).toNat % 2 ^ 64 := by
  rw [value, UInt64.toNat_or, UInt8.toNat_toUInt64, UInt8.toNat_and, UInt64.toNat_shiftLeft]
  have hand : b.toNat &&& (0x7f : UInt8).toNat = b.toNat % 128 :=
    Nat.and_two_pow_sub_one_eq_mod b.toNat 7
  have hshift : (value rest).toNat <<< ((7 : UInt64).toNat % 64) = 128 * (value rest).toNat := by
    rw [Nat.shiftLeft_eq, Nat.mul_comm]
    rfl
  rw [hand, hshift]

/-! ## The number that groups stand for -/

/-- The groups of a prefix joined without a limit on their number. -/
def joined : Bytes → Nat
  | [] => 0
  | b :: rest => b.toNat % 128 + 128 * joined rest

/-- Joining in 64-bit arithmetic loses the bits from the 64th on and nothing else. -/
theorem toNat_value (groups : Bytes) : (value groups).toNat = joined groups % 2 ^ 64 := by
  induction groups with
  | nil => rfl
  | cons b rest ih =>
      have hsplit : 128 * (joined rest % 2 ^ 64) % 2 ^ 64 = 2 ^ 7 * (joined rest % 2 ^ 57) := by
        omega
      have hlow : b.toNat % 128 < 2 ^ 7 := Nat.mod_lt _ (by decide)
      rw [toNat_value_cons, ih, joined, hsplit, Nat.or_comm, ← Nat.two_pow_add_eq_or_of_lt hlow]
      omega

theorem joined_encode (n : Nat) : joined (encode n) = n := by
  induction n using Nat.strongRecOn with
  | ind n ih =>
      by_cases hn : n < 128
      · rw [encode_of_lt hn, joined, joined, toNat_byte (by omega)]
        omega
      · rw [encode_of_ge hn, joined, toNat_byte (by omega), ih (n / 128) (by omega)]
        omega

theorem encode_injective {m n : Nat} (h : encode m = encode n) : m = n := by
  have hjoined := congrArg joined h
  rwa [joined_encode, joined_encode] at hjoined

theorem joined_lt (groups : Bytes) : joined groups < 128 ^ groups.length := by
  induction groups with
  | nil => decide
  | cons b rest ih =>
      rw [joined, List.length_cons, Nat.pow_succ]
      omega

theorem joined_pos (groups : Bytes) {last : UInt8} (hlast : isLast last = true)
    (hne : last ≠ 0) : 0 < joined (groups ++ [last]) := by
  induction groups with
  | nil =>
      have hlt := toNat_lt_of_isLast hlast
      have hpos : last.toNat ≠ 0 := fun h => hne (UInt8.toNat_inj.1 h)
      rw [List.nil_append, joined, joined]
      omega
  | cons b groups ih =>
      rw [List.cons_append, joined]
      omega

/-- Groups of which the last one could not be left out are the shortest encoding of the number
that they join to. -/
theorem encode_joined {groups : Bytes} {last : UInt8} (hgroups : Continues groups)
    (hlast : isLast last = true) (hmin : groups = [] ∨ last ≠ 0) :
    encode (joined (groups ++ [last])) = groups ++ [last] := by
  induction groups with
  | nil =>
      have hlt := toNat_lt_of_isLast hlast
      have hjoined : joined ([] ++ [last]) = last.toNat := by
        rw [List.nil_append, joined, joined]
        omega
      rw [hjoined, encode_of_lt hlt, UInt8.ofNat_toNat, List.nil_append]
  | cons b groups ih =>
      have hne : last ≠ 0 := hmin.resolve_left (List.cons_ne_nil _ _)
      have hb : 128 ≤ b.toNat := le_toNat_of_not_isLast (hgroups b List.mem_cons_self)
      have hb' : b.toNat < 256 := b.toNat_lt
      have hpos := joined_pos groups hlast hne
      have hrest := ih (fun x hx => hgroups x (List.mem_cons_of_mem b hx)) (.inr hne)
      have hlow : joined (b :: (groups ++ [last])) % 128 + 128 = b.toNat := by
        rw [joined]
        omega
      have hhigh : joined (b :: (groups ++ [last])) / 128 = joined (groups ++ [last]) := by
        rw [joined]
        omega
      have hge : ¬ joined (b :: (groups ++ [last])) < 128 := by
        rw [joined]
        omega
      rw [List.cons_append, encode_of_ge hge, hlow, hhigh, hrest, UInt8.ofNat_toNat]

/-! ## Prefixes that are accepted -/

theorem decode?_concat_eq_some_iff {groups : Bytes} {last : UInt8} {n : UInt64} :
    decode? (groups ++ [last]) = some n ↔
      (groups = [] ∨ last ≠ 0) ∧ value (groups ++ [last]) = n := by
  have hminimal : ((groups ++ [last]).length > 1 ∧ (groups ++ [last]).getLast? = some 0) ↔
      ¬ (groups = [] ∨ last ≠ 0) := by
    rw [List.getLast?_concat, List.length_append, List.length_singleton, Option.some.injEq,
      not_or, Decidable.not_not, ← List.length_eq_zero_iff]
    exact and_congr_left fun _ => by omega
  rw [decode?]
  split
  · next h => exact iff_of_false nofun fun h' => hminimal.1 h h'.1
  · next h =>
    rw [hminimal, Decidable.not_not] at h
    rw [Option.some.injEq]
    exact ⟨fun hn => ⟨h, hn⟩, fun hn => hn.2⟩

/-- The shortest encoding of a number is accepted, and what is read off it is the number without
its bits from the 64th on. -/
theorem decode?_encode (n : Nat) : decode? (encode n) = some (UInt64.ofNat n) := by
  obtain ⟨groups, last, hencode, -, -, hzero⟩ := encode_eq_append n
  have hvalue : value (encode n) = UInt64.ofNat n := by
    apply UInt64.toNat_inj.1
    rw [toNat_value, joined_encode, UInt64.toNat_ofNat']
  have hmin : groups = [] ∨ last ≠ 0 := by
    by_cases hlast : last = 0
    · rw [hzero hlast, encode_of_lt (by decide)] at hencode
      have hlen := congrArg List.length hencode
      rw [List.length_append] at hlen
      exact .inl (List.length_eq_zero_iff.1 (Nat.succ.inj hlen).symm)
    · exact .inr hlast
  rw [hencode] at hvalue ⊢
  exact decode?_concat_eq_some_iff.2 ⟨hmin, hvalue⟩

/-- The byte string is the shortest encoding of a number below `2 ^ 70`, which is as much as ten
groups hold, and without its bits from the 64th on that number is `n`. -/
def Spells (b : Bytes) (n : Nat) : Prop := ∃ m < 2 ^ 70, b = encode m ∧ m % 2 ^ 64 = n

theorem spells_encode {n : Nat} (h : n < 2 ^ 64) : Spells (encode n) n :=
  ⟨n, by omega, rfl, Nat.mod_eq_of_lt h⟩

theorem spells_zero : Spells [0] 0 := ⟨0, by decide, (encode_of_lt (by decide)).symm, rfl⟩

theorem Spells.length_le {b : Bytes} {n : Nat} (h : Spells b n) : b.length ≤ maxLength := by
  obtain ⟨m, hm, rfl, -⟩ := h
  exact length_encode_le_maxLength hm

/-- A prefix with less than ten bytes is the shortest encoding of what is read off it. -/
theorem Spells.eq_encode {b : Bytes} {n : Nat} (h : Spells b n) (hlen : b.length < maxLength) :
    b = encode n := by
  obtain ⟨m, -, rfl, rfl⟩ := h
  have hpow : 128 ^ (encode m).length ≤ 128 ^ 9 :=
    Nat.pow_le_pow_right (by decide) (Nat.le_of_lt_succ hlen)
  have hlt := joined_lt (encode m)
  rw [joined_encode] at hlt
  rw [Nat.mod_eq_of_lt (by omega)]

theorem spells_of_decode? {groups : Bytes} {last : UInt8} {n : UInt64} (hgroups : Continues groups)
    (hlast : isLast last = true) (hlen : (groups ++ [last]).length ≤ maxLength)
    (h : decode? (groups ++ [last]) = some n) : Spells (groups ++ [last]) n.toNat := by
  obtain ⟨hmin, rfl⟩ := decode?_concat_eq_some_iff.1 h
  refine ⟨joined (groups ++ [last]), ?_, (encode_joined hgroups hlast hmin).symm,
    (toNat_value _).symm⟩
  calc joined (groups ++ [last]) < 128 ^ (groups ++ [last]).length := joined_lt _
    _ ≤ 128 ^ maxLength := Nat.pow_le_pow_right (by decide) hlen
    _ = 2 ^ 70 := by decide

end ChainPeer.Varint
