import ChainPeer.Codec
import Mathlib.Algebra.Group.Nat.Defs

/-!
# Lawful codecs

A codec is lawful for the values that fit it if reading undoes writing, whatever bytes follow, and
if nothing else is read. Every way to build a codec out of others keeps this law, so the codec of a
record is lawful as soon as its fields are. What a lawful codec decodes is exactly the image of its
encoder.
-/

namespace ChainPeer

namespace Bytes

theorem capacity_eight : capacity 8 = 2 ^ 64 := rfl

theorem capacity_four : capacity 4 = 2 ^ 32 := rfl

end Bytes

namespace Codec

variable {α β : Type}

/-- Reading undoes writing the values that fit, and whatever is read was written that way. -/
structure Lawful (c : Codec α) (fits : α → Prop) : Prop where
  read_encode : ∀ {a : α}, fits a → ∀ rest : Bytes, c.read (c.encode a ++ rest) = some (a, rest)
  eq_of_read : ∀ {b rest : Bytes} {a : α}, c.read b = some (a, rest) →
    fits a ∧ b = c.encode a ++ rest

/-- The sequences whose length a 64-bit count can hold, of items that fit. -/
def Counted (fits : α → Prop) (as : List α) : Prop :=
  as.length < 2 ^ 64 ∧ ∀ a ∈ as, fits a

/-- The byte strings whose length a 64-bit count can hold. -/
def Sized (b : Bytes) : Prop := b.length < 2 ^ 64

/-- The optional values that fit if they are there. -/
def Optional (fits : α → Prop) (o : Option α) : Prop := ∀ a ∈ o, fits a

/-! ## Numbers and other values of fixed width -/

theorem lawful_byte : byte.Lawful fun _ => True where
  read_encode _ _ := rfl
  eq_of_read {b rest a} h := by
    cases b with
    | nil => simp [byte] at h
    | cons x xs =>
        obtain ⟨rfl, rfl⟩ := by simpa [byte] using h
        exact ⟨trivial, rfl⟩

theorem read_nat_encode {width n : Nat} (hn : n < Bytes.capacity width) (rest : Bytes) :
    (nat width).read ((nat width).encode n ++ rest) = some (n, rest) := by
  have hsplit := Bytes.splitExact_append (Bytes.littleEndian width n) rest
  rw [Bytes.length_littleEndian] at hsplit
  simp only [nat, hsplit, Option.map_some, Bytes.ofLittleEndian_littleEndian width n hn]

theorem eq_of_read_nat {width n : Nat} {b rest : Bytes} (h : (nat width).read b = some (n, rest)) :
    n < Bytes.capacity width ∧ b = (nat width).encode n ++ rest := by
  obtain ⟨⟨front, rest'⟩, hsplit, heq⟩ := Option.map_eq_some_iff.1 h
  obtain ⟨rfl, rfl⟩ := by simpa using heq
  obtain ⟨rfl, rfl⟩ := Bytes.eq_append_of_splitExact hsplit
  refine ⟨Bytes.ofLittleEndian_lt front, ?_⟩
  simp only [nat, Bytes.littleEndian_ofLittleEndian]

theorem lawful_nat (width : Nat) : (nat width).Lawful (· < Bytes.capacity width) :=
  ⟨read_nat_encode, eq_of_read_nat⟩

/-- A codec seen through a view that loses nothing is lawful for what fits before the view. -/
theorem Lawful.map {c : Codec α} {fits : α → Prop} (hc : c.Lawful fits) (view : α → β)
    (unview : β → α) (hview : ∀ b, view (unview b) = b)
    (hunview : ∀ a, fits a → unview (view a) = a) :
    (c.map view unview).Lawful fun b => fits (unview b) where
  read_encode {b} hb rest := by
    simp only [Codec.map, hc.read_encode hb, Option.map_some, hview]
  eq_of_read {b rest x} h := by
    obtain ⟨⟨a, rest'⟩, hread, heq⟩ := Option.map_eq_some_iff.1 h
    obtain ⟨rfl, rfl⟩ := by simpa using heq
    obtain ⟨hfits, rfl⟩ := hc.eq_of_read hread
    simp only [Codec.map, hunview a hfits]
    exact ⟨hfits, trivial⟩

/-- What fits may be described in another way. -/
theorem Lawful.congr {c : Codec α} {fits fits' : α → Prop} (hc : c.Lawful fits)
    (h : ∀ a, fits a ↔ fits' a) : c.Lawful fits' := by
  obtain rfl : fits = fits' := funext fun a => propext (h a)
  exact hc

theorem lawful_word32 : word32.Lawful fun _ => True := by
  have hmap := (lawful_nat 4).map UInt32.ofNat UInt32.toNat
    (fun _ => UInt32.ofNat_toNat) (fun n hn => UInt32.toNat_ofNat_of_lt' hn)
  exact hmap.congr fun w => ⟨fun _ => trivial, fun _ => w.toNat_lt⟩

theorem lawful_word64 : word64.Lawful fun _ => True := by
  have hmap := (lawful_nat 8).map UInt64.ofNat UInt64.toNat
    (fun _ => UInt64.ofNat_toNat) (fun n hn => UInt64.toNat_ofNat_of_lt' hn)
  exact hmap.congr fun w => ⟨fun _ => trivial, fun _ => w.toNat_lt⟩

theorem lawful_bool : bool.Lawful fun _ => True where
  read_encode {a} _ _ := by cases a <;> rfl
  eq_of_read {b rest a} h := by
    simp only [bool] at h
    split at h
    · obtain ⟨rfl, rfl⟩ := by simpa using h
      exact ⟨trivial, rfl⟩
    · obtain ⟨rfl, rfl⟩ := by simpa using h
      exact ⟨trivial, rfl⟩
    · simp at h

theorem lawful_hash : hash.Lawful fun _ => True where
  read_encode {a} _ rest := by
    have hsplit := Bytes.splitExact_append a.bytes rest
    rw [a.length_bytes] at hsplit
    simp [hash, hsplit, Hash.ofBytes?, a.length_bytes]
  eq_of_read {b rest a} h := by
    simp only [hash, Option.bind_eq_bind, Option.bind_eq_some_iff] at h
    obtain ⟨⟨front, rest'⟩, hsplit, x, hx, heq⟩ := h
    obtain ⟨rfl, rfl⟩ := by simpa using heq
    obtain ⟨rfl, hlen⟩ := Bytes.eq_append_of_splitExact hsplit
    rw [Hash.ofBytes?, dif_pos hlen] at hx
    obtain rfl := Option.some.inj hx
    exact ⟨trivial, rfl⟩

theorem lawful_unit : unit.Lawful fun _ => True where
  read_encode _ _ := rfl
  eq_of_read {b rest a} h := by
    obtain ⟨_, rfl⟩ := by simpa [unit] using h
    exact ⟨trivial, rfl⟩

/-! ## Values made of others -/

theorem lawful_bytes : bytes.Lawful Sized where
  read_encode {a} ha rest := by
    simp only [bytes, List.append_assoc]
    rw [read_nat_encode (by rwa [Bytes.capacity_eight])]
    exact Bytes.splitExact_append a rest
  eq_of_read {b rest a} h := by
    simp only [bytes, Option.bind_eq_bind, Option.bind_eq_some_iff] at h
    obtain ⟨⟨length, rest'⟩, hlength, hsplit⟩ := h
    obtain ⟨hlt, rfl⟩ := eq_of_read_nat hlength
    obtain ⟨rfl, rfl⟩ := Bytes.eq_append_of_splitExact hsplit
    refine ⟨by rwa [Bytes.capacity_eight] at hlt, ?_⟩
    simp only [bytes, List.append_assoc]

theorem readMany_encode {c : Codec α} {fits : α → Prop} (hc : c.Lawful fits) (as seen : List α)
    (has : ∀ a ∈ as, fits a) (rest : Bytes) :
    c.readMany as.length seen (as.flatMap c.encode ++ rest) = some (seen.reverse ++ as, rest) := by
  induction as generalizing seen with
  | nil => simp [readMany]
  | cons a as ih =>
      have ha : fits a := has a (by simp)
      have has' : ∀ x ∈ as, fits x := fun x hx => has x (by simp [hx])
      simp only [List.length_cons, readMany, List.flatMap_cons, List.append_assoc]
      rw [hc.read_encode ha]
      simp only [ih (a :: seen) has', List.reverse_cons, List.append_assoc, List.singleton_append]

/-- What is read in front of the values already seen was written behind them. -/
theorem eq_of_readMany {c : Codec α} {fits : α → Prop} (hc : c.Lawful fits) {count : Nat}
    {seen as : List α} {b rest : Bytes} (h : c.readMany count seen b = some (as, rest)) :
    ∃ more, as = seen.reverse ++ more ∧ more.length = count ∧ (∀ a ∈ more, fits a) ∧
      b = more.flatMap c.encode ++ rest := by
  induction count generalizing seen b with
  | zero =>
      obtain ⟨rfl, rfl⟩ := by simpa [readMany] using h
      exact ⟨[], by simp⟩
  | succ count ih =>
      rw [readMany] at h
      split at h
      next a rest' hread =>
        obtain ⟨ha, rfl⟩ := hc.eq_of_read hread
        obtain ⟨more, rfl, hlen, hmore, rfl⟩ := ih h
        refine ⟨a :: more, by simp, by simp [hlen], ?_, by simp⟩
        intro x hx
        rcases List.mem_cons.1 hx with rfl | hx
        · exact ha
        · exact hmore x hx
      next => simp at h

theorem Lawful.list {c : Codec α} {fits : α → Prop} (hc : c.Lawful fits) :
    c.list.Lawful (Counted fits) where
  read_encode {as} has rest := by
    simp only [Codec.list, List.append_assoc]
    rw [read_nat_encode (by rw [Bytes.capacity_eight]; exact has.1)]
    exact readMany_encode hc as [] has.2 rest
  eq_of_read {b rest as} h := by
    simp only [Codec.list, Option.bind_eq_bind, Option.bind_eq_some_iff] at h
    obtain ⟨⟨count, rest'⟩, hcount, hmany⟩ := h
    obtain ⟨hlt, rfl⟩ := eq_of_read_nat hcount
    obtain ⟨more, rfl, rfl, hmore, rfl⟩ := eq_of_readMany hc hmany
    refine ⟨⟨by rwa [Bytes.capacity_eight] at hlt, hmore⟩, ?_⟩
    rw [Codec.list, List.append_assoc]

theorem Lawful.option {c : Codec α} {fits : α → Prop} (hc : c.Lawful fits) :
    c.option.Lawful (Optional fits) where
  read_encode {o} ho rest := by
    cases o with
    | none => rfl
    | some a =>
        simp only [Codec.option, List.cons_append]
        rw [hc.read_encode (ho a rfl), Option.map_some]
  eq_of_read {b rest o} h := by
    simp only [Codec.option] at h
    split at h
    · obtain ⟨rfl, rfl⟩ := by simpa using h
      exact ⟨by simp [Optional], rfl⟩
    · obtain ⟨⟨a, rest'⟩, hread, heq⟩ := Option.map_eq_some_iff.1 h
      obtain ⟨rfl, rfl⟩ := by simpa using heq
      obtain ⟨ha, rfl⟩ := hc.eq_of_read hread
      refine ⟨?_, rfl⟩
      intro x hx
      obtain rfl := Option.some.inj hx
      exact ha
    · simp at h

theorem Lawful.pair {c : Codec α} {d : Codec β} {fits : α → Prop} {fits' : β → Prop}
    (hc : c.Lawful fits) (hd : d.Lawful fits') :
    (c.pair d).Lawful fun p => fits p.1 ∧ fits' p.2 where
  read_encode {p} hp rest := by
    simp only [Codec.pair, List.append_assoc]
    rw [hc.read_encode hp.1]
    simp [hd.read_encode hp.2]
  eq_of_read {b rest p} h := by
    simp only [Codec.pair, Option.bind_eq_bind, Option.bind_eq_some_iff] at h
    obtain ⟨⟨x, b'⟩, hx, ⟨y, rest'⟩, hy, heq⟩ := h
    obtain ⟨rfl, rfl⟩ := by simpa using heq
    obtain ⟨hfx, rfl⟩ := hc.eq_of_read hx
    obtain ⟨hfy, rfl⟩ := hd.eq_of_read hy
    refine ⟨⟨hfx, hfy⟩, ?_⟩
    simp only [Codec.pair, List.append_assoc]

theorem Lawful.either {c : Codec α} {d : Codec β} {fits : α → Prop} {fits' : β → Prop}
    (hc : c.Lawful fits) (hd : d.Lawful fits') :
    (c.either d).Lawful (Sum.elim fits fits') where
  read_encode {x} hx rest := by
    have hzero : 0 < Bytes.capacity 4 := by decide
    have hone : 1 < Bytes.capacity 4 := by decide
    cases x with
    | inl a => simp [Codec.either, read_nat_encode hzero, hc.read_encode (a := a) hx]
    | inr a => simp [Codec.either, read_nat_encode hone, hd.read_encode (a := a) hx]
  eq_of_read {b rest x} h := by
    simp only [Codec.either, Option.bind_eq_bind, Option.bind_eq_some_iff] at h
    obtain ⟨⟨index, rest'⟩, hindex, hread⟩ := h
    obtain ⟨-, rfl⟩ := eq_of_read_nat hindex
    rcases index with _ | _ | index
    · obtain ⟨⟨a, rest''⟩, ha, heq⟩ := Option.map_eq_some_iff.1 hread
      obtain ⟨rfl, rfl⟩ := by simpa using heq
      obtain ⟨hfits, rfl⟩ := hc.eq_of_read ha
      exact ⟨hfits, by simp [Codec.either]⟩
    · obtain ⟨⟨a, rest''⟩, ha, heq⟩ := Option.map_eq_some_iff.1 hread
      obtain ⟨rfl, rfl⟩ := by simpa using heq
      obtain ⟨hfits, rfl⟩ := hd.eq_of_read ha
      exact ⟨hfits, by simp [Codec.either]⟩
    · simp at hread

/-! ## Whole byte strings -/

section Decode

variable {c : Codec α} {fits : α → Prop}

theorem Lawful.decode?_eq_some_iff (hc : c.Lawful fits) {b : Bytes} {a : α} :
    c.decode? b = some a ↔ fits a ∧ b = c.encode a := by
  unfold decode?
  constructor
  · intro h
    split at h
    next a' hread =>
      obtain rfl := Option.some.inj h
      obtain ⟨hfits, rfl⟩ := hc.eq_of_read hread
      exact ⟨hfits, by rw [List.append_nil]⟩
    next => simp at h
  · rintro ⟨hfits, rfl⟩
    have hread := hc.read_encode hfits []
    rw [List.append_nil] at hread
    rw [hread]

/-- No encoding is the beginning of another one. -/
theorem Lawful.eq_nil_of_encode_append (hc : c.Lawful fits) {a a' : α} (ha : fits a)
    (ha' : fits a') {rest : Bytes} (h : c.encode a ++ rest = c.encode a') : rest = [] := by
  have hread := hc.read_encode ha rest
  have hread' := hc.read_encode ha' []
  rw [List.append_nil, ← h, hread] at hread'
  exact (Prod.mk.inj (Option.some.inj hread')).2

theorem Lawful.decodeWithin_eq_ok_iff (hc : c.Lawful fits) {limit : Nat} {b : Bytes} {a : α} :
    c.decodeWithin limit b = .ok a ↔ b.length ≤ limit ∧ fits a ∧ b = c.encode a := by
  rw [← hc.decode?_eq_some_iff, decodeWithin]
  by_cases hlen : b.length > limit
  · simp [hlen, Nat.not_le.2 hlen]
  · rw [if_neg hlen]
    cases c.decode? b <;> simp [Nat.not_lt.1 hlen]

theorem decodeWithin_of_lt {limit : Nat} {b : Bytes} (h : limit < b.length) :
    c.decodeWithin limit b = .error .tooLarge := if_pos h

end Decode

/-! ## What is refused -/

theorem read_bool_eq_none {t : UInt8} (h₀ : t ≠ 0) (h₁ : t ≠ 1) (rest : Bytes) :
    bool.read (t :: rest) = none := by
  simp [bool, h₀, h₁]

theorem read_option_eq_none (c : Codec α) {t : UInt8} (h₀ : t ≠ 0) (h₁ : t ≠ 1) (rest : Bytes) :
    c.option.read (t :: rest) = none := by
  simp [Codec.option, h₀, h₁]

theorem read_either_eq_none (c : Codec α) (d : Codec β) {index : Nat} (h : 2 ≤ index)
    (hindex : index < 2 ^ 32) (rest : Bytes) :
    (c.either d).read ((nat 4).encode index ++ rest) = none := by
  simp only [Codec.either]
  rw [read_nat_encode (by rwa [Bytes.capacity_four])]
  rcases index with _ | _ | index
  · omega
  · omega
  · rfl

/-- A byte string that ends before the length in front of it. -/
theorem read_bytes_eq_none {length : Nat} (hlength : length < 2 ^ 64) {rest : Bytes}
    (h : rest.length < length) : bytes.read ((nat 8).encode length ++ rest) = none := by
  simp only [bytes]
  rw [read_nat_encode (by rwa [Bytes.capacity_eight])]
  have hshort : ¬ (rest.take length).length = length := by
    rw [List.length_take]
    omega
  exact if_neg hshort

theorem length_le_length_flatMap (f : α → Bytes) (hne : ∀ a, f a ≠ []) (as : List α) :
    as.length ≤ (as.flatMap f).length := by
  induction as with
  | nil => exact Nat.le_refl 0
  | cons a as ih =>
      have ha := List.length_pos_iff.2 (hne a)
      rw [List.flatMap_cons, List.length_append, List.length_cons]
      omega

/-- A sequence that cannot have as many items as the count in front of it, since each of them takes
up at least one byte. -/
theorem Lawful.read_list_eq_none {c : Codec α} {fits : α → Prop} (hc : c.Lawful fits)
    (hne : ∀ a, c.encode a ≠ []) {count : Nat} (hcount : count < 2 ^ 64) {rest : Bytes}
    (h : rest.length < count) : c.list.read ((nat 8).encode count ++ rest) = none := by
  simp only [Codec.list]
  rw [read_nat_encode (by rwa [Bytes.capacity_eight])]
  change c.readMany count [] rest = none
  cases hread : c.readMany count [] rest with
  | none => rfl
  | some read =>
      obtain ⟨more, -, hlen, -, hrest⟩ := eq_of_readMany hc hread
      have hmore := length_le_length_flatMap c.encode hne more
      rw [hrest, List.length_append] at h
      omega

end Codec

end ChainPeer
