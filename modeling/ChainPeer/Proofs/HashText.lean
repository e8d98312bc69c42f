import ChainPeer.Hash
import Mathlib.Data.List.DropRight

/-!
# The text of a hash

A hash is read off 64 hexadecimal digits of either case. One `0x` may stand directly before them,
and blank characters around all of it; nothing else is a hash. Each two digits make a byte, so
whatever a hash is written as, in full, without `0x` or with capital letters, is read as this hash.
-/

namespace ChainPeer

namespace Bytes

/-- A character is the hexadecimal digit of a number, as a small or a capital letter. -/
def IsDigit (c : Char) (n : Nat) : Prop :=
  "0123456789abcdef".toList[n]? = some c ∨ "0123456789ABCDEF".toList[n]? = some c

instance (c : Char) (n : Nat) : Decidable (IsDigit c n) := inferInstanceAs (Decidable (_ ∨ _))

/-- A byte string written in hexadecimal digits, two for each byte, the high half first. -/
inductive Spells : List Char → Bytes → Prop where
  | nil : Spells [] []
  | cons {high low : Char} {m n : Nat} {b : UInt8} {digits : List Char} {bytes : Bytes}
      (hhigh : IsDigit high m) (hlow : IsDigit low n) (hb : b.toNat = 16 * m + n)
      (hrest : Spells digits bytes) : Spells (high :: low :: digits) (b :: bytes)

variable {c : Char} {n : Nat} {digits : List Char} {bytes : Bytes}

/-! ## Single digits -/

theorem IsDigit.lt (h : IsDigit c n) : n < 16 := by
  rcases h with h | h
  · exact (List.getElem?_eq_some_iff.1 h).1
  · exact (List.getElem?_eq_some_iff.1 h).1

/-- What holds of the sixteen digits of either case holds of every digit. -/
theorem IsDigit.induct {P : Char → Nat → Prop} (h : IsDigit c n)
    (hlower : ∀ i : Fin 16, P ("0123456789abcdef".toList[i]) i)
    (hupper : ∀ i : Fin 16, P ("0123456789ABCDEF".toList[i]) i) : P c n := by
  rcases h with h | h
  · obtain ⟨hn, rfl⟩ := List.getElem?_eq_some_iff.1 h
    exact hlower ⟨n, hn⟩
  · obtain ⟨hn, rfl⟩ := List.getElem?_eq_some_iff.1 h
    exact hupper ⟨n, hn⟩

theorem hexValue?_of_isDigit (h : IsDigit c n) : hexValue? c = some n :=
  h.induct (P := fun c n => hexValue? c = some n) (by decide) (by decide)

theorem isBlank_of_isDigit (h : IsDigit c n) : Text.isBlank c = false :=
  h.induct (P := fun c _ => Text.isBlank c = false) (by decide) (by decide)

theorem ne_x_of_isDigit (h : IsDigit c n) : c ≠ 'x' :=
  h.induct (P := fun c _ => c ≠ 'x') (by decide) (by decide)

/-- A character of a row of consecutive ones is known by its place in the row. -/
theorem exists_eq_ofNat {first last : Char} (h : first ≤ c ∧ c ≤ last) :
    ∃ i : Fin (last.toNat - first.toNat + 1),
      c = Char.ofNat (first.toNat + i) ∧ c.toNat = first.toNat + i := by
  have hbounds : first.toNat ≤ c.toNat ∧ c.toNat ≤ last.toNat := h
  have hsum : first.toNat + (c.toNat - first.toNat) = c.toNat := by omega
  refine ⟨⟨c.toNat - first.toNat, by omega⟩, ?_, hsum.symm⟩
  rw [hsum, Char.ofNat_toNat]

theorem isDigit_of_hexValue? (h : hexValue? c = some n) : IsDigit c n := by
  have hdecimal : ∀ i : Fin 10, IsDigit (Char.ofNat (48 + i)) (48 + i - 48) := by decide
  have hsmall : ∀ i : Fin 6, IsDigit (Char.ofNat (97 + i)) (97 + i - 87) := by decide
  have hlarge : ∀ i : Fin 6, IsDigit (Char.ofNat (65 + i)) (65 + i - 55) := by decide
  unfold hexValue? at h
  split at h
  · next hc =>
    obtain ⟨i, hchar, hnat⟩ := exists_eq_ofNat hc
    rw [← Option.some.inj h, hnat, hchar]
    exact hdecimal i
  · split at h
    · next hc =>
      obtain ⟨i, hchar, hnat⟩ := exists_eq_ofNat hc
      rw [← Option.some.inj h, hnat, hchar]
      exact hsmall i
    · split at h
      · next hc =>
        obtain ⟨i, hchar, hnat⟩ := exists_eq_ofNat hc
        rw [← Option.some.inj h, hnat, hchar]
        exact hlarge i
      · cases h

/-! ## Pairs of digits -/

theorem Spells.length_eq (h : Spells digits bytes) : digits.length = 2 * bytes.length := by
  induction h with
  | nil => rfl
  | cons _ _ _ _ ih =>
      rw [List.length_cons, List.length_cons, List.length_cons, ih]
      omega

theorem ofHexDigits?_of_spells (h : Spells digits bytes) : ofHexDigits? digits = some bytes := by
  induction h with
  | nil => rfl
  | @cons high low m n b digits bytes hhigh hlow hb _ ih =>
      have hbyte : UInt8.ofNat (m * 16 + n) = b := by
        rw [Nat.mul_comm, ← hb, UInt8.ofNat_toNat]
      rw [ofHexDigits?, hexValue?_of_isDigit hhigh, hexValue?_of_isDigit hlow, ih, ← hbyte]
      rfl

theorem spells_of_ofHexDigits? (h : ofHexDigits? digits = some bytes) : Spells digits bytes := by
  fun_induction ofHexDigits? digits generalizing bytes with
  | case1 =>
      cases h
      exact .nil
  | case2 => cases h
  | case3 high low digits ih =>
      obtain ⟨m, hm, h⟩ := Option.bind_eq_some_iff.1 h
      obtain ⟨n, hn, h⟩ := Option.bind_eq_some_iff.1 h
      obtain ⟨rest, hrest, h⟩ := Option.bind_eq_some_iff.1 h
      cases h
      have hhigh := isDigit_of_hexValue? hm
      have hlow := isDigit_of_hexValue? hn
      refine .cons hhigh hlow ?_ (ih hrest)
      have hm' := hhigh.lt
      have hn' := hlow.lt
      rw [UInt8.toNat_ofNat_of_lt' (by rw [UInt8.size]; omega), Nat.mul_comm]

theorem ofHexDigits?_eq_some_iff : ofHexDigits? digits = some bytes ↔ Spells digits bytes :=
  ⟨spells_of_ofHexDigits?, ofHexDigits?_of_spells⟩

theorem Spells.isDigit (h : Spells digits bytes) : ∀ c ∈ digits, ∃ n, IsDigit c n := by
  induction h with
  | nil => exact fun c hc => absurd hc List.not_mem_nil
  | cons hhigh hlow _ _ ih =>
      exact List.forall_mem_cons.2 ⟨⟨_, hhigh⟩, List.forall_mem_cons.2 ⟨⟨_, hlow⟩, ih⟩⟩

/-- Any even number of digits spells a byte string. -/
theorem exists_spells {k : Nat} (hlength : digits.length = 2 * k)
    (hdigits : ∀ c ∈ digits, ∃ n, IsDigit c n) : ∃ bytes, Spells digits bytes := by
  induction k generalizing digits with
  | zero =>
      obtain rfl : digits = [] := List.eq_nil_of_length_eq_zero hlength
      exact ⟨[], .nil⟩
  | succ k ih =>
      match digits, hlength with
      | high :: low :: digits, hlength =>
        obtain ⟨⟨m, hhigh⟩, htail⟩ := List.forall_mem_cons.1 hdigits
        obtain ⟨⟨n, hlow⟩, hrest⟩ := List.forall_mem_cons.1 htail
        rw [List.length_cons, List.length_cons] at hlength
        obtain ⟨bytes, hspells⟩ := ih (by omega) hrest
        have hm := hhigh.lt
        have hn := hlow.lt
        exact ⟨UInt8.ofNat (16 * m + n) :: bytes,
          .cons hhigh hlow (UInt8.toNat_ofNat_of_lt' (by rw [UInt8.size]; omega)) hspells⟩

/-- The digits that a byte string is written in spell it, in whichever way they are altered that
keeps their values. -/
theorem spells_map_hexDigits {f : Char → Char} (hf : ∀ n < 16, IsDigit (f (hexDigit n)) n)
    (bytes : Bytes) : Spells ((hexDigits bytes).map f) bytes := by
  induction bytes with
  | nil => exact .nil
  | cons b bytes ih =>
      have hb := b.toNat_lt
      have hsplit : b.toNat = 16 * (b.toNat / 16) + b.toNat % 16 := by omega
      rw [hexDigits, List.flatMap_cons, List.map_append]
      exact .cons (hf _ (by omega)) (hf _ (by omega)) hsplit ih

end Bytes

/-! ## Around the digits -/

namespace Text

variable {front core back : List Char}

/-- All characters of a text are blank. -/
def Blank (text : List Char) : Prop := ∀ c ∈ text, isBlank c = true

theorem trim_eq_rdropWhile (text : List Char) :
    trim text = (text.dropWhile isBlank).rdropWhile isBlank := rfl

theorem exists_trim (text : List Char) :
    ∃ front back, text = front ++ trim text ++ back ∧ Blank front ∧ Blank back := by
  refine ⟨text.takeWhile isBlank, (text.dropWhile isBlank).rtakeWhile isBlank, ?_, ?_, ?_⟩
  · rw [trim_eq_rdropWhile, List.append_assoc, List.rdropWhile_append_rtakeWhile,
      List.takeWhile_append_dropWhile]
  · exact fun c hc => List.mem_takeWhile_imp hc
  · exact fun c hc => List.mem_rtakeWhile_imp hc

theorem dropWhile_blank_append (hfront : Blank front) (hcore : ∀ c ∈ core, isBlank c = false) :
    (front ++ core).dropWhile isBlank = core := by
  rw [List.dropWhile_append_of_pos hfront, List.dropWhile_eq_self_iff]
  intro hlength
  rw [hcore _ (List.getElem_mem hlength)]
  exact Bool.false_ne_true

/-- Blank characters at both ends are left out. -/
theorem trim_append (hfront : Blank front) (hback : Blank back)
    (hcore : ∀ c ∈ core, isBlank c = false) : trim (front ++ core ++ back) = core := by
  rw [trim_eq_rdropWhile, List.append_assoc, List.dropWhile_append_of_pos hfront]
  cases core with
  | nil =>
      rw [List.nil_append, List.dropWhile_eq_nil_iff.2 hback]
      rfl
  | cons c core =>
      have hc : ¬ isBlank c = true := Bool.eq_false_iff.1 (hcore c List.mem_cons_self)
      have hreverse : ∀ x ∈ (c :: core).reverse, isBlank x = false :=
        fun x hx => hcore x (List.mem_reverse.1 hx)
      have hblank : Blank back.reverse := fun x hx => hback x (List.mem_reverse.1 hx)
      rw [List.cons_append, List.dropWhile_cons_of_neg hc, ← List.cons_append, List.rdropWhile,
        List.reverse_append, dropWhile_blank_append hblank hreverse, List.reverse_reverse]

theorem withoutPrefix_append (mark text : List Char) :
    withoutPrefix mark (mark ++ text) = text := by
  rw [withoutPrefix, if_pos (List.isPrefixOf_iff_prefix.2 (List.prefix_append mark text)),
    List.drop_left]

theorem withoutPrefix_of_absent {mark text : List Char} (h : ¬ mark <+: text) :
    withoutPrefix mark text = text := by
  rw [withoutPrefix, if_neg (mt List.isPrefixOf_iff_prefix.1 h)]

/-- One mark at most is left out. -/
theorem exists_withoutPrefix (mark text : List Char) :
    ∃ used, text = used ++ withoutPrefix mark text ∧ (used = [] ∨ used = mark) := by
  by_cases h : mark <+: text
  · obtain ⟨rest, rfl⟩ := h
    exact ⟨mark, by rw [withoutPrefix_append], .inr rfl⟩
  · exact ⟨[], by rw [withoutPrefix_of_absent h, List.nil_append], .inl rfl⟩

end Text

/-! ## Hashes -/

namespace Hash

/-- A text is made of 64 hexadecimal digits. One `0x` may stand directly before them, and blank
characters around all of it. -/
structure IsText (digits text : List Char) : Prop where
  around : ∃ front mark back, text = front ++ (mark ++ digits) ++ back ∧
    Text.Blank front ∧ Text.Blank back ∧ (mark = [] ∨ mark = ['0', 'x'])
  length_digits : digits.length = 64
  isDigit : ∀ c ∈ digits, ∃ n, Bytes.IsDigit c n

variable {digits text : List Char} {h : Hash}

/-- Of such a text the digits are read. -/
theorem IsText.ofText? (ht : IsText digits text) :
    ofText? text = (Bytes.ofHexDigits? digits).bind ofBytes? := by
  obtain ⟨front, mark, back, rfl, hfront, hback, hmark⟩ := ht.around
  have hdigits : ∀ c ∈ digits, Text.isBlank c = false := by
    intro c hc
    obtain ⟨n, hn⟩ := ht.isDigit c hc
    exact Bytes.isBlank_of_isDigit hn
  have hmarked : ∀ c ∈ mark, Text.isBlank c = false := by
    rcases hmark with rfl | rfl
    · exact List.forall_mem_nil _
    · exact List.forall_mem_cons.2 ⟨by decide, List.forall_mem_singleton.2 (by decide)⟩
  have hcore := List.forall_mem_append.2 ⟨hmarked, hdigits⟩
  rw [Hash.ofText?, Text.trim_append hfront hback hcore]
  congr 2
  rcases hmark with rfl | rfl
  · -- The mark has an `x` in it, and no digit is one.
    apply Text.withoutPrefix_of_absent
    intro hbefore
    obtain ⟨n, hn⟩ := ht.isDigit 'x' (hbefore.subset (by decide))
    exact Bytes.ne_x_of_isDigit hn rfl
  · exact Text.withoutPrefix_append _ digits

theorem ofBytes?_eq_some_iff {bytes : Bytes} : ofBytes? bytes = some h ↔ bytes = h.bytes := by
  rw [ofBytes?]
  constructor
  · intro heq
    split at heq
    · rw [← Option.some.inj heq]
    · cases heq
  · rintro rfl
    rw [dif_pos h.length_bytes]

theorem ofText?_eq_some_iff :
    ofText? text = some h ↔ ∃ digits, IsText digits text ∧ Bytes.Spells digits h.bytes := by
  constructor
  · intro hread
    obtain ⟨bytes, hdigits, hbytes⟩ := Option.bind_eq_some_iff.1 hread
    obtain rfl := ofBytes?_eq_some_iff.1 hbytes
    have hspells := Bytes.ofHexDigits?_eq_some_iff.1 hdigits
    obtain ⟨front, back, htext, hfront, hback⟩ := Text.exists_trim text
    obtain ⟨mark, hcore, hmark⟩ := Text.exists_withoutPrefix ['0', 'x'] (Text.trim text)
    refine ⟨_, ⟨⟨front, mark, back, ?_, hfront, hback, hmark⟩, ?_, hspells.isDigit⟩, hspells⟩
    · rw [← hcore]
      exact htext
    · rw [hspells.length_eq, h.length_bytes]
  · rintro ⟨digits, htext, hspells⟩
    rw [htext.ofText?, Bytes.ofHexDigits?_eq_some_iff.2 hspells, Option.bind_some]
    exact ofBytes?_eq_some_iff.2 rfl

theorem ofText?_eq_none_iff : ofText? text = none ↔ ∀ digits, ¬ IsText digits text := by
  constructor
  · intro hnone digits htext
    obtain ⟨bytes, hspells⟩ := Bytes.exists_spells (k := 32) htext.length_digits htext.isDigit
    have hlength : bytes.length = 32 := by
      have hdouble := hspells.length_eq
      rw [htext.length_digits] at hdouble
      omega
    have hsome : ofText? text = some ⟨bytes, hlength⟩ :=
      ofText?_eq_some_iff.2 ⟨digits, htext, hspells⟩
    cases hnone.symm.trans hsome
  · intro hall
    rw [Option.eq_none_iff_forall_ne_some]
    intro h hread
    obtain ⟨digits, htext, -⟩ := ofText?_eq_some_iff.1 hread
    exact hall digits htext

/-- The digits of a hash are read as this hash, whether or not their case is changed, in whatever
may stand around them. -/
theorem ofText?_map_hexDigits {f : Char → Char}
    (hf : ∀ n < 16, Bytes.IsDigit (f (Bytes.hexDigit n)) n) (h : Hash) {front mark back : List Char}
    (hfront : Text.Blank front) (hback : Text.Blank back) (hmark : mark = [] ∨ mark = ['0', 'x']) :
    ofText? (front ++ (mark ++ (Bytes.hexDigits h.bytes).map f) ++ back) = some h := by
  have hspells := Bytes.spells_map_hexDigits hf h.bytes
  refine ofText?_eq_some_iff.2
    ⟨_, ⟨⟨front, mark, back, rfl, hfront, hback, hmark⟩, ?_, hspells.isDigit⟩, hspells⟩
  rw [hspells.length_eq, h.length_bytes]

/-- A text is read as a hash if and only if it is made of 64 hexadecimal digits, before which one
`0x` may stand, with blank characters around; the bytes of the hash are then those that the digits
spell, in pairs. All other texts are refused. Every hash is read back from its full text, which is
`0x` and its digits, and from its digits alone, with small or with capital letters, whatever blank
characters stand around. -/
theorem ofText?_exact :
    (∀ text h, ofText? text = some h ↔
      ∃ digits, IsText digits text ∧ Bytes.Spells digits h.bytes) ∧
    (∀ text, ofText? text = none ↔ ∀ digits, ¬ IsText digits text) ∧
    ∀ h : Hash, let digits := Bytes.hexDigits h.bytes
      h.text.toList = ['0', 'x'] ++ digits ∧
      ∀ front mark back, Text.Blank front → Text.Blank back → (mark = [] ∨ mark = ['0', 'x']) →
        ofText? (front ++ (mark ++ digits) ++ back) = some h ∧
        ofText? (front ++ (mark ++ digits.map Char.toUpper) ++ back) = some h := by
  refine ⟨fun text h => ofText?_eq_some_iff, fun text => ofText?_eq_none_iff, fun h => ?_⟩
  intro digits
  refine ⟨String.toList_ofList, fun front mark back hfront hback hmark => ⟨?_, ?_⟩⟩
  · have hsmall := ofText?_map_hexDigits (f := id) (by decide) h hfront hback hmark
    rw [List.map_id] at hsmall
    exact hsmall
  · exact ofText?_map_hexDigits (by decide) h hfront hback hmark

/-- No blank character may stand behind the mark, and no second mark. -/
example :
    ofText? (' ' :: '0' :: 'x' :: List.replicate 64 'F' ++ ['\n']) = some ⟨.replicate 32 255, rfl⟩ ∧
      ofText? ('0' :: 'x' :: ' ' :: List.replicate 64 'F') = none ∧
      ofText? ('0' :: 'x' :: '0' :: 'x' :: List.replicate 64 'F') = none := by
  decide +kernel

end Hash

end ChainPeer
