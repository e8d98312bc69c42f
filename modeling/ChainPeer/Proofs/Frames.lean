import ChainPeer.Proofs.Source

/-!
# Streams of frames cut anywhere

A list of payloads is written as the frames around them, one after the other. However much of that
is delivered before the source ends, and in whatever pieces, reading gives the payloads whose
frames have arrived completely, without the empty ones, and then says whether the source ended
between two frames or inside of one. Nothing of an incomplete payload is handed on.
-/

namespace ChainPeer

namespace Frame

/-- The frames around payloads, one after the other. -/
def wire (payloads : List Bytes) : Bytes := payloads.flatMap encode

/-- Where the first `i` frames around payloads end. -/
def offset (payloads : List Bytes) (i : Nat) : Nat := (wire (payloads.take i)).length

/-- Whether `k` bytes end between two frames, before the first or after the last. -/
def IsBoundary (payloads : List Bytes) (k : Nat) : Prop :=
  ∃ i ≤ payloads.length, k = offset payloads i

/-- The payloads that are not empty and whose frames end within the first `k` bytes. -/
def arrived (payloads : List Bytes) (k : Nat) : List Bytes :=
  (payloads.zipIdx.filter fun (payload, i) =>
    payload ≠ [] ∧ offset payloads (i + 1) ≤ k).map Prod.fst

@[simp] theorem wire_cons (payload : Bytes) (payloads : List Bytes) :
    wire (payload :: payloads) = encode payload ++ wire payloads := List.flatMap_cons

@[simp] theorem offset_zero (payloads : List Bytes) : offset payloads 0 = 0 := rfl

@[simp] theorem offset_cons_succ (payload : Bytes) (payloads : List Bytes) (i : Nat) :
    offset (payload :: payloads) (i + 1) = (encode payload).length + offset payloads i := by
  simp [offset]

theorem arrived_cons_of_lt {payload : Bytes} {k : Nat} (h : k < (encode payload).length)
    (payloads : List Bytes) : arrived (payload :: payloads) k = [] := by
  rw [arrived, List.map_eq_nil_iff, List.filter_eq_nil_iff]
  rintro ⟨q, i⟩ -
  rw [decide_eq_true_eq, offset_cons_succ]
  rintro ⟨-, hle⟩
  omega

theorem arrived_cons_of_le {payload : Bytes} {k : Nat} (h : (encode payload).length ≤ k)
    (payloads : List Bytes) :
    arrived (payload :: payloads) k =
      (if payload = [] then [] else [payload]) ++
        arrived payloads (k - (encode payload).length) := by
  have hshift : ∀ x : Nat,
      (encode payload).length + x ≤ k ↔ x ≤ k - (encode payload).length :=
    fun x => (Nat.le_sub_iff_add_le' h).symm
  rw [arrived, arrived, List.zipIdx_cons', List.filter_cons, List.filter_map]
  simp only [Function.comp_def, Prod.map_fst, Prod.map_snd, id_eq, offset_cons_succ, offset_zero,
    hshift, Nat.zero_le, and_true]
  by_cases hpayload : payload = []
  · simp [hpayload, Function.comp_def]
  · simp [hpayload, Function.comp_def]

theorem length_encode_pos (payload : Bytes) : 0 < (encode payload).length := by
  obtain ⟨groups, last, hencode, -, -, -⟩ := Varint.encode_eq_append payload.length
  rw [encode, hencode, List.length_append, List.length_append, List.length_singleton]
  omega

theorem isBoundary_zero (payloads : List Bytes) : IsBoundary payloads 0 :=
  ⟨0, Nat.zero_le _, rfl⟩

theorem not_isBoundary_cons_of_lt {payload : Bytes} {k : Nat} (hpos : 0 < k)
    (h : k < (encode payload).length) (payloads : List Bytes) :
    ¬ IsBoundary (payload :: payloads) k := by
  rintro ⟨i, -, hi⟩
  cases i with
  | zero =>
      rw [offset_zero] at hi
      omega
  | succ i =>
      rw [offset_cons_succ] at hi
      omega

theorem isBoundary_cons_of_le {payload : Bytes} {k : Nat} (h : (encode payload).length ≤ k)
    (payloads : List Bytes) :
    IsBoundary (payload :: payloads) k ↔
      IsBoundary payloads (k - (encode payload).length) := by
  have hpos := length_encode_pos payload
  constructor
  · rintro ⟨i, hle, hi⟩
    cases i with
    | zero =>
        rw [offset_zero] at hi
        omega
    | succ i =>
        rw [offset_cons_succ] at hi
        exact ⟨i, Nat.le_of_succ_le_succ hle, by omega⟩
  · rintro ⟨i, hle, hi⟩
    refine ⟨i + 1, Nat.succ_le_succ hle, ?_⟩
    rw [offset_cons_succ]
    omega

end Frame

namespace ByteSource

/-- Takes payloads off a source for as long as there are any, and says with which error that ended,
if with any. -/
def readFrames (limit : Nat) (s : ByteSource) : List Bytes × Option FrameError :=
  match _h : s.readFrame limit with
  | (.ok (some payload), rest) =>
    let (payloads, e) := readFrames limit rest
    (payload :: payloads, e)
  | (.ok none, _) => ([], none)
  | (.error e, _) => ([], some e)
termination_by s.remaining
decreasing_by exact remaining_readFrame_some _h

variable {s s' : ByteSource} {limit : Nat} {failure : Option String} {rest : Bytes}

/-! ## One frame -/

theorem readFrame_of_readLength_some {length : UInt64}
    (h : s.readLength = (.ok (some length), s')) :
    s.readFrame limit =
      if length = 0 then s'.readFrame limit
      else if limit < length.toNat then (.error (.tooLarge length.toNat limit), s')
      else
        match readPayload length.toNat s' with
        | (.ok payload, rest) => (.ok (some payload), rest)
        | (.error e, rest) => (.error e, rest) := by
  rw [readFrame]
  split
  next e _ heq => rw [h] at heq; cases heq
  next _ heq => rw [h] at heq; cases heq
  next length' rest' heq =>
    rw [h] at heq
    obtain ⟨hlength, rfl⟩ := Prod.mk.inj heq
    obtain rfl : length = length' := Option.some.inj (Except.ok.inj hlength)
    rfl

theorem readFrame_of_readLength_none (h : s.readLength = (.ok none, s')) :
    s.readFrame limit = (.ok none, s') := by
  rw [readFrame]
  split
  next heq => rw [h] at heq; cases heq
  next heq => rw [h] at heq; rw [(Prod.mk.inj heq).2]
  next heq => rw [h] at heq; cases heq

theorem readFrame_of_readLength_error {e : FrameError} (h : s.readLength = (.error e, s')) :
    s.readFrame limit = (.error e, s') := by
  rw [readFrame]
  split
  next heq =>
    rw [h] at heq
    obtain ⟨he, rfl⟩ := Prod.mk.inj heq
    rw [Except.error.inj he]
  next heq => rw [h] at heq; cases heq
  next heq => rw [h] at heq; cases heq

theorem readFrame_keepalive (limit : Nat) {b : Bytes} (hb : Varint.Spells b 0)
    (h : s.Holds (b ++ rest) failure) :
    ∃ s' : ByteSource, s.readFrame limit = s'.readFrame limit ∧ s'.Holds rest failure := by
  obtain ⟨m, hm, rfl, hmod⟩ := hb
  obtain ⟨s', hlength, h'⟩ := readLength_encode hm h
  have hzero : UInt64.ofNat m = 0 := by
    rw [← UInt64.toNat_inj, UInt64.toNat_ofNat', hmod]
    rfl
  refine ⟨s', ?_, h'⟩
  rw [readFrame_of_readLength_some hlength]
  exact if_pos hzero

theorem ofNat_length_ne_zero {payload : Bytes} (hne : payload ≠ [])
    (hsize : payload.length < 2 ^ 64) : UInt64.ofNat payload.length ≠ 0 := by
  intro hzero
  have htoNat := congrArg UInt64.toNat hzero
  rw [UInt64.toNat_ofNat_of_lt' hsize] at htoNat
  exact hne (List.length_eq_zero_iff.1 htoNat)

theorem readFrame_encode {payload : Bytes} (hne : payload ≠ []) (hsize : payload.length < 2 ^ 64)
    (hlimit : payload.length ≤ limit) (h : s.Holds (Frame.encode payload ++ rest) failure) :
    ∃ s', s.readFrame limit = (.ok (some payload), s') ∧ s'.Holds rest failure := by
  rw [Frame.encode, List.append_assoc] at h
  obtain ⟨s₁, hlength, h₁⟩ := readLength_encode (by omega) h
  obtain ⟨s', hpayload, h'⟩ := readPayload_append h₁
  refine ⟨s', ?_, h'⟩
  rw [readFrame_of_readLength_some hlength, if_neg (ofNat_length_ne_zero hne hsize),
    UInt64.toNat_ofNat_of_lt' hsize, if_neg (Nat.not_lt.2 hlimit), hpayload]

theorem readFrame_encode_of_lt {payload : Bytes} (hsize : payload.length < 2 ^ 64)
    (hlimit : limit < payload.length) (h : s.Holds (Frame.encode payload ++ rest) failure) :
    ∃ s', s.readFrame limit = (.error (.tooLarge payload.length limit), s') := by
  have hne : payload ≠ [] := List.ne_nil_of_length_pos (Nat.zero_lt_of_lt hlimit)
  rw [Frame.encode, List.append_assoc] at h
  obtain ⟨s', hlength, -⟩ := readLength_encode (by omega) h
  refine ⟨s', ?_⟩
  rw [readFrame_of_readLength_some hlength, if_neg (ofNat_length_ne_zero hne hsize),
    UInt64.toNat_ofNat_of_lt' hsize, if_pos hlimit]

theorem readFrame_of_holds_nil (h : s.Holds [] none) :
    ∃ s', s.readFrame limit = (.ok none, s') := by
  obtain ⟨s', hlength, -⟩ := readLength_of_holds_nil h
  exact ⟨s', readFrame_of_readLength_none hlength⟩

/-- A source that ends inside a frame, in the length prefix or in the payload. -/
theorem readFrame_cut {payload : Bytes} {k : Nat} (hsize : payload.length < 2 ^ 64)
    (hlimit : payload.length ≤ limit) (hpos : 0 < k) (hk : k < (Frame.encode payload).length)
    (h : s.Holds ((Frame.encode payload).take k) none) :
    ∃ s', s.readFrame limit = (.error .truncated, s') := by
  have hmax := Varint.length_encode_le_maxLength (n := payload.length) (by omega)
  rw [Frame.encode, List.length_append] at hk
  rw [Frame.encode, List.take_append] at h
  by_cases hprefix : k < (Varint.encode payload.length).length
  · -- Inside the length prefix, all of whose bytes but the last continue it.
    obtain ⟨groups, last, hencode, hgroups, -, -⟩ := Varint.encode_eq_append payload.length
    rw [hencode, List.length_append, List.length_singleton] at hprefix hmax
    have hle : k ≤ groups.length := by omega
    have hrest : k - (Varint.encode payload.length).length = 0 := by
      rw [hencode, List.length_append, List.length_singleton]
      omega
    rw [hrest, List.take_zero, List.append_nil, hencode, List.take_append_of_le_length hle] at h
    have htake : (groups.take k).length = k := List.length_take_of_le hle
    have hne : groups.take k ≠ [] := by
      intro hnil
      rw [hnil] at htake
      exact absurd htake (Nat.ne_of_lt hpos)
    obtain ⟨s', hlength⟩ := readLength_cut
      (fun b hb => hgroups b (List.mem_of_mem_take hb)) hne (by omega) h
    exact ⟨s', readFrame_of_readLength_error hlength⟩
  · -- Inside the payload, which therefore is not empty.
    have hlen : 0 < payload.length := by omega
    have hne : payload ≠ [] := List.length_pos_iff.1 hlen
    rw [List.take_of_length_le (Nat.not_lt.1 hprefix)] at h
    obtain ⟨s₁, hlength, h₁⟩ := readLength_encode (by omega) h
    have hshort : (payload.take (k - (Varint.encode payload.length).length)).length <
        payload.length := by
      rw [List.length_take]
      omega
    obtain ⟨s', hpayload⟩ := readPayload_cut hshort h₁
    refine ⟨s', ?_⟩
    rw [readFrame_of_readLength_some hlength, if_neg (ofNat_length_ne_zero hne hsize),
      UInt64.toNat_ofNat_of_lt' hsize, if_neg (Nat.not_lt.2 hlimit), hpayload]

/-! ## All frames -/

theorem readFrames_of_some {payload : Bytes} (h : s.readFrame limit = (.ok (some payload), s')) :
    s.readFrames limit = (payload :: (s'.readFrames limit).1, (s'.readFrames limit).2) := by
  rw [readFrames]
  split
  next heq =>
    rw [h] at heq
    obtain ⟨hpayload, rfl⟩ := Prod.mk.inj heq
    rw [Option.some.inj (Except.ok.inj hpayload)]
  next heq => rw [h] at heq; cases heq
  next heq => rw [h] at heq; cases heq

theorem readFrames_of_none (h : s.readFrame limit = (.ok none, s')) :
    s.readFrames limit = ([], none) := by
  rw [readFrames]
  split
  next heq => rw [h] at heq; cases heq
  next => rfl
  next heq => rw [h] at heq; cases heq

theorem readFrames_of_error {e : FrameError} (h : s.readFrame limit = (.error e, s')) :
    s.readFrames limit = ([], some e) := by
  rw [readFrames]
  split
  next heq => rw [h] at heq; cases heq
  next heq => rw [h] at heq; cases heq
  next heq =>
    rw [h] at heq
    rw [Except.error.inj (Prod.mk.inj heq).1]

/-- Reading on depends on what the next read gives only. -/
theorem readFrames_congr (h : s.readFrame limit = s'.readFrame limit) :
    s.readFrames limit = s'.readFrames limit := by
  obtain ⟨result, rest, hread⟩ : ∃ result rest, s'.readFrame limit = (result, rest) :=
    ⟨_, _, rfl⟩
  rw [hread] at h
  rcases result with e | (_ | payload)
  · rw [readFrames_of_error h, readFrames_of_error hread]
  · rw [readFrames_of_none h, readFrames_of_none hread]
  · rw [readFrames_of_some h, readFrames_of_some hread]

/-- A whole frame is read, and reading goes on behind it. -/
theorem readFrames_encode_append {payload : Bytes} (hsize : payload.length < 2 ^ 64)
    (hlimit : payload.length ≤ limit) (h : s.Holds (Frame.encode payload ++ rest) failure) :
    ∃ s' : ByteSource, s'.Holds rest failure ∧ s.readFrames limit =
      ((if payload = [] then [] else [payload]) ++ (s'.readFrames limit).1,
        (s'.readFrames limit).2) := by
  by_cases hne : payload = []
  · subst hne
    rw [Frame.encode, List.append_nil] at h
    obtain ⟨s', hread, h'⟩ : ∃ s' : ByteSource,
        s.readFrame limit = s'.readFrame limit ∧ s'.Holds rest failure :=
      readFrame_keepalive limit (Varint.spells_encode (by decide)) h
    exact ⟨s', h', readFrames_congr hread⟩
  · obtain ⟨s', hread, h'⟩ := readFrame_encode hne hsize hlimit h
    refine ⟨s', h', ?_⟩
    rw [readFrames_of_some hread, if_neg hne]
    rfl

theorem readFrames_of_holds_nil (h : s.Holds [] none) : s.readFrames limit = ([], none) := by
  obtain ⟨s', hread⟩ : ∃ s', s.readFrame limit = (.ok none, s') := readFrame_of_holds_nil h
  exact readFrames_of_none hread

/-- By induction on the payloads: each frame that arrived is read off, the first one that did not
arrive completely ends the reading. -/
theorem readFrames_take {payloads : List Bytes} (hsize : ∀ p ∈ payloads, p.length < 2 ^ 64)
    (hlimit : ∀ p ∈ payloads, p.length ≤ limit) {k : Nat} (hk : k ≤ (Frame.wire payloads).length)
    (h : s.Holds ((Frame.wire payloads).take k) none) :
    (s.readFrames limit).1 = Frame.arrived payloads k ∧
      (Frame.IsBoundary payloads k → (s.readFrames limit).2 = none) ∧
      (¬ Frame.IsBoundary payloads k → (s.readFrames limit).2 = some .truncated) := by
  induction payloads generalizing s k with
  | nil =>
      rw [show Frame.wire [] = [] from rfl, List.take_nil] at h
      have hboundary : Frame.IsBoundary [] k := ⟨0, Nat.le_refl 0, Nat.le_zero.1 hk⟩
      rw [readFrames_of_holds_nil h]
      exact ⟨rfl, fun _ => rfl, fun hinside => absurd hboundary hinside⟩
  | cons payload payloads ih =>
      have hsize₀ : payload.length < 2 ^ 64 := hsize payload (by simp)
      have hlimit₀ : payload.length ≤ limit := hlimit payload (by simp)
      rw [Frame.wire_cons] at h hk
      by_cases hwhole : (Frame.encode payload).length ≤ k
      · have hsize' : ∀ p ∈ payloads, p.length < 2 ^ 64 := fun p hp => hsize p (by simp [hp])
        have hlimit' : ∀ p ∈ payloads, p.length ≤ limit := fun p hp => hlimit p (by simp [hp])
        have hk' : k - (Frame.encode payload).length ≤ (Frame.wire payloads).length := by
          rw [List.length_append] at hk
          omega
        rw [List.take_append, List.take_of_length_le hwhole] at h
        obtain ⟨s', h', hread⟩ := readFrames_encode_append hsize₀ hlimit₀ h
        obtain ⟨hpayloads, hending⟩ := ih hsize' hlimit' hk' h'
        rw [Frame.arrived_cons_of_le hwhole, Frame.isBoundary_cons_of_le hwhole, hread, hpayloads]
        exact ⟨rfl, hending⟩
      · have hlt : k < (Frame.encode payload).length := Nat.lt_of_not_le hwhole
        rw [List.take_append_of_le_length (Nat.le_of_lt hlt)] at h
        rw [Frame.arrived_cons_of_lt hlt]
        rcases Nat.eq_zero_or_pos k with rfl | hpos
        · rw [List.take_zero] at h
          rw [readFrames_of_holds_nil h]
          exact ⟨rfl, fun _ => rfl, fun hinside => absurd (Frame.isBoundary_zero _) hinside⟩
        · obtain ⟨s', hread⟩ := readFrame_cut hsize₀ hlimit₀ hpos hlt h
          have hinside := Frame.not_isBoundary_cons_of_lt hpos hlt payloads
          rw [readFrames_of_error hread]
          exact ⟨rfl, fun hboundary => absurd hboundary hinside, fun _ => rfl⟩

theorem mem_of_mem_arrived {payloads : List Bytes} {k : Nat} {payload : Bytes}
    (h : payload ∈ Frame.arrived payloads k) : payload ∈ payloads := by
  rw [Frame.arrived, List.mem_map] at h
  obtain ⟨⟨q, i⟩, hmem, rfl⟩ := h
  exact List.fst_mem_of_mem_zipIdx (List.mem_filter.1 hmem).1

/-- However much of the frames around payloads is delivered, and in whatever pieces: exactly the
payloads that arrived completely are read, in order and without the empty ones, after which the
source has ended between two frames or its last frame is cut short. -/
theorem readFrames_cut {payloads : List Bytes} {k : Nat} (hsize : ∀ p ∈ payloads, p.length < 2 ^ 64)
    (hlimit : ∀ p ∈ payloads, p.length ≤ limit) (hk : k ≤ (Frame.wire payloads).length)
    (hbytes : s.bytes = (Frame.wire payloads).take k) (hfailure : s.failure = none) :
    (s.readFrames limit).1 = Frame.arrived payloads k ∧
      (Frame.IsBoundary payloads k → (s.readFrames limit).2 = none) ∧
      (¬ Frame.IsBoundary payloads k → (s.readFrames limit).2 = some .truncated) ∧
      ∀ payload ∈ (s.readFrames limit).1, payload ∈ payloads := by
  obtain ⟨hpayloads, hboundary, hinside⟩ := readFrames_take hsize hlimit hk ⟨hbytes, hfailure⟩
  refine ⟨hpayloads, hboundary, hinside, fun payload hpayload => ?_⟩
  rw [hpayloads] at hpayload
  exact mem_of_mem_arrived hpayload

/-- A keepalive, a frame that arrives in two pieces, and the length of a third frame. -/
theorem readFrames_cut_third :
    (readFrames 3 ⟨[[0, 3, 1], [2, 3, 1]], none⟩).1 = [[1, 2, 3]] ∧
      (readFrames 3 ⟨[[0, 3, 1], [2, 3, 1]], none⟩).2 = some .truncated := by
  have hsize : ∀ p ∈ [[], [1, 2, 3], [7]], (p : Bytes).length < 2 ^ 64 := by decide
  have hlimit : ∀ p ∈ [[], [1, 2, 3], [7]], (p : Bytes).length ≤ 3 := by decide
  have hwire : Frame.wire [[], [1, 2, 3], [7]] = [0, 3, 1, 2, 3, 1, 7] := by cbv
  have harrived : Frame.arrived [[], [1, 2, 3], [7]] 6 = [[1, 2, 3]] := by cbv
  have hinside : ¬ Frame.IsBoundary [[], [1, 2, 3], [7]] 6 := by
    rintro ⟨i, hi, h⟩
    rcases i with _ | _ | _ | _ | i
    · exact absurd h (by cbv)
    · exact absurd h (by cbv)
    · exact absurd h (by cbv)
    · exact absurd h (by cbv)
    · change i + 4 ≤ 3 at hi
      omega
  have hcut := readFrames_cut (s := ⟨[[0, 3, 1], [2, 3, 1]], none⟩) (k := 6) hsize hlimit
    (by rw [hwire]; decide) (by rw [hwire]; rfl) rfl
  exact ⟨hcut.1.trans harrived, hcut.2.2.1 hinside⟩

end ByteSource

end ChainPeer
