import ChainPeer.Varint

/-!
# Frames

A frame is a payload behind its length. Empty frames only keep a stream alive and are never
handed on. Frames are read off a byte source, which delivers its bytes in pieces; a source ends
between frames or the last frame is cut short.
-/

namespace ChainPeer

/-- Why a stream of frames cannot be read further. -/
inductive FrameError where
  | io (reason : String)
  | truncated
  | badLength
  | tooLarge (length limit : Nat)
deriving DecidableEq

def FrameError.message : FrameError → String
  | io reason => s!"io: {reason}"
  | truncated => "stream closed mid-frame"
  | badLength => "malformed length prefix"
  | tooLarge length limit => s!"frame of {length} bytes exceeds limit of {limit}"

def Frame.encode (payload : Bytes) : Bytes :=
  Varint.encode payload.length ++ payload

/-- A byte source: the pieces still to be delivered, and the failure, if any, that follows them.
A piece without bytes is a delivery that has to be waited for once more. -/
structure ByteSource where
  pieces : List Bytes
  failure : Option String := none
deriving DecidableEq

inductive Delivery where
  | byte (b : UInt8)
  | finished
  | failed (reason : String)
deriving DecidableEq

namespace ByteSource

def ofBytes (bytes : Bytes) : ByteSource := ⟨[bytes], none⟩

/-- A byte string in pieces of the given sizes; what is left is the last piece. -/
def cut : (sizes : List Nat) → Bytes → List Bytes
  | [], bytes => [bytes]
  | size :: sizes, bytes => bytes.take size :: cut sizes (bytes.drop size)

def bytes (s : ByteSource) : Bytes := s.pieces.flatten

/-- How much a source still has to deliver, its failure counted as one. -/
def remaining (s : ByteSource) : Nat :=
  s.bytes.length + if s.failure.isSome then 1 else 0

/-- How many bytes the buffer of a reader holds. -/
def bufferSize : Nat := 8192

/-- How many bytes of a payload are asked for at once. -/
def chunkSize : Nat := 8192

/-- Pulls a piece into the buffer, as far as it fits in there. The buffer is the first piece. -/
def fill (piece : Bytes) (pieces : List Bytes) : Bytes × List Bytes :=
  match piece.drop bufferSize with
  | [] => (piece, pieces)
  | later => (piece.take bufferSize, later :: pieces)

/-- Takes at most `n` bytes off the pieces, and no more than are at hand: the buffer is filled only
when it is empty, and who asks for as much as it holds is served past it. -/
def takeSome? (n : Nat) : List Bytes → Option (Bytes × List Bytes)
  | [] => none
  | [] :: pieces => takeSome? n pieces
  | piece :: pieces =>
    let (held, pieces) := if n < bufferSize then fill piece pieces else (piece, pieces)
    some (held.take n, held.drop n :: pieces)

/-- Reads at most `n` bytes, none if the source is finished. A failure is reported once; after it
the source is finished. -/
def read (n : Nat) (s : ByteSource) : Except String Bytes × ByteSource :=
  match takeSome? n s.pieces with
  | some (chunk, pieces) => (.ok chunk, { s with pieces })
  | none =>
    match s.failure with
    | some reason => (.error reason, ⟨[], none⟩)
    | none => (.ok [], ⟨[], none⟩)

def next (s : ByteSource) : Delivery × ByteSource :=
  match s.read 1 with
  | (.ok (b :: _), rest) => (.byte b, rest)
  | (.ok [], rest) => (.finished, rest)
  | (.error reason, rest) => (.failed reason, rest)

theorem flatten_fill (piece : Bytes) (pieces : List Bytes) :
    (fill piece pieces).1 ++ (fill piece pieces).2.flatten = piece ++ pieces.flatten := by
  have hsplit := List.take_append_drop bufferSize piece
  unfold fill
  split
  · rfl
  · rw [List.flatten_cons, ← List.append_assoc, hsplit]

theorem fill_ne_nil {piece : Bytes} (h : piece ≠ []) (pieces : List Bytes) :
    (fill piece pieces).1 ≠ [] := by
  unfold fill
  split
  · exact h
  · exact List.ne_nil_of_length_pos (by
      have := List.length_pos_iff.2 h
      rw [List.length_take, bufferSize]
      omega)

/-- Some bytes are at hand, unless there are none left. -/
theorem takeSome?_eq_some {n : Nat} {pieces rest : List Bytes} {chunk : Bytes}
    (h : takeSome? n pieces = some (chunk, rest)) :
    pieces.flatten = chunk ++ rest.flatten ∧ chunk.length ≤ n ∧ (0 < n → chunk ≠ []) := by
  fun_induction takeSome? n pieces with
  | case1 => exact nomatch h
  | case2 pieces ih => exact ih h
  | case3 piece pieces hpiece held pieces' heq =>
    obtain ⟨rfl, rfl⟩ := Prod.mk.inj (Option.some.inj h)
    have hheld : held ≠ [] ∧ held ++ pieces'.flatten = piece ++ pieces.flatten := by
      split at heq
      · obtain ⟨rfl, rfl⟩ := Prod.ext_iff.1 heq
        exact ⟨fill_ne_nil hpiece pieces, flatten_fill piece pieces⟩
      · obtain ⟨rfl, rfl⟩ := Prod.mk.inj heq
        exact ⟨hpiece, rfl⟩
    refine ⟨?_, List.length_take_le n held, fun hn => ?_⟩
    · rw [List.flatten_cons, List.flatten_cons, ← List.append_assoc, List.take_append_drop, hheld.2]
    · exact List.ne_nil_of_length_pos (by
        have := List.length_pos_iff.2 hheld.1
        rw [List.length_take]
        omega)

theorem flatten_of_takeSome?_eq_none {n : Nat} {pieces : List Bytes}
    (h : takeSome? n pieces = none) : pieces.flatten = [] := by
  fun_induction takeSome? n pieces with
  | case1 => rfl
  | case2 pieces ih => exact ih h
  | case3 => exact nomatch h

/-- What one read gives: some of the bytes that are left, or the failure or the end if there are
none. -/
theorem read_cases {n : Nat} (hn : 0 < n) (s : ByteSource) :
    (∃ chunk rest, s.read n = (.ok chunk, rest) ∧ chunk ≠ [] ∧ chunk.length ≤ n ∧
      s.bytes = chunk ++ rest.bytes ∧ rest.failure = s.failure) ∨
    s.bytes = [] ∧ s.read n =
      ((match s.failure with | some reason => .error reason | none => .ok []), ⟨[], none⟩) := by
  unfold read
  cases htake : takeSome? n s.pieces with
  | some taken =>
    obtain ⟨hbytes, hlen, hne⟩ := takeSome?_eq_some htake
    exact .inl ⟨taken.1, { s with pieces := taken.2 }, rfl, hne hn, hlen, hbytes, rfl⟩
  | none =>
    refine .inr ⟨flatten_of_takeSome?_eq_none htake, ?_⟩
    cases s.failure <;> rfl

theorem next_cases (s : ByteSource) :
    (∃ b rest, s.next = (.byte b, rest) ∧ s.bytes = b :: rest.bytes ∧ rest.failure = s.failure) ∨
    s.bytes = [] ∧ s.next =
      ((match s.failure with | some reason => .failed reason | none => .finished), ⟨[], none⟩) := by
  unfold next
  rcases s.read_cases Nat.one_pos with ⟨chunk, rest, hread, hne, hlen, hbytes, hfailure⟩ |
    ⟨hbytes, hread⟩
  · obtain ⟨b, rfl⟩ := List.length_eq_one_iff.1
      (Nat.le_antisymm hlen (List.length_pos_iff.2 hne))
    rw [hread]
    exact .inl ⟨b, rest, rfl, hbytes, hfailure⟩
  · rw [hread]
    refine .inr ⟨hbytes, ?_⟩
    cases s.failure <;> rfl

theorem remaining_next_byte {s s' : ByteSource} {b : UInt8} (h : s.next = (.byte b, s')) :
    s'.remaining + 1 = s.remaining := by
  rcases s.next_cases with ⟨b', rest, hnext, hbytes, hfailure⟩ | ⟨-, hnext⟩
  · obtain rfl : rest = s' := (Prod.mk.inj (hnext.symm.trans h)).2
    rw [remaining, remaining, hbytes, hfailure, List.length_cons]
    omega
  · have hfinal := (Prod.mk.inj (hnext.symm.trans h)).1
    split at hfinal <;> exact nomatch hfinal

/-- Takes a payload of `n` bytes, in chunks, each of which may come short. What was delivered of a
payload that is cut short is lost. -/
def readPayload (n : Nat) (s : ByteSource) : Except FrameError Bytes × ByteSource :=
  if n = 0 then (.ok [], s)
  else
    match s.read (min n chunkSize) with
    | (.error reason, rest) => (.error (.io reason), rest)
    | (.ok [], rest) => (.error .truncated, rest)
    | (.ok (b :: chunk), rest) =>
      match readPayload (n - (chunk.length + 1)) rest with
      | (.ok more, rest) => (.ok (b :: chunk ++ more), rest)
      | (.error e, rest) => (.error e, rest)
termination_by n

/-- Takes a length prefix of at most `room` more bytes, after the groups `seen`; nothing if the
source is finished before the first byte of the prefix. -/
def readGroups : Nat → Bytes → ByteSource → Except FrameError (Option UInt64) × ByteSource
  | 0, _, s => (.error .badLength, s)
  | room + 1, seen, s =>
    match s.next with
    | (.byte b, rest) =>
      if Varint.isLast b then
        match Varint.decode? (seen ++ [b]) with
        | some n => (.ok (some n), rest)
        | none => (.error .badLength, rest)
      else readGroups room (seen ++ [b]) rest
    | (.finished, rest) =>
      if seen = [] then (.ok none, rest) else (.error .truncated, rest)
    | (.failed reason, rest) => (.error (.io reason), rest)

def readLength (s : ByteSource) : Except FrameError (Option UInt64) × ByteSource :=
  readGroups Varint.maxLength [] s

theorem remaining_readGroups_some {room : Nat} {seen : Bytes} {s s' : ByteSource} {n : UInt64}
    (h : readGroups room seen s = (.ok (some n), s')) : s'.remaining < s.remaining := by
  fun_induction readGroups room seen s with
  | case1 => simp at h
  | case2 seen s room b rest hnext hlast n' hdec =>
    obtain ⟨_, rfl⟩ := by simpa using h
    have := remaining_next_byte hnext
    omega
  | case3 => simp at h
  | case4 seen s room b rest hnext hlast ih =>
    have := remaining_next_byte hnext
    have := ih h
    omega
  | case5 => simp at h
  | case6 => simp at h
  | case7 => simp at h

theorem remaining_readLength_some {s s' : ByteSource} {n : UInt64}
    (h : s.readLength = (.ok (some n), s')) : s'.remaining < s.remaining :=
  remaining_readGroups_some h

/-- Takes the next payload that is not empty, of at most `limit` bytes; nothing once the source is
finished between frames. Of a frame that is too large only the length is taken. -/
def readFrame (limit : Nat) (s : ByteSource) : Except FrameError (Option Bytes) × ByteSource :=
  match _h : s.readLength with
  | (.error e, rest) => (.error e, rest)
  | (.ok none, rest) => (.ok none, rest)
  | (.ok (some length), rest) =>
    if length = 0 then readFrame limit rest
    else if limit < length.toNat then (.error (.tooLarge length.toNat limit), rest)
    else
      match readPayload length.toNat rest with
      | (.ok payload, rest) => (.ok (some payload), rest)
      | (.error e, rest) => (.error e, rest)
termination_by s.remaining
decreasing_by exact remaining_readLength_some _h

/-- However it is delivered, a payload is what the bytes that are left begin with; if they are too
few, all of them are taken. -/
theorem readPayload_cases (n : Nat) (s : ByteSource) :
    (∃ payload rest, readPayload n s = (.ok payload, rest) ∧ payload.length = n ∧
      s.bytes = payload ++ rest.bytes ∧ rest.failure = s.failure) ∨
    s.bytes.length < n ∧ readPayload n s =
      (.error (match s.failure with | some reason => .io reason | none => .truncated),
        ⟨[], none⟩) := by
  induction n using Nat.strongRecOn generalizing s with
  | ind n ih =>
    rw [readPayload]
    by_cases hn : n = 0
    · subst hn
      exact .inl ⟨[], s, rfl, rfl, rfl, rfl⟩
    rw [if_neg hn]
    have hasked : 0 < min n chunkSize := by
      rw [chunkSize]
      omega
    rcases s.read_cases hasked with ⟨chunk, rest, hread, hne, hlen, hbytes, hfailure⟩ |
      ⟨hbytes, hread⟩
    · cases chunk with
      | nil => exact absurd rfl hne
      | cons b chunk =>
        rw [List.length_cons] at hlen
        have hle : chunk.length + 1 ≤ n := by omega
        have hcut := congrArg List.length hbytes
        rw [List.length_append, List.length_cons] at hcut
        simp only [hread]
        rcases ih (n - (chunk.length + 1)) (by omega) rest with
          ⟨more, rest', hmore, hlength, hbytes', hfailure'⟩ | ⟨hshort, hmore⟩
        · rw [hmore]
          refine .inl ⟨b :: chunk ++ more, rest', rfl, ?_, ?_, hfailure'.trans hfailure⟩
          · rw [List.length_append, List.length_cons, hlength]
            omega
          · rw [hbytes, hbytes', List.append_assoc]
        · rw [hmore]
          refine .inr ⟨by omega, ?_⟩
          rw [hfailure]
    · rw [hread]
      refine .inr ⟨by rw [hbytes, List.length_nil]; omega, ?_⟩
      cases s.failure <;> rfl

theorem remaining_readPayload_ok {n : Nat} {s s' : ByteSource} {payload : Bytes}
    (h : readPayload n s = (.ok payload, s')) : s'.remaining ≤ s.remaining := by
  rcases readPayload_cases n s with ⟨payload', rest, hread, -, hbytes, hfailure⟩ | ⟨-, hread⟩
  · obtain rfl : rest = s' := (Prod.mk.inj (hread.symm.trans h)).2
    rw [remaining, remaining, hbytes, hfailure, List.length_append]
    omega
  · exact nomatch (Prod.mk.inj (hread.symm.trans h)).1

theorem remaining_readFrame_some {limit : Nat} {s s' : ByteSource} {payload : Bytes}
    (h : readFrame limit s = (.ok (some payload), s')) : s'.remaining < s.remaining := by
  fun_induction readFrame limit s with
  | case1 => simp at h
  | case2 => simp at h
  | case3 s rest hlen ih =>
    have := remaining_readLength_some hlen
    have := ih h
    omega
  | case4 => simp at h
  | case5 s length rest hlen hzero hlimit payload' rest' hpayload =>
    obtain ⟨_, rfl⟩ := by simpa using h
    have := remaining_readLength_some hlen
    have := remaining_readPayload_ok hpayload
    omega
  | case6 => simp at h

end ByteSource

end ChainPeer
