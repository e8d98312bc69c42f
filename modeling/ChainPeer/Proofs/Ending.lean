import ChainPeer.Proofs.Arrival
import Mathlib.Logic.Function.Iterate

/-!
# Reading comes to an end

A source with `n` bytes and perhaps a failure after them has a payload or an error for at most
`n + 1` reads of frames, whatever the bytes are and even if reading goes on after errors. Each of
these takes a byte or the failure, and once a read has found the source finished, so do all later
ones. A read of a frame itself is a loop over reads of the source. It is taken apart here into
single steps, of which it never needs more than it takes bytes, and one to find the end.
-/

namespace ChainPeer

/-- A reader of frames between two reads of its source: it has got some bytes of a length prefix, or
some of a payload of which others are missing, or it is done. -/
inductive Reader where
  | inPrefix (seen : Bytes) (source : ByteSource)
  | inPayload (missing : Nat) (got : Bytes) (source : ByteSource)
  | done (result : Except FrameError (Option Bytes)) (source : ByteSource)

namespace Reader

/-- The source of a reader. -/
def source : Reader → ByteSource
  | inPrefix _ s | inPayload _ _ s | done _ s => s

/-- The reader that has got some of a payload of which `missing` bytes are missing, perhaps none. -/
def behindChunk (missing : Nat) (got : Bytes) (s : ByteSource) : Reader :=
  if missing = 0 then done (.ok (some got)) s else inPayload missing got s

/-- The reader that is done with a length prefix, as far as there was one. -/
def behindPrefix (limit : Nat) (length : Except FrameError (Option UInt64)) (s : ByteSource) :
    Reader :=
  match length with
  | .error e => done (.error e) s
  | .ok none => done (.ok none) s
  | .ok (some length) =>
    if length = 0 then inPrefix [] s
    else if limit < length.toNat then done (.error (.tooLarge length.toNat limit)) s
    else behindChunk length.toNat [] s

/-- The reader after one more read of its source. -/
def step (limit : Nat) : Reader → Reader
  | inPrefix seen s =>
    match s.next with
    | (.byte b, rest) =>
      if Varint.isLast b then
        match Varint.decode? (seen ++ [b]) with
        | some length => behindPrefix limit (.ok (some length)) rest
        | none => done (.error .badLength) rest
      else if seen.length + 1 = Varint.maxLength then done (.error .badLength) rest
      else inPrefix (seen ++ [b]) rest
    | (.finished, rest) => done (if seen = [] then .ok none else .error .truncated) rest
    | (.failed reason, rest) => done (.error (.io reason)) rest
  | inPayload missing got s =>
    match s.read (min missing ByteSource.chunkSize) with
    | (.error reason, rest) => done (.error (.io reason)) rest
    | (.ok [], rest) => done (.error .truncated) rest
    | (.ok (b :: chunk), rest) =>
      behindChunk (missing - (chunk.length + 1)) (got ++ b :: chunk) rest
  | done result s => done result s

/-- The one reader becomes the other one in as many steps as it takes bytes or failures, and `spare`
more at most. -/
def Becomes (limit spare : Nat) (r r' : Reader) : Prop :=
  ∃ steps, (step limit)^[steps] r = r' ∧ steps + r'.source.remaining ≤ r.source.remaining + spare

variable {limit spare spare' : Nat} {r r' r'' : Reader}

theorem Becomes.trans (h : r.Becomes limit spare r') (h' : r'.Becomes limit spare' r'') :
    r.Becomes limit (spare + spare') r'' := by
  obtain ⟨k, rfl, hk⟩ := h
  obtain ⟨k', rfl, hk'⟩ := h'
  refine ⟨k' + k, Function.iterate_add_apply _ _ _ _, ?_⟩
  omega

theorem Becomes.mono (h : r.Becomes limit spare r') (hle : spare ≤ spare') :
    r.Becomes limit spare' r' := by
  obtain ⟨k, hsteps, hk⟩ := h
  exact ⟨k, hsteps, by omega⟩

theorem becomes_step (h : r.step limit = r')
    (hle : r'.source.remaining + 1 ≤ r.source.remaining + spare) : r.Becomes limit spare r' :=
  ⟨1, h, by omega⟩

theorem becomes_self (r : Reader) : r.Becomes limit spare r :=
  ⟨0, rfl, by omega⟩

@[simp] theorem source_behindChunk (missing : Nat) (got : Bytes) (s : ByteSource) :
    (behindChunk missing got s).source = s := by
  unfold behindChunk
  split <;> rfl

@[simp] theorem source_behindPrefix (length : Except FrameError (Option UInt64)) (s : ByteSource) :
    (behindPrefix limit length s).source = s := by
  unfold behindPrefix
  split
  · rfl
  · rfl
  · next length =>
      split
      · rfl
      · split
        · rfl
        · exact source_behindChunk length.toNat [] s

end Reader

namespace ByteSource

variable {s s' : ByteSource} {limit : Nat}

/-! ## What is taken -/

theorem remaining_read_chunk {n : Nat} (hn : 0 < n) {b : UInt8} {chunk : Bytes}
    (h : s.read n = (.ok (b :: chunk), s')) : s'.remaining + 1 ≤ s.remaining := by
  rcases s.read_cases hn with ⟨chunk', rest, hread, -, -, hbytes, hfailure⟩ | ⟨-, hread⟩
  · obtain ⟨hchunk, rfl⟩ := Prod.mk.inj (hread.symm.trans h)
    obtain rfl := Except.ok.inj hchunk
    rw [remaining, remaining, hbytes, hfailure, List.length_append, List.length_cons]
    omega
  · have hfinal := (Prod.mk.inj (hread.symm.trans h)).1
    split at hfinal <;> cases hfinal

theorem remaining_read_le {n : Nat} (hn : 0 < n) {result : Except String Bytes}
    (h : s.read n = (result, s')) : s'.remaining ≤ s.remaining := by
  rcases s.read_cases hn with ⟨chunk, rest, hread, -, -, hbytes, hfailure⟩ | ⟨-, hread⟩
  · obtain rfl : rest = s' := (Prod.mk.inj (hread.symm.trans h)).2
    rw [remaining, remaining, hbytes, hfailure, List.length_append]
    omega
  · rw [← (Prod.mk.inj (hread.symm.trans h)).2]
    exact Nat.zero_le _

theorem remaining_next_le {delivery : Delivery} (h : s.next = (delivery, s')) :
    s'.remaining ≤ s.remaining := by
  rcases s.next_cases with ⟨b, rest, hnext, -, -⟩ | ⟨-, hnext⟩
  · have htaken := remaining_next_byte hnext
    obtain rfl : rest = s' := (Prod.mk.inj (hnext.symm.trans h)).2
    omega
  · rw [← (Prod.mk.inj (hnext.symm.trans h)).2]
    exact Nat.zero_le _

theorem remaining_next_failed {reason : String} (h : s.next = (.failed reason, s')) :
    s'.remaining + 1 ≤ s.remaining := by
  rcases s.next_cases with ⟨b, rest, hnext, -, -⟩ | ⟨-, hnext⟩
  · exact nomatch (Prod.mk.inj (hnext.symm.trans h)).1
  · obtain ⟨hreason, rfl⟩ := Prod.mk.inj (hnext.symm.trans h)
    cases hfailure : s.failure with
    | none =>
        rw [hfailure] at hreason
        exact nomatch hreason
    | some reason =>
        rw [remaining, remaining, hfailure]
        simp [bytes]

theorem remaining_readGroups_le (room : Nat) (seen : Bytes) (s : ByteSource) :
    (readGroups room seen s).2.remaining ≤ s.remaining := by
  fun_induction readGroups room seen s with
  | case1 => exact Nat.le_refl _
  | case2 room seen s b rest hnext => exact remaining_next_le hnext
  | case3 room seen s b rest hnext => exact remaining_next_le hnext
  | case4 room seen s b rest hnext hlast ih => exact Nat.le_trans ih (remaining_next_le hnext)
  | case5 room s rest hnext => exact remaining_next_le hnext
  | case6 room seen s rest hnext => exact remaining_next_le hnext
  | case7 room seen s reason rest hnext => exact remaining_next_le hnext

/-- All that a read of a length prefix gives, short of finding the source finished, it gives for the
first byte or for the failure. -/
theorem remaining_readLength_lt {result : Except FrameError (Option UInt64)}
    (h : s.readLength = (result, s')) (hresult : result ≠ .ok none) :
    s'.remaining < s.remaining := by
  rw [readLength, Varint.maxLength, readGroups] at h
  split at h
  · next b rest hnext =>
      have htaken := remaining_next_byte hnext
      split at h
      · split at h <;>
        · rw [← (Prod.mk.inj h).2]
          omega
      · have hleft := remaining_readGroups_le 9 [b] rest
        rw [List.nil_append] at h
        rw [h] at hleft
        dsimp only at hleft
        omega
  · exact absurd (Prod.mk.inj h).1.symm hresult
  · next reason rest hnext =>
      rw [← (Prod.mk.inj h).2]
      exact remaining_next_failed hnext

theorem remaining_readPayload_le (n : Nat) (s : ByteSource) :
    (readPayload n s).2.remaining ≤ s.remaining := by
  rcases readPayload_cases n s with ⟨payload, rest, hread, -, -, -⟩ | ⟨-, hread⟩
  · rw [hread]
    exact remaining_readPayload_ok hread
  · rw [hread]
    exact Nat.zero_le _

/-- A read of a frame that gives a payload or an error takes a byte or the failure. -/
theorem remaining_readFrame_lt {s : ByteSource} (h : (s.readFrame limit).1 ≠ .ok none) :
    (s.readFrame limit).2.remaining < s.remaining := by
  fun_induction readFrame limit s with
  | case1 s e rest hlen => exact remaining_readLength_lt hlen (by simp)
  | case2 s rest hlen => exact absurd rfl h
  | case3 s rest hlen ih => exact Nat.lt_trans (ih h) (remaining_readLength_some hlen)
  | case4 s length rest hlen => exact remaining_readLength_some hlen
  | case5 s length rest hlen hzero hlimit payload rest' hpayload =>
      exact Nat.lt_of_le_of_lt (remaining_readPayload_ok hpayload) (remaining_readLength_some hlen)
  | case6 s length rest hlen hzero hlimit e rest' hpayload =>
      have hleft := remaining_readPayload_le length.toNat rest
      rw [hpayload] at hleft
      exact Nat.lt_of_le_of_lt hleft (remaining_readLength_some hlen)

theorem remaining_next_finished (h : s.next = (.finished, s')) : s'.remaining = 0 := by
  rcases s.next_cases with ⟨b, rest, hnext, -, -⟩ | ⟨-, hnext⟩
  · exact nomatch (Prod.mk.inj (hnext.symm.trans h)).1
  · rw [← (Prod.mk.inj (hnext.symm.trans h)).2]
    rfl

theorem remaining_readGroups_none {room : Nat} {seen : Bytes}
    (h : readGroups room seen s = (.ok none, s')) : s'.remaining = 0 := by
  fun_induction readGroups room seen s with
  | case1 => cases h
  | case2 => cases h
  | case3 => cases h
  | case4 room seen s b rest hnext hlast ih => exact ih h
  | case5 room s rest hnext =>
      rw [← (Prod.mk.inj h).2]
      exact remaining_next_finished hnext
  | case6 => cases h
  | case7 => cases h

theorem remaining_readFrame_none {s : ByteSource} (h : (s.readFrame limit).1 = .ok none) :
    (s.readFrame limit).2.remaining = 0 := by
  fun_induction readFrame limit s with
  | case1 => cases h
  | case2 s rest hlen => exact remaining_readGroups_none hlen
  | case3 s rest hlen ih => exact ih h
  | case4 => cases h
  | case5 => cases h
  | case6 => cases h

end ByteSource

namespace Reader

open ByteSource

variable {limit : Nat}

/-! ## Reads as steps -/

/-- How many steps more than it takes bytes or the failure the read of a length prefix may need:
one, if it gets to the end of the source. -/
def prefixSpare : Except FrameError (Option UInt64) → Nat
  | .ok (some _) => 0
  | _ => 1

/-- By the recursion over the bytes that the prefix may still have: a step for each of them. -/
theorem becomes_readGroups (limit : Nat) {room : Nat} {seen : Bytes} (hroom : 0 < room)
    (hlen : seen.length + room = Varint.maxLength) (s : ByteSource) :
    (inPrefix seen s).Becomes limit (prefixSpare (readGroups room seen s).1)
      (behindPrefix limit (readGroups room seen s).1 (readGroups room seen s).2) := by
  fun_induction readGroups room seen s with
  | case1 => exact absurd hroom (Nat.lt_irrefl 0)
  | case2 room seen s b rest hnext hlast n hdec =>
      apply becomes_step
      · simp only [step, hnext, hlast, hdec, if_true]
      · rw [source_behindPrefix]
        exact Nat.le_of_eq (remaining_next_byte hnext)
  | case3 room seen s b rest hnext hlast hdec =>
      apply becomes_step
      · simp only [step, hnext, hlast, hdec, if_true, behindPrefix]
      · exact Nat.le_succ_of_le (Nat.le_of_eq (remaining_next_byte hnext))
  | case4 room seen s b rest hnext hlast ih =>
      have htaken := remaining_next_byte hnext
      cases room with
      | zero =>
          apply becomes_step
          · simp only [step, hnext, hlast, hlen, if_true, readGroups, behindPrefix]
            rfl
          · exact Nat.le_succ_of_le (Nat.le_of_eq htaken)
      | succ room =>
          have hmore : (inPrefix seen s).Becomes limit 0 (inPrefix (seen ++ [b]) rest) := by
            apply becomes_step
            · have hne : seen.length + 1 ≠ Varint.maxLength := by omega
              simp only [step, hnext, hlast, hne, if_false]
              rfl
            · exact Nat.le_of_eq htaken
          have hlen' : (seen ++ [b]).length + (room + 1) = Varint.maxLength := by
            rw [List.length_append, List.length_singleton]
            omega
          exact (hmore.trans (ih (Nat.succ_pos room) hlen')).mono (by omega)
  | case5 room s rest hnext =>
      apply becomes_step
      · simp only [step, hnext, if_true, behindPrefix]
      · exact Nat.succ_le_succ (remaining_next_le hnext)
  | case6 room seen s rest hnext hseen =>
      apply becomes_step
      · simp only [step, hnext, hseen, if_false, behindPrefix]
      · exact Nat.succ_le_succ (remaining_next_le hnext)
  | case7 room seen s reason rest hnext =>
      apply becomes_step
      · simp only [step, hnext, behindPrefix]
      · exact Nat.succ_le_succ (remaining_next_le hnext)

theorem becomes_readLength (limit : Nat) {s s' : ByteSource}
    {result : Except FrameError (Option UInt64)} (h : s.readLength = (result, s')) :
    (inPrefix [] s).Becomes limit (prefixSpare result) (behindPrefix limit result s') := by
  have hreads : (inPrefix [] s).Becomes limit _ _ :=
    becomes_readGroups limit (Nat.succ_pos 9) rfl s
  rw [show readGroups (9 + 1) [] s = (result, s') from h] at hreads
  exact hreads

theorem min_chunkSize_pos {n : Nat} (h : n ≠ 0) : 0 < min n chunkSize := by
  rw [chunkSize]
  omega

theorem becomes_chunk {n : Nat} {b : UInt8} {chunk : Bytes} {s rest : ByteSource} (hne : n ≠ 0)
    (hread : s.read (min n chunkSize) = (.ok (b :: chunk), rest)) (got : Bytes) :
    (behindChunk n got s).Becomes limit 0
      (behindChunk (n - (chunk.length + 1)) (got ++ b :: chunk) rest) := by
  rw [behindChunk, if_neg hne]
  apply becomes_step
  · simp only [step, hread]
  · rw [source_behindChunk]
    exact remaining_read_chunk (min_chunkSize_pos hne) hread

/-- By the recursion over what is missing of the payload: a step for each chunk of it. -/
theorem becomes_readPayload (limit n : Nat) (got : Bytes) (s : ByteSource) :
    (behindChunk n got s).Becomes limit 1
      (done ((readPayload n s).1.map fun payload => some (got ++ payload))
        (readPayload n s).2) := by
  fun_induction readPayload n s generalizing got with
  | case1 s =>
      rw [Except.map, List.append_nil]
      exact becomes_self _
  | case2 n s hne reason rest hread =>
      rw [behindChunk, if_neg hne]
      apply becomes_step
      · simp only [step, hread, Except.map]
      · exact Nat.succ_le_succ (remaining_read_le (min_chunkSize_pos hne) hread)
  | case3 n s hne rest hread =>
      rw [behindChunk, if_neg hne]
      apply becomes_step
      · simp only [step, hread, Except.map]
      · exact Nat.succ_le_succ (remaining_read_le (min_chunkSize_pos hne) hread)
  | case4 n s hne b chunk rest hread more rest' hmore ih =>
      have hrest := ih (got ++ b :: chunk)
      rw [hmore] at hrest
      rw [Except.map, ← List.append_assoc]
      exact (becomes_chunk hne hread got).trans hrest
  | case5 n s hne b chunk rest hread e rest' hmore ih =>
      have hrest := ih (got ++ b :: chunk)
      rw [hmore] at hrest
      exact (becomes_chunk hne hread got).trans hrest

/-- A read of a frame is as many steps as it takes bytes, with one more to find the end of the
source. That goes for the keepalives before the frame, too. -/
theorem becomes_readFrame (limit : Nat) (s : ByteSource) :
    (inPrefix [] s).Becomes limit 1 (done (s.readFrame limit).1 (s.readFrame limit).2) := by
  fun_induction readFrame limit s with
  | case1 s e rest hlen => exact becomes_readLength limit hlen
  | case2 s rest hlen => exact becomes_readLength limit hlen
  | case3 s rest hlen ih =>
      have hkeepalive := becomes_readLength limit hlen
      rw [behindPrefix, if_pos rfl] at hkeepalive
      exact hkeepalive.trans ih
  | case4 s length rest hlen hzero hlarge =>
      have hlength := becomes_readLength limit hlen
      rw [behindPrefix, if_neg hzero, if_pos hlarge] at hlength
      exact hlength.mono (Nat.zero_le 1)
  | case5 s length rest hlen hzero hlarge payload rest' hpayload =>
      have hlength := becomes_readLength limit hlen
      have hread := becomes_readPayload limit length.toNat [] rest
      rw [behindPrefix, if_neg hzero, if_neg hlarge] at hlength
      rw [hpayload] at hread
      exact hlength.trans hread
  | case6 s length rest hlen hzero hlarge e rest' hpayload =>
      have hlength := becomes_readLength limit hlen
      have hread := becomes_readPayload limit length.toNat [] rest
      rw [behindPrefix, if_neg hzero, if_neg hlarge] at hlength
      rw [hpayload] at hread
      exact hlength.trans hread

end Reader

namespace ByteSource

variable {s : ByteSource} {limit : Nat}

/-! ## Reads in a row -/

/-- Whether a read gave a payload or an error. -/
def gives : Except FrameError (Option Bytes) → Bool
  | .ok none => false
  | _ => true

theorem gives_iff {result : Except FrameError (Option Bytes)} :
    gives result ↔ result ≠ .ok none := by
  unfold gives
  split
  · exact iff_of_false nofun (· rfl)
  · next hne => exact iff_of_true rfl hne

/-- By induction on the number of reads: each that gives something lowers what remains. -/
theorem countP_gives_add_remaining_le (limit count : Nat) (s : ByteSource) :
    (readings limit count s).countP gives + (after limit count s).remaining ≤ s.remaining := by
  induction count generalizing s with
  | zero => exact Nat.le_of_eq (Nat.zero_add _)
  | succ count ih =>
      have hrest := ih (s.readFrame limit).2
      rw [readings, after]
      by_cases hresult : (s.readFrame limit).1 = .ok none
      · have hleft := remaining_readFrame_none hresult
        rw [List.countP_cons_of_neg (by rw [gives_iff]; exact not_not_intro hresult)]
        omega
      · have hleft := remaining_readFrame_lt hresult
        rw [List.countP_cons_of_pos (gives_iff.2 hresult)]
        omega

theorem readings_of_remaining_eq_zero (count : Nat) (h : s.remaining = 0) :
    ∀ r ∈ readings limit count s, r = .ok none := by
  have hcount := countP_gives_add_remaining_le limit count s
  have hnone : (readings limit count s).countP gives = 0 := by omega
  intro r hr
  have hr' := List.countP_eq_zero.1 hnone r hr
  rwa [gives_iff, not_not] at hr'

/-- By induction on the number of reads: the first that finds the source finished leaves nothing. -/
theorem readings_behind_none {count : Nat} {before later : List (Except FrameError (Option Bytes))}
    (h : readings limit count s = before ++ .ok none :: later) : ∀ r ∈ later, r = .ok none := by
  induction count generalizing s before with
  | zero => exact absurd h.symm (by simp [readings])
  | succ count ih =>
      rw [readings] at h
      cases before with
      | nil =>
          obtain ⟨hnone, rfl⟩ := List.cons.inj h
          exact readings_of_remaining_eq_zero count (remaining_readFrame_none hnone)
      | cons first before => exact ih (List.cons.inj h).2

/-- What was taken is a byte, unless it is the failure. -/
theorem taken_of_remaining_lt {s' : ByteSource} (h : s'.remaining < s.remaining)
    (hbytes : s'.bytes <:+ s.bytes) :
    s'.bytes.length < s.bytes.length ∨ s.failure.isSome ∧ s'.failure = none := by
  have hle := hbytes.length_le
  rw [remaining, remaining] at h
  by_cases hfailure : s.failure.isSome
  · cases hleft : s'.failure with
    | none => exact .inr ⟨hfailure, rfl⟩
    | some reason =>
        rw [hleft, if_pos hfailure, if_pos Option.isSome_some] at h
        exact .inl (by omega)
  · rw [if_neg hfailure] at h
    exact .inl (by omega)

/-- For every source: a read of a frame is over after finitely many reads of the source, no more
than it takes bytes, and one to find the end. If it gives a payload or an error, it takes a byte or
the failure, so that of any number of reads in a row, with reading going on after errors, no more do
so than there are bytes and failures. Behind a read that gives nothing, no other read gives
anything. -/
theorem reading_ends (limit : Nat) (s : ByteSource) :
    (∃ steps, (Reader.step limit)^[steps] (.inPrefix [] s) =
        .done (s.readFrame limit).1 (s.readFrame limit).2 ∧
      steps + (s.readFrame limit).2.remaining ≤ s.remaining + 1) ∧
    ((s.readFrame limit).1 ≠ .ok none →
      (s.readFrame limit).2.bytes <:+ s.bytes ∧
        ((s.readFrame limit).2.bytes.length < s.bytes.length ∨
          s.failure.isSome ∧ (s.readFrame limit).2.failure = none)) ∧
    ∀ count,
      (readings limit count s).countP gives ≤
        s.bytes.length + (if s.failure.isSome then 1 else 0) ∧
      ∀ before later, readings limit count s = before ++ .ok none :: later →
        ∀ r ∈ later, r = .ok none := by
  refine ⟨Reader.becomes_readFrame limit s, fun hresult => ?_, fun count => ⟨?_, ?_⟩⟩
  · have hsuffix := readFrame_suffix limit s
    exact ⟨hsuffix, taken_of_remaining_lt (remaining_readFrame_lt hresult) hsuffix⟩
  · exact Nat.le_of_add_right_le (countP_gives_add_remaining_le limit count s)
  · intro before later h
    exact readings_behind_none h

/-- Two keepalives and a frame that is too large. Reading goes on behind its length, where the next
byte is taken for the length of a payload that does not come. -/
example : readings 4 3 (ofBytes [0, 0, 5, 1]) =
    [.error (.tooLarge 5 4), .error .truncated, .ok none] := by cbv

end ByteSource

end ChainPeer
