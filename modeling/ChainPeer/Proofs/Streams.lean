import ChainPeer.Proofs.Frames
import ChainPeer.Proofs.Grammar
import ChainPeer.Proofs.Intake
import ChainPeer.Proofs.Ledger

/-!
# Streams as lists of payloads

Reading a stream is taking the payloads of its frames one by one: each is decoded in the state that
the ones before it have left and handled if it is a message, up to the first that cannot be handled
or to the first frame that cannot be read. What the node notes of it is added up beside: how many
payloads it took, how many were no messages, and the report if the stream was given up.
-/

namespace ChainPeer

/-! ## Bytes that come later -/

/-- A frame could not be read because of the bytes that it has, not because there are too few. -/
def FrameError.IsFinal : FrameError → Prop
  | badLength | tooLarge .. => True
  | io _ | truncated => False

/-- A stream was given up because of what it had brought by then. -/
def StreamFault.IsFinal : StreamFault → Prop
  | frame e => e.IsFinal
  | handler _ => True

namespace ByteSource

/-- The result of a read, when it is the same whatever comes later. -/
def Settled {α : Type} : Except FrameError (Option α) → Prop
  | .ok (some _) => True
  | .ok none => False
  | .error e => e.IsFinal

variable {s s' t : ByteSource} {limit : Nat}

theorem next_extend (h : s.bytes <+: t.bytes) {b : UInt8} (hnext : s.next = (.byte b, s')) :
    ∃ t', t.next = (.byte b, t') ∧ s'.bytes <+: t'.bytes := by
  obtain ⟨later, hlater⟩ := h
  rw [bytes_of_next_byte hnext, List.cons_append] at hlater
  obtain ⟨t', hnext', hrest, -⟩ := next_of_holds_cons ⟨hlater.symm, rfl⟩
  exact ⟨t', hnext', later, hrest.symm⟩

theorem readGroups_extend {room : Nat} {seen : Bytes} {result : Except FrameError (Option UInt64)}
    (h : s.bytes <+: t.bytes) (hread : readGroups room seen s = (result, s'))
    (hresult : Settled result) :
    ∃ t', readGroups room seen t = (result, t') ∧ s'.bytes <+: t'.bytes := by
  fun_induction readGroups room seen s generalizing t with
  | case1 seen s =>
      obtain ⟨rfl, rfl⟩ := Prod.mk.inj hread
      exact ⟨t, rfl, h⟩
  | case2 seen s room b rest hnext hlast n hdecode =>
      obtain ⟨rfl, rfl⟩ := Prod.mk.inj hread
      obtain ⟨t', hnext', hrest⟩ := next_extend h hnext
      exact ⟨t', by rw [readGroups, hnext']; simp only [hlast, if_true, hdecode], hrest⟩
  | case3 seen s room b rest hnext hlast hdecode =>
      obtain ⟨rfl, rfl⟩ := Prod.mk.inj hread
      obtain ⟨t', hnext', hrest⟩ := next_extend h hnext
      exact ⟨t', by rw [readGroups, hnext']; simp only [hlast, if_true, hdecode], hrest⟩
  | case4 seen s room b rest hnext hlast ih =>
      obtain ⟨t₁, hnext', hrest⟩ := next_extend h hnext
      obtain ⟨t', hread', h'⟩ := ih hrest hread
      refine ⟨t', ?_, h'⟩
      rw [readGroups, hnext']
      simp only [hlast, if_false, hread', Bool.false_eq_true]
  | case5 | case6 | case7 =>
      obtain ⟨rfl, -⟩ := Prod.mk.inj hread
      exact hresult.elim

theorem readLength_extend {result : Except FrameError (Option UInt64)} (h : s.bytes <+: t.bytes)
    (hread : s.readLength = (result, s')) (hresult : Settled result) :
    ∃ t', t.readLength = (result, t') ∧ s'.bytes <+: t'.bytes :=
  readGroups_extend h hread hresult

theorem readPayload_extend {n : Nat} {payload : Bytes} (h : s.bytes <+: t.bytes)
    (hread : readPayload n s = (.ok payload, s')) :
    ∃ t', readPayload n t = (.ok payload, t') ∧ s'.bytes <+: t'.bytes := by
  obtain ⟨rfl, hbytes⟩ := readPayload_ok hread
  obtain ⟨later, hlater⟩ := h
  rw [hbytes, List.append_assoc] at hlater
  obtain ⟨t', hread', hrest, -⟩ := readPayload_append ⟨hlater.symm, rfl⟩
  exact ⟨t', hread', later, hrest.symm⟩

theorem readFrame_extend {result : Except FrameError (Option Bytes)} (h : s.bytes <+: t.bytes)
    (hread : s.readFrame limit = (result, s')) (hresult : Settled result) :
    ∃ t', t.readFrame limit = (result, t') ∧ s'.bytes <+: t'.bytes := by
  fun_induction readFrame limit s generalizing t with
  | case1 s e rest hlength =>
      obtain ⟨rfl, rfl⟩ := Prod.mk.inj hread
      obtain ⟨t', hlength', hrest⟩ := readLength_extend h hlength hresult
      exact ⟨t', readFrame_of_readLength_error hlength', hrest⟩
  | case2 s rest hlength =>
      obtain ⟨rfl, -⟩ := Prod.mk.inj hread
      exact hresult.elim
  | case3 s rest hlength ih =>
      obtain ⟨t₁, hlength', hrest⟩ := readLength_extend h hlength trivial
      rw [readFrame_of_readLength_some hlength', if_pos rfl]
      exact ih hrest hread
  | case4 s length rest hlength hzero hlarge =>
      obtain ⟨rfl, rfl⟩ := Prod.mk.inj hread
      obtain ⟨t', hlength', hrest⟩ := readLength_extend h hlength trivial
      rw [readFrame_of_readLength_some hlength', if_neg hzero, if_pos hlarge]
      exact ⟨t', rfl, hrest⟩
  | case5 s length rest hlength hzero hlarge payload rest' hpayload =>
      obtain ⟨rfl, rfl⟩ := Prod.mk.inj hread
      obtain ⟨t₁, hlength', hrest⟩ := readLength_extend h hlength trivial
      obtain ⟨t', hpayload', hrest'⟩ := readPayload_extend hrest hpayload
      rw [readFrame_of_readLength_some hlength', if_neg hzero, if_neg hlarge, hpayload']
      exact ⟨t', rfl, hrest'⟩
  | case6 s length rest hlength hzero hlarge e rest' hpayload =>
      -- A payload is only ever cut short.
      obtain ⟨rfl, -⟩ := Prod.mk.inj hread
      rcases readPayload_cases length.toNat rest with ⟨payload, rest'', hok, -⟩ | ⟨-, hcut⟩
      · cases hok.symm.trans hpayload
      · rw [← Except.error.inj (Prod.mk.inj (hcut.symm.trans hpayload)).1] at hresult
        revert hresult
        cases rest.failure <;> exact False.elim

/-- A source with more bytes gives the same payloads first. If the reading ends with an error of a
frame that is there, it ends in the same way. -/
theorem readFrames_extend (limit : Nat) (h : s.bytes <+: t.bytes) :
    (s.readFrames limit).1 <+: (t.readFrames limit).1 ∧
      ∀ e, (s.readFrames limit).2 = some e → e.IsFinal → t.readFrames limit = s.readFrames limit := by
  fun_induction readFrames limit s generalizing t with
  | case1 s payload rest hread payloads e hrest ih =>
      obtain ⟨t', hread', h'⟩ := readFrame_extend h hread trivial
      obtain ⟨hpayloads, hfinal⟩ := ih h'
      rw [readFrames_of_some hread']
      rw [hrest] at hpayloads hfinal
      refine ⟨List.cons_prefix_cons.2 ⟨rfl, hpayloads⟩, fun e' he he' => ?_⟩
      rw [hfinal e' he he']
  | case2 s rest hread => exact ⟨List.nil_prefix, fun e he => nomatch he⟩
  | case3 s e rest hread =>
      refine ⟨List.nil_prefix, fun e' he he' => ?_⟩
      obtain rfl := Option.some.inj he
      obtain ⟨t', hread', -⟩ := readFrame_extend h hread he'
      exact readFrames_of_error hread'

theorem ne_nil_of_mem_readFrames {payload : Bytes} (h : payload ∈ (s.readFrames limit).1) :
    payload ≠ [] := by
  fun_induction readFrames limit s with
  | case1 s first rest hread payloads e hrest ih =>
      rw [hrest] at ih
      rcases List.mem_cons.1 h with rfl | h
      · exact List.length_pos_iff.1 (readFrame_some hread).1.1
      · exact ih h
  | case2 | case3 => exact nomatch h

end ByteSource

/-! ## Payloads taken one by one -/

/-- What became of a payload that was taken off a stream. -/
inductive Fate where
  | dropped (e : DecodeError)
  | handled (m : Message)

def Fate.isDropped : Fate → Bool
  | dropped _ => true
  | handled _ => false

/-- What is noted once some more payloads were taken and the stream was given up, if there is a
report of it. -/
def Intake.after (i : Intake) (fates : List Fate) (report : Option StreamReport) : Intake where
  framesReceived := i.framesReceived + fates.length
  decodeErrors := i.decodeErrors + fates.countP Fate.isDropped
  streamErrors := i.streamErrors + report.toList.length
  reports := report.toList.foldl ReportQueue.add i.reports

theorem Intake.after_after (i : Intake) (fates fates' : List Fate) (report : Option StreamReport) :
    (i.after fates none).after fates' report = i.after (fates ++ fates') report := by
  simp only [after, List.length_append, List.countP_append, Nat.add_assoc, Option.toList_none,
    List.length_nil, Nat.zero_add, List.foldl_nil]

namespace Site

variable {σ : Type} (w : World σ) (c : Channel) (p : PeerId)

/-- Takes payloads one by one. Each is decoded in the state that the ones before it have left, and
handled if it is a message, up to the first that cannot be handled. Nothing is counted. -/
def takeIn : List Bytes → Site σ → (List Fate × Option HandlerError) × Site σ
  | [], s => (([], none), s)
  | payload :: payloads, s =>
    match s.node.decode c p payload with
    | .error e =>
      let ((fates, error), s) := takeIn payloads s
      ((.dropped e :: fates, error), s)
    | .ok m =>
      match s.handle w c p m with
      | (.error e, s) => (([.handled m], some e), s)
      | (.ok (), s) =>
        let ((fates, error), s) := takeIn payloads s
        ((.handled m :: fates, error), s)

variable {w c p} {s t : Site σ} {payload : Bytes} {payloads : List Bytes}

theorem takeIn_of_dropped {e : DecodeError} (h : s.node.decode c p payload = .error e) :
    s.takeIn w c p (payload :: payloads) =
      ((.dropped e :: (s.takeIn w c p payloads).1.1, (s.takeIn w c p payloads).1.2),
        (s.takeIn w c p payloads).2) := by
  rw [takeIn, h]

theorem takeIn_of_handled {m : Message} (h : s.node.decode c p payload = .ok m)
    (hhandle : s.handle w c p m = (.ok (), t)) :
    s.takeIn w c p (payload :: payloads) =
      ((.handled m :: (t.takeIn w c p payloads).1.1, (t.takeIn w c p payloads).1.2),
        (t.takeIn w c p payloads).2) := by
  rw [takeIn, h]
  dsimp only
  rw [hhandle]

theorem takeIn_of_error {m : Message} {e : HandlerError} (h : s.node.decode c p payload = .ok m)
    (hhandle : s.handle w c p m = (.error e, t)) :
    s.takeIn w c p (payload :: payloads) = (([.handled m], some e), t) := by
  rw [takeIn, h]
  dsimp only
  rw [hhandle]

/-- What can become of a payload: it is no message, or it is one that can or cannot be handled. -/
theorem payload_cases (w : World σ) (c : Channel) (p : PeerId) (payload : Bytes) (s : Site σ) :
    (∃ e, s.node.decode c p payload = .error e) ∨
    (∃ m e t, s.node.decode c p payload = .ok m ∧ s.handle w c p m = (.error e, t)) ∨
    ∃ m t, s.node.decode c p payload = .ok m ∧ s.handle w c p m = (.ok (), t) := by
  cases s.node.decode c p payload with
  | error e => exact .inl ⟨e, rfl⟩
  | ok m =>
      cases hhandle : s.handle w c p m with
      | mk result t =>
          cases result with
          | error e => exact .inr (.inl ⟨m, e, t, rfl, hhandle⟩)
          | ok u => exact .inr (.inr ⟨m, t, rfl, hhandle⟩)

theorem takeIn_withIntake (payloads : List Bytes) (s : Site σ) (i : Intake) :
    (s.withIntake i).takeIn w c p payloads =
      ((s.takeIn w c p payloads).1, (s.takeIn w c p payloads).2.withIntake i) := by
  induction payloads generalizing s with
  | nil => rfl
  | cons payload payloads ih =>
      have hsame : (s.withIntake i).node.decode c p payload = s.node.decode c p payload := rfl
      rcases payload_cases w c p payload s with
        ⟨e, hdecode⟩ | ⟨m, e, t, hdecode, hhandle⟩ | ⟨m, t, hdecode, hhandle⟩
      · rw [takeIn_of_dropped hdecode, takeIn_of_dropped (hsame.trans hdecode), ih s]
      · have hhandle' := (aloof_handle w p c m).of_eq hhandle i
        rw [takeIn_of_error hdecode hhandle, takeIn_of_error (hsame.trans hdecode) hhandle']
      · have hhandle' := (aloof_handle w p c m).of_eq hhandle i
        rw [takeIn_of_handled hdecode hhandle, takeIn_of_handled (hsame.trans hdecode) hhandle',
          ih t]

theorem takeIn_append (h : (s.takeIn w c p payloads).1.2.isSome = true) (later : List Bytes) :
    s.takeIn w c p (payloads ++ later) = s.takeIn w c p payloads := by
  induction payloads generalizing s with
  | nil => exact nomatch h
  | cons payload payloads ih =>
      rcases payload_cases w c p payload s with
        ⟨e, hdecode⟩ | ⟨m, e, t, hdecode, hhandle⟩ | ⟨m, t, hdecode, hhandle⟩
      · rw [takeIn_of_dropped hdecode] at h
        rw [List.cons_append, takeIn_of_dropped hdecode, takeIn_of_dropped hdecode, ih h]
      · rw [List.cons_append, takeIn_of_error hdecode hhandle, takeIn_of_error hdecode hhandle]
      · rw [takeIn_of_handled hdecode hhandle] at h
        rw [List.cons_append, takeIn_of_handled hdecode hhandle, takeIn_of_handled hdecode hhandle,
          ih h]

/-! ## One frame -/

theorem onFrame_of_dropped {e : DecodeError} (h : s.node.decode c p payload = .error e) :
    s.onFrame w c p (.ok (some payload)) =
      (none, s.withIntake (s.node.intake.after [.dropped e] none)) := by
  have hdecode : (s.update (·.count fun m =>
      { m with framesReceived := m.framesReceived + 1 })).node.decode c p payload = .error e := h
  rw [onFrame, onPayload, hdecode]
  rfl

theorem onPayload_of_ok {m : Message} {result : Except HandlerError Unit}
    (h : s.node.decode c p payload = .ok m) (hhandle : s.handle w c p m = (result, t)) :
    s.onPayload w c p payload =
      (result, t.withIntake (s.node.intake.after [.handled m] none)) := by
  have hdecode : (s.update (·.count fun m =>
      { m with framesReceived := m.framesReceived + 1 })).node.decode c p payload = .ok m := h
  rw [onPayload, hdecode]
  exact (aloof_handle w p c m).of_eq hhandle (s.node.intake.after [.handled m] none)

theorem onFrame_of_handled {m : Message} (h : s.node.decode c p payload = .ok m)
    (hhandle : s.handle w c p m = (.ok (), t)) :
    s.onFrame w c p (.ok (some payload)) =
      (none, t.withIntake (s.node.intake.after [.handled m] none)) := by
  rw [onFrame, onPayload_of_ok h hhandle]

theorem onFrame_of_error {m : Message} {e : HandlerError} (h : s.node.decode c p payload = .ok m)
    (hhandle : s.handle w c p m = (.error e, t)) :
    s.onFrame w c p (.ok (some payload)) =
      (some .failed,
        t.withIntake (s.node.intake.after [.handled m] (some ⟨p, c.protocol, .handler e⟩))) := by
  rw [onFrame, onPayload_of_ok h hhandle]
  rfl

/-- Reading one frame is taking its payload. -/
theorem onFrame_eq (c : Channel) (p : PeerId) (payload : Bytes) (s : Site σ) :
    s.onFrame w c p (.ok (some payload)) =
      let taken := s.takeIn w c p [payload]
      (if taken.1.2.isSome then some .failed else none,
        taken.2.withIntake (s.node.intake.after taken.1.1
          (taken.1.2.map fun e => ⟨p, c.protocol, .handler e⟩))) := by
  rcases payload_cases w c p payload s with
    ⟨e, hdecode⟩ | ⟨m, e, t, hdecode, hhandle⟩ | ⟨m, t, hdecode, hhandle⟩
  · rw [onFrame_of_dropped hdecode, takeIn_of_dropped hdecode]
    rfl
  · rw [onFrame_of_error hdecode hhandle, takeIn_of_error hdecode hhandle]
    rfl
  · rw [onFrame_of_handled hdecode hhandle, takeIn_of_handled hdecode hhandle]
    rfl

/-! ## Whole streams -/

variable {source rest : ByteSource}

theorem readStream_of_some
    (h : source.readFrame s.node.config.maxFrameLength = (.ok (some payload), rest)) :
    s.readStream w c p source =
      match s.onFrame w c p (.ok (some payload)) with
      | (some ending, s) => (ending, s)
      | (none, s) => s.readStream w c p rest := by
  rw [readStream]
  split
  · next heq =>
    obtain ⟨hpayload, rfl⟩ := Prod.mk.inj (heq.symm.trans h)
    obtain rfl := Option.some.inj (Except.ok.inj hpayload)
    rfl
  · next hne heq => exact (hne payload (Prod.mk.inj (heq.symm.trans h)).1).elim

theorem readStream_of_none
    (h : source.readFrame s.node.config.maxFrameLength = (.ok none, rest)) :
    s.readStream w c p source = (.closed, s) := by
  rw [readStream]
  split
  · next heq => cases heq.symm.trans h
  · next heq =>
    obtain ⟨rfl, -⟩ := Prod.mk.inj (heq.symm.trans h)
    rfl

theorem readStream_of_error {e : FrameError}
    (h : source.readFrame s.node.config.maxFrameLength = (.error e, rest)) :
    s.readStream w c p source = (.failed, s.update (·.report c p (.frame e))) := by
  rw [readStream]
  split
  · next heq => cases heq.symm.trans h
  · next heq =>
    obtain ⟨rfl, -⟩ := Prod.mk.inj (heq.symm.trans h)
    rfl

/-- Why the reading of a stream ends, if with a fault. -/
def faultIn (w : World σ) (c : Channel) (p : PeerId) (source : ByteSource) (s : Site σ) :
    Option StreamFault :=
  let frames := source.readFrames s.node.config.maxFrameLength
  ((s.takeIn w c p frames.1).1.2.map StreamFault.handler).or (frames.2.map StreamFault.frame)

theorem readStream_eq (w : World σ) (c : Channel) (p : PeerId) (source : ByteSource) (s : Site σ) :
    s.readStream w c p source =
      let taken := s.takeIn w c p (source.readFrames s.node.config.maxFrameLength).1
      let fault := s.faultIn w c p source
      (if fault.isSome then .failed else .closed,
        taken.2.withIntake
          (s.node.intake.after taken.1.1 (fault.map fun x => ⟨p, c.protocol, x⟩))) := by
  rw [faultIn]
  -- The limit is taken from the settings, which handling a frame leaves as they are; the induction is
  -- on the frames that are left.
  generalize hlimit : s.node.config.maxFrameLength = limit
  fun_induction source.readFrames limit generalizing s with
  | case1 source payload rest hread payloads e hrest ih =>
      subst hlimit
      rw [readStream_of_some hread]
      rcases payload_cases w c p payload s with
        ⟨e', hdecode⟩ | ⟨m, e', t, hdecode, hhandle⟩ | ⟨m, t, hdecode, hhandle⟩
      · have hdropped := ih (s.withIntake (s.node.intake.after [.dropped e'] none)) rfl
        dsimp only at hdropped ⊢
        rw [onFrame_of_dropped hdecode, takeIn_of_dropped hdecode]
        dsimp only
        rw [hdropped, hrest, takeIn_withIntake, intake_withIntake, Intake.after_after]
        rfl
      · rw [onFrame_of_error hdecode hhandle, takeIn_of_error hdecode hhandle]
        rfl
      · have hconfig := config_handle w c p m s
        rw [hhandle] at hconfig
        have hhandled := ih (t.withIntake (s.node.intake.after [.handled m] none))
          (congrArg Config.maxFrameLength hconfig)
        dsimp only at hhandled ⊢
        rw [onFrame_of_handled hdecode hhandle, takeIn_of_handled hdecode hhandle]
        dsimp only
        rw [hhandled, hrest, takeIn_withIntake, intake_withIntake, Intake.after_after]
        rfl
  | case2 source rest hread =>
      subst hlimit
      rw [readStream_of_none hread]
      rfl
  | case3 source e rest hread =>
      subst hlimit
      rw [readStream_of_error hread]
      rfl

/-- Where a stream is given up because of what it has brought, what comes later makes no
difference. -/
theorem readStream_extend {source later : ByteSource} (h : source.bytes <+: later.bytes)
    {fault : StreamFault} (hfault : s.faultIn w c p source = some fault) (hfinal : fault.IsFinal) :
    s.readStream w c p later = s.readStream w c p source := by
  obtain ⟨⟨more, hmore⟩, hsame⟩ :=
    ByteSource.readFrames_extend s.node.config.maxFrameLength h
  cases herror : (s.takeIn w c p (source.readFrames s.node.config.maxFrameLength).1).1.2 with
  | some e =>
      have htaken := takeIn_append (by rw [herror]; rfl) more
      rw [hmore] at htaken
      simp only [readStream_eq, faultIn, htaken, herror, Option.map_some, Option.some_or]
  | none =>
      rw [faultIn, herror, Option.map_none, Option.none_or] at hfault
      obtain ⟨e, he, rfl⟩ := Option.map_eq_some_iff.1 hfault
      rw [readStream_eq, readStream_eq, faultIn, faultIn, hsame e he hfinal]

end Site

/-! ## Many streams -/

/-- What goes on at a site: the stream of a peer is read to its end, or a deed is done. The frames of
streams that are read at the same time are deeds. -/
inductive Activity where
  | stream (c : Channel) (p : PeerId) (source : ByteSource)
  | deed (d : Deed)

namespace Activity

variable {σ : Type} (w : World σ)

/-- The site after an activity. -/
def run (s : Site σ) : Activity → Site σ
  | stream c p source => (s.readStream w c p source).2
  | deed d => d.run w s

/-- Why a stream is given up during an activity, with the peer and the protocol. -/
def report? (s : Site σ) : Activity → Option StreamReport
  | stream c p source => (s.faultIn w c p source).map fun x => ⟨p, c.protocol, x⟩
  | deed (.frame c p (.error e)) => some ⟨p, c.protocol, .frame e⟩
  | deed (.frame c p (.ok (some payload))) =>
    (s.takeIn w c p [payload]).1.2.map fun e => ⟨p, c.protocol, .handler e⟩
  | deed _ => none

/-- The reports of all streams that are given up, in their order. -/
def reports : List Activity → Site σ → List StreamReport
  | [], _ => []
  | a :: activities, s => (a.report? w s).toList ++ reports activities (a.run w s)

end Activity

namespace Site

variable {σ : Type} {w : World σ}

theorem unmoved_run {d : Deed} (hframe : ∀ c p f, d ≠ .frame c p f) :
    Unmoved fun s : Site σ => d.run w s := by
  cases d with
  | frame c p f => exact absurd rfl (hframe c p f)
  | handle c p m => exact (aloof_handle w p c m).drop
  | announceTo p a => exact (aloof_announceTo w p (.announce a)).drop
  | announce a => exact unmoved_announce w (.announce a)
  | gossip m except => exact unmoved_gossip w (.transactions m) except
  | greet p => exact (aloof_sendStatus w p).drop
  | request p r => exact (aloof_requestBlocks w p r).drop
  | publish m => exact fun s i => rfl
  | forget c p => cases c <;> exact fun s i => rfl
  | reset c => cases c <;> exact fun s i => rfl

theorem reports_run (a : Activity) (s : Site σ) :
    (a.run w s).node.reports = (a.report? w s).toList.foldl ReportQueue.add s.node.reports ∧
      (a.run w s).node.metrics.streamErrors =
        s.node.metrics.streamErrors + (a.report? w s).toList.length := by
  cases a with
  | stream c p source =>
      rw [Activity.run, readStream_eq]
      exact ⟨rfl, rfl⟩
  | deed d =>
      by_cases hframe : ∃ c p f, d = .frame c p f
      · obtain ⟨c, p, f, rfl⟩ := hframe
        cases f with
        | error e => exact ⟨rfl, rfl⟩
        | ok payload? =>
            cases payload? with
            | none => exact ⟨rfl, rfl⟩
            | some payload =>
                rw [Activity.run, Deed.run, onFrame_eq]
                exact ⟨rfl, rfl⟩
      · have hintake := (unmoved_run (w := w) fun c p f h => hframe ⟨c, p, f, h⟩).intake_eq s
        have hnone : (Activity.deed d).report? w s = none := by
          cases d with
          | frame c p f => exact absurd ⟨c, p, f, rfl⟩ hframe
          | _ => rfl
        rw [hnone]
        exact ⟨congrArg Intake.reports hintake, congrArg Intake.streamErrors hintake⟩

theorem reports_foldl (activities : List Activity) (s : Site σ) :
    (activities.foldl (Activity.run w) s).node.reports =
        (Activity.reports w activities s).foldl ReportQueue.add s.node.reports ∧
      (activities.foldl (Activity.run w) s).node.metrics.streamErrors =
        s.node.metrics.streamErrors + (Activity.reports w activities s).length := by
  induction activities generalizing s with
  | nil => exact ⟨rfl, rfl⟩
  | cons a activities ih =>
      obtain ⟨hreports, hcount⟩ := reports_run (w := w) a s
      obtain ⟨hreports', hcount'⟩ := ih (a.run w s)
      rw [List.foldl_cons, Activity.reports, List.foldl_append, List.length_append, hreports',
        hcount', hreports, hcount]
      exact ⟨rfl, Nat.add_assoc _ _ _⟩

end Site

namespace ReportQueue

theorem add_take (capacity : Nat) (reports : List StreamReport) (r : StreamReport) :
    (⟨capacity, reports.take capacity⟩ : ReportQueue).add r =
      ⟨capacity, (reports ++ [r]).take capacity⟩ := by
  rw [add, List.length_take]
  dsimp only
  by_cases hroom : reports.length < capacity
  · have hall : (reports ++ [r]).length ≤ capacity := by
      rw [List.length_append, List.length_singleton]
      omega
    rw [if_pos (by omega), List.take_of_length_le (Nat.le_of_lt hroom), List.take_of_length_le hall]
  · rw [if_neg (by omega), List.take_append_of_le_length (Nat.not_lt.1 hroom)]

theorem foldl_add_empty (capacity : Nat) (reports : List StreamReport) :
    reports.foldl add (empty capacity) = ⟨capacity, reports.take capacity⟩ := by
  -- A queue that has dropped reports is full, so it also drops those that come later.
  have hfold : ∀ later earlier : List StreamReport,
      later.foldl add ⟨capacity, earlier.take capacity⟩ =
        ⟨capacity, (earlier ++ later).take capacity⟩ := by
    intro later
    induction later with
    | nil => exact fun earlier => by rw [List.append_nil, List.foldl_nil]
    | cons r later ih =>
        intro earlier
        rw [List.foldl_cons, add_take, ih, List.append_assoc, List.singleton_append]
  have hstart := hfold reports []
  rwa [List.take_nil, List.nil_append] at hstart

end ReportQueue

/-- Reading a stream is taking the payloads of its frames in order, in whatever state and whatever
the world is like. The site is afterwards as it is when they are taken without being counted, but for
what is noted: the payloads taken, of which none is empty, those that were no messages, and, if and
only if the reading ended with a fault, one report, which has the peer, the protocol and the fault.
When that was because of what the stream had brought, what comes later makes no difference. Whatever
goes on at a site whose reports nobody takes, it keeps the first ones, in order, as many as there is
room for, and counts all of them. -/
theorem Site.streams_taken_and_reported {σ : Type} (w : World σ) :
    (∀ c p source (s : Site σ),
      let frames := source.readFrames s.node.config.maxFrameLength
      let taken := s.takeIn w c p frames.1
      let fates := taken.1.1
      let fault := (taken.1.2.map StreamFault.handler).or (frames.2.map StreamFault.frame)
      s.readStream w c p source =
          (if fault.isSome then .failed else .closed,
            taken.2.withIntake
              { framesReceived := s.node.metrics.framesReceived + fates.length
                decodeErrors := s.node.metrics.decodeErrors + fates.countP Fate.isDropped
                streamErrors := s.node.metrics.streamErrors + if fault.isSome then 1 else 0
                reports :=
                  match fault with
                  | some x => s.node.reports.add ⟨p, c.protocol, x⟩
                  | none => s.node.reports }) ∧
        (∀ payload ∈ frames.1, payload ≠ []) ∧
        ∀ later, source.bytes <+: later.bytes → (∃ x, fault = some x ∧ x.IsFinal) →
          s.readStream w c p later = s.readStream w c p source) ∧
    ∀ capacity activities (s : Site σ),
      let start := s.withIntake { s.node.intake with reports := .empty capacity }
      let made := Activity.reports w activities start
      let t := activities.foldl (Activity.run w) start
      t.node.reports = ⟨capacity, made.take capacity⟩ ∧
        t.node.metrics.streamErrors = s.node.metrics.streamErrors + made.length := by
  constructor
  · intro c p source s frames taken fates fault
    refine ⟨?_, fun payload => ByteSource.ne_nil_of_mem_readFrames, ?_⟩
    · have hfault : s.faultIn w c p source = fault := rfl
      rw [readStream_eq, hfault]
      clear_value fault
      cases fault <;> rfl
    · rintro later hlater ⟨x, hx, hfinal⟩
      exact readStream_extend hlater hx hfinal
  · intro capacity activities s start made t
    obtain ⟨hreports, hcount⟩ := reports_foldl (w := w) activities start
    exact ⟨hreports.trans (ReportQueue.foldl_add_empty capacity made), hcount⟩

theorem ByteSource.readFrames_endless (limit : Nat) :
    (ofBytes (List.replicate 10 0x80)).readFrames limit = ([], some .badLength) := by
  have hlength : (ofBytes (List.replicate 10 0x80)).readLength =
      (.error .badLength, ((ofBytes (List.replicate 10 0x80)).readLength).2) :=
    Prod.ext rfl rfl
  exact readFrames_of_error (readFrame_of_readLength_error hlength)

/-- The stream of the supplier is given up at its first frame, whatever follows it. Where there is
room for one report only, the one of the stranger is dropped but counted. -/
theorem Site.streams_taken_and_reported_of_endless :
    let w := (World.idle .zero).traced
    let s : Site (Unit × List Event) := ⟨.new .default, (), []⟩
    let bytes := List.replicate 10 0x80
    let start := s.withIntake { s.node.intake with reports := .empty 1 }
    let t := [Activity.stream .sync supplier (.ofBytes bytes),
      .deed (.frame .legacy stranger (.error .truncated))].foldl (Activity.run w) start
    s.readStream w .sync supplier (.ofBytes (bytes ++ [1, 2, 3])) =
        s.readStream w .sync supplier (.ofBytes bytes) ∧
      t.node.reports.pending = [⟨supplier, Channel.sync.protocol, .frame .badLength⟩] ∧
      t.node.metrics.streamErrors = 2 := by
  intro w s bytes start t
  have hfault : ∀ s : Site (Unit × List Event),
      s.faultIn w .sync supplier (.ofBytes bytes) = some (.frame .badLength) := by
    intro s
    rw [faultIn, ByteSource.readFrames_endless]
    rfl
  obtain ⟨hstream, hmany⟩ := streams_taken_and_reported w
  obtain ⟨-, -, hlater⟩ := hstream .sync supplier (.ofBytes bytes) s
  obtain ⟨hreports, hcount⟩ := hmany 1 [.stream .sync supplier (.ofBytes bytes),
    .deed (.frame .legacy stranger (.error .truncated))] s
  have hmade : Activity.reports w [.stream .sync supplier (.ofBytes bytes),
      .deed (.frame .legacy stranger (.error .truncated))] start =
        [⟨supplier, Channel.sync.protocol, .frame .badLength⟩,
          ⟨stranger, Channel.legacy.protocol, .frame .truncated⟩] := by
    rw [Activity.reports, Activity.report?, hfault]
    rfl
  refine ⟨hlater _ ⟨[1, 2, 3], rfl⟩ ⟨_, hfault s, trivial⟩, ?_, ?_⟩
  · rw [hreports, hmade]
    rfl
  · rw [hcount, hmade]
    rfl

end ChainPeer
