import Sponge.Proof.SenderAck
import Sponge.Proof.SenderData
import Sponge.Lib.Run

/-!
# Runs of the sender

`SenderOp` are the calls on a `TCPSender`: on its stream, by its owner, and the owner popping the
queue. `SenderRun` adds the history of a run: what was `written`, the payload bytes that
acknowledgments have `acked`, and every segment ever `queued` with the absolute number it had then.

`run_bookkeeping` is the sender's bookkeeping over whole runs in which nothing is written after
`end_input` and at most `2 ^ 31` numbers are in flight (`Allowed`).
-/

namespace Sponge

open Run
open TCPSegment (lengthInSequenceSpace)

/-- The calls on a sender. -/
inductive SenderOp where
  | write (data : List UInt8)
  | endInput
  | fillWindow
  | ackReceived (ackno : WrappingInt32) (windowSize : UInt16)
  | tick (ms : ℕ)
  | sendEmptySegment
  | popSegment
deriving DecidableEq, Repr

/-- One call. -/
def TCPSender.step (s : TCPSender) : SenderOp → TCPSender
  | .write data => { s with stream := (s.stream.write data).2 }
  | .endInput => { s with stream := s.stream.endInput }
  | .fillWindow => s.fillWindow
  | .ackReceived ackno windowSize => s.ackReceived ackno windowSize
  | .tick ms => s.tick ms
  | .sendEmptySegment => s.sendEmptySegment
  | .popSegment => { s with segmentsOut := s.segmentsOut.tail }

/-- A sender with the history of its run. -/
structure SenderRun where
  sender : TCPSender
  written : List UInt8
  acked : List UInt8
  queued : List (ℕ × TCPSegment)

namespace SenderRun

def new (sender : TCPSender) : SenderRun := ⟨sender, [], [], []⟩

/-- The bytes that a call adds to the stream. -/
def accepted (s : TCPSender) : SenderOp → List UInt8
  | .write data => data.take (s.stream.write data).1
  | _ => []

/-- The segments that a call pushes on the queue. -/
def pushed (s : TCPSender) : SenderOp → List TCPSegment
  | .popSegment => []
  | op => (s.step op).segmentsOut.drop s.segmentsOut.length

/-- The segments that an acknowledgment takes from the outstanding ones. What it pushes is
outstanding as well, so the counts before and after say how many have left. -/
def removed (s : TCPSender) : SenderOp → List TCPSegment
  | .ackReceived ackno windowSize =>
    s.segmentsOutstanding.take (s.segmentsOutstanding.length +
      (pushed s (.ackReceived ackno windowSize)).length -
      (s.step (.ackReceived ackno windowSize)).segmentsOutstanding.length)
  | _ => []

/-- One call, with the history it makes. -/
def step (s : SenderRun) (op : SenderOp) : SenderRun where
  sender := s.sender.step op
  written := s.written ++ accepted s.sender op
  acked := s.acked ++ (removed s.sender op).flatMap TCPSegment.payload
  queued := s.queued ++
    (pushed s.sender op).map fun seg => ((s.sender.step op).absSeqno seg, seg)

/-- Nothing is written after `end_input`. -/
def writable (s : TCPSender) : SenderOp → Bool
  | .write _ => !s.stream.inputEnded
  | _ => true

/-- Nothing is written after `end_input`, and at most `2 ^ 31` numbers are in flight. -/
def Allowed (s : SenderRun) (op : SenderOp) : Prop :=
  writable s.sender op = true ∧ (s.step op).sender.bytesInFlight ≤ 2 ^ 31

instance (s : SenderRun) (op : SenderOp) : Decidable (s.Allowed op) :=
  inferInstanceAs (Decidable (_ ∧ _))

/-- The sender's bookkeeping agrees with the history. -/
structure Bookkeeping (s : SenderRun) : Prop where
  contiguous : Laid (fun p seg => s.sender.absSeqno seg = p) lengthInSequenceSpace
    (s.sender.nextSeqno - s.sender.bytesInFlight) s.sender.segmentsOutstanding s.sender.nextSeqno
  flight : s.sender.bytesInFlight = TCPSender.totalLength s.sender.segmentsOutstanding
  timer : s.sender.timerRunning = true ↔ s.sender.segmentsOutstanding ≠ []
  bytes : s.acked ++ s.sender.segmentsOutstanding.flatMap TCPSegment.payload ++
    s.sender.stream.contents = s.written
  queued : ∀ a seg, (a, seg) ∈ s.queued → seg.payload ≠ [] →
    1 ≤ a ∧ seg.payload = (s.written.drop (a - 1)).take seg.payload.length

/-- How segments leave the outstanding ones in a call: by an acknowledgment of all that they take,
and then with all others that it covers. -/
def Leaves (s : TCPSender) (op : SenderOp) : Prop :=
  ∃ gone kept new, s.segmentsOutstanding = gone ++ kept ∧
    (s.step op).segmentsOutstanding = kept ++ new ∧
    (gone ≠ [] → ∃ ackno windowSize, op = .ackReceived ackno windowSize ∧
      unwrap ackno s.isn s.nextSeqno ≤ s.nextSeqno ∧
      ∀ seg ∈ gone, s.absSeqno seg + seg.lengthInSequenceSpace ≤
        unwrap ackno s.isn s.nextSeqno) ∧
    (∀ ackno windowSize, op = .ackReceived ackno windowSize →
      unwrap ackno s.isn s.nextSeqno ≤ s.nextSeqno →
      ∀ seg ∈ kept, unwrap ackno s.isn s.nextSeqno <
        s.absSeqno seg + seg.lengthInSequenceSpace)

/-- The invariant of a run. -/
structure Inv (isn : WrappingInt32) (s : SenderRun) : Prop where
  sends : TCPSender.Sends isn s.written s.sender
  small : s.sender.bytesInFlight ≤ 2 ^ 31
  bytes : s.acked ++ s.sender.segmentsOutstanding.flatMap TCPSegment.payload ++
    s.sender.stream.contents = s.written
  queued : ∀ a seg, (a, seg) ∈ s.queued →
    TCPSender.Carries isn s.written s.sender.stream.inputEnded a seg

variable {isn : WrappingInt32} {s : SenderRun}

theorem Inv.numbered (h : Inv isn s) (p : ℕ) (seg : TCPSegment)
    (hc : TCPSender.Carries isn s.written s.sender.stream.inputEnded p seg) :
    TCPSender.Numbered s.sender.isn p seg := by
  rw [h.sends.data.isn]
  exact hc.seqno

theorem Inv.bookkeeping (h : Inv isn s) : Bookkeeping s := by
  have hinv := h.sends.inv
  refine ⟨hinv.contiguous h.numbered h.small, hinv.flight_eq, hinv.timer, h.bytes, ?_⟩
  intro a seg hmem hne
  have hc := h.queued a seg hmem
  obtain ⟨c, rest, hp⟩ := List.exists_cons_of_ne_nil hne
  exact ⟨(hc.payload 0 c (by rw [hp]; rfl)).1, hc.payload_eq⟩

/-! ## The step -/

theorem inputEnded_step (s : TCPSender) (op : SenderOp) :
    (s.step op).stream.inputEnded = s.stream.inputEnded ∨
      (s.step op).stream.inputEnded = true := by
  cases op with
  | endInput => exact .inr rfl
  | fillWindow => exact .inl (TCPSender.fillWindow_inputEnded s)
  | ackReceived ackno windowSize => exact .inl (TCPSender.ackReceived_inputEnded s ackno windowSize)
  | tick ms => exact .inl (by rw [TCPSender.step, (TCPSender.tick_frame s ms).stream])
  | _ => exact .inl rfl

/-- What was right about the stream `W` stays right after an allowed call. -/
theorem carries_step {op : SenderOp}
    (hw : writable s.sender op = true) {a : ℕ} {seg : TCPSegment}
    (hc : TCPSender.Carries isn s.written s.sender.stream.inputEnded a seg) :
    TCPSender.Carries isn (s.written ++ accepted s.sender op)
      (s.sender.step op).stream.inputEnded a seg := by
  cases op with
  | write data =>
    have ho : s.sender.stream.inputEnded = false := by simpa [writable] using hw
    rw [ho] at hc
    have := hc.write (accepted s.sender (.write data))
    rwa [← ho] at this
  | _ =>
    rw [show accepted s.sender _ = [] from rfl, List.append_nil]
    rcases inputEnded_step s.sender _ with he | he
    · rw [he]; exact hc
    · rw [he]; exact hc.endInput

/-- An allowed call keeps the sender of `W` one of what is then written. -/
theorem Inv.sends_step (h : Inv isn s) {op : SenderOp}
    (hw : writable s.sender op = true) :
    TCPSender.Sends isn (s.written ++ accepted s.sender op) (s.sender.step op) := by
  have hs := h.sends
  have hnil : ∀ op, (∀ data, op ≠ .write data) → s.written ++ accepted s.sender op = s.written := by
    intro op hne
    cases op with
    | write data => exact absurd rfl (hne data)
    | _ => exact List.append_nil _
  cases op with
  | write data => exact hs.write (by simpa [writable] using hw) data
  | endInput => rw [hnil .endInput nofun]; exact hs.endInput
  | fillWindow => rw [hnil .fillWindow nofun]; exact hs.fillWindow
  | ackReceived ackno windowSize =>
    rw [hnil (.ackReceived ackno windowSize) nofun]
    exact hs.ackReceived ackno windowSize
  | tick ms => rw [hnil (.tick ms) nofun]; exact hs.tick ms
  | sendEmptySegment => rw [hnil .sendEmptySegment nofun]; exact hs.sendEmptySegment
  | popSegment => rw [hnil .popSegment nofun]; exact hs.setQueue fun seg => List.mem_of_mem_tail

/-- What a call pushes is outstanding afterwards, or is empty and has the next number. -/
theorem mem_pushed (s : TCPSender) {op : SenderOp} {seg : TCPSegment} (hseg : seg ∈ pushed s op) :
    seg ∈ (s.step op).segmentsOutstanding ∨ seg = (s.step op).emptySegment := by
  cases op with
  | write data => simp [pushed, TCPSender.step] at hseg
  | endInput => simp [pushed, TCPSender.step] at hseg
  | popSegment => cases hseg
  | fillWindow =>
    obtain ⟨new, h1, h2⟩ := TCPSender.fillWindow_pushes s
    simp only [pushed, TCPSender.step, h1, List.drop_left] at hseg
    refine .inl ?_
    show seg ∈ s.fillWindow.segmentsOutstanding
    rw [h2]
    exact List.mem_append_right _ hseg
  | ackReceived ackno windowSize =>
    obtain ⟨gone, kept, new, -, h2, h3, -⟩ := TCPSender.ackReceived_split s ackno windowSize rfl
    simp only [pushed, TCPSender.step, h3, List.drop_left] at hseg
    refine .inl ?_
    show seg ∈ (s.ackReceived ackno windowSize).segmentsOutstanding
    rw [h2]
    exact List.mem_append_right _ hseg
  | tick ms =>
    refine .inl ?_
    simp only [pushed, TCPSender.step] at hseg ⊢
    rw [(TCPSender.tick_frame s ms).outstanding]
    obtain ⟨-, he⟩ | ⟨t, rest, hl, -, he⟩ := TCPSender.tick_cases s ms
    · rw [he, List.drop_length] at hseg
      cases hseg
    · rw [he, List.drop_left] at hseg
      rw [List.mem_singleton.1 hseg, hl]
      exact List.mem_cons_self
  | sendEmptySegment =>
    simp only [pushed, TCPSender.step, TCPSender.sendEmptySegment, List.drop_left] at hseg
    exact .inr (List.mem_singleton.1 hseg)

/-- The history of the bytes. -/
theorem bytes_step (s : TCPSender) (op : SenderOp) :
    (removed s op).flatMap TCPSegment.payload ++
        ((s.step op).segmentsOutstanding.flatMap TCPSegment.payload ++
          (s.step op).stream.contents) =
      s.segmentsOutstanding.flatMap TCPSegment.payload ++ s.stream.contents ++ accepted s op := by
  cases op with
  | write data =>
    simp only [removed, accepted, TCPSender.step, List.flatMap_nil, List.nil_append,
      List.append_assoc, ByteStream.contents_write, ByteStream.write_fst]
    rw [List.take_eq_take_min, Nat.min_comm]
  | endInput => simp [removed, accepted, TCPSender.step]
  | fillWindow =>
    simp only [removed, accepted, TCPSender.step, List.flatMap_nil, List.nil_append,
      List.append_nil]
    exact TCPSender.fillWindow_bytes s
  | ackReceived ackno windowSize =>
    obtain ⟨gone, kept, new, h1, h2, h3, hcase⟩ :=
      TCPSender.ackReceived_split s ackno windowSize rfl
    have hrem : removed s (.ackReceived ackno windowSize) = gone := by
      simp only [removed, pushed, TCPSender.step, h1, h2, h3, List.drop_left, List.length_append]
      rw [show gone.length + kept.length + new.length - (kept.length + new.length) = gone.length by
        omega, List.take_left]
    simp only [accepted, TCPSender.step, List.append_nil]
    rw [hrem]
    rcases hcase with ⟨h4, -, he, -⟩ | ⟨h4, h5, -, he⟩
    · rw [he, h4]
      simp [TCPSender.ackWindow]
    · rw [he, TCPSender.fillWindow_bytes, h1, h5, List.flatMap_append, List.append_assoc]
      rfl
  | tick ms =>
    simp only [removed, accepted, TCPSender.step, List.flatMap_nil, List.nil_append,
      List.append_nil]
    have hf := TCPSender.tick_frame s ms
    rw [hf.stream, hf.outstanding]
  | sendEmptySegment => simp [removed, accepted, TCPSender.step, TCPSender.sendEmptySegment]
  | popSegment => simp [removed, accepted, TCPSender.step]

/-- **An allowed call** keeps the invariant. -/
theorem Inv.step (h : Inv isn s) {op : SenderOp} (hop : s.Allowed op) : Inv isn (s.step op) := by
  obtain ⟨hw, hsmall⟩ := hop
  have hsends := h.sends_step hw
  refine ⟨hsends, hsmall, ?_, ?_⟩
  · have hb := bytes_step s.sender op
    have hs := h.bytes
    rw [List.append_assoc] at hs
    show s.acked ++ (removed s.sender op).flatMap TCPSegment.payload ++
      (s.sender.step op).segmentsOutstanding.flatMap TCPSegment.payload ++
      (s.sender.step op).stream.contents = s.written ++ accepted s.sender op
    rw [List.append_assoc, List.append_assoc, hb, ← List.append_assoc s.acked, hs]
  · intro a seg hmem
    rcases List.mem_append.1 hmem with hmem | hmem
    · exact carries_step hw (h.queued a seg hmem)
    · obtain ⟨seg', hpush, heq⟩ := List.mem_map.1 hmem
      cases heq
      have hnum : ∀ p seg, TCPSender.Carries isn (s.written ++ accepted s.sender op)
          (s.sender.step op).stream.inputEnded p seg →
          TCPSender.Numbered (s.sender.step op).isn p seg := by
        intro p seg hc
        rw [hsends.data.isn]
        exact hc.seqno
      rcases mem_pushed s.sender hpush with hout | hempty
      · exact (hsends.inv.outstanding_at hnum hsmall hout).1
      · rw [hempty]
        have habs : (s.sender.step op).absSeqno (s.sender.step op).emptySegment =
          (s.sender.step op).nextSeqno := unwrap_wrap_self _ _
        rw [habs]
        exact TCPSender.carries_empty hsends.data.isn _

theorem new_inv (capacity : UInt64) (retxTimeout : UInt16) (fixedIsn : Option WrappingInt32)
    (random : UInt32) : Inv (fixedIsn.getD ⟨random⟩)
      (new (.new capacity retxTimeout fixedIsn random)) :=
  ⟨TCPSender.new_sends capacity retxTimeout fixedIsn random, by simp [new, TCPSender.new], rfl,
    nofun⟩

/-! ## Leaving -/

/-- A call that leaves the outstanding segments in place, and pushes some. -/
theorem leaves_of_append {s : TCPSender} {op : SenderOp}
    (hop : ∀ ackno windowSize, op ≠ .ackReceived ackno windowSize) {new : List TCPSegment}
    (hl : (s.step op).segmentsOutstanding = s.segmentsOutstanding ++ new) : Leaves s op :=
  ⟨[], s.segmentsOutstanding, new, rfl, hl, fun hne => absurd rfl hne,
    fun ackno windowSize he => absurd he (hop ackno windowSize)⟩

/-- **Segments leave only when acknowledged**, and then all that are. -/
theorem Inv.leaves (h : Inv isn s) (op : SenderOp) : Leaves s.sender op := by
  have hinv := h.sends.inv
  cases op with
  | write data => exact leaves_of_append nofun (List.append_nil _).symm
  | endInput => exact leaves_of_append nofun (List.append_nil _).symm
  | sendEmptySegment => exact leaves_of_append nofun (List.append_nil _).symm
  | popSegment => exact leaves_of_append nofun (List.append_nil _).symm
  | tick ms =>
    have hl : (s.sender.step (.tick ms)).segmentsOutstanding =
        s.sender.segmentsOutstanding ++ [] := by
      rw [List.append_nil]
      exact (TCPSender.tick_frame s.sender ms).outstanding
    exact leaves_of_append nofun hl
  | fillWindow =>
    obtain ⟨new, -, h2⟩ := TCPSender.fillWindow_pushes s.sender
    exact leaves_of_append nofun h2
  | ackReceived ackno windowSize =>
    obtain ⟨gone, kept, new, h1, h2, -, hcase⟩ :=
      TCPSender.ackReceived_split s.sender ackno windowSize rfl
    refine ⟨gone, kept, new, h1, h2, fun hne => ?_, fun ackno' windowSize' he hle seg hseg => ?_⟩
    · rcases hcase with ⟨h3, -⟩ | ⟨h3, -, hle, -⟩
      · exact absurd h3 hne
      · refine ⟨ackno, windowSize, rfl, hle, fun seg hseg => ?_⟩
        rw [h3] at hseg
        exact TCPSender.gone_le hseg
    · cases he
      refine hinv.kept_gt h.numbered h.small ?_
      rcases hcase with ⟨h3, -, -, hign⟩ | ⟨-, h3, -, -⟩
      · -- ignored: the first segment is not covered, so none is removed by the test
        subst h3
        rw [List.nil_append] at h1
        cases hk : s.sender.segmentsOutstanding with
        | nil => rw [← h1, hk] at hseg; cases hseg
        | cons t rest =>
          have hgone := TCPSender.gone_eq_nil_of_ignored hk (hinv.front hk).2.1
            (hign t rest hk) hle
          have hsplit := TCPSender.gone_append_kept s.sender (unwrap ackno s.sender.isn
            s.sender.nextSeqno)
          rw [hgone, List.nil_append] at hsplit
          rw [hsplit, h1]
          exact hseg
      · rw [← h3]
        exact hseg

/-- **The sender's bookkeeping over whole runs.** In every state reached by allowed calls, the
bookkeeping agrees with the history, and whatever is called next, segments leave only when
acknowledged, and then all that are. -/
theorem run_bookkeeping (capacity : UInt64) (retxTimeout : UInt16)
    (fixedIsn : Option WrappingInt32) (random : UInt32) (ops : List SenderOp)
    (h : Guarded step Allowed (new (.new capacity retxTimeout fixedIsn random)) ops) :
    Bookkeeping (exec step (new (.new capacity retxTimeout fixedIsn random)) ops) ∧
      ∀ op, Leaves (exec step (new (.new capacity retxTimeout fixedIsn random)) ops).sender op := by
  have hinv := Guarded.invariant (I := Inv (fixedIsn.getD ⟨random⟩))
    (fun s op hs hop => hs.step hop) (new_inv capacity retxTimeout fixedIsn random) h
  exact ⟨hinv.bookkeeping, hinv.leaves⟩

/-- A run with a handshake, two data segments, a retransmission and a FIN. -/
theorem bookkeeping_of_session :
    Bookkeeping (exec step (new (.new 8 1000 (some ⟨5⟩) 0))
      [.fillWindow, .ackReceived ⟨6⟩ 3, .write [97, 98], .fillWindow, .write [99, 100], .fillWindow,
        .tick 1000, .popSegment, .ackReceived ⟨8⟩ 3, .endInput, .fillWindow, .sendEmptySegment,
        .ackReceived ⟨11⟩ 3]) :=
  (run_bookkeeping 8 1000 (some ⟨5⟩) 0 _ (by decide)).1

end SenderRun

end Sponge
