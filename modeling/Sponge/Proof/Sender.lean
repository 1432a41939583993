import Sponge.TCPSender
import Sponge.Lib.Laid

/-!
# The sender

The three branches of `fill_window` that send do one thing, `emit`: a segment is queued, stays
outstanding, and takes its length of the sequence space (`sendSyn_eq`, `sendData_eq`,
`sendFin_eq`). `fillWindow_rule` is the loop rule: what each branch keeps, `fill_window` keeps.
`ackReceived_cases` and `tick_cases` say what an acknowledgment and a tick can do.

`Inv P s` is the bookkeeping of the sender: the outstanding segments lie end to end up to
`_next_seqno`, each satisfying `P` at its own absolute number, and the timer runs exactly while
there are some.
-/

namespace Sponge.TCPSender

open TCPSegment (lengthInSequenceSpace)

/-! ## Emission -/

/-- Queue a segment for the first time. -/
def emit (s : TCPSender) (seg : TCPSegment) : TCPSender :=
  startTimer
    { s with
      segmentsOut := s.segmentsOut ++ [seg]
      segmentsOutstanding := s.segmentsOutstanding ++ [seg]
      nextSeqno := s.nextSeqno + seg.lengthInSequenceSpace
      bytesInFlight := s.bytesInFlight + seg.lengthInSequenceSpace
      synFlag := s.synFlag || seg.header.syn
      finFlag := s.finFlag || seg.header.fin }

/-- The SYN of `fill_window`. -/
def synSegment (s : TCPSender) : TCPSegment := { header := { syn := true, seqno := s.isn } }

/-- The lone FIN of `fill_window`. -/
def finSegment (s : TCPSender) : TCPSegment :=
  { header := { seqno := wrap s.nextSeqno s.isn, fin := true } }

/-- The segment of `send_empty_segment`. -/
def emptySegment (s : TCPSender) : TCPSegment := { header := { seqno := wrap s.nextSeqno s.isn } }

/-- The sender once a round of the loop has read its payload. -/
def readPayload (s : TCPSender) (remain : ℕ) : TCPSender :=
  { s with stream := s.stream.popOutput (min remain TCPConfig.maxPayloadSize) }

variable {s : TCPSender}

theorem sendSyn_eq (hnext : s.nextSeqno = 0) (hflight : s.bytesInFlight = 0) :
    s.sendSyn = s.emit s.synSegment := by
  simp [sendSyn, emit, synSegment, hnext, hflight, lengthInSequenceSpace]

@[simp] theorem length_synSegment (s : TCPSender) : s.synSegment.lengthInSequenceSpace = 1 := by
  simp [synSegment, lengthInSequenceSpace]

theorem sendFin_eq (s : TCPSender) : s.sendFin = s.emit s.finSegment := by
  simp [sendFin, emit, finSegment, lengthInSequenceSpace]

@[simp] theorem dataSegment_payload (s : TCPSender) (remain : ℕ) :
    (s.dataSegment remain).payload =
      s.stream.contents.take (min remain TCPConfig.maxPayloadSize) := by
  simp [dataSegment]

@[simp] theorem dataSegment_syn (s : TCPSender) (remain : ℕ) :
    (s.dataSegment remain).header.syn = false := rfl

@[simp] theorem dataSegment_seqno (s : TCPSender) (remain : ℕ) :
    (s.dataSegment remain).header.seqno = wrap s.nextSeqno s.isn := rfl

theorem sendData_eq (s : TCPSender) (remain : ℕ) :
    (s.sendData remain).2 = (s.readPayload remain).emit (s.dataSegment remain) := by
  simp [sendData, emit, readPayload, lengthInSequenceSpace, Nat.add_assoc]

/-- The FIN of a data segment: the stream is then at its end, and there is room. -/
theorem dataSegment_fin (s : TCPSender) (remain : ℕ) :
    (s.dataSegment remain).header.fin = true ↔
      (s.readPayload remain).stream.eof = true ∧
        0 < remain - (s.dataSegment remain).payload.length := by
  have he : (s.dataSegment remain).header.fin = ((s.readPayload remain).stream.eof &&
      decide (remain - (s.dataSegment remain).payload.length ≥ 0 + 1)) := rfl
  rw [he, Bool.and_eq_true, decide_eq_true_iff]
  rfl

theorem dataSegment_payload_ne_nil {remain : ℕ} (hr : 0 < remain) (hc : s.stream.contents ≠ []) :
    (s.dataSegment remain).payload ≠ [] := by
  rw [dataSegment_payload]
  intro h
  rcases List.take_eq_nil_iff.1 h with h | h
  · have : 0 < TCPConfig.maxPayloadSize := by decide
    omega
  · exact hc h

theorem dataSegment_pos {remain : ℕ} (hr : 0 < remain) (hc : s.stream.contents ≠ []) :
    0 < (s.dataSegment remain).lengthInSequenceSpace := by
  have := List.length_pos_of_ne_nil (dataSegment_payload_ne_nil hr hc)
  unfold lengthInSequenceSpace
  omega

/-! ### Fields of the emission -/

section
variable (s : TCPSender) (seg : TCPSegment)

theorem startTimer_eq (s : TCPSender) : s.startTimer =
    { s with
      timerRunning := true
      rto := if s.timerRunning then s.rto else s.initialRetransmissionTimeout
      tickField := if s.timerRunning then s.tickField else 0 } := by
  unfold startTimer
  obtain ⟨⟩ := s
  rename_i timer _ _
  cases timer <;> rfl

@[simp] theorem emit_isn : (s.emit seg).isn = s.isn := by rw [emit, startTimer_eq]
@[simp] theorem emit_segmentsOut : (s.emit seg).segmentsOut = s.segmentsOut ++ [seg] := by
  rw [emit, startTimer_eq]
@[simp] theorem emit_outstanding :
    (s.emit seg).segmentsOutstanding = s.segmentsOutstanding ++ [seg] := by rw [emit, startTimer_eq]
@[simp] theorem emit_nextSeqno :
    (s.emit seg).nextSeqno = s.nextSeqno + seg.lengthInSequenceSpace := by rw [emit, startTimer_eq]
@[simp] theorem emit_bytesInFlight :
    (s.emit seg).bytesInFlight = s.bytesInFlight + seg.lengthInSequenceSpace := by
  rw [emit, startTimer_eq]
@[simp] theorem emit_synFlag : (s.emit seg).synFlag = (s.synFlag || seg.header.syn) := by
  rw [emit, startTimer_eq]
@[simp] theorem emit_finFlag : (s.emit seg).finFlag = (s.finFlag || seg.header.fin) := by
  rw [emit, startTimer_eq]
@[simp] theorem emit_stream : (s.emit seg).stream = s.stream := by rw [emit, startTimer_eq]
@[simp] theorem emit_window : (s.emit seg).receiverWindowSize = s.receiverWindowSize := by
  rw [emit, startTimer_eq]
@[simp] theorem emit_timerRunning : (s.emit seg).timerRunning = true := by rw [emit, startTimer_eq]
@[simp] theorem emit_rto : (s.emit seg).rto =
    if s.timerRunning then s.rto else s.initialRetransmissionTimeout := by rw [emit, startTimer_eq]
@[simp] theorem emit_tickField :
    (s.emit seg).tickField = if s.timerRunning then s.tickField else 0 := by
  rw [emit, startTimer_eq]
@[simp] theorem emit_consecutive :
    (s.emit seg).consecutiveRetransmissions = s.consecutiveRetransmissions := by
  rw [emit, startTimer_eq]
@[simp] theorem emit_initial : (s.emit seg).initialRetransmissionTimeout =
    s.initialRetransmissionTimeout := by rw [emit, startTimer_eq]

end

@[simp] theorem sendData_synFlag (s : TCPSender) (remain : ℕ) :
    (s.sendData remain).2.synFlag = s.synFlag := by
  rw [sendData_eq, emit_synFlag, dataSegment_syn, Bool.or_false]
  rfl

@[simp] theorem sendData_fst (s : TCPSender) (remain : ℕ) :
    (s.sendData remain).1 = remain - (s.dataSegment remain).payload.length := rfl

@[simp] theorem sendData_contents (s : TCPSender) (remain : ℕ) :
    (s.sendData remain).2.stream.contents =
      s.stream.contents.drop (min remain TCPConfig.maxPayloadSize) := by
  rw [sendData_eq, emit_stream, readPayload, ByteStream.contents_popOutput]

/-! ## The loop rule -/

/-- The loop of `fill_window` keeps what a round keeps. -/
theorem fillLoop_rule {I : ℕ → TCPSender → Prop}
    (hdata : ∀ n s, I n s → s.synFlag = true → 0 < n → s.stream.contents ≠ [] →
      I (s.sendData n).1 (s.sendData n).2)
    (fuel n : ℕ) {s : TCPSender} (hs : I n s) (hsyn : s.synFlag = true) :
    I (fillLoop fuel n s).1 (fillLoop fuel n s).2 ∧ (fillLoop fuel n s).2.synFlag = true := by
  induction fuel generalizing n s with
  | zero => exact ⟨hs, hsyn⟩
  | succ fuel ih =>
    unfold fillLoop
    split
    · rename_i hc
      apply ih
      · exact hdata n s hs hsyn hc.1 ((s.stream.bufferSize_pos_iff).1 hc.2)
      · rw [sendData_synFlag]
        exact hsyn
    · exact ⟨hs, hsyn⟩

/-- The bound on the rounds is never what ends the loop: every round takes a byte. -/
theorem fillLoop_exits (fuel n : ℕ) (s : TCPSender) (h : s.stream.bufferSize ≤ fuel) :
    (fillLoop fuel n s).1 = 0 ∨ (fillLoop fuel n s).2.stream.contents = [] := by
  induction fuel generalizing n s with
  | zero =>
    refine .inr (List.eq_nil_of_length_eq_zero ?_)
    rw [ByteStream.bufferSize_eq] at h
    exact Nat.eq_zero_of_le_zero h
  | succ fuel ih =>
    unfold fillLoop
    split
    · rename_i hc
      apply ih
      rw [ByteStream.bufferSize_eq] at h hc ⊢
      have hmax : 0 < TCPConfig.maxPayloadSize := by decide
      rw [sendData_contents, List.length_drop]
      omega
    · rename_i hc
      rcases Nat.eq_zero_or_pos n with hn | hn
      · exact .inl hn
      · refine .inr (Classical.byContradiction fun hne => hc ⟨hn, ?_⟩)
        exact (s.stream.bufferSize_pos_iff).2 hne

/-- **The rule of `fill_window`**: what the SYN, a data segment and the lone FIN keep. -/
theorem fillWindow_rule {I : TCPSender → Prop} {s : TCPSender} (hs : I s)
    (hsyn : s.synFlag = false → I s.sendSyn)
    (hdata : ∀ n s, I s → s.synFlag = true → 0 < n → s.stream.contents ≠ [] → I (s.sendData n).2)
    (hfin : ∀ s, I s → s.synFlag = true → s.finFlag = false → s.stream.eof = true → I s.sendFin) :
    I s.fillWindow := by
  unfold fillWindow
  split
  · rename_i h
    exact hsyn h
  · rename_i h
    obtain ⟨h1, h2⟩ := fillLoop_rule (I := fun _ s => I s) hdata s.stream.bufferSize s.remain hs
      (Bool.eq_true_of_not_eq_false h)
    dsimp only
    split
    · rename_i hc
      exact hfin _ h1 h2 hc.1 hc.2.1
    · exact h1

/-! ## Acknowledgments -/

/-- The sequence numbers that a list of segments takes. -/
def totalLength (segs : List TCPSegment) : ℕ := (segs.map lengthInSequenceSpace).sum

/-- The outstanding segments that an acknowledgment of `a` removes. -/
def gone (s : TCPSender) (a : ℕ) : List TCPSegment := s.segmentsOutstanding.takeWhile (s.acked a)

/-- The outstanding segments that an acknowledgment of `a` leaves. -/
def kept (s : TCPSender) (a : ℕ) : List TCPSegment := s.segmentsOutstanding.dropWhile (s.acked a)

theorem gone_append_kept (s : TCPSender) (a : ℕ) : s.gone a ++ s.kept a = s.segmentsOutstanding :=
  List.takeWhile_append_dropWhile

/-- The sender after the loop of `ack_received` and the timer's stop. -/
def ackPopped (s : TCPSender) (a : ℕ) (windowSize : UInt16) : TCPSender :=
  { s with
    receiverWindowSize := windowSize
    segmentsOutstanding := s.kept a
    bytesInFlight := s.bytesInFlight - totalLength (s.gone a)
    tickField := if s.gone a = [] then s.tickField else 0
    rto := if s.gone a = [] then s.rto else s.initialRetransmissionTimeout
    consecutiveRetransmissions := if s.gone a = [] then s.consecutiveRetransmissions else 0
    timerRunning := s.timerRunning && decide (s.bytesInFlight - totalLength (s.gone a) ≠ 0) }

/-- The loop of `ack_received` in one step; `p` is its test. -/
theorem ackLoop_eq {a : ℕ} {p : TCPSegment → Bool} {l : List TCPSegment} {s : TCPSender}
    (hl : s.segmentsOutstanding = l) (hp : s.acked a = p) :
    ackLoop a l s =
      { s with
        segmentsOutstanding := l.dropWhile p
        bytesInFlight := s.bytesInFlight - totalLength (l.takeWhile p)
        tickField := if l.takeWhile p = [] then s.tickField else 0
        rto := if l.takeWhile p = [] then s.rto else s.initialRetransmissionTimeout
        consecutiveRetransmissions :=
          if l.takeWhile p = [] then s.consecutiveRetransmissions else 0 } := by
  induction l generalizing s with
  | nil =>
    obtain ⟨⟩ := s
    cases hl
    rfl
  | cons t rest ih =>
    unfold ackLoop
    cases ht : p t with
    | true =>
      have hp' : ({ s with
          bytesInFlight := s.bytesInFlight - t.lengthInSequenceSpace
          segmentsOutstanding := rest
          tickField := 0
          rto := s.initialRetransmissionTimeout
          consecutiveRetransmissions := 0 } : TCPSender).acked a = p := hp
      rw [if_pos (by rw [hp, ht]), ih rfl hp', List.takeWhile_cons_of_pos ht,
        List.dropWhile_cons_of_pos ht]
      simp only [totalLength, List.map_cons, List.sum_cons, reduceCtorEq, ↓reduceIte, ite_self,
        Nat.sub_sub]
    | false =>
      rw [if_neg (by rw [hp, ht]; decide), List.takeWhile_cons_of_neg (by rw [ht]; decide),
        List.dropWhile_cons_of_neg (by rw [ht]; decide), ← hl]
      rfl

theorem stopTimer_ackLoop (s : TCPSender) (a : ℕ) (windowSize : UInt16) :
    (ackLoop a s.segmentsOutstanding { s with receiverWindowSize := windowSize }).stopTimer =
      s.ackPopped a windowSize := by
  rw [ackLoop_eq (s := { s with receiverWindowSize := windowSize }) (p := s.acked a) rfl rfl,
    stopTimer]
  unfold ackPopped gone kept
  dsimp only
  split <;> rename_i h <;> simp [h]

/-- The sender after the first test of `ack_received`, which may update the window. -/
def ackWindow (s : TCPSender) (a : ℕ) (windowSize : UInt16) : TCPSender :=
  { s with receiverWindowSize := if a = s.nextSeqno then windowSize else s.receiverWindowSize }

theorem ackWindow_of_ne {s : TCPSender} {a : ℕ} (hne : a ≠ s.nextSeqno) (windowSize : UInt16) :
    s.ackWindow a windowSize = s := by
  unfold ackWindow
  rw [if_neg hne]

theorem acked_iff (s : TCPSender) (a : ℕ) (t : TCPSegment) :
    s.acked a t = true ↔ s.absSeqno t + t.lengthInSequenceSpace - 1 < a :=
  decide_eq_true_iff

theorem ackIgnored_iff (s : TCPSender) (a : ℕ) (windowSize : UInt16) (t : TCPSegment) :
    s.ackIgnored a windowSize t = true ↔ s.nextSeqno < a ∨
      a + (if windowSize = 0 then 0 else windowSize.toNat - 1) <
        s.absSeqno t + t.lengthInSequenceSpace := by
  unfold ackIgnored
  rw [Bool.or_eq_true, decide_eq_true_iff, decide_eq_true_iff]

/-- An acknowledgment that is not ignored is not beyond what was sent. -/
theorem le_of_not_ignored {s : TCPSender} {a : ℕ} {windowSize : UInt16} {t : TCPSegment}
    (h : s.ackIgnored a windowSize t = false) : a ≤ s.nextSeqno := by
  refine Nat.le_of_not_lt fun hlt => ?_
  rw [(s.ackIgnored_iff a windowSize t).2 (.inl hlt)] at h
  cases h

/-- **What an acknowledgment can do**: nothing but the window's update, or the removal of the
acknowledged segments, followed by `fill_window`. -/
theorem ackReceived_cases (s : TCPSender) (ackno : WrappingInt32) (windowSize : UInt16) {a : ℕ}
    (ha : unwrap ackno s.isn s.nextSeqno = a) :
    (s.segmentsOutstanding = [] ∧ s.ackReceived ackno windowSize = s.ackWindow a windowSize) ∨
    (∃ t rest, s.segmentsOutstanding = t :: rest ∧ s.ackIgnored a windowSize t = true ∧
      s.ackReceived ackno windowSize = s.ackWindow a windowSize) ∨
    (∃ t rest, s.segmentsOutstanding = t :: rest ∧ s.ackIgnored a windowSize t = false ∧
      s.ackReceived ackno windowSize = (s.ackPopped a windowSize).fillWindow) := by
  have hw : (if a = s.nextSeqno ∧ windowSize ≠ s.receiverWindowSize then
      { s with receiverWindowSize := windowSize } else s) = s.ackWindow a windowSize := by
    unfold ackWindow
    by_cases h1 : a = s.nextSeqno <;> by_cases h2 : windowSize = s.receiverWindowSize <;>
      simp [h1, h2]
  unfold ackReceived
  dsimp only
  rw [ha, hw]
  cases hl : s.segmentsOutstanding with
  | nil =>
    have hout : (s.ackWindow a windowSize).segmentsOutstanding = [] := hl
    exact .inl ⟨rfl, by rw [hout]⟩
  | cons t rest =>
    have hout : (s.ackWindow a windowSize).segmentsOutstanding = t :: rest := hl
    have hign : (s.ackWindow a windowSize).ackIgnored a windowSize t =
      s.ackIgnored a windowSize t := rfl
    rw [hout]
    dsimp only
    rw [hign]
    cases hi : s.ackIgnored a windowSize t with
    | true => exact .inr (.inl ⟨t, rest, rfl, hi, rfl⟩)
    | false =>
      refine .inr (.inr ⟨t, rest, rfl, hi, congrArg fillWindow ?_⟩)
      rw [← stopTimer_ackLoop, hl]
      rfl

/-! ## The tick -/

/-- Whether a tick may re-send `t` with back-off: not against a zero window, unless it is a SYN. -/
def backsOff (s : TCPSender) (t : TCPSegment) : Bool :=
  decide (s.receiverWindowSize ≠ 0) || t.header.syn

theorem ite_backsOff (s : TCPSender) (t : TCPSegment) :
    (if s.receiverWindowSize = 0 ∧ t.header.syn = false then 0 else 1) =
      if s.backsOff t then 1 else 0 := by
  unfold backsOff
  by_cases hw : s.receiverWindowSize = 0 <;> cases ht : t.header.syn <;> simp [hw]

/-- **What a tick does**: time passes, or the oldest outstanding segment is queued again. -/
theorem tick_cases (s : TCPSender) (ms : ℕ) :
    ((s.segmentsOutstanding = [] ∨ (s.tickField + ms) % 2 ^ 64 < s.rto) ∧
      s.tick ms = { s with tickField := (s.tickField + ms) % 2 ^ 64 }) ∨
    ∃ t rest, s.segmentsOutstanding = t :: rest ∧ s.rto ≤ (s.tickField + ms) % 2 ^ 64 ∧
      s.tick ms =
        { s with
          tickField := 0
          segmentsOut := s.segmentsOut ++ [t]
          consecutiveRetransmissions := if s.backsOff t then
            (s.consecutiveRetransmissions + 1) % 2 ^ 16 else s.consecutiveRetransmissions
          rto := if s.backsOff t then s.rto * 2 % 2 ^ 32 else s.rto } := by
  unfold TCPSender.tick backsOff
  dsimp only
  split
  · rename_i hl
    exact .inl ⟨.inl hl, rfl⟩
  · rename_i t rest hl
    split
    · rename_i hle
      refine .inr ⟨t, rest, hl, hle, ?_⟩
      by_cases hw : s.receiverWindowSize = 0 <;> cases ht : t.header.syn <;> simp [hw]
    · rename_i hlt
      exact .inl ⟨.inr (Nat.lt_of_not_le hlt), rfl⟩

/-- What a tick leaves alone. -/
structure TickFrame (s s' : TCPSender) : Prop where
  isn : s'.isn = s.isn
  stream : s'.stream = s.stream
  nextSeqno : s'.nextSeqno = s.nextSeqno
  bytesInFlight : s'.bytesInFlight = s.bytesInFlight
  outstanding : s'.segmentsOutstanding = s.segmentsOutstanding
  window : s'.receiverWindowSize = s.receiverWindowSize
  timerRunning : s'.timerRunning = s.timerRunning
  synFlag : s'.synFlag = s.synFlag
  finFlag : s'.finFlag = s.finFlag
  initial : s'.initialRetransmissionTimeout = s.initialRetransmissionTimeout

theorem tick_frame (s : TCPSender) (ms : ℕ) : TickFrame s (s.tick ms) := by
  obtain ⟨-, he⟩ | ⟨t, rest, -, -, he⟩ := s.tick_cases ms <;> rw [he]
  · exact ⟨rfl, rfl, rfl, rfl, rfl, rfl, rfl, rfl, rfl, rfl⟩
  · exact ⟨rfl, rfl, rfl, rfl, rfl, rfl, rfl, rfl, rfl, rfl⟩

/-! ## The bookkeeping -/

/-- The first number in flight. -/
def una (s : TCPSender) : ℕ := s.nextSeqno - s.bytesInFlight

theorem una_tick (s : TCPSender) (ms : ℕ) : (s.tick ms).una = s.una := by
  have hf := tick_frame s ms
  rw [una, una, hf.nextSeqno, hf.bytesInFlight]

/-- The sender's bookkeeping (module doc). -/
structure Inv (P : ℕ → TCPSegment → Prop) (s : TCPSender) : Prop where
  flight_le : s.bytesInFlight ≤ s.nextSeqno
  laid : Laid (fun p seg => P p seg ∧ 0 < seg.lengthInSequenceSpace) lengthInSequenceSpace
    s.una s.segmentsOutstanding s.nextSeqno
  timer : s.timerRunning = true ↔ s.segmentsOutstanding ≠ []
  syn : s.synFlag = true ↔ 0 < s.nextSeqno
  queued : ∀ seg ∈ s.segmentsOut, ∃ p ≤ s.nextSeqno, P p seg

variable {P P' : ℕ → TCPSegment → Prop}

theorem Inv.mono (h : Inv P s) (hP : ∀ p seg, P p seg → P' p seg) : Inv P' s := by
  refine ⟨h.flight_le, h.laid.mono fun p seg hp => ⟨hP p seg hp.1, hp.2⟩, h.timer, h.syn, ?_⟩
  intro seg hseg
  obtain ⟨p, hp, hseg⟩ := h.queued seg hseg
  exact ⟨p, hp, hP p seg hseg⟩

theorem totalLength_append (xs ys : List TCPSegment) :
    totalLength (xs ++ ys) = totalLength xs + totalLength ys := by
  simp [totalLength]

theorem totalLength_eq_zero {p : ℕ → TCPSegment → Prop} {a b : ℕ} {segs : List TCPSegment}
    (h : Laid (fun i seg => p i seg ∧ 0 < seg.lengthInSequenceSpace) lengthInSequenceSpace
      a segs b) : totalLength segs = 0 ↔ segs = [] := by
  cases segs with
  | nil => simp [totalLength]
  | cons seg segs =>
    have hpos := h.1.2
    simp only [totalLength, List.map_cons, List.sum_cons, reduceCtorEq, iff_false]
    omega

/-- `_bytes_in_flight` is the sum of the outstanding lengths. -/
theorem Inv.flight_eq (h : Inv P s) : s.bytesInFlight = totalLength s.segmentsOutstanding := by
  have h1 := h.laid.eq_add
  have h2 := h.flight_le
  unfold una at h1
  unfold totalLength
  omega

theorem Inv.outstanding_eq_nil (h : Inv P s) :
    s.segmentsOutstanding = [] ↔ s.bytesInFlight = 0 := by
  rw [h.flight_eq, totalLength_eq_zero h.laid]

theorem Inv.fresh (h : Inv P s) (hs : s.synFlag = false) :
    s.nextSeqno = 0 ∧ s.bytesInFlight = 0 := by
  have hn : ¬ 0 < s.nextSeqno := fun hn => by
    have := h.syn.2 hn
    rw [hs] at this
    cases this
  have := h.flight_le
  omega

theorem fillWindow_of_fresh (h : Inv P s) (hs : s.synFlag = false) :
    s.fillWindow = s.emit s.synSegment := by
  obtain ⟨hnext, hflight⟩ := h.fresh hs
  rw [fillWindow, if_pos hs, sendSyn_eq hnext hflight]

theorem Inv.una_add (h : Inv P s) : s.una + s.bytesInFlight = s.nextSeqno := by
  have := h.flight_le
  unfold una
  omega

theorem new_inv (capacity : UInt64) (retxTimeout : UInt16) (fixedIsn : Option WrappingInt32)
    (random : UInt32) : Inv P (new capacity retxTimeout fixedIsn random) :=
  ⟨Nat.le_refl _, rfl, by simp [new], by simp [new], by simp [new]⟩

/-- **An emission** at the next number keeps the bookkeeping. -/
theorem Inv.emit (h : Inv P s) {seg : TCPSegment} (hp : P s.nextSeqno seg)
    (hpos : 0 < seg.lengthInSequenceSpace) (hsyn : (s.synFlag || seg.header.syn) = true) :
    Inv P (s.emit seg) := by
  have hle := h.flight_le
  refine ⟨?_, ?_, ?_, ?_, ?_⟩
  · rw [emit_bytesInFlight, emit_nextSeqno]
    omega
  · have huna : (s.emit seg).una = s.una := by
      unfold una
      rw [emit_bytesInFlight, emit_nextSeqno]
      omega
    rw [huna, emit_outstanding, emit_nextSeqno]
    exact h.laid.append (.single ⟨hp, hpos⟩)
  · simp
  · rw [emit_synFlag, emit_nextSeqno]
    exact ⟨fun _ => by omega, fun _ => hsyn⟩
  · rw [emit_segmentsOut, emit_nextSeqno]
    intro t ht
    rcases List.mem_append.1 ht with ht | ht
    · obtain ⟨p, hp, ht⟩ := h.queued t ht
      exact ⟨p, by omega, ht⟩
    · rw [List.mem_singleton.1 ht]
      exact ⟨s.nextSeqno, by omega, hp⟩

theorem Inv.sendSyn (h : Inv P s) (hs : s.synFlag = false) (hp : P 0 s.synSegment) :
    Inv P s.sendSyn := by
  obtain ⟨h1, h2⟩ := h.fresh hs
  rw [sendSyn_eq h1 h2]
  exact h.emit (by rw [h1]; exact hp) (by simp)
    (by simp [synSegment])

/-- The stream is not part of the bookkeeping. -/
theorem Inv.setStream (h : Inv P s) (stream : ByteStream) : Inv P { s with stream := stream } :=
  ⟨h.flight_le, h.laid, h.timer, h.syn, h.queued⟩

theorem Inv.readPayload (h : Inv P s) (n : ℕ) : Inv P (s.readPayload n) := h.setStream _

theorem Inv.sendData (h : Inv P s) (hs : s.synFlag = true) {n : ℕ} (hn : 0 < n)
    (hc : s.stream.contents ≠ []) (hp : P s.nextSeqno (s.dataSegment n)) :
    Inv P (s.sendData n).2 := by
  rw [sendData_eq]
  refine (h.readPayload n).emit hp (dataSegment_pos hn hc) ?_
  show (s.synFlag || _) = true
  rw [hs, Bool.true_or]

theorem Inv.sendFin (h : Inv P s) (hs : s.synFlag = true) (hp : P s.nextSeqno s.finSegment) :
    Inv P s.sendFin := by
  rw [sendFin_eq]
  exact h.emit hp (by simp [finSegment, lengthInSequenceSpace]) (by rw [hs, Bool.true_or])

theorem Inv.sendEmptySegment (h : Inv P s) (hp : P s.nextSeqno s.emptySegment) :
    Inv P s.sendEmptySegment := by
  refine ⟨h.flight_le, h.laid, h.timer, h.syn, fun t ht => ?_⟩
  rcases List.mem_append.1 ht with ht | ht
  · exact h.queued t ht
  · rw [List.mem_singleton.1 ht]
    exact ⟨s.nextSeqno, Nat.le_refl _, hp⟩

/-- What is in the queue may leave it. -/
theorem Inv.setQueue (h : Inv P s) {queue : List TCPSegment}
    (hqueue : ∀ seg ∈ queue, seg ∈ s.segmentsOut) : Inv P { s with segmentsOut := queue } :=
  ⟨h.flight_le, h.laid, h.timer, h.syn, fun seg hseg => h.queued seg (hqueue seg hseg)⟩

/-- The oldest outstanding segment is at the first number in flight. -/
theorem Inv.front (h : Inv P s) {t : TCPSegment} {rest : List TCPSegment}
    (hl : s.segmentsOutstanding = t :: rest) :
    P s.una t ∧ 0 < t.lengthInSequenceSpace ∧ s.una + t.lengthInSequenceSpace ≤ s.nextSeqno := by
  have := h.laid
  rw [hl] at this
  exact ⟨this.1.1, this.1.2, this.2.le⟩

/-- An acknowledgment of everything sent is not ignored, if the oldest segment is found at its own
number. -/
theorem Inv.not_ignored_next (h : Inv P s) {t : TCPSegment} {rest : List TCPSegment}
    (hl : s.segmentsOutstanding = t :: rest) (habs : s.absSeqno t = s.una) (windowSize : UInt16) :
    ¬ s.ackIgnored s.nextSeqno windowSize t = true := by
  obtain ⟨-, -, hend⟩ := h.front hl
  rw [ackIgnored_iff, habs]
  omega

/-- **A tick** keeps the bookkeeping: it can only queue the oldest segment again. -/
theorem Inv.tick (h : Inv P s) (ms : ℕ) : Inv P (s.tick ms) := by
  obtain ⟨-, he⟩ | ⟨t, rest, hl, -, he⟩ := s.tick_cases ms <;> rw [he]
  · exact ⟨h.flight_le, h.laid, h.timer, h.syn, h.queued⟩
  · have hfront := h.front hl
    refine ⟨h.flight_le, h.laid, h.timer, h.syn, ?_⟩
    intro seg hseg
    rcases List.mem_append.1 hseg with hseg | hseg
    · exact h.queued seg hseg
    · rw [List.mem_singleton.1 hseg]
      exact ⟨s.una, Nat.sub_le _ _, hfront.1⟩

/-- The segments removed lie below the first number in flight that remains. -/
theorem Inv.laid_gone (h : Inv P s) (a : ℕ) :
    Laid (fun p seg => P p seg ∧ 0 < seg.lengthInSequenceSpace) lengthInSequenceSpace
        s.una (s.gone a) (s.una + totalLength (s.gone a)) ∧
      Laid (fun p seg => P p seg ∧ 0 < seg.lengthInSequenceSpace) lengthInSequenceSpace
        (s.una + totalLength (s.gone a)) (s.kept a) s.nextSeqno := by
  have hl := h.laid
  rw [← gone_append_kept s a, Laid.append_iff] at hl
  obtain ⟨b, h1, h2⟩ := hl
  have hb : b = s.una + totalLength (s.gone a) := h1.eq_add
  subst hb
  exact ⟨h1, h2⟩

theorem Inv.una_ackPopped (h : Inv P s) (a : ℕ) (windowSize : UInt16) :
    (s.ackPopped a windowSize).una = s.una + totalLength (s.gone a) := by
  have h1 := (h.laid_gone a).2.le
  have h2 := h.una_add
  show s.nextSeqno - (s.bytesInFlight - totalLength (s.gone a)) = _
  omega

/-- **The removal of acknowledged segments** keeps the bookkeeping. -/
theorem Inv.ackPopped (h : Inv P s) (a : ℕ) (windowSize : UInt16) :
    Inv P (s.ackPopped a windowSize) := by
  obtain ⟨h1, h2⟩ := h.laid_gone a
  have hadd := h.una_add
  have hkept := h2.eq_add
  have hzero := totalLength_eq_zero h2
  refine ⟨?_, ?_, ?_, h.syn, h.queued⟩
  · show s.bytesInFlight - totalLength (s.gone a) ≤ s.nextSeqno
    omega
  · rw [h.una_ackPopped]
    exact h2
  · have hflight : s.bytesInFlight - totalLength (s.gone a) = totalLength (s.kept a) := by
      unfold totalLength at hkept ⊢
      omega
    show (s.timerRunning && decide (s.bytesInFlight - totalLength (s.gone a) ≠ 0)) = true ↔
      s.kept a ≠ []
    rw [Bool.and_eq_true, decide_eq_true_iff, hflight, Ne, hzero, h.timer]
    refine ⟨fun hk => hk.2, fun hk => ⟨fun hnil => hk ?_, hk⟩⟩
    rw [kept, hnil]
    rfl

theorem Inv.ackWindow (h : Inv P s) (a : ℕ) (windowSize : UInt16) :
    Inv P (s.ackWindow a windowSize) :=
  ⟨h.flight_le, h.laid, h.timer, h.syn, h.queued⟩

/-! ## Whole calls -/

/-- `J` supplies `P` for what `fill_window` sends, and `fill_window` keeps it. -/
structure Emits (P : ℕ → TCPSegment → Prop) (J : TCPSender → Prop) : Prop where
  syn : ∀ s, Inv P s → J s → s.synFlag = false → P 0 s.synSegment ∧ J s.sendSyn
  data : ∀ n s, Inv P s → J s → s.synFlag = true → 0 < n → s.stream.contents ≠ [] →
    P s.nextSeqno (s.dataSegment n) ∧ J (s.sendData n).2
  fin : ∀ s, Inv P s → J s → s.synFlag = true → s.finFlag = false → s.stream.eof = true →
    P s.nextSeqno s.finSegment ∧ J s.sendFin

variable {J : TCPSender → Prop}

theorem Emits.fillWindow (e : Emits P J) (h : Inv P s) (hj : J s) :
    Inv P s.fillWindow ∧ J s.fillWindow := by
  refine fillWindow_rule (I := fun s => Inv P s ∧ J s) ⟨h, hj⟩ (fun hs => ?_)
    (fun n s hi hs hn hc => ?_) (fun s hi hs hf he => ?_)
  · obtain ⟨hp, hj'⟩ := e.syn s h hj hs
    exact ⟨h.sendSyn hs hp, hj'⟩
  · obtain ⟨hp, hj'⟩ := e.data n s hi.1 hi.2 hs hn hc
    exact ⟨hi.1.sendData hs hn hc hp, hj'⟩
  · obtain ⟨hp, hj'⟩ := e.fin s hi.1 hi.2 hs hf he
    exact ⟨hi.1.sendFin hs hp, hj'⟩

/-- An acknowledgment keeps what its two stages and `fill_window` keep. -/
theorem Emits.ackReceived (e : Emits P J) (h : Inv P s) (ackno : WrappingInt32)
    (windowSize : UInt16) (hwin : ∀ a, J (s.ackWindow a windowSize))
    (hpop : ∀ a, J (s.ackPopped a windowSize)) :
    Inv P (s.ackReceived ackno windowSize) ∧ J (s.ackReceived ackno windowSize) := by
  obtain ⟨-, he⟩ | ⟨t, rest, -, -, he⟩ | ⟨t, rest, -, -, he⟩ :=
    ackReceived_cases s ackno windowSize rfl <;> rw [he]
  · exact ⟨h.ackWindow _ _, hwin _⟩
  · exact ⟨h.ackWindow _ _, hwin _⟩
  · exact e.fillWindow (h.ackPopped _ _) (hpop _)

/-! ## Sequence numbers only -/

/-- The segment carries the number `p`. -/
def Numbered (isn : WrappingInt32) (p : ℕ) (seg : TCPSegment) : Prop :=
  seg.header.seqno = wrap p isn

theorem emits_numbered (isn : WrappingInt32) : Emits (Numbered isn) (fun s => s.isn = isn) where
  syn s h hj hs := by
    obtain ⟨h1, h2⟩ := h.fresh hs
    refine ⟨?_, ?_⟩
    · rw [Numbered, ← hj, wrap_zero]
      rfl
    · rw [sendSyn_eq h1 h2, emit_isn]
      exact hj
  data n s _ hj _ _ _ := by
    refine ⟨?_, ?_⟩
    · rw [Numbered, dataSegment_seqno, hj]
    · rw [sendData_eq, emit_isn]
      exact hj
  fin s _ hj _ _ _ := by
    refine ⟨?_, ?_⟩
    · rw [Numbered, finSegment, hj]
    · rw [sendFin_eq, emit_isn]
      exact hj

end Sponge.TCPSender
