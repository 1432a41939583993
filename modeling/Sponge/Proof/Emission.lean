import Sponge.Proof.ConnectionData
import Sponge.Proof.SenderWindow
import Sponge.Lib.Run

/-!
# What a call emits

`emitted c op` is what the call `op` pushes onto `segments_out`. Every send path hands over the
sender's queue with the fields of the connection as it is after the call (`emitted_sends`); all
other paths emit nothing (`emitted_drop`). `CallRule.emits` combines this with what the sender's
own calls keep.

`fillWindow_idle_iff` says when `fill_window` has nothing to send.
-/

namespace Sponge

namespace TCPSender

open TCPSegment (lengthInSequenceSpace)

/-! ## The sender's queue -/

variable {s : TCPSender}

/-- A loop without room or without data does nothing. -/
theorem fillLoop_stop {n : ℕ} (h : n = 0 ∨ s.stream.contents = []) (fuel : ℕ) :
    fillLoop fuel n s = (n, s) := by
  cases fuel with
  | zero => rfl
  | succ fuel =>
    unfold fillLoop
    rw [if_neg]
    rintro ⟨hn, hb⟩
    rcases h with h | h
    · omega
    · exact (s.stream.bufferSize_pos_iff).1 hb h

theorem emit_queue_lt (s : TCPSender) (seg : TCPSegment) :
    s.segmentsOut.length < (s.emit seg).segmentsOut.length := by
  simp

theorem sendSyn_segmentsOut (s : TCPSender) :
    s.sendSyn.segmentsOut = s.segmentsOut ++ [s.synSegment] := by
  rw [sendSyn, startTimer_eq]
  rfl

/-- With room and data, the loop queues something. -/
theorem fillLoop_sends (hs : s.synFlag = true) {n : ℕ} (hn : n ≠ 0) (hc : s.stream.contents ≠ []) :
    s.segmentsOut.length < (fillLoop s.stream.bufferSize n s).2.segmentsOut.length := by
  have hpos := (s.stream.bufferSize_pos_iff).2 hc
  obtain ⟨fuel, hfuel⟩ := Nat.exists_eq_add_of_lt hpos
  rw [Nat.zero_add] at hfuel
  rw [hfuel, fillLoop, if_pos ⟨Nat.pos_of_ne_zero hn, hpos⟩]
  -- the first round queues a segment, and the later ones only add to it
  apply (fillLoop_rule (I := fun _ s' => s.segmentsOut.length < s'.segmentsOut.length)
    _ fuel _ _ _).1
  · intro n s' hlt _ _ _
    rw [sendData_eq]
    exact Nat.lt_trans hlt (emit_queue_lt (s'.readPayload n) _)
  · rw [sendData_eq]
    exact emit_queue_lt (s.readPayload n) _
  · rw [sendData_synFlag]
    exact hs

/-- With our SYN sent, and no room or nothing unsent, `fill_window` does nothing. -/
theorem fillWindow_idle (hs : s.synFlag = true) (h : s.remain = 0 ∨ ¬ s.Unsent) :
    s.fillWindow = s := by
  unfold fillWindow
  rw [if_neg (by rw [hs]; decide)]
  rcases h with hr | hu
  · rw [fillLoop_stop (.inl hr), if_neg (fun h => h.2.2 hr)]
  · obtain ⟨hc, hend⟩ := not_or.1 hu
    rw [fillLoop_stop (.inr (not_not.1 hc)), if_neg]
    rintro ⟨hf, he, -⟩
    exact hend ⟨((ByteStream.eof_iff _).1 he).2, hf⟩

/-- **When `fill_window` has nothing to send**: the SYN is sent, and there is no room or nothing
left unsent. -/
theorem fillWindow_idle_iff (s : TCPSender) :
    s.fillWindow.segmentsOut = s.segmentsOut ↔
      s.synFlag = true ∧ (s.remain = 0 ∨ ¬ s.Unsent) := by
  unfold fillWindow
  cases hs : s.synFlag with
  | false =>
    rw [if_pos rfl, sendSyn_segmentsOut]
    simp
  | true =>
    rw [if_neg (by decide)]
    dsimp only
    by_cases hr : s.remain = 0
    · rw [fillLoop_stop (.inl hr), if_neg (fun h => h.2.2 hr)]
      simp [hr]
    · by_cases hc : s.stream.contents = []
      · rw [fillLoop_stop (.inr hc)]
        simp only [Unsent, hr, hc, ByteStream.eof_iff, true_and, ne_eq, not_true_eq_false,
          not_false_eq_true, and_true, false_or]
        split
        · rename_i h
          rw [sendFin_eq]
          simp [h]
        · rename_i h
          simpa [and_comm] using h
      · have hlt := fillLoop_sends hs hr hc
        have hne : ¬ (s.remain = 0 ∨ ¬ s.Unsent) := by
          simp [hr, Unsent, hc]
        simp only [hne, and_false, iff_false]
        intro heq
        split at heq
        · rw [sendFin_eq] at heq
          have := emit_queue_lt (fillLoop s.stream.bufferSize s.remain s).2
            (fillLoop s.stream.bufferSize s.remain s).2.finSegment
          rw [heq] at this
          omega
        · rw [heq] at hlt
          omega

/-- With our SYN sent, room in the window and something unsent, `fill_window` uses new numbers. -/
theorem fillWindow_next_lt (hs : s.synFlag = true) (hr : s.remain ≠ 0) (hu : s.Unsent) :
    s.nextSeqno < s.fillWindow.nextSeqno := by
  have hsends : s.fillWindow.segmentsOut ≠ s.segmentsOut := by
    rw [Ne, fillWindow_idle_iff]
    exact fun hidle => hidle.2.elim hr fun hno => hno hu
  have hgrows : (s.fillWindow.segmentsOut = s.segmentsOut ∧ s.nextSeqno ≤ s.fillWindow.nextSeqno) ∨
      s.nextSeqno < s.fillWindow.nextSeqno := by
    apply fillWindow_rule (I := fun s' =>
      (s'.segmentsOut = s.segmentsOut ∧ s.nextSeqno ≤ s'.nextSeqno) ∨ s.nextSeqno < s'.nextSeqno)
    · exact .inl ⟨rfl, Nat.le_refl _⟩
    · intro hfresh
      rw [hs] at hfresh
      cases hfresh
    · intro n s' h _ hn hc
      have hpos := dataSegment_pos hn hc
      have hle : s.nextSeqno ≤ (s'.readPayload n).nextSeqno := h.elim (·.2) Nat.le_of_lt
      rw [sendData_eq, emit_nextSeqno]
      exact .inr (by omega)
    · intro s' h _ _ _
      have hle : s.nextSeqno ≤ s'.nextSeqno := h.elim (·.2) Nat.le_of_lt
      rw [sendFin_eq, emit_nextSeqno]
      exact .inr (by simp [finSegment, lengthInSequenceSpace]; omega)
  exact hgrows.resolve_left fun h => hsends h.1

/-- Everything that `fill_window` queues occupies sequence numbers. -/
theorem fillWindow_pos (h : ∀ seg ∈ s.segmentsOut, 0 < seg.lengthInSequenceSpace) :
    ∀ seg ∈ s.fillWindow.segmentsOut, 0 < seg.lengthInSequenceSpace := by
  have hemit : ∀ (s : TCPSender) (new : TCPSegment), 0 < new.lengthInSequenceSpace →
      (∀ seg ∈ s.segmentsOut, 0 < seg.lengthInSequenceSpace) →
      ∀ seg ∈ (s.emit new).segmentsOut, 0 < seg.lengthInSequenceSpace := by
    intro s new hnew hs seg hseg
    rw [emit_segmentsOut] at hseg
    rcases List.mem_append.1 hseg with hseg | hseg
    · exact hs seg hseg
    · rw [List.mem_singleton.1 hseg]
      exact hnew
  apply fillWindow_rule (I := fun s => ∀ seg ∈ s.segmentsOut, 0 < seg.lengthInSequenceSpace) h
  · intro _ seg hseg
    rw [sendSyn_segmentsOut] at hseg
    rcases List.mem_append.1 hseg with hseg | hseg
    · exact h seg hseg
    · rw [List.mem_singleton.1 hseg]
      simp
  · intro n s hs _ hn hc
    rw [sendData_eq]
    exact hemit (s.readPayload n) _ (dataSegment_pos hn hc) hs
  · intro s hs _ _ _
    rw [sendFin_eq]
    exact hemit s _ (by simp [finSegment, lengthInSequenceSpace]) hs

theorem ackReceived_pos (h : ∀ seg ∈ s.segmentsOut, 0 < seg.lengthInSequenceSpace)
    (ackno : WrappingInt32) (windowSize : UInt16) :
    ∀ seg ∈ (s.ackReceived ackno windowSize).segmentsOut, 0 < seg.lengthInSequenceSpace := by
  obtain ⟨-, he⟩ | ⟨t, rest, -, -, he⟩ | ⟨t, rest, -, -, he⟩ :=
    ackReceived_cases s ackno windowSize rfl <;> rw [he]
  · exact h
  · exact h
  · exact fillWindow_pos h

end TCPSender

namespace TCPConnection

/-! ## The connection's queue -/

/-- The segments that a call pushes onto `segments_out`. -/
def emitted (c : TCPConnection) (op : ConnOp) : List TCPSegment :=
  (c.step op).segmentsOut.drop c.segmentsOut.length

variable {c : TCPConnection} {op : ConnOp} {seg : TCPSegment}

theorem emitted_drop {n : ℕ} (h : (c.step op).segmentsOut = c.segmentsOut.drop n) :
    c.emitted op = [] := by
  rw [emitted, h, List.drop_drop]
  exact List.drop_eq_nil_of_le (Nat.le_add_left _ _)

/-- A call that leaves the queue alone emits nothing. -/
theorem emitted_same {c' : TCPConnection} (h : c.step op = c')
    (hout : c'.segmentsOut = c.segmentsOut) : c.emitted op = [] :=
  emitted_drop (n := 0) (by rw [h, hout, List.drop_zero])

/-- **A call that sends** hands over the sender's queue. -/
theorem emitted_sends {x : TCPConnection} (h : c.step op = x.sendSenderSegments)
    (hout : x.segmentsOut = c.segmentsOut) :
    c.emitted op = stamped (c.step op).receiver x.needSendRst x.outgoing := by
  rw [emitted, h, sendSenderSegments_segmentsOut, hout, List.drop_left, sendSenderSegments_receiver]

theorem outgoing_of_not_rst {x : TCPConnection} (h : x.needSendRst = false) :
    x.outgoing = x.sender.segmentsOut := by
  rw [outgoing, h, Bool.and_false]
  rfl

/-- Without a pending RST, every segment of the queue gets the same fields. -/
theorem emitted_sends_map {x : TCPConnection} (h : c.step op = x.sendSenderSegments)
    (hout : x.segmentsOut = c.segmentsOut) (hr : x.needSendRst = false) :
    c.emitted op = x.sender.segmentsOut.map (fillFields (c.step op).receiver false) := by
  rw [emitted_sends h hout, outgoing_of_not_rst hr, hr, stamped_false]

/-- **What is emitted** was queued by a sender that has what the sender's calls keep. -/
theorem CallRule.emits {I : TCPSender → Prop} (rule : CallRule I) (hI : I c.sender) (op : ConnOp)
    (hw : ∀ data, op = .write data →
      I ({ c.sender with stream := (c.sender.stream.write data).2 } : TCPSender).fillWindow)
    (hack : ∀ seg, op = .segmentReceived seg → c.AckReaches seg →
      I (c.sender.ackReceived seg.header.ackno seg.header.win))
    (ht : ∀ ms, op = .tick ms → c.activeFlag = true → I (c.sender.tick ms)) :
    ((c.step op).sender = c.sender ∧ c.emitted op = []) ∨
      ∃ x : TCPConnection, (c.step op).sender = { x.sender with segmentsOut := [] } ∧ I x.sender ∧
        c.emitted op = stamped (c.step op).receiver x.needSendRst x.outgoing := by
  obtain ⟨x, he, hx, hout⟩ | ⟨hs, n, hn⟩ := rule.sent hI op hw hack ht
  · exact .inr ⟨x, by rw [he, sendSenderSegments_sender], hx, emitted_sends he hout⟩
  · exact .inl ⟨hs, emitted_drop hn⟩

/-! ## Acknowledgments -/

/-- The sender leaves the ACK flag to the connection. -/
def Plain (_ : ℕ) (seg : TCPSegment) : Prop := seg.header.ack = false

theorem emits_plain : TCPSender.Emits Plain (fun _ => True) where
  syn _ _ _ _ := ⟨rfl, trivial⟩
  data _ _ _ _ _ _ _ := ⟨rfl, trivial⟩
  fin _ _ _ _ _ _ := ⟨rfl, trivial⟩

theorem plain_rule : SenderRule (TCPSender.Inv Plain) where
  drain _ h := ⟨h.flight_le, h.laid, h.timer, h.syn, List.forall_mem_nil _⟩
  fill _ h := (emits_plain.fillWindow h trivial).1
  endFill _ h := (emits_plain.fillWindow (h.setStream _) trivial).1
  error _ h := h.setStream _
  empty _ h := h.sendEmptySegment rfl
  ack _ ackno windowSize h _ :=
    (emits_plain.ackReceived h ackno windowSize (fun _ => trivial) (fun _ => trivial)).1

theorem step_plain (hb : Base c) (h : TCPSender.Inv Plain c.sender) (op : ConnOp) :
    TCPSender.Inv Plain (c.step op).sender :=
  plain_rule.step hb.syn_of_not_listen h op
    (fun _ _ => (emits_plain.fillWindow (h.setStream _) trivial).1) (fun ms _ _ => h.tick ms)

/-- **An emitted segment with the ACK flag** has the `ackno` and the window size that the receiver
has after the call, the latter in 16 bits. -/
theorem emitted_ack (hb : Base c) (h : TCPSender.Inv Plain c.sender) (hseg : seg ∈ c.emitted op)
    (hack : seg.header.ack = true) : (c.step op).receiver.synFlag = true ∧
      seg.header.ackno = (c.step op).receiver.acknoField ∧
      seg.header.win = UInt16.ofNat (c.step op).receiver.windowSize := by
  obtain ⟨-, hnil⟩ | ⟨x, -, hx, hem⟩ := plain_rule.toCallRule.emits h op
    (fun _ _ => (emits_plain.fillWindow (h.setStream _) trivial).1)
    (fun _ _ hr => plain_rule.ack _ _ _ h (hb.syn_of_not_listen hr.2.1)) (fun ms _ _ => h.tick ms)
  · rw [hnil] at hseg
    cases hseg
  · rw [hem] at hseg
    obtain ⟨seg₀, hmem, rst, rfl⟩ := mem_stamped hseg
    have hplain : seg₀.header.ack = false := by
      unfold outgoing at hmem
      split at hmem
      · rw [List.mem_singleton.1 hmem]
        rfl
      · obtain ⟨p, -, hp⟩ := hx.queued seg₀ hmem
        exact hp
    unfold fillFields TCPReceiver.ackno at hack ⊢
    cases hs : (c.step op).receiver.synFlag with
    | false =>
      rw [hs] at hack
      cases rst <;> simp [hplain] at hack
    | true => cases rst <;> exact ⟨rfl, rfl, rfl⟩

/-- Between calls, in every run. -/
theorem run_base (cfg : TCPConfig) (random : UInt32) (ops : List ConnOp) :
    Base (Run.exec step (new cfg random) ops) := by
  apply Run.exec_invariant (I := Base)
  · intro c op h
    exact h.step op
  · exact new_base cfg random

end TCPConnection

end Sponge
