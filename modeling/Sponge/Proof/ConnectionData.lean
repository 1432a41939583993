import Sponge.Proof.Connection

/-!
# What a connection has written and sent

As long as no byte enters the outbound stream after `end_input_stream` (`NotLate`), the sender
carries exactly the bytes that `write` accepted (`step_sends`), and so does everything the
connection emits (`step_emits`).
-/

namespace Sponge.TCPConnection

open TCPSender (Sends Carries)

/-- The call does not write to a stream that has ended. -/
def writable (c : TCPConnection) : ConnOp → Bool
  | .write _ => !c.sender.stream.inputEnded
  | _ => true

variable {c : TCPConnection} {isn : WrappingInt32} {W : List UInt8} {op : ConnOp}

theorem inputEnded_of_writable {data : List UInt8} (hw : c.writable (.write data) = true) :
    c.sender.stream.inputEnded = false := by
  simpa [writable] using hw

/-- The call does not put a byte into a stream that has ended. -/
def NotLate (c : TCPConnection) : ConnOp → Prop
  | .write data =>
    c.sender.stream.inputEnded = true → data = [] ∨ c.remainingOutboundCapacity = 0
  | _ => True

theorem notLate_of_writable (hw : c.writable op = true) : c.NotLate op := by
  cases op with
  | write data =>
    intro hend
    rw [inputEnded_of_writable hw] at hend
    cases hend
  | connect | endInputStream | segmentReceived | tick | read | popSegment => trivial

theorem accepted_write (c : TCPConnection) (data : List UInt8) :
    c.accepted (.write data) = data.take c.sender.stream.remainingCapacity := by
  by_cases hd : data = []
  · simp [hd, accepted]
  · have hret : (c.write data).1 = (c.sender.stream.write data).1 := by
      unfold TCPConnection.write
      rw [if_neg (by simpa using hd)]
    rw [accepted, hret, ByteStream.write_fst, Nat.min_comm, ← List.take_eq_take_min]

/-- A write takes nothing exactly if there is nothing to take or no room. -/
theorem accepted_write_eq_nil_iff {data : List UInt8} :
    c.accepted (.write data) = [] ↔ data = [] ∨ c.remainingOutboundCapacity = 0 := by
  rw [accepted_write, List.take_eq_nil_iff, or_comm]
  rfl

theorem accepted_of_ne (hop : ¬ ∃ data, op = .write data) : c.accepted op = [] := by
  cases op with
  | write data => exact absurd ⟨data, rfl⟩ hop
  | connect | endInputStream | segmentReceived | tick | read | popSegment => rfl

theorem sends_rule (isn : WrappingInt32) (W : List UInt8) : SenderRule (Sends isn W) where
  drain _ h := h.setQueue (List.forall_mem_nil _)
  fill _ h := h.fillWindow
  endFill _ h := h.endInput.fillWindow
  error _ h := h.setError
  empty _ h := h.sendEmptySegment
  ack _ ackno windowSize h _ := h.ackReceived ackno windowSize

/-- The stream after a write that is not late. -/
theorem sends_write (h : Sends isn W c.sender) {data : List UInt8} (hl : c.NotLate (.write data)) :
    Sends isn (W ++ c.accepted (.write data))
      { c.sender with stream := (c.sender.stream.write data).2 } := by
  cases hend : c.sender.stream.inputEnded with
  | false =>
    have hsends := h.write hend data
    rwa [ByteStream.write_fst, Nat.min_comm, ← List.take_eq_take_min, ← accepted_write] at hsends
  | true =>
    have hnone := accepted_write_eq_nil_iff.2 (hl hend)
    rw [hnone, List.append_nil]
    rw [accepted_write] at hnone
    exact h.writeNothing hnone

/-- A call either sends, from a connection `x` whose sender carries what was written, or leaves the
sender alone. -/
theorem step_sent (hb : Base c) (h : Sends isn W c.sender) (hl : c.NotLate op) :
    (∃ x : TCPConnection, c.step op = x.sendSenderSegments ∧
        Sends isn (W ++ c.accepted op) x.sender ∧ x.segmentsOut = c.segmentsOut) ∨
      ((c.step op).sender = c.sender ∧ Sends isn (W ++ c.accepted op) c.sender ∧
        ∃ n, (c.step op).segmentsOut = c.segmentsOut.drop n) := by
  by_cases hop : ∃ data, op = .write data
  · obtain ⟨data, rfl⟩ := hop
    have hcall := called c (.write data)
    have hsends := sends_write h hl
    generalize hc : c.step (.write data) = c' at hcall ⊢
    cases hcall with
    | writeNothing => exact .inr ⟨rfl, by simpa [accepted] using h, 0, rfl⟩
    | write data hd => exact .inl ⟨_, rfl, hsends.fillWindow, rfl⟩
  · rw [accepted_of_ne hop, List.append_nil]
    obtain hx | ⟨he, hs⟩ := (sends_rule isn W).sent hb.syn_of_not_listen h op
      (fun data he => absurd ⟨data, he⟩ hop) (fun ms _ _ => h.tick ms)
    · exact .inl hx
    · exact .inr ⟨he, h, hs⟩

/-- **Every call** keeps the relation between the sender and what was written. -/
theorem step_sends (hb : Base c) (h : Sends isn W c.sender) (hl : c.NotLate op) :
    Sends isn (W ++ c.accepted op) (c.step op).sender := by
  obtain ⟨x, he, hx, -⟩ | ⟨he, hs, -⟩ := step_sent hb h hl
  · rw [he, sendSenderSegments_sender]
    exact hx.setQueue (List.forall_mem_nil _)
  · rw [he]
    exact hs

/-! ## What is emitted -/

section
variable (receiver : TCPReceiver) (rst : Bool) (seg : TCPSegment)

@[simp] theorem fillFields_payload : (fillFields receiver rst seg).payload = seg.payload := by
  unfold fillFields
  cases receiver.ackno <;> cases rst <;> rfl
@[simp] theorem fillFields_seqno :
    (fillFields receiver rst seg).header.seqno = seg.header.seqno := by
  unfold fillFields
  cases receiver.ackno <;> cases rst <;> rfl
@[simp] theorem fillFields_syn : (fillFields receiver rst seg).header.syn = seg.header.syn := by
  unfold fillFields
  cases receiver.ackno <;> cases rst <;> rfl
@[simp] theorem fillFields_fin : (fillFields receiver rst seg).header.fin = seg.header.fin := by
  unfold fillFields
  cases receiver.ackno <;> cases rst <;> rfl
@[simp] theorem fillFields_length :
    (fillFields receiver rst seg).lengthInSequenceSpace = seg.lengthInSequenceSpace := by
  unfold TCPSegment.lengthInSequenceSpace
  rw [fillFields_payload, fillFields_syn, fillFields_fin]

end

variable {p : ℕ} {seg : TCPSegment}

/-- The fields that the connection fills in leave the data alone. -/
theorem carries_fillFields {ended : Bool} (h : Carries isn W ended p seg) (receiver : TCPReceiver)
    (rst : Bool) : Carries isn W ended p (fillFields receiver rst seg) := by
  refine ⟨?_, ?_, ?_, ?_⟩
  · rw [fillFields_seqno]; exact h.seqno
  · rw [fillFields_syn, fillFields_payload, fillFields_fin]; exact h.syn
  · rw [fillFields_payload]; exact h.payload
  · rw [fillFields_fin, fillFields_payload]; exact h.fin

theorem mem_stamped {receiver : TCPReceiver} {rst : Bool} {segs : List TCPSegment}
    (h : seg ∈ stamped receiver rst segs) :
    ∃ seg₀ ∈ segs, ∃ rst, seg = fillFields receiver rst seg₀ := by
  cases segs with
  | nil => cases h
  | cons first rest =>
    rcases List.mem_cons.1 h with h | h
    · exact ⟨first, List.mem_cons_self, rst, h⟩
    · obtain ⟨seg₀, hmem, he⟩ := List.mem_map.1 h
      exact ⟨seg₀, List.mem_cons_of_mem _ hmem, false, he.symm⟩

/-- What the sender's queue holds when it is sent. -/
theorem carries_outgoing (h : Sends isn W c.sender) {seg : TCPSegment} (hseg : seg ∈ c.outgoing) :
    ∃ p ≤ c.sender.nextSeqno, Carries isn W c.sender.stream.inputEnded p seg := by
  unfold outgoing at hseg
  split at hseg
  · rw [List.mem_singleton.1 hseg]
    exact ⟨_, Nat.le_refl _, TCPSender.carries_empty h.data.isn _⟩
  · exact h.inv.queued seg hseg

/-- **Every segment emitted** carries what was written. -/
theorem step_emits (hb : Base c) (h : Sends isn W c.sender) (hl : c.NotLate op)
    (hseg : seg ∈ (c.step op).segmentsOut) : seg ∈ c.segmentsOut ∨
      ∃ p ≤ (c.step op).sender.nextSeqno,
        Carries isn (W ++ c.accepted op) (c.step op).sender.stream.inputEnded p seg := by
  obtain ⟨x, he, hx, hout⟩ | ⟨-, -, n, hs⟩ := step_sent hb h hl
  · rw [he, sendSenderSegments_segmentsOut, hout] at hseg
    rw [he, sendSenderSegments_sender]
    rcases List.mem_append.1 hseg with hseg | hseg
    · exact .inl hseg
    · obtain ⟨seg₀, hmem, rst, rfl⟩ := mem_stamped hseg
      obtain ⟨p, hp, hcar⟩ := carries_outgoing hx hmem
      exact .inr ⟨p, hp, carries_fillFields hcar _ _⟩
  · rw [hs] at hseg
    exact .inl (List.mem_of_mem_drop hseg)

/-- The outbound stream is ended only by `end_input_stream`. -/
theorem step_outboundEnded (c : TCPConnection) (op : ConnOp) :
    (c.step op).sender.stream.inputEnded =
      (c.sender.stream.inputEnded || decide (op = .endInputStream)) := by
  have hcall := called c op
  generalize c.step op = c' at hcall ⊢
  cases hcall with
  | connect | write =>
    rw [filled, sendSenderSegments_sender]
    simp [TCPSender.fillWindow_inputEnded]
  | endInputStream => rw [filled, sendSenderSegments_sender]; simp [TCPSender.fillWindow_inputEnded]
  | segmentReceived seg hr =>
    cases hr with
    | inactive | ignored | silent => simp
    | opened => rw [sendSenderSegments_sender]; simp [TCPSender.fillWindow_inputEnded]
    | reset | simultaneous =>
      rw [sendSenderSegments_sender]
      simp [aborted, TCPSender.sendEmptySegment]
    | answered =>
      have hack := c.sender.ackReceived_inputEnded seg.header.ackno seg.header.win
      rw [sendSenderSegments_sender]
      simp only [answer]
      split <;> simp [TCPSender.sendEmptySegment, hack]
  | tick ms ht =>
    have hstream := (TCPSender.tick_frame c.sender ms).stream
    cases ht with
    | inactive => simp
    | passed | gaveUp => rw [sendSenderSegments_sender]; simp [aborted, hstream]
  | writeNothing | read | popSegment => simp [TCPConnection.read]

/-- What was emitted stays right. -/
theorem step_carries (hl : c.NotLate op)
    (h : Carries isn W c.sender.stream.inputEnded p seg) :
    Carries isn (W ++ c.accepted op) (c.step op).sender.stream.inputEnded p seg := by
  rw [step_outboundEnded]
  by_cases hop : ∃ data, op = .write data
  · obtain ⟨data, rfl⟩ := hop
    cases hend : c.sender.stream.inputEnded with
    | false =>
      rw [hend] at h
      exact h.write _
    | true =>
      rw [accepted_write_eq_nil_iff.2 (hl hend), List.append_nil]
      rw [hend] at h
      exact h
  · rw [accepted_of_ne hop, List.append_nil]
    cases hd : decide (op = .endInputStream) with
    | true =>
      rw [Bool.or_true]
      exact h.endInput
    | false =>
      rw [Bool.or_false]
      exact h

end Sponge.TCPConnection
