import Sponge.Proof.Emission

/-!
# Replies, and silence

Three results on what `segment_received` and the other calls push onto `segments_out`.

* `run_no_pure_ack_reply`: a segment that occupies no sequence number is never answered by another
  such segment.
* `run_answered_iff`: a segment that does occupy sequence numbers is answered, except for those
  that leave `segment_received` before the reply: without the ACK flag, or with payload while our
  SYN is unacknowledged.
* `run_silent_iff`: an inactive connection emits nothing, exactly if its owner never calls
  `connect`, `write` or `end_input_stream` with something left to send; these three calls do not
  look at `_active`.
-/

namespace Sponge.TCPConnection

open Run
open TCPSegment (lengthInSequenceSpace)

variable {c : TCPConnection}

/-! ## Pure acknowledgments -/

theorem syn_pos {seg : TCPSegment} (hs : seg.header.syn = true) :
    0 < seg.lengthInSequenceSpace := by
  unfold lengthInSequenceSpace
  rw [hs, if_pos rfl]
  omega

/-- The answer to a segment that occupies nothing is what `ack_received` queued. -/
theorem answer_of_length_zero {seg : TCPSegment} (hl : seg.lengthInSequenceSpace = 0)
    (s : TCPSender) :
    answer s seg = s.ackReceived seg.header.ackno seg.header.win := by
  unfold answer
  simp [hl]

theorem Base.no_pure_ack_reply (h : Base c) {seg : TCPSegment} (hl : seg.lengthInSequenceSpace = 0)
    (hr : seg.header.rst = false) :
    ∀ out ∈ c.emitted (.segmentReceived seg), 0 < out.lengthInSequenceSpace := by
  obtain ⟨c', hc'⟩ : ∃ c', c.step (.segmentReceived seg) = c' := ⟨_, rfl⟩
  have hrec : Received c seg (c.step (.segmentReceived seg)) := received c seg
  rw [hc'] at hrec
  cases hrec with
  | inactive | ignored | silent =>
    rw [emitted_same hc' rfl]
    exact List.forall_mem_nil _
  | opened _ _ hs | simultaneous _ _ _ _ _ hs =>
    have := syn_pos hs
    omega
  | reset _ _ hrst =>
    rw [hr] at hrst
    cases hrst
  | answered =>
    rw [emitted_sends_map hc' rfl h.rst]
    intro out hout
    obtain ⟨seg₀, hmem, rfl⟩ := List.mem_map.1 hout
    rw [fillFields_length]
    rw [answer_of_length_zero hl] at hmem
    apply TCPSender.ackReceived_pos _ _ _ seg₀ hmem
    rw [h.queue]
    exact List.forall_mem_nil _

/-- **No acknowledgment ping-pong**: in every run, what answers a segment that occupies no sequence
number does occupy some, and the inner sender's queue is empty between the calls. -/
theorem run_no_pure_ack_reply (cfg : TCPConfig) (random : UInt32) (ops : List ConnOp)
    (seg : TCPSegment) (hr : seg.header.rst = false) (hl : seg.lengthInSequenceSpace = 0) :
    (∀ out ∈ (exec step (new cfg random) ops).emitted (.segmentReceived seg),
        0 < out.lengthInSequenceSpace) ∧
      (exec step (new cfg random) ops).sender.segmentsOut = [] :=
  ⟨(run_base cfg random ops).no_pure_ack_reply hl hr, (run_base cfg random ops).queue⟩

/-- A byte waits for the window to open: the acknowledgment that opens it is answered by data. -/
theorem no_pure_ack_reply_of_window :
    (∀ out ∈ (exec step (new { fixedIsn := some ⟨0⟩ } 0)
        [.connect, .write [97]]).emitted (.segmentReceived
          { header := { ack := true, ackno := ⟨1⟩, win := 9 } }), 0 < out.lengthInSequenceSpace) ∧
      (exec step (new { fixedIsn := some ⟨0⟩ } 0)
        [.connect, .write [97]]).sender.segmentsOut = [] :=
  run_no_pure_ack_reply _ _ _ _ rfl rfl

/-! ## Segments that occupy sequence numbers -/

/-- `segment_received` pushes at least one segment, and each acknowledges all that the receiver has
after it. -/
def Answered (c : TCPConnection) (seg : TCPSegment) : Prop :=
  c.emitted (.segmentReceived seg) ≠ [] ∧
    ∀ out ∈ c.emitted (.segmentReceived seg), out.header.ack = true ∧
      (c.segmentReceived seg).receiver.ackno = some out.header.ackno

instance (c : TCPConnection) (seg : TCPSegment) : Decidable (c.Answered seg) :=
  inferInstanceAs (Decidable (_ ∧ _))

/-- The segments that reach a reply: in `LISTEN` all; otherwise those with the ACK flag, unless with
payload while our SYN is unacknowledged, and the bare SYN of a simultaneous open. -/
def Answerable (c : TCPConnection) (seg : TCPSegment) : Prop :=
  c.inListen = true ∨ (seg.header.ack = true ∧ (c.synUnacked = true → seg.payload = [])) ∨
    (c.synUnacked = true ∧ seg.payload = [] ∧ seg.header.syn = true)

instance (c : TCPConnection) (seg : TCPSegment) : Decidable (c.Answerable seg) :=
  inferInstanceAs (Decidable (_ ∨ _))

theorem fillFields_ack {receiver : TCPReceiver} (hs : receiver.synFlag = true) (rst : Bool)
    (seg : TCPSegment) : (fillFields receiver rst seg).header.ack = true ∧
      receiver.ackno = some (fillFields receiver rst seg).header.ackno := by
  have hack : receiver.ackno = some receiver.acknoField := by
    unfold TCPReceiver.ackno
    rw [hs]
    rfl
  unfold fillFields
  rw [hack]
  cases rst <;> exact ⟨rfl, rfl⟩

/-- A call that hands over a non-empty queue answers, once the peer's SYN is known. -/
theorem answered_of_sends {seg : TCPSegment} {x : TCPConnection}
    (he : c.step (.segmentReceived seg) = x.sendSenderSegments)
    (hout : x.segmentsOut = c.segmentsOut)
    (hr : x.needSendRst = false) (hs : x.receiver.synFlag = true) (hq : x.sender.segmentsOut ≠ []) :
    c.Answered seg := by
  have hreceiver : (c.segmentReceived seg).receiver = x.receiver :=
    (congrArg receiver he).trans x.sendSenderSegments_receiver
  unfold Answered
  rw [emitted_sends_map he hout hr, hreceiver, he, sendSenderSegments_receiver]
  refine ⟨by simpa using hq, ?_⟩
  intro out hmem
  obtain ⟨seg₀, -, rfl⟩ := List.mem_map.1 hmem
  exact fillFields_ack hs false seg₀

theorem answer_ne_nil {seg : TCPSegment} (hl : 0 < seg.lengthInSequenceSpace) (s : TCPSender) :
    (answer s seg).segmentsOut ≠ [] := by
  unfold answer
  split
  · simp [TCPSender.sendEmptySegment]
  · rename_i h
    simpa [hl] using h

theorem Base.answered_iff (h : Base c) {seg : TCPSegment} (ha : c.activeFlag = true)
    (hs : c.receiver.synFlag = true ∨ seg.header.syn = true) (hr : seg.header.rst = false)
    (hl : 0 < seg.lengthInSequenceSpace) : c.Answered seg ↔ c.Answerable seg := by
  have hsyn : (c.receiver.segmentReceived seg).synFlag = true := by
    rw [TCPReceiver.segmentReceived_synFlag h.receiver]
    simpa using hs
  obtain ⟨c', hc'⟩ : ∃ c', c.step (.segmentReceived seg) = c' := ⟨_, rfl⟩
  have hquiet : c'.segmentsOut = c.segmentsOut → ¬ c.Answered seg := by
    intro hsame hans
    exact hans.1 (emitted_same hc' hsame)
  have hrec : Received c seg (c.step (.segmentReceived seg)) := received c seg
  rw [hc'] at hrec
  cases hrec with
  | inactive hia =>
    rw [ha] at hia
    cases hia
  | ignored _ hi =>
    refine iff_of_false (hquiet rfl) ?_
    rcases hi with ⟨hlis, hi⟩ | ⟨hlis, -, hu, hi⟩
    · -- in `LISTEN` the segment is the one with the peer's SYN
      have hnone := receiver_syn_of_listen hlis
      simp [hr, hnone] at hi hs
      rw [hs] at hi
      cases hi
    · unfold Answerable
      rcases hi with hi | ⟨hk, hi⟩
      · simp [hlis, hu, hi]
      · simp [hlis, hk, hi]
  | opened _ hlis =>
    refine iff_of_true ?_ (.inl hlis)
    apply answered_of_sends hc' rfl h.rst hsyn
    -- our SYN has not been sent, so `fill_window` sends it
    have hfresh : c.sender.synFlag = false := by
      have hn : c.sender.nextSeqno = 0 := by
        unfold inListen at hlis
        simpa using (Bool.and_eq_true_iff.1 hlis).1
      refine Bool.eq_false_iff.2 fun hsent => ?_
      have := h.sender.syn.1 hsent
      omega
    intro hnil
    rw [← h.queue] at hnil
    have := ((TCPSender.fillWindow_idle_iff c.sender).1 hnil).1
    rw [hfresh] at this
    cases this
  | reset _ _ hrst =>
    rw [hr] at hrst
    cases hrst
  | simultaneous _ _ hu hp _ hseg =>
    refine iff_of_true ?_ (.inr (.inr ⟨hu, hp, hseg⟩))
    apply answered_of_sends hc' rfl h.rst hsyn
    simp [TCPSender.sendEmptySegment]
  | silent _ hlis hu hk =>
    refine iff_of_false (hquiet rfl) ?_
    simp [Answerable, hlis, hu, hk]
  | answered _ _ hp hk =>
    refine iff_of_true ?_ (.inr (.inl ⟨hk, hp⟩))
    exact answered_of_sends hc' rfl h.rst hsyn (answer_ne_nil hl c.sender)

/-- **What is answered**: in every run, a segment without RST that occupies sequence numbers, with
the peer's SYN known or in it, is answered exactly if it reaches a reply. -/
theorem run_answered_iff (cfg : TCPConfig) (random : UInt32) (ops : List ConnOp) (seg : TCPSegment)
    (ha : (exec step (new cfg random) ops).active = true)
    (hs : (exec step (new cfg random) ops).receiver.synFlag = true ∨ seg.header.syn = true)
    (hr : seg.header.rst = false) (hl : 0 < seg.lengthInSequenceSpace) :
    (exec step (new cfg random) ops).Answered seg ↔
      (exec step (new cfg random) ops).Answerable seg :=
  (run_base cfg random ops).answered_iff ha hs hr hl

/-- After the handshake a byte with the ACK flag is answered. -/
theorem answered_after_handshake :
    (exec step (new { fixedIsn := some ⟨0⟩ } 0) [.connect, .segmentReceived
      { header := { syn := true, ack := true, ackno := ⟨1⟩, win := 9 } }]).Answered
        { header := { seqno := ⟨1⟩, ack := true, ackno := ⟨1⟩, win := 9 }, payload := [97] } :=
  (run_answered_iff { fixedIsn := some ⟨0⟩ } 0 _ _ (by decide +kernel) (by decide +kernel) rfl
    (by decide +kernel)).2 (by decide +kernel)

/-- After the handshake a byte without the ACK flag reaches the stream and is not answered. -/
theorem byte_without_ack_unanswered :
    let c := exec step (new { fixedIsn := some ⟨0⟩ } 0) [.connect, .segmentReceived
      { header := { syn := true, ack := true, ackno := ⟨1⟩, win := 9 } }]
    let seg : TCPSegment := { header := { seqno := ⟨1⟩ }, payload := [97] }
    c.active = true ∧ c.receiver.synFlag = true ∧ seg.header.rst = false ∧
      0 < seg.lengthInSequenceSpace ∧ (c.segmentReceived seg).inboundStream.bytesWritten = 1 ∧
      ¬ c.Answered seg := by
  decide +kernel

/-! ## An inactive connection -/

/-- With the given bytes buffered and end of the stream, `fill_window` sends nothing: our SYN is
sent, and there is no room or nothing left. -/
def Idle (c : TCPConnection) (contents : List UInt8) (ended : Bool) : Prop :=
  c.sender.synFlag = true ∧
    (c.sender.remain = 0 ∨ contents = [] ∧ (ended = true → c.sender.finFlag = true))

instance (c : TCPConnection) (contents : List UInt8) (ended : Bool) :
    Decidable (c.Idle contents ended) :=
  inferInstanceAs (Decidable (_ ∧ _))

/-- The call finds nothing to send. -/
def Quiet (c : TCPConnection) : ConnOp → Prop
  | .connect => c.Idle c.sender.stream.contents c.sender.stream.inputEnded
  | .write data => data = [] ∨
      c.Idle (c.sender.stream.contents ++ data.take c.sender.stream.remainingCapacity)
        c.sender.stream.inputEnded
  | .endInputStream => c.Idle c.sender.stream.contents true
  | .segmentReceived _ | .tick _ | .read _ | .popSegment => True

/-- The call emits nothing if the connection is inactive. -/
def Silent (c : TCPConnection) (op : ConnOp) : Prop := c.active = false → c.emitted op = []

instance (c : TCPConnection) (op : ConnOp) : Decidable (c.Silent op) :=
  inferInstanceAs (Decidable (_ → _))

theorem Base.emitted_filled_iff (h : Base c) {op : ConnOp} {stream : ByteStream}
    (he : c.step op = c.filled stream) :
    c.emitted op = [] ↔ c.Idle stream.contents stream.inputEnded := by
  have hem : c.emitted op =
      ({ c.sender with stream := stream } : TCPSender).fillWindow.segmentsOut.map
        (fillFields (c.step op).receiver false) := emitted_sends_map he rfl h.rst
  have hq : ({ c.sender with stream := stream } : TCPSender).segmentsOut = [] := h.queue
  have hidle := TCPSender.fillWindow_idle_iff { c.sender with stream := stream }
  rw [hq] at hidle
  rw [hem, List.map_eq_nil_iff, hidle]
  simp [Idle, TCPSender.Unsent, TCPSender.remain]

/-- **One call** of an inactive connection. -/
theorem Base.silent_iff (h : Base c) (op : ConnOp) :
    c.Silent op ↔ (c.active = false → c.Quiet op) := by
  refine imp_congr_right fun ha => ?_
  obtain ⟨c', hc'⟩ : ∃ c', c.step op = c' := ⟨_, rfl⟩
  have hcall := called c op
  rw [hc'] at hcall
  cases hcall with
  | connect | endInputStream => exact h.emitted_filled_iff hc'
  | writeNothing => exact iff_of_true (emitted_same hc' rfl) (.inl rfl)
  | write data hd =>
    rw [h.emitted_filled_iff hc', ByteStream.contents_write, ByteStream.inputEnded_write]
    simp [Quiet, hd]
  | segmentReceived seg hrec =>
    cases hrec with
    | inactive => exact iff_of_true (emitted_same hc' rfl) trivial
    | ignored hact | opened hact | reset hact | simultaneous hact | silent hact | answered hact =>
      rw [active, hact] at ha
      cases ha
  | tick ms ht =>
    cases ht with
    | inactive => exact iff_of_true (emitted_same hc' rfl) trivial
    | passed hact | gaveUp hact =>
      rw [active, hact] at ha
      cases ha
  | read => exact iff_of_true (emitted_same hc' rfl) trivial
  | popSegment =>
    have hone : (c.step .popSegment).segmentsOut = c.segmentsOut.drop 1 := List.drop_one.symm
    exact iff_of_true (emitted_drop hone) trivial

/-- **A dead connection is silent** in exactly the runs in which, once it is inactive, every call
finds nothing to send. -/
theorem run_silent_iff (cfg : TCPConfig) (random : UInt32) (ops : List ConnOp) :
    Guarded step Silent (new cfg random) ops ↔
      Guarded step (fun c op => c.active = false → c.Quiet op) (new cfg random) ops := by
  apply guarded_iff_guarded (A := fun _ _ => True) (I := Base)
  · intro c op h _ _
    exact h.step op
  · intro c op h _
    exact h.silent_iff op
  · exact new_base cfg random
  · exact guarded_of_forall (fun _ _ => trivial) _ _

/-- A connection that was reset in `ESTABLISHED` still sends what is written to it. -/
theorem write_after_reset_sends :
    ¬ Guarded step Silent (new { fixedIsn := some ⟨0⟩ } 0)
      [.connect, .segmentReceived
        { header := { syn := true, ack := true, ackno := ⟨1⟩, win := 9 } },
      .segmentReceived { header := { seqno := ⟨1⟩, rst := true } }, .write [97]] := by
  decide +kernel

end Sponge.TCPConnection
