import Sponge.Proof.ConnectionData
import Sponge.Lib.Run

/-!
# A clean close is justified

`clean_shutdown` is the only way to become inactive without an error, and then its conditions hold
of the connection that results (`step_closes`). A `CloseRun` adds the history that these conditions
stand for: the bytes accepted, the highest acknowledgment received, the time since a segment was
last received, and whether the inbound stream had ended before the FIN was sent.
`run_close_justified` relates the two.
-/

namespace Sponge

open Run

namespace TCPConnection

variable {c : TCPConnection} {op : ConnOp}

/-! ## The decision -/

theorem passiveClose_sendSenderSegments (c : TCPConnection) :
    c.sendSenderSegments.passiveClose = c.passiveClose := by
  unfold passiveClose
  rw [sendSenderSegments_receiver, sendSenderSegments_sender]

/-- A connection that becomes inactive by sending meets the conditions of `clean_shutdown`. -/
theorem closes_sendSenderSegments (ha : c.activeFlag = true)
    (hi : c.sendSenderSegments.activeFlag = false) : c.sendSenderSegments.closes = true := by
  rw [sendSenderSegments_active, ha, Bool.true_and, Bool.not_eq_false'] at hi
  unfold closes at hi ⊢
  rw [sendSenderSegments_receiver, sendSenderSegments_sender, sendSenderSegments_time,
    sendSenderSegments_linger, sendSenderSegments_cfg]
  unfold passiveClose
  simp only [Bool.and_eq_true] at hi ⊢
  obtain ⟨⟨⟨h1, h2⟩, h3⟩, h4⟩ := hi
  refine ⟨⟨⟨h1, h2⟩, h3⟩, ?_⟩
  rw [h2, Bool.not_true, Bool.and_false, Bool.not_false, Bool.and_true]
  exact h4

/-- **Becoming inactive without an error** is what `clean_shutdown` decides. -/
theorem step_closes (ha : c.activeFlag = true) (hi : (c.step op).activeFlag = false)
    (hc : (c.step op).Calm) : (c.step op).closes = true := by
  have hcall := called c op
  generalize c.step op = c' at hcall hi hc ⊢
  cases hcall with
  | connect | write | endInputStream => exact closes_sendSenderSegments ha hi
  | segmentReceived seg hr =>
    cases hr with
    | inactive | ignored | silent => rw [ha] at hi; cases hi
    | opened | simultaneous | answered => exact closes_sendSenderSegments ha hi
    | reset => exact absurd hc (not_calm_of_isReset (isReset_aborted _ _))
  | tick ms ht =>
    cases ht with
    | inactive => rw [ha] at hi; cases hi
    | passed => exact closes_sendSenderSegments ha hi
    | gaveUp => exact absurd hc (not_calm_of_isReset (isReset_aborted _ _))
  | writeNothing | read | popSegment => exact absurd (ha.symm.trans hi) nofun

theorem step_inputEnded (hb : Base c) (h : c.inboundStream.inputEnded = true) (op : ConnOp) :
    (c.step op).inboundStream.inputEnded = true :=
  step_receiver (I := fun r => r.streamOut.inputEnded = true) h op (fun _ hr => hr)
    (fun seg _ _ _ => (TCPReceiver.segmentReceived_inputEnded hb.receiver seg).2 (.inl h))
    (fun _ _ => h)

/-- A connection that is inactive without an error has come to the end of its inbound stream. -/
theorem step_closed (hb : Base c) (hcalm : c.Calm ∨ c.IsReset)
    (h : c.activeFlag = false → c.Calm → c.inboundStream.inputEnded = true)
    (hi : (c.step op).activeFlag = false) (hc : (c.step op).Calm) :
    (c.step op).inboundStream.inputEnded = true := by
  cases ha : c.activeFlag with
  | true =>
    have hcloses := step_closes ha hi hc
    unfold closes at hcloses
    simp only [Bool.and_eq_true] at hcloses
    exact hcloses.1.1.1
  | false =>
    have hbefore : c.Calm := hcalm.resolve_right fun hr =>
      not_calm_of_isReset (step_isReset hb hr op) hc
    exact step_inputEnded hb (h ha hbefore) op

/-- `_linger_after_streams_finish` is cleared only when the inbound stream has ended and the FIN has
not been sent. -/
theorem step_linger (op : ConnOp) (hl : (c.step op).lingerAfterStreamsFinish = false) :
    c.lingerAfterStreamsFinish = false ∨ (c.step op).passiveClose = true := by
  have hsend : ∀ x : TCPConnection, x.lingerAfterStreamsFinish = c.lingerAfterStreamsFinish →
      x.sendSenderSegments.lingerAfterStreamsFinish = false →
      c.lingerAfterStreamsFinish = false ∨ x.sendSenderSegments.passiveClose = true := by
    intro x hx h
    rw [sendSenderSegments_linger, hx, Bool.and_eq_false_iff, Bool.not_eq_false'] at h
    rw [passiveClose_sendSenderSegments]
    exact h
  have hcall := called c op
  generalize c.step op = c' at hcall hl ⊢
  cases hcall with
  | connect | write | endInputStream => exact hsend _ rfl hl
  | segmentReceived seg hr =>
    cases hr with
    | inactive | ignored | silent => exact .inl hl
    | opened | reset | simultaneous | answered => exact hsend _ rfl hl
  | tick ms ht =>
    cases ht with
    | inactive => exact .inl hl
    | passed | gaveUp => exact hsend _ rfl hl
  | writeNothing | read | popSegment => exact .inl hl

/-! ## The time and the acknowledgments -/

/-- The milliseconds ticked since a segment was last received. -/
def sinceReceivedAfter (since : ℕ) : ConnOp → ℕ
  | .segmentReceived _ => 0
  | .tick ms => since + ms
  | _ => since

/-- An active connection's own count of the time is never ahead. -/
theorem step_time (ha : c.activeFlag = true) {since : ℕ}
    (h : c.timeSinceLastSegmentReceived ≤ since) (op : ConnOp) :
    (c.step op).timeSinceLastSegmentReceived ≤ sinceReceivedAfter since op := by
  have hcall := called c op
  generalize c.step op = c' at hcall ⊢
  cases hcall with
  | connect | write | endInputStream => rw [filled, sendSenderSegments_time]; exact h
  | segmentReceived seg hr =>
    cases hr with
    | inactive hi => rw [ha] at hi; cases hi
    | ignored | silent => exact Nat.le_refl 0
    | opened | reset | simultaneous | answered =>
      rw [sendSenderSegments_time]
      exact Nat.le_refl 0
  | tick ms ht =>
    have hle : (c.timeSinceLastSegmentReceived + ms) % 2 ^ 64 ≤ since + ms :=
      Nat.le_trans (Nat.mod_le _ _) (Nat.add_le_add_right h ms)
    cases ht with
    | inactive hi => rw [ha] at hi; cases hi
    | passed | gaveUp =>
      rw [sendSenderSegments_time]
      exact hle
  | writeNothing | read | popSegment => exact h

/-- The highest absolute acknowledgment number received for numbers already sent; `acked` is the one
before the call. -/
def ackedAfter (c : TCPConnection) (acked : ℕ) : ConnOp → ℕ
  | .segmentReceived seg =>
    let a := unwrap seg.header.ackno c.sender.isn c.sender.nextSeqno
    if seg.header.ack = true ∧ a ≤ c.sender.nextSeqno then max acked a else acked
  | _ => acked

theorem le_ackedAfter (c : TCPConnection) (acked : ℕ) (op : ConnOp) :
    acked ≤ c.ackedAfter acked op := by
  cases op with
  | segmentReceived seg =>
    unfold ackedAfter
    dsimp only
    split
    · exact Nat.le_max_left _ _
    · exact Nat.le_refl _
  | connect | write | endInputStream | tick | read | popSegment => exact Nat.le_refl _

theorem una_answer_eq (s : TCPSender) (seg : TCPSegment) :
    (answer s seg).una = (s.ackReceived seg.header.ackno seg.header.win).una := by
  unfold answer
  split <;> rfl

/-- The answer to an acknowledgment raises the first number in flight at most to what it
acknowledges. -/
theorem una_answer (hb : Base c) (hsmall : c.sender.bytesInFlight ≤ 2 ^ 31) {seg : TCPSegment}
    (hk : seg.header.ack = true) {acked : ℕ} (h : c.sender.una ≤ acked) :
    (answer c.sender seg).una ≤ c.ackedAfter acked (.segmentReceived seg) := by
  have hle := le_ackedAfter c acked (.segmentReceived seg)
  rw [una_answer_eq]
  obtain ⟨gone, kept, new, -, -, -, ⟨-, -, he, -⟩ | ⟨-, -, ha, he⟩⟩ :=
    c.sender.ackReceived_split seg.header.ackno seg.header.win rfl
  · rw [he]
    exact Nat.le_trans h hle
  · rw [he, TCPSender.una_fillWindow (hb.sender.ackPopped _ _), hb.sender.una_ackPopped]
    by_cases hg : c.sender.gone (unwrap seg.header.ackno c.sender.isn c.sender.nextSeqno) = []
    · rw [hg]
      exact Nat.le_trans h hle
    · refine Nat.le_trans (hb.sender.una_le_ack (fun _ _ hp => hp) hsmall hg) ?_
      unfold ackedAfter
      dsimp only
      rw [if_pos ⟨hk, ha⟩]
      exact Nat.le_max_right _ _

/-- **Only acknowledgments** raise the first number in flight. -/
theorem step_una (hb : Base c) (hsmall : c.sender.bytesInFlight ≤ 2 ^ 31) {acked : ℕ}
    (h : c.sender.una ≤ acked) (op : ConnOp) : (c.step op).sender.una ≤ c.ackedAfter acked op := by
  have hle := le_ackedAfter c acked op
  have hfill : ∀ stream : ByteStream,
      ({ c.sender with stream := stream } : TCPSender).fillWindow.una ≤ acked := by
    intro stream
    rw [TCPSender.una_fillWindow (hb.sender.setStream stream)]
    exact h
  have hcall := called c op
  generalize c.step op = c' at hcall ⊢
  cases hcall with
  | connect | write | endInputStream =>
    rw [filled, sendSenderSegments_sender]
    exact hfill _
  | segmentReceived seg hr =>
    cases hr with
    | inactive | ignored | silent => exact Nat.le_trans h hle
    | opened =>
      rw [sendSenderSegments_sender]
      exact Nat.le_trans (hfill c.sender.stream) hle
    | reset | simultaneous =>
      rw [sendSenderSegments_sender]
      exact Nat.le_trans h hle
    | answered _ _ _ hk =>
      rw [sendSenderSegments_sender]
      exact una_answer hb hsmall hk h
  | tick ms ht =>
    have htick : (c.sender.tick ms).una ≤ acked := by
      rw [TCPSender.una_tick]
      exact h
    cases ht with
    | inactive => exact h
    | passed | gaveUp =>
      rw [sendSenderSegments_sender]
      exact htick
  | writeNothing | read | popSegment => exact h

end TCPConnection

/-! ## Runs -/

/-- A connection with the history that a clean close stands for. -/
structure CloseRun where
  conn : TCPConnection
  /-- The bytes that `write` accepted. -/
  written : List UInt8
  /-- The highest acknowledgment received (`ackedAfter`). -/
  acked : ℕ
  /-- The milliseconds ticked since a segment was last received. -/
  sinceReceived : ℕ
  /-- After some call the inbound stream had ended and the FIN had not been sent. -/
  endedFirst : Bool

namespace CloseRun

open TCPConnection
open TCPSender (Sends)

def new (cfg : TCPConfig) (random : UInt32) : CloseRun := ⟨.new cfg random, [], 0, 0, false⟩

/-- One call. -/
def step (r : CloseRun) (op : ConnOp) : CloseRun where
  conn := r.conn.step op
  written := r.written ++ r.conn.accepted op
  acked := r.conn.ackedAfter r.acked op
  sinceReceived := sinceReceivedAfter r.sinceReceived op
  endedFirst := r.endedFirst ||
    ((r.conn.step op).inboundStream.inputEnded && !(r.conn.step op).sender.finFlag)

/-- Nothing is written after `end_input_stream`, and at most `2 ^ 31` numbers are in flight. -/
def Allowed (r : CloseRun) (op : ConnOp) : Prop :=
  r.conn.writable op = true ∧ r.conn.bytesInFlight ≤ 2 ^ 31

instance (r : CloseRun) (op : ConnOp) : Decidable (r.Allowed op) :=
  inferInstanceAs (Decidable (_ ∧ _))

/-- What a clean close requires: both streams are finished, everything sent is acknowledged up to
the FIN, which has the number after the last byte, and the peer has had the time to finish or has
finished first. -/
structure Justified (r : CloseRun) : Prop where
  inboundEnded : r.conn.inboundStream.inputEnded = true
  sent : r.conn.sender.stream.contents = [] ∧ r.conn.sender.finFlag = true ∧
    r.conn.bytesInFlight = 0
  acknowledged : r.conn.sender.nextSeqno = r.written.length + 2 ∧ r.written.length + 2 ≤ r.acked
  waited : 10 * r.conn.cfg.rtTimeout.toNat ≤ r.sinceReceived ∨ r.endedFirst = true

/-- The invariant of a run. -/
structure Inv (isn : WrappingInt32) (r : CloseRun) : Prop where
  base : Base r.conn
  sends : Sends isn r.written r.conn.sender
  una_le : r.conn.sender.una ≤ r.acked
  linger : r.conn.lingerAfterStreamsFinish = false → r.endedFirst = true
  time : r.conn.activeFlag = true → r.conn.timeSinceLastSegmentReceived ≤ r.sinceReceived

variable {isn : WrappingInt32} {r : CloseRun} {op : ConnOp}

theorem new_inv (cfg : TCPConfig) (random : UInt32) :
    Inv (cfg.fixedIsn.getD ⟨random⟩) (new cfg random) :=
  ⟨new_base cfg random, TCPSender.new_sends _ _ _ _, Nat.le_refl _, nofun, fun _ => Nat.le_refl _⟩

/-- **An allowed call** keeps the invariant. -/
theorem Inv.step (h : Inv isn r) (hop : r.Allowed op) : Inv isn (r.step op) := by
  obtain ⟨hw, hsmall⟩ := hop
  refine ⟨h.base.step op, step_sends h.base h.sends (notLate_of_writable hw),
    step_una h.base hsmall h.una_le op, fun hl => ?_, fun ha => ?_⟩
  · show (r.endedFirst || (r.conn.step op).passiveClose) = true
    rcases step_linger op hl with hl | hp
    · rw [h.linger hl, Bool.true_or]
    · rw [hp, Bool.or_true]
  · have ha₀ := step_active ha
    exact step_time ha₀ (h.time ha₀) op

/-- The conditions of `clean_shutdown` justify the close. -/
theorem Inv.justified (h : Inv isn r) (hc : r.conn.closes = true)
    (ht : r.conn.timeSinceLastSegmentReceived ≤ r.sinceReceived) : Justified r := by
  unfold closes at hc
  simp only [Bool.and_eq_true, Bool.or_eq_true, Bool.not_eq_true', beq_iff_eq, decide_eq_true_iff]
    at hc
  obtain ⟨⟨⟨hended, hf⟩, hb⟩, hw⟩ := hc
  obtain ⟨-, hcontents, hnext⟩ := h.sends.finished hf
  have huna := h.una_le
  have hadd := h.sends.inv.una_add
  refine ⟨hended, ⟨hcontents, hf, hb⟩, ⟨hnext, by omega⟩, ?_⟩
  rcases hw with hl | hw
  · exact .inr (h.linger hl)
  · exact .inl (Nat.le_trans hw ht)

/-- **A clean close is justified**: in every run, a call after which the connection is inactive, and
before which it was active, with neither stream in error. -/
theorem run_close_justified (cfg : TCPConfig) (random : UInt32) (ops : List ConnOp) (op : ConnOp)
    (hg : Guarded step Allowed (new cfg random) (ops ++ [op]))
    (ha : (exec step (new cfg random) ops).conn.active = true)
    (hi : (exec step (new cfg random) (ops ++ [op])).conn.active = false)
    (hc : (exec step (new cfg random) (ops ++ [op])).conn.Calm) :
    Justified (exec step (new cfg random) (ops ++ [op])) := by
  obtain ⟨hops, hop, -⟩ := guarded_append.1 hg
  have hinv := Guarded.invariant (I := Inv (cfg.fixedIsn.getD ⟨random⟩))
    (fun r op hr hop => hr.step hop) (new_inv cfg random) hops
  rw [exec_concat] at hi hc ⊢
  exact (hinv.step hop).justified (step_closes ha hi hc) (step_time ha (hinv.time ha) op)

/-- An active close: our FIN is acknowledged together with the peer's, and the connection lingers
for ten times the timeout. -/
theorem close_justified_after_lingering :
    (exec step (new {} 0)
      [.connect,
        .segmentReceived { header :=
          { seqno := ⟨5⟩, syn := true, ack := true, ackno := ⟨1⟩, win := 9 } },
        .endInputStream,
        .segmentReceived { header :=
          { seqno := ⟨6⟩, fin := true, ack := true, ackno := ⟨2⟩, win := 9 } },
        .tick 10000]).conn.active = false ∧
    Justified (exec step (new {} 0)
      ([.connect,
        .segmentReceived { header :=
          { seqno := ⟨5⟩, syn := true, ack := true, ackno := ⟨1⟩, win := 9 } },
        .endInputStream,
        .segmentReceived { header :=
          { seqno := ⟨6⟩, fin := true, ack := true, ackno := ⟨2⟩, win := 9 } }]
        ++ [.tick 10000])) :=
  ⟨by decide, run_close_justified {} 0 _ _ (by decide) (by decide) (by decide)
    ⟨by decide, by decide⟩⟩

end CloseRun

end Sponge
