import Sponge.Proof.Close
import Sponge.Proof.EndOfStream
import Sponge.Proof.FinLast
import Sponge.Proof.Replies
import Sponge.Proof.RightEdge

/-!
# What is acknowledged, received and sent

In each direction of the network three numbers stay in order: the sender's first number in flight,
the receiver's acknowledgment number and the sender's next number (`Acked.una`, `Acked.ackno_le`).
So nothing is taken for acknowledged that has not arrived, and nothing is acknowledged that was not
sent. `Acked` is the invariant: everything emitted lies below the next number, everything the
receiver holds was emitted, and every ACK on its way repeats a number that the receiver has
reached. It is kept by the calls of the sending side (`Acked.sender`) and of the receiving side
(`Acked.receiver`), in every run in which a lone FIN comes after the last byte.
-/

namespace Sponge

open Run

namespace TCPReceiver

variable {r : TCPReceiver} {seg : TCPSegment} {isn : WrappingInt32} {W : List UInt8} {p : ℕ}

/-! ## The receiver of a stream that ends with all of it -/

/-- The receiver of the peer's stream `W`, which ends only with all of it. -/
structure Follows (isn : WrappingInt32) (W : List UInt8) (r : TCPReceiver) : Prop
    extends Tracks isn W r where
  ends : Ends W true r

/-- After the end of the stream, a segment cut from it brings nothing new. -/
theorem Follows.not_reopens (h : Follows isn W r) (hc : Cut isn W p seg) (hp : p < 2 ^ 32 - 1)
    (hW : W.length < 2 ^ 31) : ¬ r.Reopens seg := by
  rintro ⟨hend, heof, k, hk, -, hmiss⟩
  have hsyn := syn_of_ended h.ack.inv hend
  have hd : ¬ r.Drops seg := by
    rintro (⟨-, hnot⟩ | ⟨heof', -⟩)
    · rw [hsyn] at hnot
      cases hnot
    · rw [heof] at heof'
      cases heof'
  obtain ⟨hpos, hbyte⟩ := hc.payload k _ (List.getElem?_eq_getElem hk)
  have hidx := h.receives.indexOf_eq hc hd hpos hp hW
  rw [opened_of_syn hsyn] at hidx
  have hlt := (List.getElem?_eq_some_iff.1 hbyte).1
  rw [← h.ends.complete hend, ← hidx] at hlt
  rw [h.ack.inv.reassembler.below _ hlt] at hmiss
  cases hmiss

/-- **A segment of the stream** keeps this, and takes back no acknowledgment. -/
theorem Follows.segmentReceived (h : Follows isn W r) (hc : Cut isn W p seg) (hp : p < 2 ^ 32 - 1)
    (hW : W.length < 2 ^ 31) (hfin : LastBeforeFin W r seg) :
    Follows isn W (r.segmentReceived seg) ∧ r.absAckno ≤ (r.segmentReceived seg).absAckno := by
  obtain ⟨htracks, hack, -⟩ := h.toTracks.segmentReceived hc hp hW (h.not_reopens hc hp hW)
  exact ⟨⟨htracks, h.ends.segmentReceived h.receives hc hp hW (fun _ => rfl) hfin⟩, hack⟩

theorem Follows.popOutput (h : Follows isn W r) (n : ℕ) : Follows isn W (r.popOutput n) :=
  ⟨(h.toTracks.popOutput n).1, ⟨h.ends.eof, h.ends.complete⟩⟩

theorem Follows.setError (h : Follows isn W r) : Follows isn W { r with reassembler :=
    { r.reassembler with output := r.reassembler.output.setError } } :=
  ⟨h.toTracks.setError, ⟨h.ends.eof, h.ends.complete⟩⟩

end TCPReceiver

namespace TCPSender

open TCPSegment (lengthInSequenceSpace)

variable {isn : WrappingInt32} {W : List UInt8} {n : ℕ} {s : TCPSender}

/-- The sender has reached number `n`, and what it has queued lies below its next number. -/
structure Ranged (isn : WrappingInt32) (W : List UInt8) (n : ℕ) (s : TCPSender) : Prop where
  sends : Sends isn W s
  reached : n ≤ s.nextSeqno
  queued : ∀ seg ∈ s.segmentsOut, ∃ p, p + seg.lengthInSequenceSpace ≤ s.nextSeqno ∧
    Carries isn W s.stream.inputEnded p seg

theorem Sends.ranged (h : Sends isn W s) (hq : s.segmentsOut = []) :
    Ranged isn W s.nextSeqno s := by
  refine ⟨h, Nat.le_refl _, ?_⟩
  rw [hq]
  exact List.forall_mem_nil _

theorem next_le_fillWindow (h : Sends isn W s) : s.nextSeqno ≤ s.fillWindow.nextSeqno := by
  have hflight : totalLength s.segmentsOutstanding ≤
      totalLength s.fillWindow.segmentsOutstanding := by
    obtain ⟨new, -, hout⟩ := fillWindow_pushes s
    rw [hout, totalLength_append]
    exact Nat.le_add_right _ _
  have huna := una_fillWindow h.inv
  have hbefore := h.inv.una_add
  have hafter := h.fillWindow.inv.una_add
  rw [h.inv.flight_eq] at hbefore
  rw [h.fillWindow.inv.flight_eq] at hafter
  omega

theorem Ranged.fillWindow (h : Ranged isn W n s) : Ranged isn W n s.fillWindow := by
  have hle := next_le_fillWindow h.sends
  obtain ⟨new, hqueue, hout⟩ := fillWindow_pushes s
  refine ⟨h.sends.fillWindow, Nat.le_trans h.reached hle, ?_⟩
  intro seg hseg
  rw [hqueue] at hseg
  rcases List.mem_append.1 hseg with hseg | hseg
  · obtain ⟨p, hp, hc⟩ := h.queued seg hseg
    refine ⟨p, by omega, ?_⟩
    rw [fillWindow_inputEnded]
    exact hc
  · -- what is new is outstanding
    have hmem : seg ∈ s.fillWindow.segmentsOutstanding := by
      rw [hout]
      exact List.mem_append_right _ hseg
    obtain ⟨p, -, hp, hc, -⟩ := h.sends.fillWindow.inv.laid.mem seg hmem
    exact ⟨p, hp, hc⟩

theorem Ranged.endInput (h : Ranged isn W n s) :
    Ranged isn W n { s with stream := s.stream.endInput } := by
  refine ⟨h.sends.endInput, h.reached, fun seg hseg => ?_⟩
  obtain ⟨p, hp, hc⟩ := h.queued seg hseg
  exact ⟨p, hp, hc.endInput⟩

theorem Ranged.sendEmptySegment (h : Ranged isn W n s) : Ranged isn W n s.sendEmptySegment := by
  refine ⟨h.sends.sendEmptySegment, h.reached, fun seg hseg => ?_⟩
  rcases List.mem_append.1 hseg with hseg | hseg
  · exact h.queued seg hseg
  · rw [List.mem_singleton.1 hseg]
    exact ⟨s.nextSeqno, Nat.le_refl _, carries_empty h.sends.data.isn _⟩

theorem Ranged.ackReceived (h : Ranged isn W n s) (ackno : WrappingInt32) (windowSize : UInt16) :
    Ranged isn W n (s.ackReceived ackno windowSize) := by
  obtain ⟨-, he⟩ | ⟨t, rest, -, -, he⟩ | ⟨t, rest, -, -, he⟩ :=
    ackReceived_cases s ackno windowSize rfl <;> rw [he]
  · exact ⟨h.sends.ackWindow _ _, h.reached, h.queued⟩
  · exact ⟨h.sends.ackWindow _ _, h.reached, h.queued⟩
  · have hpopped : Ranged isn W n (s.ackPopped (unwrap ackno s.isn s.nextSeqno) windowSize) :=
      ⟨h.sends.ackPopped _ _, h.reached, h.queued⟩
    exact hpopped.fillWindow

/-- A tick can only queue the oldest outstanding segment again. -/
theorem Ranged.tick (h : Ranged isn W n s) (ms : ℕ) : Ranged isn W n (s.tick ms) := by
  have hf := tick_frame s ms
  refine ⟨h.sends.tick ms, by rw [hf.nextSeqno]; exact h.reached, ?_⟩
  rw [hf.nextSeqno, hf.stream]
  obtain ⟨-, he⟩ | ⟨t, rest, hl, -, he⟩ := s.tick_cases ms <;> rw [he]
  · exact h.queued
  · intro seg hseg
    rcases List.mem_append.1 hseg with hseg | hseg
    · exact h.queued seg hseg
    · obtain ⟨hc, -, hend⟩ := h.sends.inv.front hl
      rw [List.mem_singleton.1 hseg]
      exact ⟨s.una, hend, hc⟩

end TCPSender

namespace TCPConnection

open TCPSender (Sends Carries Ranged)

variable {c : TCPConnection} {op : ConnOp} {isn : WrappingInt32} {W : List UInt8} {seg : TCPSegment}

/-! ## What a call emits -/

theorem ranged_rule (isn : WrappingInt32) (W : List UInt8) (n : ℕ) : CallRule (Ranged isn W n) where
  fill _ h := h.fillWindow
  endFill _ h := h.endInput.fillWindow
  error _ h := ⟨h.sends.setError, h.reached, h.queued⟩
  empty _ h := h.sendEmptySegment

/-- A call that sends does so from a connection `x` whose sender has reached at least as far. -/
theorem step_ranged (hb : Base c) (h : Sends isn W c.sender) (hl : c.NotLate op) :
    ((c.step op).sender = c.sender ∧ c.emitted op = []) ∨
      ∃ x : TCPConnection, (c.step op).sender = { x.sender with segmentsOut := [] } ∧
        Ranged isn (W ++ c.accepted op) c.sender.nextSeqno x.sender ∧
        c.emitted op = stamped (c.step op).receiver x.needSendRst x.outgoing := by
  by_cases hwrite : ∃ data, op = .write data
  · obtain ⟨data, rfl⟩ := hwrite
    have hranged := ((sends_write h hl).ranged hb.queue).fillWindow
    obtain ⟨c', hc'⟩ : ∃ c', c.step (.write data) = c' := ⟨_, rfl⟩
    have hcall := called c (.write data)
    rw [hc'] at hcall
    cases hcall with
    | writeNothing => exact .inl ⟨by rw [hc'], emitted_same hc' rfl⟩
    | write data hd =>
      exact .inr ⟨_, by rw [hc', filled, sendSenderSegments_sender], hranged, emitted_sends hc' rfl⟩
  · rw [accepted_of_ne hwrite, List.append_nil]
    have hranged := h.ranged hb.queue
    exact (ranged_rule isn W c.sender.nextSeqno).emits hranged op
      (fun data he => absurd ⟨data, he⟩ hwrite) (fun seg _ _ => hranged.ackReceived _ _)
      (fun ms _ _ => hranged.tick ms)

/-- The next number never goes back. -/
theorem next_le_step (hb : Base c) (h : Sends isn W c.sender) (hl : c.NotLate op) :
    c.sender.nextSeqno ≤ (c.step op).sender.nextSeqno := by
  obtain ⟨hs, -⟩ | ⟨x, hs, hx, -⟩ := step_ranged hb h hl
  · rw [hs]
  · rw [hs]
    exact hx.reached

/-- **What a call emits** lies below the next number. -/
theorem emitted_ranged (hb : Base c) (h : Sends isn W c.sender) (hl : c.NotLate op)
    (hseg : seg ∈ c.emitted op) :
    ∃ p, p + seg.lengthInSequenceSpace ≤ (c.step op).sender.nextSeqno ∧
      Carries isn (W ++ c.accepted op) (c.step op).sender.stream.inputEnded p seg := by
  obtain ⟨-, hnil⟩ | ⟨x, hs, hx, hem⟩ := step_ranged hb h hl
  · rw [hnil] at hseg
    cases hseg
  · rw [hem] at hseg
    obtain ⟨seg₀, hmem, rst, rfl⟩ := mem_stamped hseg
    rw [hs, fillFields_length]
    unfold outgoing at hmem
    split at hmem
    · rw [List.mem_singleton.1 hmem]
      exact ⟨x.sender.nextSeqno, Nat.le_refl _,
        carries_fillFields (TCPSender.carries_empty hx.sends.data.isn _) _ _⟩
    · obtain ⟨p, hp, hc⟩ := hx.queued seg₀ hmem
      exact ⟨p, hp, carries_fillFields hc _ _⟩

/-- A lone FIN finds the last byte of `W` held. -/
def FinAfterLast (W : List UInt8) (c : TCPConnection) : ConnOp → Prop
  | .segmentReceived seg => c.activeFlag = true → seg.header.rst = false →
      TCPReceiver.LastBeforeFin W c.receiver seg
  | _ => True

/-- A call that receives a segment of the peer's stream takes back no acknowledgment. -/
theorem step_follows (h : TCPReceiver.Follows isn W c.receiver) (hW : W.length < 2 ^ 31)
    (hcut : CutFrom isn W op) (hfin : c.FinAfterLast W op) :
    TCPReceiver.Follows isn W (c.step op).receiver ∧
      c.receiver.absAckno ≤ (c.step op).receiver.absAckno := by
  apply step_receiver (I := fun r => TCPReceiver.Follows isn W r ∧ c.receiver.absAckno ≤ r.absAckno)
    ⟨h, Nat.le_refl _⟩
  · intro r hr
    exact ⟨hr.1.setError, hr.2⟩
  · rintro seg rfl ha hrst
    obtain ⟨p, hp, hc⟩ := hcut
    exact h.segmentReceived hc (by omega) hW (hfin ha hrst)
  · intro n _
    exact ⟨h.popOutput n, Nat.le_refl _⟩

end TCPConnection

namespace Endpoint

open TCPConnection
open TCPSender (Sends Carries)
open TCPReceiver (Follows Ends Receives)
open TCPSegment (lengthInSequenceSpace)

/-! ## One direction -/

/-- The direction from `e` to `f`; `isn` is the initial number of `e`. -/
structure Acked (isn : WrappingInt32) (e f : Endpoint) : Prop where
  /-- Everything emitted lies below the next number. -/
  sent : ∀ seg ∈ e.emitted, ∃ p, p + seg.lengthInSequenceSpace ≤ e.conn.sender.nextSeqno ∧
    Carries isn e.written e.conn.sender.stream.inputEnded p seg
  /-- Every ACK emitted repeats a number that the receiver has reached. -/
  acks : ∀ seg ∈ f.emitted, seg.header.ack = true →
    ∃ a ≤ f.conn.receiver.absAckno, seg.header.ackno = wrap a isn
  una : e.conn.sender.una ≤ f.conn.receiver.absAckno
  syn : f.conn.receiver.synFlag = true → 0 < e.conn.sender.nextSeqno
  held : ∀ j, f.conn.receiver.reassembler.mExist j = true → j + 1 < e.conn.sender.nextSeqno
  fin : f.conn.receiver.reassembler.isEof = true →
    e.written.length + 2 ≤ e.conn.sender.nextSeqno
  ack : TCPReceiver.AckInv f.conn.receiver

variable {isn : WrappingInt32} {e f : Endpoint} {op : ConnOp}

theorem new_acked (isn : WrappingInt32) (cfg cfg' : TCPConfig) (random random' : UInt32) :
    Acked isn (new cfg random) (new cfg' random') where
  sent := List.forall_mem_nil _
  acks := List.forall_mem_nil _
  una := Nat.le_refl 0
  syn := nofun
  held := nofun
  fin := nofun
  ack := TCPReceiver.new_ackInv _

/-- **Nothing is acknowledged that was not sent.** -/
theorem Acked.ackno_le (h : Acked isn e f) (hr : Receives isn e.written f.conn.receiver)
    (hsmall : e.written.length < 2 ^ 31) :
    f.conn.receiver.absAckno ≤ e.conn.sender.nextSeqno := by
  have hle := hr.cursor_le
  cases hs : f.conn.receiver.synFlag with
  | false =>
    have hnone : f.conn.receiver.ackno = none := by
      unfold TCPReceiver.ackno
      rw [hs, if_pos rfl]
    rw [TCPReceiver.absAckno, hnone]
    exact Nat.zero_le _
  | true =>
    rw [h.ack.absAckno_eq hs (by rw [h.ack.inv.bytesWritten_eq]; omega)]
    unfold TCPReceiver.ahead
    split
    · rename_i hend
      have := h.fin (Bool.and_eq_true_iff.1 hend).2
      omega
    · have hsyn := h.syn hs
      rcases Nat.eq_zero_or_pos f.conn.receiver.reassembler.firstUnassembled with hzero | hpos
      · omega
      · have hlast := h.held (f.conn.receiver.reassembler.firstUnassembled - 1)
          (hr.inv.reassembler.below _ (by omega))
        omega

/-- The bytes taken for acknowledged are below the cursor. -/
theorem Acked.taken (h : Acked isn e f) (hr : Receives isn e.written f.conn.receiver) {ended : Bool}
    (hends : Ends e.written ended f.conn.receiver) (hsmall : e.written.length < 2 ^ 31) :
    e.written.take (e.conn.sender.una - 1) <+:
      e.written.take f.conn.receiver.reassembler.firstUnassembled := by
  have huna := h.una
  have hle := hr.cursor_le
  cases hs : f.conn.receiver.synFlag with
  | false =>
    have hzero : f.conn.receiver.absAckno = 0 := by
      unfold TCPReceiver.absAckno TCPReceiver.ackno
      rw [hs]
      rfl
    rw [show e.conn.sender.una - 1 = 0 by omega, List.take_zero]
    exact List.nil_prefix
  | true =>
    rw [h.ack.absAckno_eq hs (by rw [h.ack.inv.bytesWritten_eq]; omega), h.ack.ahead_eq] at huna
    cases he : f.conn.receiver.streamOut.inputEnded with
    | true =>
      rw [hends.complete he, List.take_length]
      exact List.take_prefix _ _
    | false =>
      rw [he] at huna
      exact List.take_prefix_take_left (by simp at huna; omega)

/-- The number that an ACK on its way repeats is what the sender reads in it. -/
theorem Acked.unwrap_ackno (h : Acked isn e f) (hr : Receives isn e.written f.conn.receiver)
    (hs : Sends isn e.written e.conn.sender) (hsmall : e.written.length < 2 ^ 31 - 2)
    {a : ℕ} (ha : a ≤ f.conn.receiver.absAckno) :
    unwrap (wrap a isn) e.conn.sender.isn e.conn.sender.nextSeqno = a := by
  have hle := h.ackno_le hr (by omega)
  have hnext := next_le hs
  rw [hs.data.isn]
  exact unwrap_wrap_le (by omega) (by omega)

theorem segmentsOut_eq (h : e.conn.segmentsOut = []) :
    (e.conn.step op).segmentsOut = e.conn.emitted op := by
  rw [TCPConnection.emitted, h]
  rfl

/-- **A call of the sending side** that receives, if anything, what the other side emitted. -/
theorem Acked.sender (h : Acked isn e f) (hout : Outbound isn e)
    (hr : Receives isn e.written f.conn.receiver)
    (hends : Ends e.written e.conn.sender.stream.inputEnded f.conn.receiver)
    (hsmall : e.written.length < 2 ^ 31 - 2) (hw : e.conn.writable op = true)
    (hseg : ∀ seg, op = .segmentReceived seg → seg ∈ f.emitted) : Acked isn (e.call op) f := by
  have hl := notLate_of_writable hw
  have hle : e.conn.sender.nextSeqno ≤ (e.call op).conn.sender.nextSeqno :=
    next_le_step hout.base hout.sends hl
  refine ⟨?_, h.acks, ?_, ?_, ?_, ?_, h.ack⟩
  · intro seg hmem
    have hmem : seg ∈ e.emitted ++ (e.conn.step op).segmentsOut := hmem
    rw [segmentsOut_eq hout.drained] at hmem
    rcases List.mem_append.1 hmem with hold | hnew
    · obtain ⟨p, hp, hc⟩ := h.sent seg hold
      exact ⟨p, by omega, step_carries hl hc⟩
    · exact emitted_ranged hout.base hout.sends hl hnew
  · -- only an ACK raises the first number in flight, to at most the number it repeats
    have hnext := next_le hout.sends
    have hflight := hout.base.sender.flight_le
    refine Nat.le_trans (step_una hout.base (by omega) h.una op) ?_
    cases op with
    | segmentReceived seg =>
      unfold ackedAfter
      dsimp only
      split
      · rename_i hack
        obtain ⟨a, ha, he⟩ := h.acks seg (hseg seg rfl) hack.1
        rw [he, h.unwrap_ackno hr hout.sends hsmall ha]
        exact Nat.max_le.2 ⟨Nat.le_refl _, ha⟩
      · exact Nat.le_refl _
    | connect | write | endInputStream | tick | read | popSegment => exact Nat.le_refl _
  · intro hs
    exact Nat.lt_of_lt_of_le (h.syn hs) hle
  · intro j hj
    exact Nat.lt_of_lt_of_le (h.held j hj) hle
  · intro heof
    -- the stream has ended, so that nothing more is written
    have hended := (hends.eof heof).1
    have hnone : e.conn.accepted op = [] := by
      apply accepted_of_ne
      rintro ⟨data, rfl⟩
      rw [inputEnded_of_writable hw] at hended
      cases hended
    have hwritten : (e.call op).written = e.written := by
      show e.written ++ e.conn.accepted op = e.written
      rw [hnone, List.append_nil]
    rw [hwritten]
    exact Nat.le_trans (h.fin heof) hle

/-- A segment that arrives brings only what was sent. -/
theorem Acked.segment (h : Acked isn e f) (hr : Receives isn e.written f.conn.receiver)
    (hsmall : e.written.length < 2 ^ 31 - 2) {seg : TCPSegment} (hseg : seg ∈ e.emitted)
    (hs : Sends isn e.written e.conn.sender) :
    ((f.conn.receiver.segmentReceived seg).synFlag = true → 0 < e.conn.sender.nextSeqno) ∧
      (∀ j, (f.conn.receiver.segmentReceived seg).reassembler.mExist j = true →
        j + 1 < e.conn.sender.nextSeqno) ∧
      ((f.conn.receiver.segmentReceived seg).reassembler.isEof = true →
        e.written.length + 2 ≤ e.conn.sender.nextSeqno) := by
  obtain ⟨p, hp, hc⟩ := h.sent seg hseg
  have hnext := next_le hs
  have hcut := TCPReceiver.cut_of_carries hc
  refine ⟨?_, ?_, ?_⟩
  · rw [TCPReceiver.segmentReceived_synFlag hr.inv, Bool.or_eq_true]
    rintro (hsyn | hsyn)
    · exact h.syn hsyn
    · have := syn_pos hsyn
      omega
  · intro j hj
    by_cases hd : f.conn.receiver.Drops seg
    · rw [TCPReceiver.segmentReceived_of_drops hd] at hj
      exact h.held j hj
    · rcases ((hr.inv.pushed hd).2.mExist j).1 hj with hold | ⟨hfrom, hto, -⟩
      · exact h.held j hold
      · have hk : 0 < seg.payload.length := by omega
        have hpos := (hcut.payload 0 _ (List.getElem?_eq_getElem hk)).1
        rw [hr.indexOf_eq hcut hd hpos (by omega) (by omega)] at hfrom hto
        have hlen : TCPReceiver.synLength seg + seg.payload.length ≤ seg.lengthInSequenceSpace := by
          unfold TCPReceiver.synLength lengthInSequenceSpace
          omega
        omega
  · intro heof
    by_cases hd : f.conn.receiver.Drops seg
    · rw [TCPReceiver.segmentReceived_of_drops hd] at heof
      exact h.fin heof
    · rw [(hr.inv.pushed hd).2.isEof, Bool.or_eq_true, Bool.and_eq_true] at heof
      rcases heof with hold | ⟨hfin, -⟩
      · exact h.fin hold
      · have := hc.fin_last hfin
        omega

/-- **A call of the receiving side** that receives, if anything, what the sending side emitted. -/
theorem Acked.receiver (h : Acked isn e f) (hsends : Sends isn e.written e.conn.sender)
    (hr : Receives isn e.written f.conn.receiver) (hends : Ends e.written true f.conn.receiver)
    (hb : Base f.conn) (hdrained : f.conn.segmentsOut = [])
    (hplain : TCPSender.Inv Plain f.conn.sender) (hsmall : e.written.length < 2 ^ 31 - 2)
    (hseg : ∀ seg, op = .segmentReceived seg → seg ∈ e.emitted)
    (hfin : f.conn.FinAfterLast e.written op) : Acked isn e (f.call op) := by
  have hfollows : Follows isn e.written f.conn.receiver := ⟨⟨h.ack, hr⟩, hends⟩
  have hcut : CutFrom isn e.written op := by
    cases op with
    | segmentReceived seg =>
      obtain ⟨p, hp, hc⟩ := h.sent seg (hseg seg rfl)
      have := next_le hsends
      exact ⟨p, by omega, TCPReceiver.cut_of_carries hc⟩
    | connect | write | endInputStream | tick | read | popSegment => trivial
  obtain ⟨hafter, hle⟩ := step_follows hfollows (by omega) hcut hfin
  have hbounds : ((f.conn.step op).receiver.synFlag = true → 0 < e.conn.sender.nextSeqno) ∧
      (∀ j, (f.conn.step op).receiver.reassembler.mExist j = true →
        j + 1 < e.conn.sender.nextSeqno) ∧
      ((f.conn.step op).receiver.reassembler.isEof = true →
        e.written.length + 2 ≤ e.conn.sender.nextSeqno) :=
    step_receiver (I := fun r => (r.synFlag = true → 0 < e.conn.sender.nextSeqno) ∧
        (∀ j, r.reassembler.mExist j = true → j + 1 < e.conn.sender.nextSeqno) ∧
        (r.reassembler.isEof = true → e.written.length + 2 ≤ e.conn.sender.nextSeqno))
      ⟨h.syn, h.held, h.fin⟩ op (fun _ hb => hb)
      (fun seg hs _ _ => h.segment hr hsmall (hseg seg hs) hsends)
      (fun _ _ => ⟨h.syn, h.held, h.fin⟩)
  refine ⟨h.sent, ?_, Nat.le_trans h.una hle, hbounds.1, hbounds.2.1, hbounds.2.2, hafter.ack⟩
  intro seg hmem hack
  have hmem : seg ∈ f.emitted ++ (f.conn.step op).segmentsOut := hmem
  rw [segmentsOut_eq hdrained] at hmem
  rcases List.mem_append.1 hmem with hold | hnew
  · obtain ⟨a, ha, he⟩ := h.acks seg hold hack
    exact ⟨a, Nat.le_trans ha hle, he⟩
  · obtain ⟨hsyn, hackno, -⟩ := emitted_ack hb hplain hnew hack
    have hcursor := hafter.receives.cursor_le
    refine ⟨(f.conn.step op).receiver.absAckno, Nat.le_refl _, ?_⟩
    rw [hackno, hafter.ack.ackno hsyn, hafter.receives.peer hsyn, hafter.ack.absAckno_eq hsyn]
    rw [hafter.ack.inv.bytesWritten_eq]
    omega

end Endpoint

namespace Network

open Endpoint
open TCPConnection (Plain)

variable {isn : Side → WrappingInt32} {net : Network} {op : NetOp}

/-! ## The network -/

/-- Everything that holds of the network while no lone FIN overtakes the last byte. -/
structure Synced (isn : Side → WrappingInt32) (net : Network) : Prop where
  inv : Inv isn net
  ends : net.EndInv
  plain : ∀ x, TCPSender.Inv Plain (net x).conn.sender
  acked : ∀ x, Acked (isn x) (net x) (net x.other)

theorem new_synced (cfg : Side → TCPConfig) (random : Side → UInt32) :
    Synced (isns cfg random) (new cfg random) where
  inv := new_inv cfg random
  ends _ := TCPReceiver.new_ends _ _
  plain _ := TCPSender.new_inv _ _ _ _
  acked _ := new_acked _ _ _ _ _

/-- **A step** in which no lone FIN overtakes the last byte. -/
theorem Synced.step (h : Synced isn net) (hop : net.Allowed op) (hfin : net.FinInOrder op) :
    Synced isn (net.step op) := by
  have hinv := h.inv.step hop
  have hends := h.ends.step h.inv hop hfin
  obtain hs | ⟨x, cop, hs, hwrite, hseg⟩ := net.step_cases op
  · rw [hs]
    exact h
  · have hout := h.inv.outbound x
    have hmem : ∀ seg, cop = .segmentReceived seg → seg ∈ (net x.other).emitted := by
      intro seg he
      obtain ⟨i, -, hi⟩ := hseg seg he
      exact List.mem_of_getElem? hi
    have hlast : (net x).conn.FinAfterLast (net x.other).written cop := by
      cases cop with
      | segmentReceived seg =>
        obtain ⟨i, rfl, hi⟩ := hseg seg rfl
        have hfin : net.InOrder x (net x.other).emitted[i]? := hfin
        rw [hi] at hfin
        exact hfin
      | connect | write | endInputStream | tick | read | popSegment => trivial
    refine ⟨hinv, hends, ?_, ?_⟩
    · rw [hs]
      refine (Side.forall_iff x).2 ⟨?_, ?_⟩
      · rw [Function.update_self]
        exact TCPConnection.step_plain hout.base (h.plain x) cop
      · rw [Function.update_of_ne x.other_ne]
        exact h.plain x.other
    · rw [hs]
      have hother := h.acked x.other
      have hends' := h.ends x
      rw [Side.other_other] at hother
      refine (Side.forall_iff x).2 ⟨?_, ?_⟩
      · have hin := h.inv.inbound x.other
        have hend := h.ends x.other
        rw [Side.other_other] at hin hend
        rw [Function.update_self, Function.update_of_ne x.other_ne]
        exact (h.acked x).sender hout hin.receives hend (h.inv.small x) (hwrite hop.1) hmem
      · rw [Side.other_other, Function.update_self, Function.update_of_ne x.other_ne]
        exact hother.receiver (h.inv.outbound x.other).sends (h.inv.inbound x).receives
          ⟨fun he => ⟨rfl, (hends'.eof he).2⟩, hends'.complete⟩ hout.base hout.drained (h.plain x)
          (h.inv.small x.other) hmem hlast

theorem run_synced (cfg : Side → TCPConfig) (random : Side → UInt32) (ops : List NetOp)
    (hops : Guarded step (fun net op => net.Allowed op ∧ net.FinInOrder op) (new cfg random) ops) :
    Synced (isns cfg random) (exec step (new cfg random) ops) :=
  Guarded.invariant (I := Synced (isns cfg random)) (fun _ _ h hop => h.step hop.1 hop.2)
    (new_synced cfg random) hops

/-- **Acknowledged means received**: in every run in which nobody writes after `end_input_stream`,
each side writes less than `2 ^ 31 - 2` bytes (`Allowed`) and no lone FIN overtakes the last byte
(`FinInOrder`), the first number in flight, the number that the other side acknowledges and the next
number are in this order, and the bytes that the sender takes for acknowledged have been read or are
buffered on the other side. -/
theorem run_acknowledged (cfg : Side → TCPConfig) (random : Side → UInt32) (ops : List NetOp)
    (hops : Guarded step (fun net op => net.Allowed op ∧ net.FinInOrder op) (new cfg random) ops)
    (x : Side) :
    (exec step (new cfg random) ops x).conn.sender.una ≤
        (exec step (new cfg random) ops x.other).conn.receiver.absAckno ∧
      (exec step (new cfg random) ops x.other).conn.receiver.absAckno ≤
        (exec step (new cfg random) ops x).conn.sender.nextSeqno ∧
      (exec step (new cfg random) ops x).written.take
          ((exec step (new cfg random) ops x).conn.sender.una - 1) <+:
        (exec step (new cfg random) ops x.other).popped ++
          (exec step (new cfg random) ops x.other).conn.inboundStream.contents := by
  have h := run_synced cfg random ops hops
  generalize exec step (new cfg random) ops = net at h
  have hsmall := h.inv.small x
  have hin := h.inv.inbound x.other
  have hends := h.ends x.other
  rw [Side.other_other] at hin hends
  have hacked := h.acked x
  refine ⟨hacked.una, hacked.ackno_le hin.receives (by omega), ?_⟩
  have hbuffered : (net x.other).popped ++ (net x.other).conn.inboundStream.contents =
      (net x).written.take (net x.other).conn.receiver.reassembler.firstUnassembled := by
    have hcontents : (net x.other).conn.inboundStream.contents = _ := hin.receives.contents_eq
    rw [hin.popped, hcontents, hin.receives.cursor_eq, List.take_add]
    rfl
  rw [hbuffered]
  exact hacked.taken hin.receives hends (by omega)

/-- Two bytes are sent in two segments, and only the first is acknowledged. -/
theorem acknowledged_of_session :
    1 < (exec step (new (fun _ => {}) (fun _ => 0))
      [.app .a .connect, .deliver .b 0, .deliver .a 0, .deliver .b 1, .app .a (.write [97]),
        .app .a (.write [98]), .deliver .b 2, .deliver .a 1] .a).conn.sender.una ∧
    (exec step (new (fun _ => {}) (fun _ => 0))
      [.app .a .connect, .deliver .b 0, .deliver .a 0, .deliver .b 1, .app .a (.write [97]),
        .app .a (.write [98]), .deliver .b 2, .deliver .a 1] .a).written.take
        ((exec step (new (fun _ => {}) (fun _ => 0))
          [.app .a .connect, .deliver .b 0, .deliver .a 0, .deliver .b 1, .app .a (.write [97]),
            .app .a (.write [98]), .deliver .b 2, .deliver .a 1] .a).conn.sender.una - 1) <+:
      (exec step (new (fun _ => {}) (fun _ => 0))
        [.app .a .connect, .deliver .b 0, .deliver .a 0, .deliver .b 1, .app .a (.write [97]),
          .app .a (.write [98]), .deliver .b 2, .deliver .a 1] Side.a.other).popped ++
        (exec step (new (fun _ => {}) (fun _ => 0))
          [.app .a .connect, .deliver .b 0, .deliver .a 0, .deliver .b 1, .app .a (.write [97]),
            .app .a (.write [98]), .deliver .b 2, .deliver .a 1]
          Side.a.other).conn.inboundStream.contents :=
  ⟨by decide +kernel, (run_acknowledged (fun _ => {}) (fun _ => 0)
    [.app .a .connect, .deliver .b 0, .deliver .a 0, .deliver .b 1, .app .a (.write [97]),
      .app .a (.write [98]), .deliver .b 2, .deliver .a 1] (by decide +kernel) .a).2.2⟩

end Network

end Sponge
