import Sponge.Proof.Acknowledged
import Sponge.Proof.OfficialStates
import Sponge.Proof.PlainSegments
import Sponge.Proof.Retransmission
import Sponge.Proof.Stall

/-!
# Progress of one endpoint

What each part of an endpoint contributes to getting the oldest segment in flight across: the clock
re-sends it (`Connected.resends`), a receiver with an empty buffer takes something new of it
(`Follows.advances`) and answers it (`answer_cases`), and an acknowledgment up to its end takes it
off the sender's list (`Sends.una_lt_ackReceived`).

`Steady` is what this needs of a sender: nothing is left unsent unless the window is used up, the
timeouts fit their type, and the segments kept for re-sending bear no flag but SYN and FIN.
-/

namespace Sponge

open Run

namespace TCPSender

open TCPSegment (lengthInSequenceSpace)

variable {isn : WrappingInt32} {W : List UInt8} {s : TCPSender}

/-! ## The sender's segments and its timeout -/

/-- The timeouts fit the `unsigned int` that holds them. -/
def Timed (s : TCPSender) : Prop := s.rto < 2 ^ 32 ∧ s.initialRetransmissionTimeout < 2 ^ 32

theorem Timed.startTimer (h : Timed s) : Timed s.startTimer := by
  rw [startTimer_eq]
  refine ⟨?_, h.2⟩
  dsimp only
  split
  · exact h.1
  · exact h.2

theorem Timed.fillWindow (h : Timed s) : Timed s.fillWindow :=
  fillWindow_rule (I := Timed) h (fun _ => Timed.startTimer h)
    (fun _ _ hi _ _ _ => Timed.startTimer hi) (fun _ hi _ _ _ => Timed.startTimer hi)

theorem Timed.ackReceived (h : Timed s) (ackno : WrappingInt32) (windowSize : UInt16) :
    Timed (s.ackReceived ackno windowSize) := by
  obtain ⟨-, he⟩ | ⟨t, rest, -, -, he⟩ | ⟨t, rest, -, -, he⟩ :=
    ackReceived_cases s ackno windowSize rfl <;> rw [he]
  · exact h
  · exact h
  · refine Timed.fillWindow ⟨?_, h.2⟩
    unfold ackPopped
    dsimp only
    split
    · exact h.1
    · exact h.2

theorem Timed.tick (h : Timed s) (ms : ℕ) : Timed (s.tick ms) := by
  refine ⟨?_, by rw [(tick_frame s ms).initial]; exact h.2⟩
  obtain ⟨-, he⟩ | ⟨t, rest, -, -, he⟩ := s.tick_cases ms <;> rw [he]
  · exact h.1
  · dsimp only
    split
    · exact Nat.mod_lt _ (by decide)
    · exact h.1

/-- Everything that the recovery needs to know of a sender. -/
structure Steady (isn : WrappingInt32) (s : TCPSender) : Prop where
  unstalled : TCPConnection.Unstalled isn s
  timed : Timed s
  bare : Inv Bare s

/-! ## An acknowledgment of the oldest segment -/

/-- **An acknowledgment past the oldest segment** removes it, whatever window comes with it; one of
everything sent leaves nothing in flight. -/
theorem Sends.una_lt_ackReceived (h : Sends isn W s) (hsmall : s.bytesInFlight ≤ 2 ^ 31)
    {t : TCPSegment} {rest : List TCPSegment} (hl : s.segmentsOutstanding = t :: rest)
    {ackno : WrappingInt32} {a : ℕ} (ha : unwrap ackno s.isn s.nextSeqno = a)
    (hlow : s.una + t.lengthInSequenceSpace ≤ a) (hhigh : a ≤ s.nextSeqno) (windowSize : UInt16) :
    s.una < (s.ackReceived ackno windowSize).una ∧
      (s.ackReceived ackno windowSize).consecutiveRetransmissions = 0 ∧
      (a = s.nextSeqno → (s.ackReceived ackno windowSize).una = s.nextSeqno) := by
  have hnum : ∀ p seg, Carries isn W s.stream.inputEnded p seg → Numbered s.isn p seg := by
    intro p seg hc
    rw [h.data.isn]
    exact hc.seqno
  obtain ⟨hcar, hpos, hend⟩ := h.inv.front hl
  have hadd := h.inv.una_add
  have habs : s.absSeqno t = s.una := absSeqno_eq (hnum _ t hcar) (by omega) (by omega)
  have hgone : s.gone a = t :: rest.takeWhile (s.acked a) := by
    rw [gone, hl, List.takeWhile_cons_of_pos]
    rw [acked_iff, habs]
    omega
  obtain ⟨hnil, -⟩ | ⟨t', rest', hl', hi, -⟩ | ⟨t', rest', -, -, he⟩ :=
    s.ackReceived_cases ackno windowSize ha
  · rw [hl] at hnil
    cases hnil
  · -- the acknowledgment is neither beyond what was sent nor short of the oldest segment
    rw [hl] at hl'
    cases hl'
    rw [ackIgnored_iff, habs] at hi
    omega
  · rw [he, una_fillWindow (h.inv.ackPopped a windowSize), (fillWindow_emitting _).consecutive,
      h.inv.una_ackPopped]
    refine ⟨?_, ?_, fun hall => ?_⟩
    · rw [hgone, totalLength, List.map_cons, List.sum_cons]
      omega
    · show (if s.gone a = [] then s.consecutiveRetransmissions else 0) = 0
      rw [hgone, if_neg (List.cons_ne_nil _ _)]
    · have hkept : s.kept a = [] := by
        refine List.eq_nil_iff_forall_not_mem.2 fun seg hseg => ?_
        have hgt := h.inv.kept_gt hnum hsmall hseg
        have hmem : seg ∈ s.segmentsOutstanding := by
          rw [← gone_append_kept s a]
          exact List.mem_append_right _ hseg
        have := (h.inv.outstanding_at hnum hsmall hmem).2.2
        omega
      have htotal := h.inv.flight_eq
      rw [← gone_append_kept s a, hkept, List.append_nil] at htotal
      omega

end TCPSender

namespace TCPReceiver

open TCPSender (Carries)
open TCPSegment (lengthInSequenceSpace)

variable {isn : WrappingInt32} {W : List UInt8} {r : TCPReceiver} {seg : TCPSegment} {p : ℕ}
  {ended : Bool}

/-! ## What the receiver gains from a segment -/

theorem Follows.absAckno_eq (h : Follows isn W r) (hs : r.synFlag = true) (hW : W.length < 2 ^ 31) :
    r.absAckno = r.reassembler.firstUnassembled + r.ahead := by
  refine h.ack.absAckno_eq hs ?_
  rw [h.ack.inv.bytesWritten_eq]
  exact Nat.lt_of_le_of_lt h.receives.cursor_le hW

/-- Past the cursor by two means that the stream has ended, with all of it. -/
theorem Follows.ended_iff (h : Follows isn W r) (hs : r.synFlag = true) (hW : W.length < 2 ^ 31) :
    r.streamOut.inputEnded = true ↔ r.absAckno = W.length + 2 := by
  have hle := h.receives.cursor_le
  rw [h.absAckno_eq hs hW, h.ack.ahead_eq]
  cases he : r.streamOut.inputEnded with
  | true => simp [h.ends.complete he]
  | false =>
    simp
    omega

/-- The FIN of a segment that starts where the receiver is, or before, does not overtake the last
byte. -/
theorem Follows.lastBeforeFin (h : Follows isn W r) (hW : W.length < 2 ^ 31)
    (hc : Carries isn W ended p seg) (hp : p ≤ r.absAckno) : LastBeforeFin W r seg := by
  intro hfin hnil hs _
  have hlen := (hc.fin hfin).2.2
  have hcursor : W.length ≤ r.reassembler.firstUnassembled := by
    cases he : r.streamOut.inputEnded with
    | true => rw [h.ends.complete he]
    | false =>
      rw [h.absAckno_eq hs hW, h.ack.ahead_eq, he] at hp
      rw [hnil] at hlen
      simp at hp hlen
      omega
  rcases W.eq_nil_or_concat with hW0 | ⟨_, _, hW1⟩
  · exact .inl hW0
  · refine .inr (h.ack.inv.reassembler.below _ ?_)
    have : 0 < W.length := by simp [hW1]
    omega

/-- **A receiver with an empty buffer** takes something new of a segment that starts where it is,
or before, and ends after it. -/
theorem Follows.advances (h : Follows isn W r) (hs : r.synFlag = true) (hW : W.length < 2 ^ 31 - 2)
    (hnil : r.streamOut.contents = []) (hcap : 0 < r.reassembler.capacity)
    (hedge : W.length + r.reassembler.capacity < 2 ^ 64) (hc : Carries isn W ended p seg)
    (hpos : 1 ≤ p) (hp : p ≤ r.absAckno) (hlt : r.absAckno < p + seg.lengthInSequenceSpace) :
    r.absAckno < (r.segmentReceived seg).absAckno := by
  have hlast := hc.last_le (by omega)
  have hend : r.streamOut.inputEnded = false := by
    refine Bool.eq_false_iff.2 fun he => ?_
    have := (h.ended_iff hs (by omega)).1 he
    omega
  have hd : ¬ r.Drops seg := by
    rintro (⟨-, hno⟩ | ⟨heof, -⟩)
    · rw [hs] at hno
      cases hno
    · unfold ByteStream.eof at heof
      rw [hend, Bool.and_false] at heof
      cases heof
  have hcut := TCPReceiver.cut_of_carries hc
  have hsyn : synLength seg = 0 := by
    unfold synLength
    rw [if_neg]
    intro hsyn
    have := (hc.syn hsyn).1
    omega
  have hnext := (h.segmentReceived hcut (by omega) (by omega)
    (h.lastBeforeFin (by omega) hc hp)).1
  have hs' : (r.segmentReceived seg).synFlag = true := by
    rw [segmentReceived_synFlag h.ack.inv, hs]
    rfl
  obtain ⟨-, hpushed⟩ := h.receives.inv.pushed hd
  have hidx := h.receives.indexOf_eq hcut hd (by omega) (by omega) (by omega)
  have hmono := h.ack.inv.cursor_le_pushed hd
  have hcursor := h.receives.cursor_eq
  have hread := h.receives.read_le
  have hwindow : r.reassembler.windowEdge = r.streamOut.bytesRead + r.reassembler.capacity := by
    refine Nat.mod_eq_of_lt ?_
    show r.streamOut.bytesRead + r.reassembler.capacity < 2 ^ 64
    omega
  rw [hnil, List.length_nil, Nat.add_zero] at hcursor
  rw [h.absAckno_eq hs (by omega), h.ack.ahead_eq, hend] at hp hlt ⊢
  rw [hnext.absAckno_eq hs' (by omega)]
  simp only [Bool.false_eq_true, if_false] at hp hlt ⊢
  have hahead := (r.segmentReceived seg).one_le_ahead
  rcases Nat.lt_or_ge (r.reassembler.firstUnassembled + 1) (p + seg.payload.length) with hin | hout
  · -- the byte at the cursor is in the payload
    have hheld := (hpushed.mExist r.reassembler.firstUnassembled).2
      (.inr ⟨by omega, by omega, by omega⟩)
    have hgap : (r.segmentReceived seg).reassembler.mExist
        (r.segmentReceived seg).reassembler.firstUnassembled = false := hpushed.gap
    have hne : r.reassembler.firstUnassembled ≠
        (r.segmentReceived seg).reassembler.firstUnassembled := by
      intro he
      rw [← he, hheld] at hgap
      cases hgap
    omega
  · -- only the FIN is left of the stream
    have hsynf : seg.header.syn = false := by
      refine Bool.eq_false_iff.2 fun hsyn' => ?_
      have := (hc.syn hsyn').1
      omega
    have hfin : seg.header.fin = true := by
      refine Bool.eq_true_of_not_eq_false fun hf => ?_
      unfold lengthInSequenceSpace at hlt
      rw [hsynf, hf] at hlt
      simp at hlt
      omega
    have hlen := (hc.fin hfin).2.2
    have hle := hnext.receives.cursor_le
    have heof : (r.segmentReceived seg).reassembler.isEof = true := by
      rw [hpushed.isEof, hfin, Bool.true_and, decide_eq_true (by omega), Bool.or_true]
    have hempty : (r.segmentReceived seg).reassembler.empty = true := by
      refine hnext.receives.inv.empty_iff.2 fun j k hjk hk => ?_
      refine hnext.receives.inv.reassembler.below j (Nat.lt_of_not_le fun hj => ?_)
      obtain ⟨c, -, hkc⟩ := hnext.receives.inv.reassembler.stored k (by omega) hk
      have := (List.getElem?_eq_some_iff.1 hkc).1
      omega
    have htwo : (r.segmentReceived seg).ahead = 2 := by
      unfold ahead
      rw [heof, hempty]
      rfl
    omega

end TCPReceiver

namespace TCPConnection

open TCPSender (Sends Carries Steady Bare Timed)
open TCPReceiver (Follows)
open TCPSegment (lengthInSequenceSpace)

variable {c : TCPConnection} {isn : WrappingInt32} {W : List UInt8} {seg : TCPSegment}

theorem steady_rule (isn : WrappingInt32) : SenderRule (Steady isn) where
  drain s h := ⟨(unstalled_rule isn).drain s h.unstalled, h.timed, bare_rule.drain s h.bare⟩
  fill s h := ⟨(unstalled_rule isn).fill s h.unstalled, h.timed.fillWindow, bare_rule.fill s h.bare⟩
  endFill s h := ⟨(unstalled_rule isn).endFill s h.unstalled,
    Timed.fillWindow (s := { s with stream := s.stream.endInput }) h.timed,
    bare_rule.endFill s h.bare⟩
  error s h := ⟨(unstalled_rule isn).error s h.unstalled, h.timed, bare_rule.error s h.bare⟩
  empty s h := ⟨(unstalled_rule isn).empty s h.unstalled, h.timed, bare_rule.empty s h.bare⟩
  ack s ackno windowSize h hs := ⟨(unstalled_rule isn).ack s ackno windowSize h.unstalled hs,
    h.timed.ackReceived ackno windowSize, bare_rule.ack s ackno windowSize h.bare hs⟩

theorem step_steady (hb : Base c) (h : Steady isn c.sender) (op : ConnOp) :
    Steady isn (c.step op).sender := by
  refine (steady_rule isn).step hb.syn_of_not_listen h op (fun data _ => ?_) (fun ms _ _ => ?_)
  · exact ⟨unstalled_fill h.unstalled _, Timed.fillWindow
      (s := { c.sender with stream := (c.sender.stream.write data).2 }) h.timed,
      bare_write h.bare data⟩
  · exact ⟨unstalled_tick h.unstalled ms, h.timed.tick ms, h.bare.tick ms⟩

theorem new_steady (cfg : TCPConfig) (random : UInt32) :
    Steady (cfg.fixedIsn.getD ⟨random⟩) (new cfg random).sender :=
  ⟨⟨TCPSender.new_inv _ _ _ _, rfl, fun _ => rfl, nofun⟩,
    ⟨Nat.two_pow_pos 32, Nat.lt_trans cfg.rtTimeout.toNat_lt (by decide)⟩,
    TCPSender.new_inv _ _ _ _⟩

/-! ## Past the handshake -/

/-- The connection is active, knows the peer's SYN, and its own SYN is acknowledged. -/
def Connected (c : TCPConnection) : Prop :=
  c.activeFlag = true ∧ c.receiver.synFlag = true ∧ 0 < c.sender.una

instance (c : TCPConnection) : Decidable c.Connected := inferInstanceAs (Decidable (_ ∧ _ ∧ _))

theorem Connected.not_listen (h : c.Connected) : c.inListen = false := by
  refine Bool.eq_false_iff.2 fun hl => ?_
  have := receiver_syn_of_listen hl
  rw [h.2.1] at this
  cases this

theorem Connected.not_synUnacked (h : c.Connected) : c.synUnacked = false := by
  refine Bool.eq_false_iff.2 fun hu => ?_
  have := (una_eq_zero_of_synUnacked hu).2
  have := h.2.2
  omega

/-- **A segment with the ACK flag** and without RST is always taken and answered. -/
theorem Connected.segmentReceived (h : c.Connected) (hk : seg.header.ack = true)
    (hr : seg.header.rst = false) : c.step (.segmentReceived seg) = sendSenderSegments
      { c with
        timeSinceLastSegmentReceived := 0
        receiver := c.receiver.segmentReceived seg
        sender := answer c.sender seg } := by
  have hrec : Received c seg (c.step (.segmentReceived seg)) := received c seg
  generalize c.step (.segmentReceived seg) = c' at hrec ⊢
  cases hrec with
  | inactive ha => rw [h.1] at ha; cases ha
  | ignored _ hi =>
    rcases hi with ⟨hl, -⟩ | ⟨-, -, hu, -⟩
    · rw [h.not_listen] at hl
      cases hl
    · rw [h.not_synUnacked] at hu
      cases hu
  | opened _ hl => rw [h.not_listen] at hl; cases hl
  | reset _ _ hrst => rw [hr] at hrst; cases hrst
  | simultaneous _ _ _ _ hack | silent _ _ _ hack => rw [hk] at hack; cases hack
  | answered => rfl

/-- **The answer** is one empty segment, or something new of the stream, which is then in
flight. -/
theorem answer_cases (hb : Base c) (hs : Sends isn W c.sender)
    (hl : 0 < seg.lengthInSequenceSpace) :
    (∃ seg₀, (answer c.sender seg).segmentsOut = [seg₀] ∧ seg₀.lengthInSequenceSpace = 0 ∧
        seg₀.header.rst = false) ∨
      (c.sender.nextSeqno < (answer c.sender seg).nextSeqno ∧
        (answer c.sender seg).bytesInFlight ≠ 0) := by
  have hinv := (hs.ackReceived seg.header.ackno seg.header.win).inv
  obtain ⟨gone, kept, new, hold, hout, hqueue, hcase⟩ :=
    c.sender.ackReceived_split seg.header.ackno seg.header.win rfl
  rw [hb.queue, List.nil_append] at hqueue
  unfold answer
  rw [hqueue]
  cases new with
  | nil =>
    left
    rw [if_pos (by simp [hl])]
    unfold TCPSender.sendEmptySegment
    rw [hqueue]
    exact ⟨_, rfl, rfl, rfl⟩
  | cons first rest =>
    right
    rw [if_neg (by simp)]
    rcases hcase with ⟨-, hnil, -⟩ | ⟨hgone, hkept, -, he⟩
    · cases hnil
    · -- the numbers in flight start where those removed end
      have huna := congrArg TCPSender.una he
      rw [TCPSender.una_fillWindow (hs.inv.ackPopped _ _), hs.inv.una_ackPopped, ← hgone] at huna
      have hbefore := hs.inv.una_add
      have hafter := hinv.una_add
      have hpos : 0 < first.lengthInSequenceSpace := by
        obtain ⟨p, -, -, -, hpos⟩ := hinv.laid.mem first (by rw [hout]; simp)
        exact hpos
      rw [hs.inv.flight_eq, hold, TCPSender.totalLength_append] at hbefore
      rw [hinv.flight_eq, hout, TCPSender.totalLength_append] at hafter
      have hnew : TCPSender.totalLength (first :: rest) =
          first.lengthInSequenceSpace + TCPSender.totalLength rest := by
        simp [TCPSender.totalLength]
      rw [hinv.flight_eq, hout, TCPSender.totalLength_append]
      omega

/-- The peer's SYN is known and our own is acknowledged, whatever arrives. -/
theorem Connected.step_segment (h : c.Connected) (hb : Base c) (hk : seg.header.ack = true)
    (hr : seg.header.rst = false) : (c.step (.segmentReceived seg)).receiver.synFlag = true ∧
      0 < (c.step (.segmentReceived seg)).sender.una := by
  rw [h.segmentReceived hk hr, sendSenderSegments_receiver, sendSenderSegments_sender]
  refine ⟨?_, ?_⟩
  · show (c.receiver.segmentReceived seg).synFlag = true
    rw [TCPReceiver.segmentReceived_synFlag hb.receiver, h.2.1]
    rfl
  · show 0 < (answer c.sender seg).una
    rw [una_answer_eq]
    exact Nat.lt_of_lt_of_le h.2.2 (TCPSender.una_le_ackReceived hb.sender _ _)

theorem closes_of_flight (h : c.sender.bytesInFlight ≠ 0) : c.closes = false := by
  unfold closes
  rw [beq_eq_false_iff_ne.2 h, Bool.and_false, Bool.false_and]

/-- An acknowledgment without data, of the numbers below `a`. -/
structure PureAck (isn : WrappingInt32) (a : ℕ) (seg : TCPSegment) : Prop where
  ack : seg.header.ack = true
  rst : seg.header.rst = false
  length : seg.lengthInSequenceSpace = 0
  ackno : seg.header.ackno = wrap a isn

theorem fillFields_pureAck {receiver : TCPReceiver} {isn : WrappingInt32} {W : List UInt8}
    (h : Follows isn W receiver) (hs : receiver.synFlag = true) (hW : W.length < 2 ^ 31)
    (hrst : seg.header.rst = false) (hl : seg.lengthInSequenceSpace = 0) :
    PureAck isn receiver.absAckno (fillFields receiver false seg) := by
  have hackno : receiver.ackno = some receiver.acknoField := by
    unfold TCPReceiver.ackno
    rw [hs]
    rfl
  refine ⟨(fillFields_ack hs false seg).1, by rwa [fillFields_rst_eq],
    by rwa [fillFields_length], ?_⟩
  rw [h.absAckno_eq hs hW, ← h.receives.peer hs, ← h.ack.ackno hs]
  exact (Option.some.inj (hackno.symm.trans (fillFields_ack hs false seg).2)).symm

/-- **A segment that arrives** where the buffer is empty. Either it is acknowledged without data, by
a connection that stays open or has everything; or the connection stays open, and the receiver has
advanced short of the segment's end or the sender has sent something new. -/
theorem Connected.takes {isn isn' : WrappingInt32} {W W' : List UInt8} {ended : Bool} {p : ℕ}
    (h : c.Connected) (hb : Base c) (hs : Sends isn' W' c.sender) (hf : Follows isn W c.receiver)
    (hW : W.length < 2 ^ 31 - 2) (hnil : c.receiver.streamOut.contents = [])
    (hcap : 0 < c.receiver.reassembler.capacity)
    (hedge : W.length + c.receiver.reassembler.capacity < 2 ^ 64) (hc : Carries isn W ended p seg)
    (hpos : 1 ≤ p) (hp : p ≤ c.receiver.absAckno) (hl : 0 < seg.lengthInSequenceSpace)
    (hk : seg.header.ack = true) (hr : seg.header.rst = false) :
    (∃ seg₀, c.emitted (.segmentReceived seg) = [seg₀] ∧
        PureAck isn (c.step (.segmentReceived seg)).receiver.absAckno seg₀ ∧
        p + seg.lengthInSequenceSpace ≤ (c.step (.segmentReceived seg)).receiver.absAckno ∧
        ((c.step (.segmentReceived seg)).Connected ∨
          (c.step (.segmentReceived seg)).receiver.absAckno = W.length + 2)) ∨
      ((c.step (.segmentReceived seg)).Connected ∧
        c.receiver.absAckno ≤ (c.step (.segmentReceived seg)).receiver.absAckno ∧
        c.sender.nextSeqno ≤ (c.step (.segmentReceived seg)).sender.nextSeqno ∧
        (c.receiver.absAckno < (c.step (.segmentReceived seg)).receiver.absAckno ∧
            c.receiver.absAckno < p + seg.lengthInSequenceSpace ∨
          c.sender.nextSeqno < (c.step (.segmentReceived seg)).sender.nextSeqno)) := by
  have hlast := hc.last_le hl
  have hcut := TCPReceiver.cut_of_carries hc
  have hfin := hf.lastBeforeFin (by omega) hc hp
  have hf' := (hf.segmentReceived hcut (by omega) (by omega) hfin).1
  have hfrom : CutFrom isn W (.segmentReceived seg) := ⟨p, by omega, hcut⟩
  have hle : c.receiver.absAckno ≤ (c.step (.segmentReceived seg)).receiver.absAckno :=
    (step_follows hf (by omega) hfrom fun _ _ => hfin).2
  have hadv := hf.advances h.2.1 hW hnil hcap hedge hc hpos hp
  have hnext : c.sender.nextSeqno ≤ (c.step (.segmentReceived seg)).sender.nextSeqno :=
    next_le_step hb hs (notLate_of_writable rfl)
  obtain ⟨hsyn, huna⟩ := h.step_segment hb hk hr
  have hstep := h.segmentReceived hk hr
  have hem := emitted_sends_map hstep rfl hb.rst
  have hreceiver : (c.step (.segmentReceived seg)).receiver = c.receiver.segmentReceived seg := by
    rw [hstep, sendSenderSegments_receiver]
  have hsender : (c.step (.segmentReceived seg)).sender.nextSeqno =
      (answer c.sender seg).nextSeqno := by
    rw [hstep, sendSenderSegments_sender]
  have hactive : closes { c with
      timeSinceLastSegmentReceived := 0
      receiver := c.receiver.segmentReceived seg
      sender := answer c.sender seg } = false → (c.step (.segmentReceived seg)).Connected := by
    intro hopen
    refine ⟨?_, hsyn, huna⟩
    rw [hstep, sendSenderSegments_active, hopen]
    simpa using h.1
  rw [hreceiver] at hem hsyn hle ⊢
  -- a connection that closes has the whole stream
  have hclosed : ¬ (c.receiver.segmentReceived seg).absAckno = W.length + 2 →
      (c.step (.segmentReceived seg)).Connected := by
    intro hno
    refine hactive ?_
    rw [← hf'.ended_iff hsyn (by omega), Bool.not_eq_true] at hno
    have hno : (c.receiver.segmentReceived seg).streamOut.inputEnded = false := hno
    unfold closes
    simp [hno]
  rcases Nat.lt_or_ge (c.receiver.segmentReceived seg).absAckno (p + seg.lengthInSequenceSpace)
    with hshort | hfull
  · exact .inr ⟨hclosed (by omega), hle, hnext, .inl ⟨hadv (by omega), by omega⟩⟩
  · rcases answer_cases hb hs hl with ⟨seg₀, hone, hzero, hrst⟩ | ⟨hnew, hflight⟩
    · refine .inl ⟨_, by rw [hem, hone]; rfl, fillFields_pureAck hf' hsyn (by omega) hrst hzero,
        hfull, ?_⟩
      rcases Classical.em ((c.receiver.segmentReceived seg).absAckno = W.length + 2) with he | hne
      · exact .inr he
      · exact .inl (hclosed hne)
    · exact .inr ⟨hactive (closes_of_flight hflight), hle, hnext, .inr (by rwa [hsender])⟩

/-- The time after which the clock re-sends, whatever has passed. -/
def resendTime (s : TCPSender) : ℕ := s.rto + (2 ^ 64 - s.tickField % 2 ^ 64)

/-- **The clock re-sends** the oldest segment in flight, and changes nothing else that matters. -/
theorem Connected.resends (h : c.Connected) (hb : Base c) (ht : Timed c.sender)
    (hbudget : c.sender.consecutiveRetransmissions < TCPConfig.maxRetxAttempts)
    {t : TCPSegment} {rest : List TCPSegment} (hl : c.sender.segmentsOutstanding = t :: rest) :
    c.emitted (.tick (resendTime c.sender)) = [fillFields c.receiver false t] ∧
      (c.step (.tick (resendTime c.sender))).Connected ∧
      (c.step (.tick (resendTime c.sender))).receiver = c.receiver ∧
      TCPSender.TickFrame c.sender (c.step (.tick (resendTime c.sender))).sender := by
  have hfire : c.sender.rto ≤ (c.sender.tickField + resendTime c.sender) % 2 ^ 64 := by
    have := ht.1
    unfold resendTime
    omega
  obtain ⟨hqueue, hcount⟩ : (c.sender.tick (resendTime c.sender)).segmentsOut = [t] ∧
      (c.sender.tick (resendTime c.sender)).consecutiveRetransmissions ≤
        c.sender.consecutiveRetransmissions + 1 := by
    obtain ⟨hno | hno, -⟩ | ⟨t', rest', hl', -, he⟩ := c.sender.tick_cases (resendTime c.sender)
    · rw [hl] at hno
      cases hno
    · omega
    · obtain ⟨rfl, -⟩ := List.cons.inj (hl.symm.trans hl')
      rw [he, hb.queue]
      refine ⟨rfl, ?_⟩
      dsimp only
      split
      · exact Nat.mod_le _ _
      · exact Nat.le_succ _
  have hframe := TCPSender.tick_frame c.sender (resendTime c.sender)
  obtain ⟨c', hc'⟩ : ∃ c', c.step (.tick (resendTime c.sender)) = c' := ⟨_, rfl⟩
  have hticked : Ticked c (resendTime c.sender) (c.step (.tick (resendTime c.sender))) :=
    ticked c _
  rw [hc'] at hticked
  cases hticked with
  | inactive ha => rw [h.1] at ha; cases ha
  | gaveUp _ hk => omega
  | passed _ hk =>
    rw [emitted_sends_map hc' rfl hb.rst, hc', sendSenderSegments_receiver]
    unfold Connected
    rw [sendSenderSegments_active, sendSenderSegments_receiver, sendSenderSegments_sender]
    have hflight : (c.sender.tick (resendTime c.sender)).bytesInFlight ≠ 0 := by
      rw [hframe.bytesInFlight, Ne, ← hb.sender.outstanding_eq_nil, hl]
      exact List.cons_ne_nil _ _
    refine ⟨by rw [hqueue]; rfl, ⟨by rw [closes_of_flight hflight, h.1]; rfl, h.2.1, ?_⟩, rfl, ?_⟩
    · show 0 < (c.sender.tick (resendTime c.sender)).una
      rw [TCPSender.una_tick]
      exact h.2.2
    · exact ⟨hframe.isn, hframe.stream, hframe.nextSeqno, hframe.bytesInFlight,
        hframe.outstanding, hframe.window, hframe.timerRunning, hframe.synFlag, hframe.finFlag,
        hframe.initial⟩

end TCPConnection

end Sponge
