import Sponge.TCPState
import Sponge.Proof.Close

/-!
# The official states

The state of a connection is official (`Official`) if `state()` is one of the twelve states of the
TCP specification. For a connection without errors this comes down to `Consistent`, that nothing is
acknowledged before the peer's SYN is known and the inbound stream does not end before our SYN is
acknowledged, and to the shutdown's decision being up to date (`official_iff`). Every send path
takes that decision, so only a received segment can lead to another state; `Conforms` says which
segments do not. `run_official_iff`: the runs that stay in the official states are exactly those in
which every received segment conforms.
-/

namespace Sponge

open Run

/-! ## The table -/

namespace TCPState

/-- The combinations that are official states, by the receiver's summary. -/
def isOfficial (t : TCPState) : Bool :=
  match t.receiver, t.sender with
  | .listen, .closed | .listen, .synSent => t.active && t.lingerAfterStreamsFinish
  | .synRecv, .synSent | .synRecv, .synAcked | .synRecv, .finSent | .synRecv, .finAcked =>
    t.active && t.lingerAfterStreamsFinish
  | .finRecv, .synAcked => t.active && !t.lingerAfterStreamsFinish
  | .finRecv, .finSent => t.active
  | .finRecv, .finAcked => t.active == t.lingerAfterStreamsFinish
  | .error, .error => !t.active && !t.lingerAfterStreamsFinish
  | _, _ => false

theorem isOfficial_ofState (s : State) : (ofState s).isOfficial = true := by
  cases s <;> rfl

theorem exists_ofState_of_isOfficial {t : TCPState} (h : t.isOfficial = true) :
    ∃ s, t = ofState s := by
  obtain ⟨sender, receiver, active, linger⟩ := t
  cases sender <;> cases receiver <;> cases active <;> cases linger <;>
    first
    | exact absurd h (by decide)
    | exact ⟨.listen, rfl⟩
    | exact ⟨.synRcvd, rfl⟩
    | exact ⟨.synSent, rfl⟩
    | exact ⟨.established, rfl⟩
    | exact ⟨.closeWait, rfl⟩
    | exact ⟨.lastAck, rfl⟩
    | exact ⟨.finWait1, rfl⟩
    | exact ⟨.finWait2, rfl⟩
    | exact ⟨.closing, rfl⟩
    | exact ⟨.timeWait, rfl⟩
    | exact ⟨.closed, rfl⟩
    | exact ⟨.reset, rfl⟩

theorem isOfficial_iff (t : TCPState) : t.isOfficial = true ↔ ∃ s, t = ofState s := by
  refine ⟨exists_ofState_of_isOfficial, fun h => ?_⟩
  obtain ⟨s, rfl⟩ := h
  exact isOfficial_ofState s

/-! ## The summaries -/

open TCPSender (Sends)

variable {isn : WrappingInt32} {W : List UInt8} {s : TCPSender}

/-- The FIN has been sent exactly if the counters say so. -/
theorem finFlag_iff (h : Sends isn W s) : s.finFlag = true ↔
    s.stream.eof = true ∧ s.stream.bytesWritten + 2 ≤ s.nextSeqno := by
  have hw := h.data.written
  constructor
  · intro hf
    obtain ⟨-, -, hnext⟩ := h.finished hf
    exact ⟨h.data.counts.fin hf, by omega⟩
  · intro hle
    refine Bool.eq_true_of_not_eq_false fun hf => ?_
    have hlen := h.data.bytesRead_le
    have hnext := h.data.counts.next
    have := hle.2
    rw [hf] at hnext
    simp only [Bool.false_eq_true, ↓reduceIte] at hnext
    split at hnext <;> omega

/-- The sender's summary, by the first number in flight and the flags. -/
theorem senderSummary_eq (h : Sends isn W s) (he : s.stream.error = false) : senderSummary s =
    if s.nextSeqno = 0 then .closed else if s.una = 0 then .synSent
    else if s.finFlag = false then .synAcked else if s.bytesInFlight ≠ 0 then .finSent
    else .finAcked := by
  have hfin := finFlag_iff h
  have huna := h.inv.una_add
  have hiff : s.nextSeqno = s.bytesInFlight ↔ s.una = 0 := by omega
  unfold senderSummary
  rw [he, if_neg (by decide)]
  simp only [hiff]
  cases hf : s.finFlag with
  | true =>
    obtain ⟨h1, h2⟩ := hfin.1 hf
    simp only [h1, reduceCtorEq, ↓reduceIte]
    rw [if_neg (Nat.not_lt.2 h2)]
  | false =>
    have hnot : ¬ (s.stream.eof = true ∧ s.stream.bytesWritten + 2 ≤ s.nextSeqno) := by
      rw [← hfin, hf]
      decide
    cases heof : s.stream.eof with
    | false => simp
    | true =>
      have hlt : s.nextSeqno < s.stream.bytesWritten + 2 :=
        Nat.lt_of_not_le fun hle => hnot ⟨heof, hle⟩
      simp [hlt]

theorem receiverSummary_eq {r : TCPReceiver} (he : r.streamOut.error = false) : receiverSummary r =
    if r.synFlag = false then .listen else if r.streamOut.inputEnded = true then .finRecv
    else .synRecv := by
  unfold receiverSummary TCPReceiver.ackno
  rw [he, if_neg (by decide)]
  cases r.synFlag <;> rfl

end TCPState

namespace TCPConnection

open TCPSender (Sends)

variable {isn : WrappingInt32} {c : TCPConnection} {op : ConnOp} {seg : TCPSegment}

/-! ## The invariant -/

/-- `state()` is one of the official states. -/
def Official (c : TCPConnection) : Prop := ∃ s, c.state = TCPState.ofState s

/-- What every run keeps, official states or not. -/
structure StateInv (isn : WrappingInt32) (c : TCPConnection) : Prop where
  base : Base c
  sends : ∃ W, Sends isn W c.sender
  calm : c.Calm ∨ c.IsReset
  linger : c.lingerAfterStreamsFinish = false → c.inboundStream.inputEnded = true
  closed : c.activeFlag = false → c.Calm →
    c.inboundStream.inputEnded = true ∧ c.sender.finFlag = true ∧ c.sender.bytesInFlight = 0

/-- Nothing is acknowledged before the peer's SYN is known, and the inbound stream does not end
before our SYN is acknowledged. -/
def Consistent (c : TCPConnection) : Prop :=
  (c.receiver.synFlag = false → c.sender.una = 0) ∧
    (c.inboundStream.inputEnded = true → 0 < c.sender.una)

/-- The decision of `clean_shutdown` is up to date. -/
def Decided (c : TCPConnection) : Prop :=
  c.activeFlag = true → c.inboundStream.inputEnded = true →
    (c.sender.finFlag = false → c.lingerAfterStreamsFinish = false) ∧
      (c.sender.finFlag = true → c.sender.bytesInFlight = 0 → c.lingerAfterStreamsFinish = true)

/-- Without the peer's SYN the inbound stream has not ended. -/
theorem StateInv.not_ended (h : StateInv isn c) (hs : c.receiver.synFlag = false) :
    c.inboundStream.inputEnded = false := by
  refine Bool.eq_false_iff.2 fun he => ?_
  have := h.base.receiver.ended he
  rw [(h.base.receiver.fresh hs).1] at this
  cases this

theorem StateInv.active_of_not_ended (h : StateInv isn c) (hc : c.Calm)
    (he : c.inboundStream.inputEnded = false) :
    c.activeFlag = true ∧ c.lingerAfterStreamsFinish = true := by
  refine ⟨Bool.eq_true_of_not_eq_false fun ha => ?_, Bool.eq_true_of_not_eq_false fun hl => ?_⟩
  · have := (h.closed ha hc).1
    rw [he] at this
    cases this
  · have := h.linger hl
    rw [he] at this
    cases this

theorem StateInv.state_eq (h : StateInv isn c) (hc : c.Calm) : c.state =
    { sender := if c.sender.nextSeqno = 0 then .closed else if c.sender.una = 0 then .synSent
        else if c.sender.finFlag = false then .synAcked
        else if c.sender.bytesInFlight ≠ 0 then .finSent else .finAcked
      receiver := if c.receiver.synFlag = false then .listen
        else if c.inboundStream.inputEnded = true then .finRecv else .synRecv
      active := c.activeFlag
      lingerAfterStreamsFinish :=
        if c.activeFlag then c.lingerAfterStreamsFinish else false } := by
  obtain ⟨W, hw⟩ := h.sends
  unfold state TCPState.ofParts
  rw [TCPState.senderSummary_eq hw hc.1, TCPState.receiverSummary_eq hc.2]
  rfl

/-- **The official states** of a connection without errors. -/
theorem StateInv.official_iff (h : StateInv isn c) (hc : c.Calm) :
    c.Official ↔ c.Consistent ∧ c.Decided := by
  have hadd := h.base.sender.una_add
  unfold Official
  rw [← TCPState.isOfficial_iff, h.state_eq hc]
  unfold Consistent Decided
  cases hs : c.receiver.synFlag with
  | false =>
    have he := h.not_ended hs
    obtain ⟨ha, hl⟩ := h.active_of_not_ended hc he
    simp only [he, ha, hl, ↓reduceIte, TCPState.isOfficial]
    by_cases hn : c.sender.nextSeqno = 0
    · have hu : c.sender.una = 0 := by omega
      simp [hn, hu]
    · by_cases hu : c.sender.una = 0
      · simp [hn, hu]
      · cases c.sender.finFlag <;> by_cases hb : c.sender.bytesInFlight = 0 <;> simp [hn, hu, hb]
  | true =>
    have hn : c.sender.nextSeqno ≠ 0 :=
      Nat.ne_of_gt (h.base.sender.syn.1 (h.base.link hs))
    cases he : c.inboundStream.inputEnded with
    | false =>
      obtain ⟨ha, hl⟩ := h.active_of_not_ended hc he
      simp only [ha, hl, hn, ↓reduceIte, TCPState.isOfficial]
      cases c.sender.finFlag <;> by_cases hu : c.sender.una = 0 <;>
        by_cases hb : c.sender.bytesInFlight = 0 <;> simp [hu, hb]
    | true =>
      simp only [hn, ↓reduceIte, TCPState.isOfficial]
      cases ha : c.activeFlag with
      | false =>
        obtain ⟨-, hf, hb⟩ := h.closed ha hc
        have hu : c.sender.una ≠ 0 := by omega
        simp [hf, hb, hu, Nat.pos_of_ne_zero hu]
      | true =>
        by_cases hu : c.sender.una = 0
        · simp [hu]
        · cases c.sender.finFlag <;> by_cases hb : c.sender.bytesInFlight = 0 <;>
            cases c.lingerAfterStreamsFinish <;> simp [hu, hb, Nat.pos_of_ne_zero hu]

/-! ## Every call keeps the invariant -/

/-- The sender has sent its FIN, and everything is acknowledged. -/
def Finished (isn : WrappingInt32) (W : List UInt8) (s : TCPSender) : Prop :=
  Sends isn W s ∧ s.finFlag = true ∧ s.bytesInFlight = 0

theorem Finished.fillWindow {W : List UInt8} {s : TCPSender} (h : Finished isn W s) :
    s.fillWindow = s := by
  obtain ⟨hsyn, hc, -⟩ := h.1.finished h.2.1
  have hsize : s.stream.bufferSize = 0 := by rw [ByteStream.bufferSize_eq, hc, List.length_nil]
  unfold TCPSender.fillWindow
  rw [if_neg (by rw [hsyn]; decide), hsize]
  dsimp only [TCPSender.fillLoop]
  rw [if_neg (by rw [h.2.1]; simp)]

theorem finished_rule (isn : WrappingInt32) (W : List UInt8) : SenderRule (Finished isn W) where
  drain s h := ⟨(sends_rule isn W).drain s h.1, h.2⟩
  fill s h := by rw [h.fillWindow]; exact h
  endFill s h := by
    have h' : Finished isn W { s with stream := s.stream.endInput } := ⟨h.1.endInput, h.2⟩
    rw [h'.fillWindow]
    exact h'
  error s h := ⟨h.1.setError, h.2⟩
  empty s h := ⟨h.1.sendEmptySegment, h.2⟩
  ack s ackno windowSize h _ := by
    have hnil := h.1.inv.outstanding_eq_nil.2 h.2.2
    refine ⟨h.1.ackReceived ackno windowSize, ?_⟩
    obtain ⟨-, he⟩ | ⟨t, rest, hl, -⟩ | ⟨t, rest, hl, -⟩ :=
      TCPSender.ackReceived_cases s ackno windowSize rfl
    · rw [he]
      exact h.2
    · rw [hnil] at hl
      cases hl
    · rw [hnil] at hl
      cases hl

/-- An inactive connection without errors stays finished. -/
theorem StateInv.step_finished (h : StateInv isn c) (ha : c.activeFlag = false) (hc : c.Calm)
    (hw : c.writable op = true) :
    (c.step op).sender.finFlag = true ∧ (c.step op).sender.bytesInFlight = 0 := by
  obtain ⟨-, hf, hb⟩ := h.closed ha hc
  obtain ⟨W, hsends⟩ := h.sends
  refine ((finished_rule isn W).step h.base.syn_of_not_listen ⟨hsends, hf, hb⟩ op
    (fun data he => ?_)
    fun ms _ ha' => ?_).2
  · rw [he] at hw
    have := ((ByteStream.eof_iff _).1 (hsends.data.counts.fin hf)).2
    rw [inputEnded_of_writable hw] at this
    cases this
  · rw [ha] at ha'
    cases ha'

/-- **Every call** that does not write after the end keeps the invariant. -/
theorem StateInv.step (h : StateInv isn c) (hw : c.writable op = true) :
    StateInv isn (c.step op) := by
  obtain ⟨W, hsends⟩ := h.sends
  refine ⟨h.base.step op, ⟨_, step_sends h.base hsends (notLate_of_writable hw)⟩,
    step_calm_or h.base h.calm op, fun hl => ?_, fun hi hc => ?_⟩
  · rcases step_linger op hl with hl | hp
    · exact step_inputEnded h.base (h.linger hl) op
    · exact (Bool.and_eq_true_iff.1 hp).1
  · cases ha : c.activeFlag with
    | true =>
      have hcl := step_closes ha hi hc
      unfold closes at hcl
      simp only [Bool.and_eq_true, beq_iff_eq] at hcl
      exact ⟨hcl.1.1.1, hcl.1.1.2, hcl.1.2⟩
    | false =>
      have hc₀ : c.Calm := by
        rcases h.calm with hc₀ | hr
        · exact hc₀
        · exact absurd hc (not_calm_of_isReset (step_isReset h.base hr op))
      obtain ⟨h1, h2⟩ := h.step_finished ha hc₀ hw
      exact ⟨step_inputEnded h.base (h.closed ha hc₀).1 op, h1, h2⟩

theorem new_stateInv (cfg : TCPConfig) (random : UInt32) :
    StateInv (cfg.fixedIsn.getD ⟨random⟩) (new cfg random) :=
  ⟨new_base cfg random, ⟨[], TCPSender.new_sends _ _ _ _⟩, .inl ⟨rfl, rfl⟩, nofun, nofun⟩

/-! ## Which segments conform -/

/-- The segment's acknowledgment, as the sender reads it, covers our SYN and nothing unsent. -/
def CoversSyn (c : TCPConnection) (seg : TCPSegment) : Prop :=
  unwrap c.sender.isn c.sender.isn c.sender.nextSeqno <
      unwrap seg.header.ackno c.sender.isn c.sender.nextSeqno ∧
    unwrap seg.header.ackno c.sender.isn c.sender.nextSeqno ≤ c.sender.nextSeqno

/-- The received segments after which an active connection is still in an official state. An RST
always conforms, and so does a segment that is ignored. Otherwise:
* in `LISTEN`, and for a SYN without ACK while our SYN is unacknowledged, it must not complete the
  inbound stream;
* an ACK while our SYN is unacknowledged may cover it only if the peer's SYN is known or comes with
  it, and must cover it if it completes the inbound stream;
* a later segment without ACK may complete the inbound stream only once our FIN is sent. -/
def Conforms (c : TCPConnection) : ConnOp → Prop
  | .segmentReceived seg =>
    c.activeFlag = false ∨ seg.header.rst = true ∨ c.Ignores seg ∨
      if c.inListen = true ∨ (c.synUnacked = true ∧ seg.header.ack = false) then
        ¬ c.receiver.Completes seg
      else if c.synUnacked = true then
        (c.CoversSyn seg → c.receiver.synFlag = true ∨ seg.header.syn = true) ∧
          (c.receiver.Completes seg → c.CoversSyn seg)
      else seg.header.ack = true ∨ c.inboundStream.inputEnded = true ∨ c.sender.finFlag = true ∨
        ¬ c.receiver.Completes seg
  | _ => True

theorem conforms_of_ne (hop : ∀ seg, op ≠ .segmentReceived seg) : c.Conforms op := by
  cases op with
  | segmentReceived seg => exact absurd rfl (hop seg)
  | connect | write | endInputStream | tick | read | popSegment => trivial

/-- Every send path brings the decision up to date. -/
theorem decided_sendSenderSegments (c : TCPConnection) : c.sendSenderSegments.Decided := by
  intro ha he
  rw [sendSenderSegments_active, Bool.and_eq_true] at ha
  unfold inboundStream at he
  rw [sendSenderSegments_receiver] at he
  rw [sendSenderSegments_linger, sendSenderSegments_sender]
  refine ⟨fun hf => ?_, fun hf hb => ?_⟩
  · have hp : c.passiveClose = true := Bool.and_eq_true_iff.2 ⟨he, by rw [hf]; rfl⟩
    rw [hp, Bool.not_true, Bool.and_false]
  · have hf : c.sender.finFlag = true := hf
    have hb : c.sender.bytesInFlight = 0 := hb
    have hcl : c.closes = false := by simpa using ha.2
    unfold closes at hcl
    unfold passiveClose
    rw [he, hf, hb] at hcl
    rw [hf]
    cases hl : c.lingerAfterStreamsFinish with
    | true => simp
    | false => simp [hl] at hcl

/-- A send path that keeps both streams out of error leads to an official state exactly if the
result is consistent. -/
theorem StateInv.official_sent (h : StateInv isn c.sendSenderSegments) (hc : c.Calm) :
    c.sendSenderSegments.Official ↔
      (c.receiver.synFlag = false → c.sender.una = 0) ∧
        (c.receiver.streamOut.inputEnded = true → 0 < c.sender.una) := by
  rw [h.official_iff (calm_sendSenderSegments.2 hc)]
  have hcons : c.sendSenderSegments.Consistent ↔
      (c.receiver.synFlag = false → c.sender.una = 0) ∧
        (c.receiver.streamOut.inputEnded = true → 0 < c.sender.una) := by
    unfold Consistent inboundStream
    rw [sendSenderSegments_receiver, sendSenderSegments_sender]
    rfl
  rw [hcons]
  exact ⟨fun hh => hh.1, fun hh => ⟨hh, decided_sendSenderSegments c⟩⟩

theorem official_of_isReset (h : c.IsReset) : c.Official := by
  obtain ⟨ha, hs, hr⟩ := h
  refine ⟨.reset, ?_⟩
  unfold state TCPState.ofParts TCPState.senderSummary TCPState.receiverSummary
  rw [hs, ha, show c.receiver.streamOut.error = true from hr]
  rfl

theorem una_eq_zero_of_synUnacked (hu : c.synUnacked = true) :
    0 < c.sender.nextSeqno ∧ c.sender.una = 0 := by
  unfold synUnacked at hu
  rw [Bool.and_eq_true, decide_eq_true_iff, beq_iff_eq] at hu
  unfold TCPSender.una
  omega

/-- The segment with number 0 is the SYN. -/
theorem carries_zero {W : List UInt8} {ended : Bool} {t : TCPSegment}
    (h : TCPSender.Carries isn W ended 0 t) (hpos : 0 < t.lengthInSequenceSpace) :
    t.header.seqno = isn ∧ t.lengthInSequenceSpace = 1 := by
  have hseq := h.seqno
  rw [wrap_zero] at hseq
  have hp : t.payload = [] := by
    cases hp : t.payload with
    | nil => rfl
    | cons b rest =>
      have := (h.payload 0 b (by rw [hp]; rfl)).1
      omega
  have hf : t.header.fin = false := Bool.eq_false_iff.2 fun hf => by
    have := (h.fin hf).2.1
    omega
  unfold TCPSegment.lengthInSequenceSpace at hpos ⊢
  rw [hp, hf] at hpos ⊢
  refine ⟨hseq, ?_⟩
  cases hs : t.header.syn with
  | true => rfl
  | false => rw [hs] at hpos; cases hpos

/-- While our SYN is unacknowledged, an acknowledgment removes it exactly if it covers it. -/
theorem una_answer_pos {W : List UInt8} (hs : Sends isn W c.sender) (hu : c.synUnacked = true)
    (seg : TCPSegment) : 0 < (answer c.sender seg).una ↔ c.CoversSyn seg := by
  obtain ⟨hn, hu⟩ := una_eq_zero_of_synUnacked hu
  have hadd := hs.inv.una_add
  obtain ⟨t, rest, hl⟩ : ∃ t rest, c.sender.segmentsOutstanding = t :: rest := by
    refine List.exists_cons_of_ne_nil fun hnil => ?_
    have := hs.inv.outstanding_eq_nil.1 hnil
    omega
  obtain ⟨hcar, hpos, -⟩ := hs.inv.front hl
  rw [hu] at hcar
  obtain ⟨hseq, hlen⟩ := carries_zero hcar hpos
  have habs : c.sender.absSeqno t = unwrap c.sender.isn c.sender.isn c.sender.nextSeqno := by
    unfold TCPSender.absSeqno
    rw [hseq, hs.data.isn]
  rw [una_answer_eq]
  unfold CoversSyn
  obtain ⟨hnil, -⟩ | ⟨t', rest', hl', hi, he⟩ | ⟨t', rest', hl', hi, he⟩ :=
    c.sender.ackReceived_cases seg.header.ackno seg.header.win rfl
  · rw [hl] at hnil
    cases hnil
  · rw [hl] at hl'
    cases hl'
    rw [he]
    have hzero : (c.sender.ackWindow (unwrap seg.header.ackno c.sender.isn c.sender.nextSeqno)
        seg.header.win).una = 0 := hu
    rw [TCPSender.ackIgnored_iff, habs, hlen] at hi
    rw [hzero]
    omega
  · rw [hl] at hl'
    cases hl'
    have hle := TCPSender.le_of_not_ignored hi
    rw [he, TCPSender.una_fillWindow (hs.inv.ackPopped _ _), hs.inv.una_ackPopped, hu, Nat.zero_add,
      Nat.pos_iff_ne_zero, Ne, TCPSender.totalLength_eq_zero (hs.inv.laid_gone _).1]
    unfold TCPSender.gone
    rw [hl]
    cases hack : c.sender.acked (unwrap seg.header.ackno c.sender.isn c.sender.nextSeqno) t with
    | true =>
      rw [List.takeWhile_cons_of_pos hack]
      rw [TCPSender.acked_iff, habs, hlen] at hack
      exact ⟨fun _ => ⟨by omega, hle⟩, fun _ => List.cons_ne_nil _ _⟩
    | false =>
      rw [List.takeWhile_cons_of_neg (by rw [hack]; decide)]
      rw [Bool.eq_false_iff, Ne, TCPSender.acked_iff, habs, hlen] at hack
      exact ⟨fun hne => absurd rfl hne, fun hc => by omega⟩

/-- What remains to be shown of a segment that is neither an RST nor ignored. -/
theorem conforms_iff (ha : c.activeFlag = true) (hr : seg.header.rst = false)
    (hi : ¬ c.Ignores seg) : c.Conforms (.segmentReceived seg) ↔
      if c.inListen = true ∨ (c.synUnacked = true ∧ seg.header.ack = false) then
        ¬ c.receiver.Completes seg
      else if c.synUnacked = true then
        (c.CoversSyn seg → c.receiver.synFlag = true ∨ seg.header.syn = true) ∧
          (c.receiver.Completes seg → c.CoversSyn seg)
      else seg.header.ack = true ∨ c.inboundStream.inputEnded = true ∨ c.sender.finFlag = true ∨
        ¬ c.receiver.Completes seg := by
  simp only [Conforms, ha, hr, hi, reduceCtorEq, false_or]

/-- Outside `LISTEN`, our SYN is unacknowledged or something is acknowledged. -/
theorem StateInv.una_pos (h : StateInv isn c) (hl : c.inListen = false)
    (hu : c.synUnacked = false) :
    0 < c.sender.una := by
  have hnext : 0 < c.sender.nextSeqno := h.base.sender.syn.1 (h.base.syn_of_not_listen hl)
  have hadd := h.base.sender.una_add
  unfold synUnacked at hu
  simp only [hnext, decide_true, Bool.true_and, beq_eq_false_iff_ne] at hu
  omega

/-- **A received segment** that is answered: an ACK after the handshake began. -/
theorem StateInv.official_answered (h : StateInv isn c) (ho : c.Consistent)
    (hl : c.inListen = false) {x : TCPConnection} (hx : x.Calm)
    (hreceiver : x.receiver = c.receiver.segmentReceived seg)
    (hsender : x.sender = answer c.sender seg)
    (hinv : StateInv isn x.sendSenderSegments) : x.sendSenderSegments.Official ↔
      (c.synUnacked = true →
        (c.CoversSyn seg → c.receiver.synFlag = true ∨ seg.header.syn = true) ∧
          (c.receiver.Completes seg → c.CoversSyn seg)) := by
  obtain ⟨W, hsends⟩ := h.sends
  have hrs := TCPReceiver.segmentReceived_synFlag h.base.receiver seg
  have hre := TCPReceiver.segmentReceived_inputEnded h.base.receiver seg
  rw [hinv.official_sent hx, hreceiver, hsender, hrs, hre]
  cases hu : c.synUnacked with
  | true =>
    have hpos := una_answer_pos hsends hu seg
    obtain ⟨-, hzero⟩ := una_eq_zero_of_synUnacked hu
    have hne : ¬ c.receiver.streamOut.inputEnded = true := fun he => by
      have := ho.2 he
      omega
    rw [← hpos]
    cases hs : c.receiver.synFlag <;> cases hs' : seg.header.syn <;>
      simp [hne, Nat.pos_iff_ne_zero]
  | false =>
    -- our SYN is acknowledged, and stays so
    have huna := h.una_pos hl hu
    have hmono : c.sender.una ≤ (answer c.sender seg).una := by
      rw [una_answer_eq]
      exact TCPSender.una_le_ackReceived hsends.inv _ _
    have hsyn : c.receiver.synFlag = true := Bool.eq_true_of_not_eq_false fun hs => by
      have := ho.1 hs
      omega
    rw [hsyn]
    simp only [Bool.true_or, reduceCtorEq, false_implies, true_and, iff_true]
    omega

/-- The segments that open the connection leave our SYN unacknowledged. -/
theorem StateInv.official_opening (h : StateInv isn c) (hne : c.inboundStream.inputEnded = false)
    (hs : seg.header.syn = true) {x : TCPConnection} (hx : x.Calm)
    (hreceiver : x.receiver = c.receiver.segmentReceived seg) (huna : x.sender.una = 0)
    (hinv : StateInv isn x.sendSenderSegments) :
    x.sendSenderSegments.Official ↔ ¬ c.receiver.Completes seg := by
  have hne : ¬ c.receiver.streamOut.inputEnded = true := Bool.eq_false_iff.1 hne
  rw [hinv.official_sent hx, hreceiver,
    TCPReceiver.segmentReceived_synFlag h.base.receiver seg,
    TCPReceiver.segmentReceived_inputEnded h.base.receiver seg, hs, huna]
  simp [hne]

/-- A segment without ACK goes to the receiver, and the shutdown is not decided. -/
theorem StateInv.official_silent (h : StateInv isn c) (hc : c.Calm) (ho : c.Official)
    (ha : c.activeFlag = true) (hl : c.inListen = false) (hu : c.synUnacked = false)
    {x : TCPConnection} (hx : x.Calm) (hinv : StateInv isn x)
    (hreceiver : x.receiver = c.receiver.segmentReceived seg) (hsender : x.sender = c.sender)
    (hactive : x.activeFlag = c.activeFlag)
    (hlinger : x.lingerAfterStreamsFinish = c.lingerAfterStreamsFinish) :
    x.Official ↔ c.inboundStream.inputEnded = true ∨ c.sender.finFlag = true ∨
      ¬ c.receiver.Completes seg := by
  obtain ⟨hcons, hdec⟩ := (h.official_iff hc).1 ho
  have hpos := h.una_pos hl hu
  have hsyn : c.receiver.synFlag = true := Bool.eq_true_of_not_eq_false fun hs => by
    have := hcons.1 hs
    omega
  have hre := TCPReceiver.segmentReceived_inputEnded h.base.receiver seg
  rw [hinv.official_iff hx]
  unfold Consistent Decided inboundStream
  rw [hreceiver, hsender, hactive, hlinger, hre,
    TCPReceiver.segmentReceived_synFlag h.base.receiver seg, hsyn, ha]
  cases he : c.receiver.streamOut.inputEnded with
  | true =>
    have hd := hdec ha he
    simpa [hpos] using hd
  | false =>
    obtain ⟨-, hlin⟩ := h.active_of_not_ended hc he
    rw [hlin]
    cases hf : c.sender.finFlag <;> simp [hpos]

theorem calm_segmentReceived (hb : Base c) (hc : c.Calm) (hr : seg.header.rst = false) :
    (c.step (.segmentReceived seg)).Calm := by
  rcases step_calm hb hc (.segmentReceived seg) with h | ⟨-, -, ⟨seg', he, hr'⟩ | ⟨ms, he, -⟩⟩
  · exact h
  · cases he
    rw [hr] at hr'
    cases hr'
  · cases he

/-- **A received segment**: from an official state, exactly the conforming ones lead to one. -/
theorem StateInv.segment_official (h : StateInv isn c) (hc : c.Calm) (ho : c.Official) :
    (c.step (.segmentReceived seg)).Official ↔ c.Conforms (.segmentReceived seg) := by
  have hinv : StateInv isn (c.step (.segmentReceived seg)) := h.step rfl
  have hcalm := @calm_segmentReceived c seg h.base hc
  obtain ⟨hcons, -⟩ := (h.official_iff hc).1 ho
  have hrec := received c seg
  rw [TCPConnection.step] at *
  generalize c.segmentReceived seg = c' at hinv hcalm hrec ⊢
  cases hrec with
  | inactive ha => exact ⟨fun _ => .inl ha, fun _ => ho⟩
  | ignored ha hi => exact ⟨fun _ => .inr (.inr (.inl hi)), fun _ => ho⟩
  | reset ha hl hr =>
    exact ⟨fun _ => .inr (.inl hr), fun _ => official_of_isReset (isReset_aborted _ _)⟩
  | opened ha hl hs hr =>
    have hi : ¬ c.Ignores seg := by simp [Ignores, hl, hr, hs]
    have hzero : c.sender.una = 0 := by
      have := h.base.sender.una_add
      simp only [inListen, Bool.and_eq_true, beq_iff_eq] at hl
      omega
    rw [conforms_iff ha hr hi, if_pos (.inl hl)]
    refine h.official_opening (h.not_ended (receiver_syn_of_listen hl)) hs
      (calm_sendSenderSegments.1 (hcalm hr)) rfl ?_ hinv
    exact (TCPSender.una_fillWindow h.base.sender).trans hzero
  | simultaneous ha hl hu hp hk hs hr =>
    have hi : ¬ c.Ignores seg := by simp [Ignores, hl, hr, hs, hp]
    have hzero := (una_eq_zero_of_synUnacked hu).2
    have hne : c.inboundStream.inputEnded = false := Bool.eq_false_iff.2 fun he => by
      have := hcons.2 he
      omega
    rw [conforms_iff ha hr hi, if_pos (.inr ⟨hu, hk⟩)]
    exact h.official_opening hne hs (calm_sendSenderSegments.1 (hcalm hr)) rfl hzero hinv
  | silent ha hl hu hk hr =>
    have hi : ¬ c.Ignores seg := by simp [Ignores, hl, hu]
    rw [conforms_iff ha hr hi, if_neg (by simp [hl, hu]), if_neg (by simp [hu])]
    rw [h.official_silent hc ho ha hl hu (hcalm hr) hinv rfl rfl rfl rfl]
    simp [hk]
  | answered ha hl hp hk hr =>
    have hi : ¬ c.Ignores seg := by
      simp only [Ignores, hl, hk, reduceCtorEq, false_and, false_or, or_false, not_and]
      intro _ _ hu hne
      exact hne (hp hu)
    rw [conforms_iff ha hr hi, if_neg (by simp [hl, hk])]
    rw [h.official_answered hcons hl (calm_sendSenderSegments.1 (hcalm hr)) rfl rfl hinv]
    by_cases hu : c.synUnacked = true
    · simp [hu]
    · simp [hu, hk]

/-- `fill_window` on any stream keeps an official state. -/
theorem StateInv.filled_official (h : StateInv isn c) (hcons : c.Consistent) {stream : ByteStream}
    (hc : (c.filled stream).Calm) (hinv : StateInv isn (c.filled stream)) :
    (c.filled stream).Official := by
  refine (hinv.official_sent (calm_sendSenderSegments.1 hc)).2 ?_
  dsimp only
  rw [TCPSender.una_fillWindow (h.base.sender.setStream stream)]
  exact hcons

/-- Calls other than a received segment keep an official state. -/
theorem StateInv.other_official (h : StateInv isn c) (hc : c.Calm) (ho : c.Official)
    (hw : c.writable op = true) (hop : ∀ seg, op ≠ .segmentReceived seg) :
    (c.step op).Official := by
  obtain ⟨hcons, hdec⟩ := (h.official_iff hc).1 ho
  have hinv := h.step hw
  have hcalm := step_calm_or h.base h.calm op
  have hcall := called c op
  generalize c.step op = c' at hinv hcalm hcall ⊢
  rcases hcalm with hcalm | hr
  · cases hcall with
    | connect | write | endInputStream => exact h.filled_official hcons hcalm hinv
    | segmentReceived seg hr => exact absurd rfl (hop seg)
    | tick ms ht =>
      cases ht with
      | inactive => exact ho
      | passed ha hk =>
        refine (hinv.official_sent (calm_sendSenderSegments.1 hcalm)).2 ?_
        dsimp only
        rw [TCPSender.una_tick]
        exact hcons
      | gaveUp => exact official_of_isReset (isReset_aborted _ _)
    | writeNothing | read | popSegment => exact (hinv.official_iff hcalm).2 ⟨hcons, hdec⟩
  · exact official_of_isReset hr

/-- **One call**: from an official state, exactly the conforming calls lead to one. -/
theorem StateInv.step_official (h : StateInv isn c) (ho : c.Official) (hw : c.writable op = true) :
    (c.step op).Official ↔ c.Conforms op := by
  by_cases hop : ∃ seg, op = .segmentReceived seg
  · obtain ⟨seg, rfl⟩ := hop
    rcases h.calm with hc | hr
    · exact h.segment_official hc ho
    · exact ⟨fun _ => .inl hr.1, fun _ => official_of_isReset (step_isReset h.base hr _)⟩
  · have hne : ∀ seg, op ≠ .segmentReceived seg := not_exists.1 hop
    refine ⟨fun _ => conforms_of_ne hne, fun _ => ?_⟩
    rcases h.calm with hc | hr
    · exact h.other_official hc ho hw hne
    · exact official_of_isReset (step_isReset h.base hr op)

/-- **A run stays in the official states exactly if every received segment conforms**, as long as
nothing is written after `end_input_stream`. -/
theorem run_official_iff (cfg : TCPConfig) (random : UInt32) (ops : List ConnOp)
    (hw : Guarded step (fun c op => c.writable op = true) (new cfg random) ops) :
    (∀ n, Official (exec step (new cfg random) (ops.take n))) ↔
      Guarded step Conforms (new cfg random) ops :=
  always_iff_guarded (I := StateInv (cfg.fixedIsn.getD ⟨random⟩))
    (fun _ _ h _ hw _ => h.step hw) (fun _ _ h ho hw => h.step_official ho hw)
    (new_stateInv cfg random) ⟨.listen, rfl⟩ hw

/-- The handshake of the connecting side ends in an official state. -/
theorem handshake_official : Official (exec step (new {} 0) [.connect, .segmentReceived
    { header := { seqno := ⟨5⟩, syn := true, ack := true, ackno := ⟨1⟩, win := 9 } }]) := by
  refine (run_official_iff {} 0 [.connect, .segmentReceived
    { header := { seqno := ⟨5⟩, syn := true, ack := true, ackno := ⟨1⟩, win := 9 } }]
    (by decide)).2 ⟨trivial, .inr (.inr (.inr ?_)), trivial⟩ 2
  rw [if_neg (by decide), if_pos (by decide)]
  exact ⟨fun _ => .inr rfl, fun _ => ⟨by decide, by decide⟩⟩

/-- An ACK of our SYN, before the peer's SYN: nothing is received yet, but the stream is ongoing. -/
theorem ack_before_syn_not_official : ¬ Official (exec step (new {} 0)
    [.connect, .segmentReceived { header := { ack := true, ackno := ⟨1⟩, win := 9 } }]) := by
  unfold Official
  rw [← TCPState.isOfficial_iff]
  decide

-- a FIN without ACK on an established connection: the shutdown is not decided
example : (exec step (new {} 0)
    [.connect,
      .segmentReceived { header :=
        { seqno := ⟨5⟩, syn := true, ack := true, ackno := ⟨1⟩, win := 9 } },
      .segmentReceived { header := { seqno := ⟨6⟩, fin := true } }]).state.isOfficial = false := by
  decide

-- a FIN together with the SYN, in `LISTEN`: the inbound stream ends before the handshake does
example : (exec step (new {} 0)
    [.segmentReceived { header := { seqno := ⟨5⟩, syn := true, fin := true } }]).state.isOfficial =
      false := by
  decide

end TCPConnection

end Sponge
