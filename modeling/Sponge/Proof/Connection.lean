import Sponge.TCPConnection
import Sponge.Proof.Receiver
import Sponge.Proof.SenderData
import Sponge.Proof.SenderAck

/-!
# What the calls of a connection do

`sendSenderSegments_eq`: every send path moves the sender's whole queue (`stamped`), and then
decides on the shutdown (`cleanShutdown_eq`). `Received c seg c'` lists what a received segment can
do, one constructor for each branch of `segment_received`, with the tests that lead there;
`received` says that the list is complete. `Ticked` does the same for `tick`, and `Called` for all
calls; what follows about calls is by cases on it.

`Base` is what holds between calls (`Base.step`): among others, the sender's queue is empty and no
RST is pending. `SenderRule.step` lifts what the sender's own calls keep.
-/

namespace Sponge.TCPConnection

/-! ## Sending and shutting down -/

/-- The conditions of `clean_shutdown` for becoming inactive. -/
def closes (c : TCPConnection) : Bool :=
  c.receiver.streamOut.inputEnded && c.sender.finFlag && c.sender.bytesInFlight == 0 &&
    (!c.lingerAfterStreamsFinish ||
      decide (c.timeSinceLastSegmentReceived ≥ 10 * c.cfg.rtTimeout.toNat))

/-- The condition of `clean_shutdown` for not lingering: the peer has finished first. -/
def passiveClose (c : TCPConnection) : Bool :=
  c.receiver.streamOut.inputEnded && !c.sender.finFlag

theorem cleanShutdown_eq (c : TCPConnection) : c.cleanShutdown =
    { c with
      activeFlag := c.activeFlag && !c.closes
      lingerAfterStreamsFinish := c.lingerAfterStreamsFinish && !c.passiveClose } := by
  obtain ⟨cfg, receiver, sender, out, linger, time, active, rst⟩ := c
  unfold cleanShutdown closes passiveClose
  dsimp only
  cases hi : receiver.streamOut.inputEnded <;> cases hf : sender.finFlag <;> cases linger <;>
    by_cases hb : sender.bytesInFlight = 0 <;>
    by_cases ht : time ≥ 10 * cfg.rtTimeout.toNat <;> simp [hb, ht]

/-- A queue of the sender with the connection's fields; RST only on the first segment. -/
def stamped (receiver : TCPReceiver) (rst : Bool) : List TCPSegment → List TCPSegment
  | [] => []
  | seg :: rest => fillFields receiver rst seg :: rest.map (fillFields receiver false)

theorem stamped_false (receiver : TCPReceiver) (segs : List TCPSegment) :
    stamped receiver false segs = segs.map (fillFields receiver false) := by
  cases segs <;> rfl

theorem moveSegments_eq (segs : List TCPSegment) (c : TCPConnection)
    (h : c.sender.segmentsOut = segs) :
    moveSegments segs c =
      { c with
        sender := { c.sender with segmentsOut := [] }
        segmentsOut := c.segmentsOut ++ stamped c.receiver c.needSendRst segs
        needSendRst := c.needSendRst && segs.isEmpty } := by
  induction segs generalizing c with
  | nil =>
    have hs : { c.sender with segmentsOut := [] } = c.sender := by rw [← h]
    simp only [moveSegments, stamped, List.append_nil, List.isEmpty_nil, Bool.and_true, hs]
  | cons seg rest ih =>
    rw [moveSegments, ih _ rfl, stamped_false]
    simp only [stamped, List.isEmpty_cons, Bool.and_false, Bool.false_and, List.append_assoc,
      List.singleton_append]

/-- What `send_sender_segments` finds on the sender's queue. -/
def outgoing (c : TCPConnection) : List TCPSegment :=
  if c.sender.segmentsOut.isEmpty && c.needSendRst then [c.sender.emptySegment]
  else c.sender.segmentsOut

/-- **Every send path**: the queue is moved, and the shutdown is decided. -/
theorem sendSenderSegments_eq (c : TCPConnection) : c.sendSenderSegments =
    cleanShutdown
      { c with
        sender := { c.sender with segmentsOut := [] }
        segmentsOut := c.segmentsOut ++ stamped c.receiver c.needSendRst c.outgoing
        needSendRst := false } := by
  unfold sendSenderSegments outgoing
  dsimp only
  congr 1
  cases he : c.sender.segmentsOut.isEmpty && c.needSendRst with
  | true =>
    obtain ⟨h1, h2⟩ := Bool.and_eq_true_iff.1 he
    have h1' : c.sender.segmentsOut = [] := List.isEmpty_iff.1 h1
    rw [if_pos rfl, if_pos rfl, moveSegments_eq _ _ rfl]
    simp [TCPSender.sendEmptySegment, h1', TCPSender.emptySegment]
  | false =>
    rw [if_neg (by decide), if_neg (by decide), moveSegments_eq _ _ rfl]
    cases hn : c.needSendRst with
    | false => simp
    | true =>
      rw [hn, Bool.and_true] at he
      simp [he]

section
variable (c : TCPConnection)

@[simp] theorem sendSenderSegments_cfg : c.sendSenderSegments.cfg = c.cfg := by
  rw [sendSenderSegments_eq, cleanShutdown_eq]
@[simp] theorem sendSenderSegments_receiver : c.sendSenderSegments.receiver = c.receiver := by
  rw [sendSenderSegments_eq, cleanShutdown_eq]
@[simp] theorem sendSenderSegments_sender :
    c.sendSenderSegments.sender = { c.sender with segmentsOut := [] } := by
  rw [sendSenderSegments_eq, cleanShutdown_eq]
@[simp] theorem sendSenderSegments_segmentsOut : c.sendSenderSegments.segmentsOut =
    c.segmentsOut ++ stamped c.receiver c.needSendRst c.outgoing := by
  rw [sendSenderSegments_eq, cleanShutdown_eq]
@[simp] theorem sendSenderSegments_time : c.sendSenderSegments.timeSinceLastSegmentReceived =
    c.timeSinceLastSegmentReceived := by
  rw [sendSenderSegments_eq, cleanShutdown_eq]
@[simp] theorem sendSenderSegments_needSendRst : c.sendSenderSegments.needSendRst = false := by
  rw [sendSenderSegments_eq, cleanShutdown_eq]
@[simp] theorem sendSenderSegments_active :
    c.sendSenderSegments.activeFlag = (c.activeFlag && !c.closes) := by
  rw [sendSenderSegments_eq, cleanShutdown_eq]
  rfl
@[simp] theorem sendSenderSegments_linger : c.sendSenderSegments.lingerAfterStreamsFinish =
    (c.lingerAfterStreamsFinish && !c.passiveClose) := by
  rw [sendSenderSegments_eq, cleanShutdown_eq]
  rfl

end

/-- Sending again right away does nothing. -/
theorem sendSenderSegments_idem (c : TCPConnection) :
    c.sendSenderSegments.sendSenderSegments = c.sendSenderSegments := by
  have h1 : c.sendSenderSegments.outgoing = [] := by
    unfold outgoing
    rw [sendSenderSegments_needSendRst, sendSenderSegments_sender]
    rfl
  have h2 : c.sendSenderSegments.passiveClose = c.passiveClose := by
    unfold passiveClose
    rw [sendSenderSegments_receiver, sendSenderSegments_sender]
  have h3 : (c.sendSenderSegments.activeFlag && !c.sendSenderSegments.closes) =
      c.sendSenderSegments.activeFlag := by
    rw [sendSenderSegments_active]
    unfold closes
    rw [sendSenderSegments_receiver, sendSenderSegments_sender, sendSenderSegments_time,
      sendSenderSegments_linger, sendSenderSegments_cfg]
    unfold passiveClose
    cases c.activeFlag <;> cases c.receiver.streamOut.inputEnded <;> cases c.sender.finFlag <;>
      cases c.lingerAfterStreamsFinish <;> cases (c.sender.bytesInFlight == 0) <;>
      cases decide (c.timeSinceLastSegmentReceived ≥ 10 * c.cfg.rtTimeout.toNat) <;> rfl
  have h4 : (c.sendSenderSegments.lingerAfterStreamsFinish &&
      !c.sendSenderSegments.passiveClose) = c.sendSenderSegments.lingerAfterStreamsFinish := by
    rw [h2, sendSenderSegments_linger, Bool.and_assoc, Bool.and_self]
  ext1
  · simp
  · simp
  · simp
  · rw [sendSenderSegments_segmentsOut c.sendSenderSegments, h1, stamped, List.append_nil]
  · rw [sendSenderSegments_linger c.sendSenderSegments, h4]
  · simp
  · rw [sendSenderSegments_active c.sendSenderSegments, h3]
  · simp

/-! ## What a received segment can do -/

/-- The sender's answer to a segment with the ACK flag. -/
def answer (s : TCPSender) (seg : TCPSegment) : TCPSender :=
  if decide (seg.lengthInSequenceSpace > 0) &&
      (s.ackReceived seg.header.ackno seg.header.win).segmentsOut.isEmpty then
    (s.ackReceived seg.header.ackno seg.header.win).sendEmptySegment
  else s.ackReceived seg.header.ackno seg.header.win

/-- Both streams in error, and the connection inactive. -/
def aborted (c : TCPConnection) (rst : Bool) : TCPConnection :=
  { c with
    sender := { c.sender with stream := c.sender.stream.setError }
    receiver := { c.receiver with
      reassembler := { c.receiver.reassembler with
        output := c.receiver.reassembler.output.setError } }
    activeFlag := false
    needSendRst := rst }

/-- The segments that `segment_received` ignores: in `LISTEN` an RST or one without SYN; while our
SYN is unacknowledged, one with payload, or without ACK and SYN. -/
def Ignores (c : TCPConnection) (seg : TCPSegment) : Prop :=
  (c.inListen = true ∧ (seg.header.rst = true ∨ seg.header.syn = false)) ∨
    (c.inListen = false ∧ seg.header.rst = false ∧ c.synUnacked = true ∧
      (seg.payload ≠ [] ∨ (seg.header.ack = false ∧ seg.header.syn = false)))

instance (c : TCPConnection) (seg : TCPSegment) : Decidable (c.Ignores seg) :=
  inferInstanceAs (Decidable ((_ ∧ (_ ∨ _)) ∨ (_ ∧ _ ∧ _ ∧ (_ ∨ (_ ∧ _)))))

/-- The effect of a received segment, by the branch of `segment_received`. -/
inductive Received (c : TCPConnection) (seg : TCPSegment) : TCPConnection → Prop
  | inactive (ha : c.activeFlag = false) : Received c seg c
  | ignored (ha : c.activeFlag = true) (hi : c.Ignores seg) :
      Received c seg { c with timeSinceLastSegmentReceived := 0 }
  | opened (ha : c.activeFlag = true) (hl : c.inListen = true) (hs : seg.header.syn = true)
      (hr : seg.header.rst = false) :
      Received c seg (sendSenderSegments
        { c with
          timeSinceLastSegmentReceived := 0
          receiver := c.receiver.segmentReceived seg
          sender := c.sender.fillWindow })
  | reset (ha : c.activeFlag = true) (hl : c.inListen = false) (hr : seg.header.rst = true) :
      Received c seg (sendSenderSegments
        ({ c with timeSinceLastSegmentReceived := 0 }.aborted false))
  | simultaneous (ha : c.activeFlag = true) (hl : c.inListen = false) (hu : c.synUnacked = true)
      (hp : seg.payload = []) (hk : seg.header.ack = false) (hs : seg.header.syn = true)
      (hr : seg.header.rst = false) :
      Received c seg (sendSenderSegments
        { c with
          timeSinceLastSegmentReceived := 0
          receiver := c.receiver.segmentReceived seg
          sender := c.sender.sendEmptySegment })
  | silent (ha : c.activeFlag = true) (hl : c.inListen = false) (hu : c.synUnacked = false)
      (hk : seg.header.ack = false) (hr : seg.header.rst = false) :
      Received c seg
        { c with
          timeSinceLastSegmentReceived := 0
          receiver := c.receiver.segmentReceived seg }
  | answered (ha : c.activeFlag = true) (hl : c.inListen = false)
      (hp : c.synUnacked = true → seg.payload = []) (hk : seg.header.ack = true)
      (hr : seg.header.rst = false) :
      Received c seg (sendSenderSegments
        { c with
          timeSinceLastSegmentReceived := 0
          receiver := c.receiver.segmentReceived seg
          sender := answer c.sender seg })

/-- The list of effects is complete. -/
theorem received (c : TCPConnection) (seg : TCPSegment) :
    Received c seg (c.segmentReceived seg) := by
  unfold segmentReceived
  dsimp only
  split
  · rename_i ha
    exact .inactive ha
  · rename_i ha
    replace ha := Bool.eq_true_of_not_eq_false ha
    split
    · rename_i hl
      unfold listenReceived
      split
      · rename_i hr
        exact .ignored ha (.inl ⟨hl, .inl hr⟩)
      · rename_i hr
        split
        · rename_i hs
          exact .ignored ha (.inl ⟨hl, .inr hs⟩)
        · rename_i hs
          exact .opened ha hl (Bool.eq_true_of_not_eq_false hs) (Bool.eq_false_iff.2 hr)
    · rename_i hl
      replace hl : c.inListen = false := Bool.eq_false_iff.2 hl
      split
      · rename_i hr
        exact .reset ha hl hr
      · rename_i hr
        replace hr := Bool.eq_false_iff.2 hr
        split
        · rename_i hp
          obtain ⟨hu, hp⟩ := Bool.and_eq_true_iff.1 hp
          refine .ignored ha (.inr ⟨hl, hr, hu, .inl ?_⟩)
          exact List.ne_nil_of_length_pos (of_decide_eq_true hp)
        · rename_i hp
          replace hp : c.synUnacked = true → seg.payload = [] := by
            intro hu
            refine Classical.byContradiction fun hne => hp ?_
            exact Bool.and_eq_true_iff.2 ⟨hu, decide_eq_true (List.length_pos_of_ne_nil hne)⟩
          split
          · rename_i hk
            obtain ⟨hu, hk⟩ := Bool.and_eq_true_iff.1 hk
            replace hk : seg.header.ack = false := by simpa using hk
            unfold simultaneousOpen
            split
            · rename_i hs
              exact .simultaneous ha hl hu (hp hu) hk hs hr
            · rename_i hs
              exact .ignored ha (.inr ⟨hl, hr, hu, .inr ⟨hk, Bool.eq_false_iff.2 hs⟩⟩)
          · rename_i hk
            unfold exchange
            dsimp only
            split
            · rename_i hack
              exact .answered ha hl hp hack hr
            · rename_i hack
              replace hack := Bool.eq_false_iff.2 hack
              refine .silent ha hl (Bool.eq_false_iff.2 fun hu => hk ?_) hack hr
              exact Bool.and_eq_true_iff.2 ⟨hu, by rw [hack]; rfl⟩

/-! ## What a tick can do -/

/-- The effect of a tick. -/
inductive Ticked (c : TCPConnection) (ms : ℕ) : TCPConnection → Prop
  | inactive (ha : c.activeFlag = false) : Ticked c ms c
  | passed (ha : c.activeFlag = true)
      (hk : (c.sender.tick ms).consecutiveRetransmissions ≤ TCPConfig.maxRetxAttempts) :
      Ticked c ms (sendSenderSegments
        { c with
          timeSinceLastSegmentReceived := (c.timeSinceLastSegmentReceived + ms) % 2 ^ 64
          sender := c.sender.tick ms })
  | gaveUp (ha : c.activeFlag = true)
      (hk : TCPConfig.maxRetxAttempts < (c.sender.tick ms).consecutiveRetransmissions) :
      Ticked c ms (sendSenderSegments
        ({ c with
          timeSinceLastSegmentReceived := (c.timeSinceLastSegmentReceived + ms) % 2 ^ 64
          sender := c.sender.tick ms }.aborted true))

theorem ticked (c : TCPConnection) (ms : ℕ) : Ticked c ms (c.tick ms) := by
  unfold tick
  dsimp only
  split
  · rename_i ha
    exact .inactive ha
  · rename_i ha
    replace ha := Bool.eq_true_of_not_eq_false ha
    split
    · rename_i hk
      unfold uncleanShutdown
      rw [sendSenderSegments_idem]
      exact .gaveUp ha hk
    · rename_i hk
      exact .passed ha (Nat.le_of_not_lt hk)

/-! ## What a call can do -/

/-- `fill_window` with the given outbound stream, and everything it queues is sent. -/
def filled (c : TCPConnection) (stream : ByteStream) : TCPConnection :=
  sendSenderSegments { c with sender := { c.sender with stream := stream }.fillWindow }

/-- The effect of a call. -/
inductive Called (c : TCPConnection) : ConnOp → TCPConnection → Prop
  | connect : Called c .connect (c.filled c.sender.stream)
  | writeNothing : Called c (.write []) c
  | write (data : List UInt8) (hd : data ≠ []) :
      Called c (.write data) (c.filled (c.sender.stream.write data).2)
  | endInputStream : Called c .endInputStream (c.filled c.sender.stream.endInput)
  | segmentReceived (seg : TCPSegment) {c' : TCPConnection} (h : Received c seg c') :
      Called c (.segmentReceived seg) c'
  | tick (ms : ℕ) {c' : TCPConnection} (h : Ticked c ms c') : Called c (.tick ms) c'
  | read (n : ℕ) : Called c (.read n) (c.read n)
  | popSegment : Called c .popSegment { c with segmentsOut := c.segmentsOut.tail }

theorem called (c : TCPConnection) : ∀ op, Called c op (c.step op)
  | .connect => .connect
  | .write [] => .writeNothing
  | .write (b :: data) => .write (b :: data) (List.cons_ne_nil b data)
  | .endInputStream => .endInputStream
  | .segmentReceived seg => .segmentReceived seg (received c seg)
  | .tick ms => .tick ms (ticked c ms)
  | .read n => .read n
  | .popSegment => .popSegment

/-! ## Between calls -/

/-- What holds between calls. -/
structure Base (c : TCPConnection) : Prop where
  queue : c.sender.segmentsOut = []
  rst : c.needSendRst = false
  sender : TCPSender.Inv (TCPSender.Numbered c.sender.isn) c.sender
  receiver : TCPReceiver.Inv (fun _ _ => True) c.receiver
  link : c.receiver.synFlag = true → c.sender.synFlag = true

variable {c : TCPConnection}

/-- Outside `LISTEN` our SYN has been sent. -/
theorem Base.syn_of_not_listen (h : Base c) (hl : c.inListen = false) :
    c.sender.synFlag = true := by
  unfold inListen at hl
  rcases Bool.and_eq_false_iff.1 hl with hn | hn
  · rw [beq_eq_false_iff_ne] at hn
    exact h.sender.syn.2 (Nat.pos_of_ne_zero hn)
  · refine h.link ?_
    unfold TCPReceiver.ackno at hn
    cases hs : c.receiver.synFlag with
    | true => rfl
    | false =>
      rw [hs] at hn
      cases hn

/-- The segment's acknowledgment and window reach the sender. -/
def AckReaches (c : TCPConnection) (seg : TCPSegment) : Prop :=
  c.activeFlag = true ∧ c.inListen = false ∧ (c.synUnacked = true → seg.payload = []) ∧
    seg.header.ack = true ∧ seg.header.rst = false

/-- What the calls of a connection other than `write`, `tick` and `segment_received` do to its
sender: `I` is kept by each of them. -/
structure CallRule (I : TCPSender → Prop) : Prop where
  fill : ∀ s, I s → I s.fillWindow
  endFill : ∀ s, I s → I ({ s with stream := s.stream.endInput } : TCPSender).fillWindow
  error : ∀ s, I s → I { s with stream := s.stream.setError }
  empty : ∀ s, I s → I s.sendEmptySegment

/-- The same with every acknowledgment, and with the queue handed over. -/
structure SenderRule (I : TCPSender → Prop) : Prop extends CallRule I where
  drain : ∀ s, I s → I { s with segmentsOut := [] }
  ack : ∀ s ackno windowSize, I s → s.synFlag = true → I (s.ackReceived ackno windowSize)

/-- A call either sends, from a connection `x` with what the sender queued in the call, or leaves
the sender alone. What the sender's calls keep, `x` has. -/
theorem CallRule.sent {I : TCPSender → Prop} (rule : CallRule I) (hI : I c.sender) (op : ConnOp)
    (hw : ∀ data, op = .write data →
      I ({ c.sender with stream := (c.sender.stream.write data).2 } : TCPSender).fillWindow)
    (hack : ∀ seg, op = .segmentReceived seg → c.AckReaches seg →
      I (c.sender.ackReceived seg.header.ackno seg.header.win))
    (ht : ∀ ms, op = .tick ms → c.activeFlag = true → I (c.sender.tick ms)) :
    (∃ x : TCPConnection, c.step op = x.sendSenderSegments ∧ I x.sender ∧
        x.segmentsOut = c.segmentsOut) ∨
      ((c.step op).sender = c.sender ∧ ∃ n, (c.step op).segmentsOut = c.segmentsOut.drop n) := by
  have hcall := called c op
  generalize c.step op = c' at hcall ⊢
  cases hcall with
  | connect => exact .inl ⟨_, rfl, rule.fill _ hI, rfl⟩
  | write data hd => exact .inl ⟨_, rfl, hw data rfl, rfl⟩
  | endInputStream => exact .inl ⟨_, rfl, rule.endFill _ hI, rfl⟩
  | segmentReceived seg hr =>
    cases hr with
    | inactive | ignored | silent => exact .inr ⟨rfl, 0, rfl⟩
    | opened ha hl hs => exact .inl ⟨_, rfl, rule.fill _ hI, rfl⟩
    | reset ha hl hr => exact .inl ⟨_, rfl, rule.error _ hI, rfl⟩
    | simultaneous ha hl hu hp hk hs => exact .inl ⟨_, rfl, rule.empty _ hI, rfl⟩
    | answered ha hl hp hk hr =>
      refine .inl ⟨_, rfl, ?_, rfl⟩
      have hread := hack seg rfl ⟨ha, hl, hp, hk, hr⟩
      unfold answer
      dsimp only
      split
      · exact rule.empty _ hread
      · exact hread
  | tick ms ht' =>
    cases ht' with
    | inactive => exact .inr ⟨rfl, 0, rfl⟩
    | passed ha hk => exact .inl ⟨_, rfl, ht _ rfl ha, rfl⟩
    | gaveUp ha hk => exact .inl ⟨_, rfl, rule.error _ (ht _ rfl ha), rfl⟩
  | popSegment => exact .inr ⟨rfl, 1, List.drop_one.symm⟩
  | writeNothing | read => exact .inr ⟨rfl, 0, rfl⟩

theorem SenderRule.sent {I : TCPSender → Prop} (rule : SenderRule I)
    (hsyn : c.inListen = false → c.sender.synFlag = true) (hI : I c.sender) (op : ConnOp)
    (hw : ∀ data, op = .write data →
      I ({ c.sender with stream := (c.sender.stream.write data).2 } : TCPSender).fillWindow)
    (ht : ∀ ms, op = .tick ms → c.activeFlag = true → I (c.sender.tick ms)) :
    (∃ x : TCPConnection, c.step op = x.sendSenderSegments ∧ I x.sender ∧
        x.segmentsOut = c.segmentsOut) ∨
      ((c.step op).sender = c.sender ∧ ∃ n, (c.step op).segmentsOut = c.segmentsOut.drop n) :=
  rule.toCallRule.sent hI op hw (fun _ _ hr => rule.ack _ _ _ hI (hsyn hr.2.1)) ht

/-- **The sender of a connection**: what its calls keep, every call of the connection keeps. -/
theorem SenderRule.step {I : TCPSender → Prop} (rule : SenderRule I)
    (hsyn : c.inListen = false → c.sender.synFlag = true) (hI : I c.sender) (op : ConnOp)
    (hw : ∀ data, op = .write data →
      I ({ c.sender with stream := (c.sender.stream.write data).2 } : TCPSender).fillWindow)
    (ht : ∀ ms, op = .tick ms → c.activeFlag = true → I (c.sender.tick ms)) :
    I (c.step op).sender := by
  obtain ⟨x, he, hx, -⟩ | ⟨he, -⟩ := rule.sent hsyn hI op hw ht
  · rw [he, sendSenderSegments_sender]
    exact rule.drain _ hx
  · rw [he]
    exact hI

/-- The sender's bookkeeping, with its initial sequence number, is one such invariant. -/
theorem numbered_rule (isn : WrappingInt32) :
    SenderRule fun s => TCPSender.Inv (TCPSender.Numbered isn) s ∧ s.isn = isn where
  drain s h := ⟨⟨h.1.flight_le, h.1.laid, h.1.timer, h.1.syn, List.forall_mem_nil _⟩, h.2⟩
  fill s h := (TCPSender.emits_numbered isn).fillWindow h.1 h.2
  endFill s h := (TCPSender.emits_numbered isn).fillWindow (h.1.setStream _) h.2
  error s h := ⟨h.1.setStream _, h.2⟩
  empty s h := ⟨h.1.sendEmptySegment (by rw [← h.2]; rfl), h.2⟩
  ack s ackno windowSize h _ := (TCPSender.emits_numbered isn).ackReceived h.1 ackno windowSize
    (fun _ => h.2) (fun _ => h.2)

theorem numbered_tick {isn : WrappingInt32} {s : TCPSender}
    (h : TCPSender.Inv (TCPSender.Numbered isn) s ∧ s.isn = isn) (ms : ℕ) :
    TCPSender.Inv (TCPSender.Numbered isn) (s.tick ms) ∧ (s.tick ms).isn = isn :=
  ⟨h.1.tick ms, by rw [(TCPSender.tick_frame s ms).isn]; exact h.2⟩

theorem syn_rule : SenderRule fun s => s.synFlag = true where
  drain _ h := h
  fill s _ := s.fillWindow_syn
  endFill _ _ := TCPSender.fillWindow_syn _
  error _ h := h
  empty _ h := h
  ack _ ackno windowSize h _ := TCPSender.ackReceived_syn h ackno windowSize

/-- **The receiver of a connection**: it gets segments other than RST while the connection is
active, and reads, and may be put in error. -/
theorem step_receiver {I : TCPReceiver → Prop} (hI : I c.receiver) (op : ConnOp)
    (herror : ∀ r, I r → I { r with reassembler :=
      { r.reassembler with output := r.reassembler.output.setError } })
    (hseg : ∀ seg, op = .segmentReceived seg → c.activeFlag = true → seg.header.rst = false →
      I (c.receiver.segmentReceived seg))
    (hread : ∀ n, op = .read n → I (c.receiver.popOutput n)) : I (c.step op).receiver := by
  have hcall := called c op
  generalize c.step op = c' at hcall ⊢
  cases hcall with
  | connect | write | endInputStream => rw [filled, sendSenderSegments_receiver]; exact hI
  | segmentReceived seg hr =>
    cases hr with
    | inactive | ignored => exact hI
    | silent ha _ _ _ hr => exact hseg seg rfl ha hr
    | opened ha _ _ hr | answered ha _ _ _ hr | simultaneous ha _ _ _ _ _ hr =>
      rw [sendSenderSegments_receiver]
      exact hseg seg rfl ha hr
    | reset => rw [sendSenderSegments_receiver]; exact herror _ hI
  | tick ms ht =>
    cases ht with
    | inactive => exact hI
    | passed => rw [sendSenderSegments_receiver]; exact hI
    | gaveUp => rw [sendSenderSegments_receiver]; exact herror _ hI
  | read n => exact hread n rfl
  | writeNothing | popSegment => exact hI

/-- The segment reaches the receiver. -/
def Takes (c : TCPConnection) (seg : TCPSegment) : Prop :=
  c.activeFlag = true ∧ seg.header.rst = false ∧ ¬ c.Ignores seg

instance (c : TCPConnection) (seg : TCPSegment) : Decidable (c.Takes seg) :=
  inferInstanceAs (Decidable (_ ∧ _ ∧ ¬ c.Ignores seg))

theorem receiver_of_takes {seg : TCPSegment} (h : c.Takes seg) :
    (c.step (.segmentReceived seg)).receiver = c.receiver.segmentReceived seg := by
  obtain ⟨ha, hr, hi⟩ := h
  have hrec : Received c seg (c.step (.segmentReceived seg)) := received c seg
  generalize c.step (.segmentReceived seg) = c' at hrec ⊢
  cases hrec with
  | inactive hia => rw [ha] at hia; cases hia
  | ignored _ hi' => exact absurd hi' hi
  | reset _ _ hr' => rw [hr] at hr'; cases hr'
  | silent => rfl
  | opened | simultaneous | answered => rw [sendSenderSegments_receiver]

theorem receiver_of_ignores {seg : TCPSegment} (h : c.Ignores seg) :
    (c.step (.segmentReceived seg)).receiver = c.receiver := by
  have hrec : Received c seg (c.step (.segmentReceived seg)) := received c seg
  generalize c.step (.segmentReceived seg) = c' at hrec ⊢
  cases hrec with
  | inactive | ignored => rfl
  | opened ha hl hs hr => simp [Ignores, hl, hs, hr] at h
  | reset ha hl hr => simp [Ignores, hl, hr] at h
  | simultaneous ha hl hu hp hk hs hr => simp [Ignores, hl, hp, hs] at h
  | silent ha hl hu hk hr => simp [Ignores, hl, hu] at h
  | answered ha hl hp hk hr =>
    obtain ⟨hl', -⟩ | ⟨-, -, hu, hi⟩ := h
    · rw [hl] at hl'
      cases hl'
    · simp [hp hu, hk] at hi

theorem receiver_syn_of_listen (hl : c.inListen = true) : c.receiver.synFlag = false := by
  unfold inListen TCPReceiver.ackno at hl
  cases hs : c.receiver.synFlag with
  | false => rfl
  | true =>
    rw [hs] at hl
    simp at hl

/-- The sender's queue is empty and no RST is pending after a call. -/
theorem step_quiet (hq : c.sender.segmentsOut = []) (hr : c.needSendRst = false) (op : ConnOp) :
    (c.step op).sender.segmentsOut = [] ∧ (c.step op).needSendRst = false := by
  have hsend : ∀ c : TCPConnection, c.sendSenderSegments.sender.segmentsOut = [] ∧
      c.sendSenderSegments.needSendRst = false := by
    intro c
    rw [sendSenderSegments_sender, sendSenderSegments_needSendRst]
    exact ⟨rfl, rfl⟩
  have hcall := called c op
  generalize c.step op = c' at hcall ⊢
  cases hcall with
  | connect | write | endInputStream => exact hsend _
  | segmentReceived seg hrec =>
    cases hrec with
    | inactive | ignored | silent => exact ⟨hq, hr⟩
    | opened | simultaneous | answered | reset => exact hsend _
  | tick ms ht =>
    cases ht with
    | inactive => exact ⟨hq, hr⟩
    | passed | gaveUp => exact hsend _
  | writeNothing | read | popSegment => exact ⟨hq, hr⟩

/-- **Every call** keeps what holds between calls. -/
theorem Base.step (h : Base c) (op : ConnOp) : Base (c.step op) := by
  obtain ⟨hsender, hisn⟩ := (numbered_rule c.sender.isn).step h.syn_of_not_listen ⟨h.sender, rfl⟩ op
    (fun data _ => (TCPSender.emits_numbered c.sender.isn).fillWindow
      (h.sender.setStream _) rfl)
    (fun ms _ _ => numbered_tick ⟨h.sender, rfl⟩ ms)
  have hreceiver := step_receiver h.receiver op (fun _ hr => hr.setError)
    (fun seg _ _ _ => TCPReceiver.segmentReceived_inv h.receiver fun _ _ _ _ _ => trivial)
    (fun n _ => TCPReceiver.popOutput_inv h.receiver n)
  obtain ⟨hq, hr⟩ := step_quiet h.queue h.rst op
  refine ⟨hq, hr, by rw [hisn]; exact hsender, hreceiver, fun hsyn => ?_⟩
  cases hl : c.inListen with
  | false =>
    have hs := h.syn_of_not_listen hl
    refine syn_rule.step h.syn_of_not_listen hs op (fun _ _ => TCPSender.fillWindow_syn _)
      fun ms _ _ => ?_
    rw [(TCPSender.tick_frame c.sender ms).synFlag]
    exact hs
  | true =>
    -- the receiver learns the SYN only in a call that sends ours
    have hnot := receiver_syn_of_listen hl
    by_cases hseg : ∃ seg, op = .segmentReceived seg
    · obtain ⟨seg, rfl⟩ := hseg
      have hrec := received c seg
      rw [TCPConnection.step] at hsyn ⊢
      generalize c.segmentReceived seg = c' at hrec hsyn ⊢
      cases hrec with
      | inactive | ignored => rw [hnot] at hsyn; cases hsyn
      | opened =>
        rw [sendSenderSegments_sender]
        exact TCPSender.fillWindow_syn _
      | reset ha hl' | simultaneous ha hl' | silent ha hl' | answered ha hl' =>
        rw [hl] at hl'
        cases hl'
    · have hkeep := step_receiver (I := fun r => r.synFlag = false) hnot op (fun _ hr => hr)
        (fun seg he _ _ => absurd ⟨seg, he⟩ hseg) (fun n _ => hnot)
      rw [hkeep] at hsyn
      cases hsyn

theorem new_base (cfg : TCPConfig) (random : UInt32) : Base (new cfg random) :=
  ⟨rfl, rfl, TCPSender.new_inv _ _ _ _, TCPReceiver.new_inv _, nofun⟩

/-- An inactive connection stays inactive. -/
theorem step_active {op : ConnOp} (h : (c.step op).activeFlag = true) : c.activeFlag = true := by
  have hcall := called c op
  generalize c.step op = c' at hcall h
  cases hcall with
  | connect | write | endInputStream =>
    rw [filled, sendSenderSegments_active, Bool.and_eq_true] at h
    exact h.1
  | segmentReceived seg hrec =>
    cases hrec with
    | inactive => exact h
    | ignored ha | opened ha | reset ha | simultaneous ha | silent ha | answered ha => exact ha
  | tick ms ht =>
    cases ht with
    | inactive => exact h
    | passed ha | gaveUp ha => exact ha
  | writeNothing | read | popSegment => exact h

/-! ## Errors -/

/-- Neither stream is in error. -/
def Calm (c : TCPConnection) : Prop :=
  c.sender.stream.error = false ∧ c.inboundStream.error = false

/-- The connection was reset: inactive, with both streams in error. -/
def IsReset (c : TCPConnection) : Prop :=
  c.activeFlag = false ∧ c.sender.stream.error = true ∧ c.inboundStream.error = true

theorem not_calm_of_isReset (h : c.IsReset) : ¬ c.Calm := by
  intro hc
  have := hc.1
  rw [h.2.1] at this
  cases this

@[simp] theorem calm_sendSenderSegments : c.sendSenderSegments.Calm ↔ c.Calm := by
  unfold Calm inboundStream
  rw [sendSenderSegments_sender, sendSenderSegments_receiver]

theorem isReset_aborted (c : TCPConnection) (rst : Bool) :
    (c.aborted rst).sendSenderSegments.IsReset := by
  unfold IsReset inboundStream
  rw [sendSenderSegments_active, sendSenderSegments_sender, sendSenderSegments_receiver]
  exact ⟨rfl, rfl, rfl⟩

theorem answer_error (s : TCPSender) (seg : TCPSegment) :
    (answer s seg).stream.error = s.stream.error := by
  unfold answer
  split
  · exact s.ackReceived_error _ _
  · exact s.ackReceived_error _ _

/-- **What puts a stream in error**: an RST, or a tick after which too many retransmissions are
counted. Either resets the connection. -/
theorem step_calm (hb : Base c) (h : c.Calm) (op : ConnOp) :
    (c.step op).Calm ∨ (c.step op).IsReset ∧ c.activeFlag = true ∧
      ((∃ seg, op = .segmentReceived seg ∧ seg.header.rst = true) ∨
        ∃ ms, op = .tick ms ∧
          TCPConfig.maxRetxAttempts < (c.sender.tick ms).consecutiveRetransmissions) := by
  have hfill : ∀ stream : ByteStream, stream.error = c.sender.stream.error →
      ({ c.sender with stream := stream } : TCPSender).fillWindow.stream.error = false := by
    intro stream he
    rw [TCPSender.fillWindow_error]
    exact he.trans h.1
  have hseg : ∀ seg, (c.receiver.segmentReceived seg).streamOut.error = false := fun seg =>
    (TCPReceiver.segmentReceived_error hb.receiver seg).trans h.2
  have hcall := called c op
  generalize c.step op = c' at hcall ⊢
  cases hcall with
  | connect | write | endInputStream => exact .inl (calm_sendSenderSegments.2 ⟨hfill _ rfl, h.2⟩)
  | segmentReceived seg hrec =>
    cases hrec with
    | inactive | ignored => exact .inl h
    | opened => exact .inl (calm_sendSenderSegments.2 ⟨hfill _ rfl, hseg _⟩)
    | reset ha hl hr => exact .inr ⟨isReset_aborted _ _, ha, .inl ⟨_, rfl, hr⟩⟩
    | simultaneous => exact .inl (calm_sendSenderSegments.2 ⟨h.1, hseg _⟩)
    | silent => exact .inl ⟨h.1, hseg _⟩
    | answered => exact .inl (calm_sendSenderSegments.2 ⟨(answer_error _ _).trans h.1, hseg _⟩)
  | tick ms ht =>
    have hstream := (TCPSender.tick_frame c.sender ms).stream
    cases ht with
    | inactive => exact .inl h
    | passed => exact .inl (calm_sendSenderSegments.2 ⟨by rw [hstream]; exact h.1, h.2⟩)
    | gaveUp ha hk => exact .inr ⟨isReset_aborted _ _, ha, .inr ⟨ms, rfl, hk⟩⟩
  | writeNothing | read | popSegment => exact .inl h

theorem error_rule : SenderRule fun s => s.stream.error = true where
  drain _ h := h
  fill s h := s.fillWindow_error.trans h
  endFill _ h := (TCPSender.fillWindow_error _).trans h
  error _ _ := rfl
  empty _ h := h
  ack s ackno windowSize h _ := (s.ackReceived_error ackno windowSize).trans h

/-- A reset connection stays so. -/
theorem step_isReset (hb : Base c) (h : c.IsReset) (op : ConnOp) : (c.step op).IsReset := by
  refine ⟨?_, ?_, ?_⟩
  · refine Bool.eq_false_iff.2 fun ha => ?_
    have := step_active ha
    rw [h.1] at this
    cases this
  · refine error_rule.step hb.syn_of_not_listen h.2.1 op
      (fun _ _ => (TCPSender.fillWindow_error _).trans h.2.1) fun ms _ _ => ?_
    rw [(TCPSender.tick_frame c.sender ms).stream]
    exact h.2.1
  · exact step_receiver (I := fun r => r.streamOut.error = true) h.2.2 op (fun _ _ => rfl)
      (fun seg _ _ _ => (TCPReceiver.segmentReceived_error hb.receiver seg).trans h.2.2)
      (fun _ _ => h.2.2)

theorem calm_of_active (h : c.Calm ∨ c.IsReset) (ha : c.activeFlag = true) : c.Calm := by
  rcases h with hc | hr
  · exact hc
  · rw [hr.1] at ha
    cases ha

theorem step_calm_or (hb : Base c) (h : c.Calm ∨ c.IsReset) (op : ConnOp) :
    (c.step op).Calm ∨ (c.step op).IsReset := by
  rcases h with hc | hr
  · rcases step_calm hb hc op with hc' | ⟨hr, -⟩
    · exact .inl hc'
    · exact .inr hr
  · exact .inr (step_isReset hb hr op)

end Sponge.TCPConnection
