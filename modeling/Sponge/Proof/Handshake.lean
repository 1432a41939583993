import Sponge.Proof.Replies

/-!
# No data before the handshake

`fill_window` does not ask whether our SYN is acknowledged. What keeps data back is the peer's
window: it is 1 until an acknowledgment changes it, and the SYN uses it up. An acknowledgment of
number 0 can open the window, and one of our SYN does, whether the peer's SYN has come or not.

As long as nothing past the SYN has been sent, a call sends data exactly if it `Releases` something:
`fill_window` finds room and something unsent. `run_gated_iff`: data waits for the handshake in
exactly the runs in which every such call finds the handshake complete (`Gates`).
-/

namespace Sponge

/-- The segment carries payload or the FIN. -/
def TCPSegment.HasData (seg : TCPSegment) : Prop := seg.payload ≠ [] ∨ seg.header.fin = true

instance (seg : TCPSegment) : Decidable seg.HasData := inferInstanceAs (Decidable (_ ∨ _))

namespace TCPSender

open TCPSegment (lengthInSequenceSpace)

variable {s : TCPSender} {isn : WrappingInt32}

/-! ## The sender -/

/-- The segment has the number `p`, and no data at number 0. -/
def Leading (isn : WrappingInt32) (p : ℕ) (seg : TCPSegment) : Prop :=
  Numbered isn p seg ∧ (p = 0 → ¬ seg.HasData)

theorem exists_hasData_concat (queue : List TCPSegment) (t : TCPSegment) :
    (∃ seg ∈ queue ++ [t], seg.HasData) ↔ (∃ seg ∈ queue, seg.HasData) ∨ t.HasData := by
  simp [or_and_right, exists_or]

theorem not_hasData_synSegment (s : TCPSender) : ¬ s.synSegment.HasData := by
  simp [TCPSegment.HasData, synSegment]

theorem not_hasData_emptySegment (s : TCPSender) : ¬ s.emptySegment.HasData := by
  simp [TCPSegment.HasData, emptySegment]

theorem emits_leading (isn : WrappingInt32) : Emits (Leading isn) (fun s => s.isn = isn) where
  syn s h hj hs := by
    obtain ⟨hn, hj'⟩ := (emits_numbered isn).syn s (h.mono fun _ _ hp => hp.1) hj hs
    exact ⟨⟨hn, fun _ => not_hasData_synSegment s⟩, hj'⟩
  data n s h hj hs hn hc := by
    obtain ⟨hnum, hj'⟩ := (emits_numbered isn).data n s (h.mono fun _ _ hp => hp.1) hj hs hn hc
    refine ⟨⟨hnum, ?_⟩, hj'⟩
    intro hzero
    have := h.syn.1 hs
    omega
  fin s h hj hs hf he := by
    obtain ⟨hnum, hj'⟩ := (emits_numbered isn).fin s (h.mono fun _ _ hp => hp.1) hj hs hf he
    refine ⟨⟨hnum, ?_⟩, hj'⟩
    intro hzero
    have := h.syn.1 hs
    omega

theorem hasData_dataSegment {n : ℕ} (hn : 0 < n) (hc : s.stream.contents ≠ []) :
    (s.dataSegment n).HasData :=
  .inl (dataSegment_payload_ne_nil hn hc)

/-- The queue of a call: data is on it exactly if numbers past the SYN's are in use, `n` being the
next number before the call. -/
structure Shown (n : ℕ) (isn : WrappingInt32) (s : TCPSender) : Prop where
  inv : Inv (Leading isn) s
  isn : s.isn = isn
  shown : n ≤ 1 → ((∃ seg ∈ s.segmentsOut, seg.HasData) ↔ 2 ≤ s.nextSeqno)

variable {n : ℕ}

/-- At the start of a call the queue is empty. -/
theorem shown_of_nil (h : Inv (Leading isn) s) (hisn : s.isn = isn) (hq : s.segmentsOut = []) :
    Shown s.nextSeqno isn s := by
  refine ⟨h, hisn, fun hle => ?_⟩
  rw [hq]
  exact iff_of_false (by simp) (by omega)

/-- A change of what the queue and the numbers do not depend on. -/
theorem Shown.frame {s' : TCPSender} (h : Shown n isn s) (hinv : Inv (Leading isn) s')
    (hisn : s'.isn = s.isn) (hnext : s'.nextSeqno = s.nextSeqno)
    (hout : s'.segmentsOut = s.segmentsOut) : Shown n isn s' := by
  refine ⟨hinv, hisn.trans h.isn, ?_⟩
  rw [hout, hnext]
  exact h.shown

theorem Shown.setStream (h : Shown n isn s) (stream : ByteStream) :
    Shown n isn { s with stream := stream } :=
  h.frame (h.inv.setStream stream) rfl rfl rfl

/-- A segment with data is queued: the SYN was sent before it. -/
theorem Shown.emit {s' : TCPSender} {seg : TCPSegment} (hinv : Inv (Leading isn) (s'.emit seg))
    (hisn : (s'.emit seg).isn = isn) (hs : 0 < s'.nextSeqno) (hd : seg.HasData)
    (hpos : 0 < seg.lengthInSequenceSpace) : Shown n isn (s'.emit seg) := by
  refine ⟨hinv, hisn, fun _ => ?_⟩
  rw [emit_segmentsOut, exists_hasData_concat, emit_nextSeqno]
  exact iff_of_true (.inr hd) (by omega)

/-- **`fill_window`** uses a number past the SYN's exactly if it queues data. -/
theorem Shown.fillWindow (h : Shown n isn s) : Shown n isn s.fillWindow := by
  apply fillWindow_rule (I := Shown n isn) h
  · intro hs
    obtain ⟨hlead, hisn⟩ := (emits_leading isn).syn s h.inv h.isn hs
    obtain ⟨hnext, hflight⟩ := h.inv.fresh hs
    refine ⟨h.inv.sendSyn hs hlead, hisn, fun hn => ?_⟩
    rw [sendSyn_eq hnext hflight, emit_nextSeqno, emit_segmentsOut, exists_hasData_concat,
      or_iff_left (not_hasData_synSegment s), h.shown hn, length_synSegment, hnext]
    omega
  · intro k s' h' hs hk hc
    obtain ⟨hlead, hisn⟩ := (emits_leading isn).data k s' h'.inv h'.isn hs hk hc
    have hinv := h'.inv.sendData hs hk hc hlead
    rw [sendData_eq] at hinv hisn ⊢
    exact Shown.emit hinv hisn (h'.inv.syn.1 hs) (hasData_dataSegment hk hc) (dataSegment_pos hk hc)
  · intro s' h' hs hf he
    obtain ⟨hlead, hisn⟩ := (emits_leading isn).fin s' h'.inv h'.isn hs hf he
    have hinv := h'.inv.sendFin hs hlead
    rw [sendFin_eq] at hinv hisn ⊢
    exact Shown.emit hinv hisn (h'.inv.syn.1 hs) (.inr rfl)
      (by simp [finSegment, lengthInSequenceSpace])

theorem Shown.ackReceived (h : Shown n isn s) (ackno : WrappingInt32) (windowSize : UInt16) :
    Shown n isn (s.ackReceived ackno windowSize) := by
  have hwin : ∀ a, Shown n isn (s.ackWindow a windowSize) := fun a =>
    h.frame (h.inv.ackWindow a windowSize) rfl rfl rfl
  obtain ⟨-, he⟩ | ⟨t, rest, -, -, he⟩ | ⟨t, rest, -, -, he⟩ :=
    ackReceived_cases s ackno windowSize rfl <;> rw [he]
  · exact hwin _
  · exact hwin _
  · exact (h.frame (h.inv.ackPopped _ windowSize) rfl rfl rfl).fillWindow

/-- What is repeated has data only at a number past the SYN's. -/
theorem Shown.tick (h : Shown n isn s) (ms : ℕ) : Shown n isn (s.tick ms) := by
  have hf := tick_frame s ms
  refine ⟨h.inv.tick ms, by rw [hf.isn]; exact h.isn, fun hn => ?_⟩
  rw [hf.nextSeqno, ← h.shown hn]
  obtain ⟨-, he⟩ | ⟨t, rest, hl, -, he⟩ := s.tick_cases ms
  · rw [he]
  · rw [he, exists_hasData_concat]
    refine or_iff_left_of_imp fun hd => (h.shown hn).2 ?_
    obtain ⟨hlead, hpos, hend⟩ := h.inv.front hl
    have hfirst : s.una ≠ 0 := fun hzero => hlead.2 hzero hd
    omega

/-- `fill_window` finds our SYN sent, room in the window and something unsent. -/
def Pours (s : TCPSender) : Prop := s.synFlag = true ∧ s.remain ≠ 0 ∧ s.Unsent

instance (s : TCPSender) : Decidable s.Pours := inferInstanceAs (Decidable (_ ∧ _ ∧ s.Unsent))

/-- **When `fill_window` sends data**, as long as nothing past the SYN has been sent. -/
theorem Inv.fillWindow_next_le_iff {P : ℕ → TCPSegment → Prop} (h : Inv P s)
    (hle : s.nextSeqno ≤ 1) : s.fillWindow.nextSeqno ≤ 1 ↔ ¬ s.Pours := by
  cases hs : s.synFlag with
  | false =>
    rw [fillWindow_of_fresh h hs, emit_nextSeqno, length_synSegment, (h.fresh hs).1]
    exact iff_of_true (by omega) fun hp => by rw [Pours, hs] at hp; cases hp.1
  | true =>
    have hpos := h.syn.1 hs
    by_cases hidle : s.remain = 0 ∨ ¬ s.Unsent
    · rw [fillWindow_idle hs hidle]
      exact iff_of_true hle fun hp => hidle.elim hp.2.1 fun hu => hu hp.2.2
    · obtain ⟨hr, hu⟩ := not_or.1 hidle
      have hlt := fillWindow_next_lt hs hr (not_not.1 hu)
      exact iff_of_false (by omega) fun hno => hno ⟨hs, hr, not_not.1 hu⟩

/-- The SYN alone is outstanding, and found at its number 0. -/
theorem Inv.front_syn (h : Inv (Leading isn) s) (hisn : s.isn = isn) (hnext : s.nextSeqno = 1)
    (hflight : s.bytesInFlight = 1) : ∃ t, s.segmentsOutstanding = [t] ∧ s.absSeqno t = 0 ∧
      t.lengthInSequenceSpace = 1 := by
  have hadd := h.una_add
  have htotal := h.flight_eq
  obtain ⟨t, rest, hl⟩ : ∃ t rest, s.segmentsOutstanding = t :: rest := by
    apply List.exists_cons_of_ne_nil
    intro hnil
    have := h.outstanding_eq_nil.1 hnil
    omega
  obtain ⟨hlead, hpos, hend⟩ := h.front hl
  have hlen : t.lengthInSequenceSpace = 1 := by omega
  have hrest : rest = [] := by
    have hlaid := h.laid
    rw [hl] at hlaid
    rw [← totalLength_eq_zero hlaid.2]
    rw [hl] at htotal
    simp only [totalLength, List.map_cons, List.sum_cons] at htotal ⊢
    omega
  refine ⟨t, by rw [hl, hrest], ?_, hlen⟩
  have hseq : t.header.seqno = wrap 0 s.isn := by
    rw [hisn, hlead.1]
    congr 1
    omega
  unfold absSeqno
  rw [hseq, hnext]
  exact unwrap_wrap_le (by omega) (by omega)

theorem remain_ne_zero (h : s.bytesInFlight < s.window) : s.remain ≠ 0 := by
  have := add_remain (s := s) (by omega)
  omega

/-- With the SYN alone outstanding, an acknowledgment is taken if it is of number 0 with a window of
2 or more, or of the SYN. -/
theorem ackTaken_iff {t : TCPSegment} (hnext : s.nextSeqno = 1) (habs : s.absSeqno t = 0)
    (hlen : t.lengthInSequenceSpace = 1) (a : ℕ) (windowSize : UInt16) :
    s.ackIgnored a windowSize t = false ↔
      (a = 0 ∧ 2 ≤ windowSize) ∨ (1 ≤ a ∧ a ≤ s.nextSeqno) := by
  have htwo : (2 ≤ windowSize) ↔ 2 ≤ windowSize.toNat := UInt16.le_iff_toNat_le
  rw [Bool.eq_false_iff, Ne, ackIgnored_iff, habs, hlen, htwo, hnext]
  split <;> rename_i hw
  · rw [hw]
    simp
    omega
  · omega

/-- Then there is room for more than what stays outstanding. -/
theorem Inv.room_ackPopped (h : Inv (Leading isn) s) {t : TCPSegment}
    (hl : s.segmentsOutstanding = [t]) (habs : s.absSeqno t = 0)
    (hlen : t.lengthInSequenceSpace = 1)
    {a : ℕ} {windowSize : UInt16} (ha : (a = 0 ∧ 2 ≤ windowSize) ∨ 1 ≤ a) :
    (s.ackPopped a windowSize).remain ≠ 0 := by
  apply remain_ne_zero
  rw [(h.ackPopped a windowSize).flight_eq]
  show totalLength (s.kept a) < max 1 windowSize.toNat
  unfold kept
  rw [hl]
  rcases ha with ⟨rfl, hw⟩ | ha
  · have hw : 2 ≤ windowSize.toNat := UInt16.le_iff_toNat_le.1 hw
    have hstays : ¬ s.acked 0 t = true := by simp [acked_iff]
    rw [List.dropWhile_cons_of_neg hstays]
    simp [totalLength, hlen]
    omega
  · have hgoes : s.acked a t = true := by
      rw [acked_iff, habs, hlen]
      omega
    rw [List.dropWhile_cons_of_pos hgoes]
    simp [totalLength]

/-- **When an acknowledgment releases data**, as long as nothing past the SYN has been sent: our SYN
is unacknowledged, something is unsent, and the acknowledgment is of number 0 with a window of 2 or
more, or of our SYN. -/
theorem Inv.ackReceived_next_le_iff (h : Inv (Leading isn) s) (hisn : s.isn = isn)
    (hnext : s.nextSeqno = 1) (ackno : WrappingInt32) (windowSize : UInt16) {a : ℕ}
    (ha : unwrap ackno s.isn s.nextSeqno = a) :
    (s.ackReceived ackno windowSize).nextSeqno ≤ 1 ↔ ¬ (s.bytesInFlight = 1 ∧ s.Unsent ∧
      ((a = 0 ∧ 2 ≤ windowSize) ∨ (1 ≤ a ∧ a ≤ s.nextSeqno))) := by
  obtain ⟨hnil, he⟩ | hfront | hfront := ackReceived_cases s ackno windowSize ha
  · rw [he]
    have hzero := h.outstanding_eq_nil.1 hnil
    exact iff_of_true (Nat.le_of_eq hnext) fun hno => by omega
  all_goals
    obtain ⟨t, rest, hl, hi, he⟩ := hfront
    have hflight : s.bytesInFlight = 1 := by
      have hne : s.bytesInFlight ≠ 0 := fun h0 => by
        rw [h.outstanding_eq_nil.2 h0] at hl
        cases hl
      have := h.flight_le
      omega
    obtain ⟨t', hl', habs, hlen⟩ := h.front_syn hisn hnext hflight
    have hsame : t' = t := by
      rw [hl'] at hl
      exact (List.cons.inj hl).1
    rw [hsame] at hl' habs hlen
    have htaken := ackTaken_iff hnext habs hlen a windowSize
    rw [he, ← htaken, hi]
  · exact iff_of_true (Nat.le_of_eq hnext) fun hno => by simp at hno
  · have hroom : (s.ackPopped a windowSize).remain ≠ 0 :=
      h.room_ackPopped hl' habs hlen ((htaken.1 hi).imp_right (·.1))
    rw [(h.ackPopped a windowSize).fillWindow_next_le_iff (Nat.le_of_eq hnext)]
    have hsyn : s.synFlag = true := h.syn.2 (by omega)
    exact not_congr ⟨fun hp => ⟨hflight, hp.2.2, rfl⟩, fun hp => ⟨hsyn, hroom, hp.2.1⟩⟩

end TCPSender

namespace TCPConnection

open TCPSender (Leading Shown)

variable {c : TCPConnection} {isn : WrappingInt32}

theorem shown_rule (n : ℕ) (isn : WrappingInt32) : CallRule (Shown n isn) where
  fill _ h := h.fillWindow
  endFill _ h := (h.setStream _).fillWindow
  error _ h := h.setStream _
  empty s h := by
    have hnone := TCPSender.not_hasData_emptySegment s
    refine ⟨h.inv.sendEmptySegment ⟨?_, fun _ => hnone⟩, h.isn, fun hn => ?_⟩
    · rw [TCPSender.Numbered, ← h.isn]
      rfl
    · show (∃ seg ∈ s.segmentsOut ++ [s.emptySegment], seg.HasData) ↔ 2 ≤ s.nextSeqno
      rw [TCPSender.exists_hasData_concat, or_iff_left hnone]
      exact h.shown hn

theorem hasData_fillFields {receiver : TCPReceiver} {rst : Bool} {seg : TCPSegment} :
    (fillFields receiver rst seg).HasData ↔ seg.HasData := by
  unfold TCPSegment.HasData
  rw [fillFields_payload, fillFields_fin]

/-- The connection's fields do not change which segments have data. -/
theorem exists_hasData_stamped (receiver : TCPReceiver) (rst : Bool) (segs : List TCPSegment) :
    (∃ seg ∈ stamped receiver rst segs, seg.HasData) ↔ ∃ seg ∈ segs, seg.HasData := by
  cases segs with
  | nil => rfl
  | cons seg rest => simp [stamped, hasData_fillFields]

theorem exists_hasData_outgoing (c : TCPConnection) :
    (∃ seg ∈ c.outgoing, seg.HasData) ↔ ∃ seg ∈ c.sender.segmentsOut, seg.HasData := by
  unfold outgoing
  split
  · rename_i hempty
    obtain ⟨hnil, -⟩ := Bool.and_eq_true_iff.1 hempty
    simp [List.isEmpty_iff.1 hnil, TCPSender.not_hasData_emptySegment]
  · rfl

/-- **A call** emits data exactly if it uses numbers past the SYN's, when none was in use. -/
theorem emits_data_iff (hb : Base c) (h : TCPSender.Inv (Leading isn) c.sender)
    (hisn : c.sender.isn = isn) (op : ConnOp) :
    TCPSender.Inv (Leading isn) (c.step op).sender ∧ (c.step op).sender.isn = isn ∧
      (c.sender.nextSeqno ≤ 1 →
        ((∃ seg ∈ c.emitted op, seg.HasData) ↔ 2 ≤ (c.step op).sender.nextSeqno)) := by
  have hstart := TCPSender.shown_of_nil h hisn hb.queue
  obtain ⟨hsame, hnil⟩ | ⟨x, hsent, hx, hstamped⟩ := (shown_rule _ isn).emits hstart op
    (fun _ _ => (hstart.setStream _).fillWindow) (fun _ _ _ => hstart.ackReceived _ _)
    (fun ms _ _ => hstart.tick ms)
  · rw [hsame, hnil]
    exact ⟨h, hisn, fun hle => iff_of_false (by simp) (by omega)⟩
  · rw [hsent, hstamped, exists_hasData_stamped, exists_hasData_outgoing]
    exact ⟨hx.inv.setQueue (List.forall_mem_nil _), hx.isn, hx.shown⟩

/-- Once the receiver has the peer's SYN, everything emitted has the ACK flag. -/
theorem ack_of_emitted {op : ConnOp} {seg : TCPSegment}
    (hs : (c.step op).receiver.synFlag = true) (hseg : seg ∈ c.emitted op) :
    seg.header.ack = true := by
  have rule : CallRule fun _ => True :=
    ⟨fun _ _ => trivial, fun _ _ => trivial, fun _ _ => trivial, fun _ _ => trivial⟩
  obtain ⟨-, hnil⟩ | ⟨x, -, -, hstamped⟩ := rule.emits trivial op (fun _ _ => trivial)
    (fun _ _ _ => trivial) (fun _ _ _ => trivial)
  · rw [hnil] at hseg
    cases hseg
  · rw [hstamped] at hseg
    obtain ⟨seg₀, -, rst, rfl⟩ := mem_stamped hseg
    exact (fillFields_ack hs rst seg₀).1

theorem answer_nextSeqno (s : TCPSender) (seg : TCPSegment) :
    (answer s seg).nextSeqno = (s.ackReceived seg.header.ackno seg.header.win).nextSeqno := by
  unfold answer
  split <;> rfl

/-! ## Runs -/

/-- The acknowledgment of a received segment, as the sender reads it. -/
def absAckno (c : TCPConnection) (seg : TCPSegment) : ℕ :=
  unwrap seg.header.ackno c.sender.isn c.sender.nextSeqno

/-- The call brings an acknowledgment of our SYN and of nothing unsent. -/
def acksSyn (c : TCPConnection) : ConnOp → Bool
  | .segmentReceived seg =>
    seg.header.ack && decide (1 ≤ c.absAckno seg ∧ c.absAckno seg ≤ c.sender.nextSeqno)
  | _ => false

/-- The call brings a SYN. -/
def bringsSyn : ConnOp → Bool
  | .segmentReceived seg => seg.header.syn
  | _ => false

instance (c : TCPConnection) (seg : TCPSegment) : Decidable (c.AckReaches seg) :=
  inferInstanceAs (Decidable (c.activeFlag = true ∧ c.inListen = false ∧
    (c.synUnacked = true → seg.payload = []) ∧ seg.header.ack = true ∧ seg.header.rst = false))

/-- As long as nothing past our SYN has been sent, the call sends data:
* `fill_window`, called for the owner, finds room and something unsent;
* while our SYN is unacknowledged and something is unsent, an acknowledgment reaches the sender that
  is of number 0 with a window of 2 or more, or of our SYN. -/
def Releases (c : TCPConnection) : ConnOp → Prop
  | .connect => c.sender.Pours
  | .write data => data ≠ [] ∧
      ({ c.sender with stream := (c.sender.stream.write data).2 } : TCPSender).Pours
  | .endInputStream => ({ c.sender with stream := c.sender.stream.endInput } : TCPSender).Pours
  | .segmentReceived seg => c.AckReaches seg ∧ c.synUnacked = true ∧ c.sender.Unsent ∧
      ((c.absAckno seg = 0 ∧ 2 ≤ seg.header.win) ∨
        (1 ≤ c.absAckno seg ∧ c.absAckno seg ≤ c.sender.nextSeqno))
  | .tick _ | .read _ | .popSegment => False

instance (c : TCPConnection) : DecidablePred c.Releases
  | .connect | .endInputStream => inferInstanceAs (Decidable (TCPSender.Pours _))
  | .write _ => inferInstanceAs (Decidable (_ ∧ TCPSender.Pours _))
  | .segmentReceived seg => inferInstanceAs (Decidable (c.AckReaches seg ∧ _ = true ∧ _ ∧ (_ ∨ _)))
  | .tick _ | .read _ | .popSegment => .isFalse id

/-- **When a call sends data**, as long as nothing past the SYN has been sent. -/
theorem step_next_le_iff (hb : Base c) (h : TCPSender.Inv (Leading isn) c.sender)
    (hisn : c.sender.isn = isn) (hle : c.sender.nextSeqno ≤ 1) (op : ConnOp) :
    (c.step op).sender.nextSeqno ≤ 1 ↔ ¬ c.Releases op := by
  have hcall := called c op
  generalize c.step op = c' at hcall ⊢
  cases hcall with
  | connect =>
    rw [filled, sendSenderSegments_sender]
    exact (h.setStream _).fillWindow_next_le_iff hle
  | writeNothing => exact iff_of_true hle fun hr => hr.1 rfl
  | write data hd =>
    rw [filled, sendSenderSegments_sender]
    have hfill := (h.setStream (c.sender.stream.write data).2).fillWindow_next_le_iff hle
    exact hfill.trans (not_congr (and_iff_right hd).symm)
  | endInputStream =>
    rw [filled, sendSenderSegments_sender]
    exact (h.setStream _).fillWindow_next_le_iff hle
  | segmentReceived seg hr =>
    cases hr with
    | inactive ha => exact iff_of_true hle fun hr => by simp [AckReaches, Releases, ha] at hr
    | ignored ha hi =>
      refine iff_of_true hle ?_
      rintro ⟨⟨-, hl, hp, hk, -⟩, hu, -⟩
      rcases hi with ⟨hl', -⟩ | ⟨-, -, -, hi⟩
      · rw [hl] at hl'
        cases hl'
      · rcases hi with hi | ⟨hk', -⟩
        · exact hi (hp hu)
        · rw [hk] at hk'
          cases hk'
    | opened ha hl =>
      rw [sendSenderSegments_sender]
      refine iff_of_true ((h.fillWindow_next_le_iff hle).2 fun hp => ?_) fun hr => ?_
      · have hzero : c.sender.nextSeqno = 0 := eq_of_beq (Bool.and_eq_true_iff.1 hl).1
        have hpos := h.syn.1 hp.1
        omega
      · rw [hr.1.2.1] at hl
        cases hl
    | reset ha hl hr =>
      rw [sendSenderSegments_sender]
      exact iff_of_true hle fun hrel => by rw [hrel.1.2.2.2.2] at hr; cases hr
    | simultaneous ha hl hu hp hk =>
      rw [sendSenderSegments_sender]
      exact iff_of_true hle fun hrel => by rw [hrel.1.2.2.2.1] at hk; cases hk
    | silent ha hl hu hk =>
      exact iff_of_true hle fun hrel => by rw [hrel.1.2.2.2.1] at hk; cases hk
    | answered ha hl hp hk hr =>
      have hpos := h.syn.1 (hb.syn_of_not_listen hl)
      have hnext : c.sender.nextSeqno = 1 := by omega
      have hunacked : c.synUnacked = true ↔ c.sender.bytesInFlight = 1 := by
        unfold synUnacked
        rw [Bool.and_eq_true, decide_eq_true_iff, beq_iff_eq]
        omega
      rw [sendSenderSegments_sender]
      show (answer c.sender seg).nextSeqno ≤ 1 ↔ _
      rw [answer_nextSeqno, h.ackReceived_next_le_iff hisn hnext _ _ rfl, ← hunacked]
      exact not_congr (and_iff_right ⟨ha, hl, hp, hk, hr⟩).symm
  | tick ms ht =>
    have hnext := (TCPSender.tick_frame c.sender ms).nextSeqno
    cases ht with
    | inactive => exact iff_of_true hle id
    | passed ha hk =>
      rw [sendSenderSegments_sender]
      exact iff_of_true (Nat.le_trans (Nat.le_of_eq hnext) hle) id
    | gaveUp ha hk =>
      rw [sendSenderSegments_sender]
      exact iff_of_true (Nat.le_trans (Nat.le_of_eq hnext) hle) id
  | read n => exact iff_of_true hle id
  | popSegment => exact iff_of_true hle id

end TCPConnection

/-- A connection, and whether an acknowledgment of our SYN and the peer's SYN were received. -/
structure GateRun where
  conn : TCPConnection
  synAcked : Bool
  peerSyn : Bool

namespace GateRun

open Run TCPConnection

def new (cfg : TCPConfig) (random : UInt32) : GateRun := ⟨.new cfg random, false, false⟩

/-- One call, with what it brings recorded. -/
def step (g : GateRun) (op : ConnOp) : GateRun :=
  ⟨g.conn.step op, g.synAcked || g.conn.acksSyn op, g.peerSyn || bringsSyn op⟩

/-- What the call emits has data only if both were received, and then it has the ACK flag. -/
def Waits (g : GateRun) (op : ConnOp) : Prop :=
  ∀ seg ∈ g.conn.emitted op, seg.HasData →
    (g.step op).synAcked = true ∧ (g.step op).peerSyn = true ∧ seg.header.ack = true

instance (g : GateRun) (op : ConnOp) : Decidable (g.Waits op) :=
  inferInstanceAs (Decidable (∀ seg ∈ _, _))

/-- The handshake is complete. -/
def Open (g : GateRun) : Prop := g.synAcked = true ∧ g.conn.receiver.synFlag = true

/-- A call that sends data finds the handshake complete, with what the call itself brings. -/
def Gates (g : GateRun) (op : ConnOp) : Prop := g.conn.Releases op → (g.step op).Open

instance (g : GateRun) (op : ConnOp) : Decidable (g.Gates op) :=
  inferInstanceAs (Decidable (_ → (_ ∧ _)))

structure Inv (isn : WrappingInt32) (g : GateRun) : Prop where
  base : Base g.conn
  lead : TCPSender.Inv (TCPSender.Leading isn) g.conn.sender
  isn : g.conn.sender.isn = isn
  plain : TCPSender.Inv Plain g.conn.sender
  closed : g.Open ∨ g.conn.sender.nextSeqno ≤ 1
  peer : g.conn.receiver.synFlag = true → g.peerSyn = true

variable {isn : WrappingInt32} {g : GateRun} {op : ConnOp}

theorem new_inv (cfg : TCPConfig) (random : UInt32) :
    Inv (cfg.fixedIsn.getD ⟨random⟩) (new cfg random) where
  base := new_base cfg random
  lead := TCPSender.new_inv _ _ _ _
  isn := rfl
  plain := TCPSender.new_inv _ _ _ _
  closed := .inr (Nat.zero_le _)
  peer := nofun

theorem Inv.peer_step (h : Inv isn g) :
    (g.step op).conn.receiver.synFlag = true → (g.step op).peerSyn = true := by
  apply step_receiver (I := fun r => r.synFlag = true → (g.step op).peerSyn = true)
  · intro hs
    simp [step, h.peer hs]
  · intro r hr
    exact hr
  · rintro seg rfl _ _ hs
    rw [TCPReceiver.segmentReceived_synFlag h.base.receiver, Bool.or_eq_true] at hs
    rcases hs with hs | hs
    · simp [step, h.peer hs]
    · simp [step, bringsSyn, hs]
  · intro n _ hs
    simp [step, h.peer hs]

theorem Inv.receiver_step (h : Inv isn g) (hs : g.conn.receiver.synFlag = true) :
    (g.step op).conn.receiver.synFlag = true := by
  apply step_receiver (I := fun r => r.synFlag = true) hs
  · intro r hr
    exact hr
  · intro seg _ _ _
    rw [TCPReceiver.segmentReceived_synFlag h.base.receiver, hs]
    rfl
  · intro n _
    exact hs

theorem Inv.open_step (h : Inv isn g) (ho : g.Open) : (g.step op).Open :=
  ⟨by simp [GateRun.step, ho.1], h.receiver_step ho.2⟩

/-- **One call**: data waits exactly if the handshake is complete with it, or no number past the
SYN's is in use after it. -/
theorem Inv.waits_iff (h : Inv isn g) :
    g.Waits op ↔ (g.step op).Open ∨ (g.step op).conn.sender.nextSeqno ≤ 1 := by
  obtain ⟨-, -, hdata⟩ := emits_data_iff h.base h.lead h.isn op
  have hopen : (g.step op).Open → g.Waits op := fun ho seg hseg _ =>
    ⟨ho.1, h.peer_step ho.2, ack_of_emitted ho.2 hseg⟩
  rcases h.closed with ho | hle
  · exact iff_of_true (hopen (h.open_step ho)) (.inl (h.open_step ho))
  · constructor
    · intro hw
      refine (Nat.lt_or_ge 1 (g.conn.step op).sender.nextSeqno).imp (fun hlt => ?_) id
      obtain ⟨seg, hseg, hd⟩ := (hdata hle).2 hlt
      obtain ⟨hacked, -, hack⟩ := hw seg hseg hd
      exact ⟨hacked, (emitted_ack h.base h.plain hseg hack).1⟩
    · rintro (ho | hle')
      · exact hopen ho
      · intro seg hseg hd
        exact absurd hle' (Nat.not_le.2 ((hdata hle).1 ⟨seg, hseg, hd⟩))

/-- **One call** meets the condition exactly then, too. -/
theorem Inv.gates_iff (h : Inv isn g) :
    g.Gates op ↔ (g.step op).Open ∨ (g.step op).conn.sender.nextSeqno ≤ 1 := by
  rcases h.closed with ho | hle
  · exact iff_of_true (fun _ => h.open_step ho) (.inl (h.open_step ho))
  · rw [Gates, imp_iff_or_not]
    exact or_congr_right (step_next_le_iff h.base h.lead h.isn hle op).symm

theorem Inv.step (h : Inv isn g) (hg : g.Gates op) : Inv isn (g.step op) := by
  obtain ⟨hlead, hisn, -⟩ := emits_data_iff h.base h.lead h.isn op
  exact ⟨h.base.step op, hlead, hisn, step_plain h.base h.plain op, h.gates_iff.1 hg, h.peer_step⟩

/-- **Data waits for the handshake**: payload and FIN are emitted only after an acknowledgment of
our SYN and the peer's SYN were received, and with the ACK flag, in exactly the runs in which every
call that sends data finds the handshake complete. -/
theorem run_gated_iff (cfg : TCPConfig) (random : UInt32) (ops : List ConnOp) :
    Guarded GateRun.step Waits (GateRun.new cfg random) ops ↔
      Guarded GateRun.step Gates (GateRun.new cfg random) ops :=
  guarded_iff_guarded (A := fun _ _ => True) (fun _ _ h _ hg => Inv.step h hg)
    (fun _ _ h _ => (Inv.waits_iff h).trans (Inv.gates_iff h).symm) (new_inv cfg random)
    (guarded_of_forall (fun _ _ => trivial) _ _)

/-- The handshake, and then a byte. -/
theorem gated_of_handshake :
    Guarded GateRun.step Waits (GateRun.new { fixedIsn := some ⟨0⟩ } 0)
      [.connect, .write [97], .segmentReceived
        { header := { syn := true, ack := true, ackno := ⟨1⟩, win := 9 } }] :=
  (run_gated_iff _ _ _).2 (by decide +kernel)

-- an acknowledgment of number 0 with nothing to send is harmless
example : Guarded GateRun.step Gates (GateRun.new { fixedIsn := some ⟨0⟩ } 0)
    [.connect, .segmentReceived { header := { ack := true, ackno := ⟨0⟩, win := 9 } },
      .segmentReceived { header := { syn := true, ack := true, ackno := ⟨1⟩, win := 9 } },
      .write [97]] := by
  decide +kernel

/-- An acknowledgment of number 0 with a window of 9, in `SYN_SENT`: the byte is sent. -/
theorem ack_of_isn_releases_data :
    ¬ Guarded GateRun.step Waits (GateRun.new { fixedIsn := some ⟨0⟩ } 0)
      [.connect, .write [97], .segmentReceived
        { header := { ack := true, ackno := ⟨0⟩, win := 9 } }] := by
  decide +kernel

end GateRun

end Sponge
