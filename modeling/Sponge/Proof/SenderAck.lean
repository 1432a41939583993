import Sponge.Proof.Sender
import Mathlib.Data.List.TakeWhile

/-!
# Acknowledgments that are read exactly

`ack_received` finds a segment's absolute number by `unwrap` around `_next_seqno`. While at most
`2 ^ 31` numbers are in flight this is the segment's true number (`Inv.absSeqno_eq`). Then an
acknowledgment of `a` removes exactly the segments that end at or before `a` (`gone_le`,
`Inv.kept_gt`), and the first number in flight stays at or below `a` (`Inv.una_le_ack`).

`fillWindow_pushes`: what `fill_window` adds to the queue it adds to the outstanding segments.
-/

namespace Sponge.TCPSender

open TCPSegment (lengthInSequenceSpace)

variable {P : ℕ → TCPSegment → Prop} {s : TCPSender} {a : ℕ}

/-- A segment at number `p` in flight is found at `p`. -/
theorem absSeqno_eq {p : ℕ} {seg : TCPSegment} (hnum : Numbered s.isn p seg) (hle : p ≤ s.nextSeqno)
    (hsmall : s.nextSeqno ≤ p + 2 ^ 31) : s.absSeqno seg = p := by
  rw [absSeqno, hnum]
  exact unwrap_wrap_le hle hsmall

section
variable (h : Inv P s) (hP : ∀ p seg, P p seg → Numbered s.isn p seg)
  (hsmall : s.bytesInFlight ≤ 2 ^ 31)
include h hP hsmall

/-- Every outstanding segment is found at its own number. -/
theorem Inv.outstanding_at {seg : TCPSegment} (hseg : seg ∈ s.segmentsOutstanding) :
    P (s.absSeqno seg) seg ∧ s.una ≤ s.absSeqno seg ∧
      s.absSeqno seg + seg.lengthInSequenceSpace ≤ s.nextSeqno := by
  obtain ⟨p, h1, h2, h3⟩ := h.laid.mem seg hseg
  have hadd := h.una_add
  have he : s.absSeqno seg = p := absSeqno_eq (hP p seg h3.1) (by omega) (by omega)
  rw [he]
  exact ⟨h3.1, h1, h2⟩

/-- The outstanding segments lie end to end, by the numbers that the sender finds. -/
theorem Inv.contiguous :
    Laid (fun p seg => s.absSeqno seg = p) lengthInSequenceSpace s.una s.segmentsOutstanding
      s.nextSeqno := by
  have hadd := h.una_add
  have hmain : ∀ {segs : List TCPSegment} {b : ℕ}, s.una ≤ b →
      Laid (fun p seg => P p seg ∧ 0 < seg.lengthInSequenceSpace) lengthInSequenceSpace b segs
        s.nextSeqno →
      Laid (fun p seg => s.absSeqno seg = p) lengthInSequenceSpace b segs s.nextSeqno := by
    intro segs
    induction segs with
    | nil => intro b _ hl; exact hl
    | cons seg segs ih =>
      intro b hb hl
      have hle := hl.2.le
      exact ⟨absSeqno_eq (hP b seg hl.1.1) (by omega) (by omega), ih (by omega) hl.2⟩
  exact hmain (Nat.le_refl _) h.laid

/-- What an acknowledgment of `a` keeps ends past `a`. -/
theorem Inv.kept_gt {seg : TCPSegment} (hseg : seg ∈ s.kept a) :
    a < s.absSeqno seg + seg.lengthInSequenceSpace := by
  have hadd := h.una_add
  have hl := (h.laid_gone a).2
  have hfirst : ∀ t rest, s.kept a = t :: rest → s.acked a t = false := by
    intro t rest hk
    have := List.head?_dropWhile_not (s.acked a) s.segmentsOutstanding
    rw [show s.segmentsOutstanding.dropWhile (s.acked a) = t :: rest from hk] at this
    simpa using this
  cases hk : s.kept a with
  | nil => rw [hk] at hseg; cases hseg
  | cons t rest =>
    rw [hk] at hl hseg
    have hle := hl.2.le
    have ht : s.absSeqno t = s.una + totalLength (s.gone a) :=
      absSeqno_eq (hP _ t hl.1.1) (by omega) (by omega)
    have hpos := hl.1.2
    have hnot := Bool.eq_false_iff.1 (hfirst t rest hk)
    rw [Ne, acked_iff] at hnot
    rcases List.mem_cons.1 hseg with rfl | hseg
    · omega
    · obtain ⟨p, h1, h2, h3⟩ := hl.2.mem seg hseg
      have hp := absSeqno_eq (hP p seg h3.1) (by omega) (by omega)
      have := h3.2
      omega

/-- After an acknowledgment of `a` that removes something, the first number in flight is at most
`a`. -/
theorem Inv.una_le_ack (hne : s.gone a ≠ []) : s.una + totalLength (s.gone a) ≤ a := by
  have hadd := h.una_add
  obtain ⟨hl, hk⟩ := h.laid_gone a
  have hkle := hk.le
  obtain ⟨init, t, hg⟩ : ∃ init t, s.gone a = init ++ [t] :=
    ⟨_, _, (List.dropLast_append_getLast hne).symm⟩
  have hmem : t ∈ s.gone a := by rw [hg]; simp
  rw [hg, Laid.append_iff] at hl
  obtain ⟨b, h1, h2, h3⟩ := hl
  have h3 : b + t.lengthInSequenceSpace = s.una + totalLength (init ++ [t]) := h3
  have hle := h1.le
  rw [hg] at hkle
  have ht : s.absSeqno t = b := absSeqno_eq (hP b t h2.1) (by omega) (by omega)
  have hack := List.mem_takeWhile_imp hmem
  rw [acked_iff] at hack
  have := h2.2
  rw [hg]
  omega

end

/-- What an acknowledgment of `a` removes ends at or before `a`. -/
theorem gone_le {seg : TCPSegment} (hseg : seg ∈ s.gone a) :
    s.absSeqno seg + seg.lengthInSequenceSpace ≤ a := by
  have hack := List.mem_takeWhile_imp hseg
  rw [acked_iff] at hack
  omega

/-- The first outstanding segment is not read as acknowledged by an ignored acknowledgment. -/
theorem gone_eq_nil_of_ignored {windowSize : UInt16} {t : TCPSegment} {rest : List TCPSegment}
    (hl : s.segmentsOutstanding = t :: rest) (hpos : 0 < t.lengthInSequenceSpace)
    (hi : s.ackIgnored a windowSize t = true) (hle : a ≤ s.nextSeqno) : s.gone a = [] := by
  rw [gone, hl, List.takeWhile_cons_of_neg]
  rw [ackIgnored_iff] at hi
  rw [acked_iff]
  omega

/-! ## What is pushed -/

/-- The segments that `s'` has pushed since `s`, on both queues. -/
def Pushes (s s' : TCPSender) : Prop :=
  ∃ new, s'.segmentsOut = s.segmentsOut ++ new ∧
    s'.segmentsOutstanding = s.segmentsOutstanding ++ new

theorem Pushes.emit {s₀ : TCPSender} (h : Pushes s₀ s) (seg : TCPSegment) :
    Pushes s₀ (s.emit seg) := by
  obtain ⟨new, h1, h2⟩ := h
  refine ⟨new ++ [seg], ?_, ?_⟩
  · rw [emit_segmentsOut, h1, List.append_assoc]
  · rw [emit_outstanding, h2, List.append_assoc]

/-- **`fill_window` pushes** the same segments on both queues. -/
theorem fillWindow_pushes (s : TCPSender) : Pushes s s.fillWindow := by
  refine fillWindow_rule (I := Pushes s) ⟨[], by simp, by simp⟩ (fun _ => ?_)
    (fun n s' hi _ _ _ => ?_) (fun s' hi _ _ _ => ?_)
  · refine ⟨[s.synSegment], ?_, ?_⟩ <;> rw [sendSyn, startTimer_eq] <;> rfl
  · rw [sendData_eq]
    exact Pushes.emit (s := s'.readPayload n) hi _
  · rw [sendFin_eq]
    exact hi.emit _

/-- **What leaves and what comes** in an acknowledgment, on both queues. -/
theorem ackReceived_split (s : TCPSender) (ackno : WrappingInt32) (windowSize : UInt16) {a : ℕ}
    (ha : unwrap ackno s.isn s.nextSeqno = a) :
    ∃ gone kept new, s.segmentsOutstanding = gone ++ kept ∧
      (s.ackReceived ackno windowSize).segmentsOutstanding = kept ++ new ∧
      (s.ackReceived ackno windowSize).segmentsOut = s.segmentsOut ++ new ∧
      ((gone = [] ∧ new = [] ∧ s.ackReceived ackno windowSize = s.ackWindow a windowSize ∧
          ∀ t rest, s.segmentsOutstanding = t :: rest → s.ackIgnored a windowSize t = true) ∨
        (gone = s.gone a ∧ kept = s.kept a ∧ a ≤ s.nextSeqno ∧
          s.ackReceived ackno windowSize = (s.ackPopped a windowSize).fillWindow)) := by
  obtain ⟨hl, he⟩ | ⟨t, rest, hl, hi, he⟩ | ⟨t, rest, hl, hi, he⟩ :=
    ackReceived_cases s ackno windowSize ha
  · refine ⟨[], s.segmentsOutstanding, [], rfl, ?_, ?_, .inl ⟨rfl, rfl, he, ?_⟩⟩
    · rw [he, List.append_nil]; rfl
    · rw [he, List.append_nil]; rfl
    · intro t rest hl'
      rw [hl] at hl'
      cases hl'
  · refine ⟨[], s.segmentsOutstanding, [], rfl, ?_, ?_, .inl ⟨rfl, rfl, he, ?_⟩⟩
    · rw [he, List.append_nil]; rfl
    · rw [he, List.append_nil]; rfl
    · intro t' rest' hl'
      rw [hl] at hl'
      cases hl'
      exact hi
  · obtain ⟨new, h1, h2⟩ := fillWindow_pushes (s.ackPopped a windowSize)
    refine ⟨s.gone a, s.kept a, new, (gone_append_kept s a).symm, ?_, ?_,
      .inr ⟨rfl, rfl, le_of_not_ignored hi, he⟩⟩
    · rw [he, h2]; rfl
    · rw [he, h1]; rfl

/-- The outstanding payloads and the unsent bytes are one list that `fill_window` only cuts
elsewhere. -/
theorem fillWindow_bytes (s : TCPSender) :
    s.fillWindow.segmentsOutstanding.flatMap TCPSegment.payload ++ s.fillWindow.stream.contents =
      s.segmentsOutstanding.flatMap TCPSegment.payload ++ s.stream.contents := by
  refine fillWindow_rule (I := fun s' =>
      s'.segmentsOutstanding.flatMap TCPSegment.payload ++ s'.stream.contents =
        s.segmentsOutstanding.flatMap TCPSegment.payload ++ s.stream.contents)
    rfl (fun _ => ?_) (fun n s' hi _ _ _ => ?_) (fun s' hi _ _ _ => ?_)
  · rw [sendSyn, startTimer_eq]
    simp [List.flatMap_append]
  · rw [← hi, sendData_eq, emit_outstanding, emit_stream, List.flatMap_append, readPayload,
      ByteStream.contents_popOutput]
    simp
  · rw [← hi, sendFin_eq, emit_outstanding, emit_stream]
    simp [List.flatMap_append, finSegment]

/-- After `fill_window` the SYN has been sent. -/
theorem fillWindow_syn (s : TCPSender) : s.fillWindow.synFlag = true := by
  unfold fillWindow
  split
  · rw [sendSyn, startTimer_eq]
  · rename_i hs
    obtain ⟨-, h⟩ := fillLoop_rule (I := fun _ _ => True) (fun _ _ _ _ _ _ => trivial)
      s.stream.bufferSize s.remain trivial (Bool.eq_true_of_not_eq_false hs)
    dsimp only
    split
    · rw [sendFin_eq, emit_synFlag, h, Bool.true_or]
    · exact h

theorem ackReceived_syn {s : TCPSender} (hs : s.synFlag = true) (ackno : WrappingInt32)
    (windowSize : UInt16) : (s.ackReceived ackno windowSize).synFlag = true := by
  obtain ⟨-, he⟩ | ⟨t, rest, -, -, he⟩ | ⟨t, rest, -, -, he⟩ :=
    ackReceived_cases s ackno windowSize rfl <;> rw [he]
  · exact hs
  · exact hs
  · exact fillWindow_syn _

theorem fillWindow_inputEnded (s : TCPSender) :
    s.fillWindow.stream.inputEnded = s.stream.inputEnded := by
  refine fillWindow_rule (I := fun s' => s'.stream.inputEnded = s.stream.inputEnded) rfl
    (fun _ => ?_) (fun n s' hi _ _ _ => ?_) (fun s' hi _ _ _ => ?_)
  · rw [sendSyn, startTimer_eq]
  · rw [sendData_eq, emit_stream]
    exact hi
  · rw [sendFin_eq, emit_stream]
    exact hi

theorem ackReceived_inputEnded (s : TCPSender) (ackno : WrappingInt32) (windowSize : UInt16) :
    (s.ackReceived ackno windowSize).stream.inputEnded = s.stream.inputEnded := by
  obtain ⟨-, he⟩ | ⟨t, rest, -, -, he⟩ | ⟨t, rest, -, -, he⟩ :=
    ackReceived_cases s ackno windowSize rfl <;> rw [he]
  · rfl
  · rfl
  · exact fillWindow_inputEnded _

/-- `fill_window` keeps the first number in flight. -/
theorem una_fillWindow (h : Inv P s) :
    s.fillWindow.una = s.una := by
  have hkeep : ∀ (s' : TCPSender) (seg : TCPSegment), s'.bytesInFlight ≤ s'.nextSeqno →
      (s'.emit seg).una = s'.una ∧ (s'.emit seg).bytesInFlight ≤ (s'.emit seg).nextSeqno := by
    intro s' seg hle
    unfold una
    rw [emit_nextSeqno, emit_bytesInFlight]
    omega
  obtain ⟨-, h2⟩ := fillWindow_rule
    (I := fun s' => s'.bytesInFlight ≤ s'.nextSeqno ∧ s'.una = s.una) ⟨h.flight_le, rfl⟩
    (fun hs => by
      obtain ⟨h1, h2⟩ := h.fresh hs
      rw [sendSyn_eq h1 h2]
      exact ⟨(hkeep s _ h.flight_le).2, (hkeep s _ h.flight_le).1⟩)
    (fun n s' hi _ _ _ => by
      obtain ⟨h1, h2⟩ := hkeep (s'.readPayload n) (s'.dataSegment n) hi.1
      rw [sendData_eq]
      exact ⟨h2, h1.trans hi.2⟩)
    (fun s' hi _ _ _ => by
      obtain ⟨h1, h2⟩ := hkeep s' s'.finSegment hi.1
      rw [sendFin_eq]
      exact ⟨h2, h1.trans hi.2⟩)
  exact h2

/-- An acknowledgment never lowers the first number in flight. -/
theorem una_le_ackReceived (h : Inv P s) (ackno : WrappingInt32) (windowSize : UInt16) :
    s.una ≤ (s.ackReceived ackno windowSize).una := by
  obtain ⟨-, he⟩ | ⟨t, rest, -, -, he⟩ | ⟨t, rest, -, -, he⟩ :=
    ackReceived_cases s ackno windowSize rfl <;> rw [he]
  · exact Nat.le_refl _
  · exact Nat.le_refl _
  · rw [una_fillWindow (h.ackPopped _ _), h.una_ackPopped]
    exact Nat.le_add_right _ _

theorem fillWindow_error (s : TCPSender) : s.fillWindow.stream.error = s.stream.error := by
  refine fillWindow_rule (I := fun s' => s'.stream.error = s.stream.error) rfl
    (fun _ => ?_) (fun n s' hi _ _ _ => ?_) (fun s' hi _ _ _ => ?_)
  · rw [sendSyn, startTimer_eq]
  · rw [sendData_eq, emit_stream]
    exact hi
  · rw [sendFin_eq, emit_stream]
    exact hi

theorem ackReceived_error (s : TCPSender) (ackno : WrappingInt32) (windowSize : UInt16) :
    (s.ackReceived ackno windowSize).stream.error = s.stream.error := by
  obtain ⟨-, he⟩ | ⟨t, rest, -, -, he⟩ | ⟨t, rest, -, -, he⟩ :=
    ackReceived_cases s ackno windowSize rfl <;> rw [he]
  · rfl
  · rfl
  · exact fillWindow_error _

end Sponge.TCPSender
