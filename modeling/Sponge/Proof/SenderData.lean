import Sponge.Proof.Sender

/-!
# What the sender's segments carry

`W` is what the application has written so far. `Carries isn W ended p seg`: a segment with
absolute number `p` is the SYN at number 0, or carries bytes of `W` from index `p - 1` on, with the
FIN only after the last of them. `Data isn W s` relates the sender's counters and its stream to
`W`; with it everything that `fill_window` sends carries what it should (`emits_carries`).
-/

namespace Sponge.TCPSender

open TCPSegment (lengthInSequenceSpace)

/-- What a segment with number `p` carries of the stream `W`; `ended` is whether it has ended. -/
structure Carries (isn : WrappingInt32) (W : List UInt8) (ended : Bool) (p : ℕ)
    (seg : TCPSegment) : Prop where
  seqno : seg.header.seqno = wrap p isn
  syn : seg.header.syn = true → p = 0 ∧ seg.payload = [] ∧ seg.header.fin = false
  payload : ∀ k c, seg.payload[k]? = some c → 1 ≤ p ∧ W[p - 1 + k]? = some c
  fin : seg.header.fin = true → ended = true ∧ 1 ≤ p ∧ p + seg.payload.length = W.length + 1

/-- The sender's counters and flags. -/
structure Counts (s : TCPSender) : Prop where
  next : s.nextSeqno =
    (if s.synFlag then 1 else 0) + s.stream.bytesRead + (if s.finFlag then 1 else 0)
  fin : s.finFlag = true → s.stream.eof = true
  fresh : s.synFlag = false → s.stream.bytesRead = 0 ∧ s.finFlag = false

/-- The sender's stream holds what is written and not yet sent. -/
structure Data (isn : WrappingInt32) (W : List UInt8) (s : TCPSender) : Prop where
  isn : s.isn = isn
  contents : s.stream.contents = W.drop s.stream.bytesRead
  written : s.stream.bytesWritten = W.length
  counts : Counts s

variable {isn : WrappingInt32} {W : List UInt8} {s : TCPSender} {p : ℕ} {seg : TCPSegment}

/-! ## More is written -/

theorem getElem?_append_some {k : ℕ} {c : UInt8} (d : List UInt8) (h : W[k]? = some c) :
    (W ++ d)[k]? = some c := by
  have hk := (List.getElem?_eq_some_iff.1 h).1
  rw [List.getElem?_append_left hk]
  exact h

/-- What was sent stays right when more is written to an open stream. -/
theorem Carries.write (h : Carries isn W false p seg) (d : List UInt8) :
    Carries isn (W ++ d) false p seg := by
  refine ⟨h.seqno, h.syn, fun k c hk => ?_, fun hf => ?_⟩
  · obtain ⟨h1, h2⟩ := h.payload k c hk
    exact ⟨h1, getElem?_append_some d h2⟩
  · cases (h.fin hf).1

theorem Carries.endInput {ended : Bool} (h : Carries isn W ended p seg) :
    Carries isn W true p seg :=
  ⟨h.seqno, h.syn, h.payload, fun hf => ⟨rfl, (h.fin hf).2⟩⟩

/-- A segment's payload is the slice of `W` at its number. -/
theorem Carries.payload_eq {ended : Bool} (h : Carries isn W ended p seg) :
    seg.payload = (W.drop (p - 1)).take seg.payload.length := by
  refine List.ext_getElem? fun k => ?_
  rw [List.getElem?_take, List.getElem?_drop]
  by_cases hk : k < seg.payload.length
  · rw [if_pos hk]
    have hc := List.getElem?_eq_getElem hk
    rw [hc, (h.payload k _ hc).2]
  · rw [if_neg hk, List.getElem?_eq_none (by omega)]

/-! ## Streams -/

theorem Data.bytesRead_le (h : Data isn W s) :
    s.stream.bytesRead + s.stream.contents.length = W.length := by
  rw [← h.written, ByteStream.bytesWritten_eq]

/-- Reading `n` bytes of the stream. -/
theorem Data.drop_eq (h : Data isn W s) (n : ℕ) :
    (s.stream.popOutput n).contents = W.drop (s.stream.popOutput n).bytesRead := by
  rw [ByteStream.contents_popOutput, ByteStream.bytesRead_popOutput, ← List.drop_drop, ← h.contents]
  rcases Nat.le_total n s.stream.contents.length with hn | hn
  · rw [Nat.min_eq_left hn]
  · rw [Nat.min_eq_right hn, List.drop_of_length_le hn, List.drop_of_length_le (Nat.le_refl _)]

theorem Counts.setStream (h : Counts s) {stream : ByteStream}
    (hr : stream.bytesRead = s.stream.bytesRead)
    (he : s.finFlag = true → stream.eof = true) : Counts { s with stream := stream } :=
  ⟨by rw [hr]; exact h.next, he, by rw [hr]; exact h.fresh⟩

/-! ## Emissions -/

theorem Counts.sendSyn (h : Counts s) (hn : s.nextSeqno = 0) (hb : s.bytesInFlight = 0)
    (hs : s.synFlag = false) : Counts s.sendSyn := by
  obtain ⟨h1, h2⟩ := h.fresh hs
  rw [sendSyn_eq hn hb]
  refine ⟨?_, ?_, ?_⟩
  · simp [synSegment, lengthInSequenceSpace, hn, hs, h1, h2]
  · simp [synSegment, h2]
  · simp [synSegment]

theorem length_dataSegment (s : TCPSender) (n : ℕ) :
    (s.dataSegment n).lengthInSequenceSpace = (s.dataSegment n).payload.length +
      (if (s.dataSegment n).header.fin then 1 else 0) := by
  simp [lengthInSequenceSpace]

theorem readPayload_bytesRead (s : TCPSender) (n : ℕ) :
    (s.readPayload n).stream.bytesRead =
      s.stream.bytesRead + (s.dataSegment n).payload.length := by
  rw [readPayload, ByteStream.bytesRead_popOutput, dataSegment_payload, List.length_take]

theorem Counts.not_fin (h : Counts s) (hc : s.stream.contents ≠ []) : s.finFlag = false := by
  rw [Bool.eq_false_iff]
  intro hf
  exact hc ((s.stream.eof_iff).1 (h.fin hf)).1

theorem Counts.sendData (h : Counts s) (hs : s.synFlag = true) (hc : s.stream.contents ≠ [])
    (n : ℕ) : Counts (s.sendData n).2 := by
  have hf := h.not_fin hc
  have hn := h.next
  rw [hs, hf] at hn
  rw [sendData_eq]
  refine ⟨?_, fun hfin => ?_, fun hsyn => ?_⟩
  · have hsyn : (s.readPayload n).synFlag = true := hs
    have hfin : (s.readPayload n).finFlag = false := hf
    have hnext : (s.readPayload n).nextSeqno = s.nextSeqno := rfl
    rw [emit_nextSeqno, emit_synFlag, emit_finFlag, emit_stream, readPayload_bytesRead,
      length_dataSegment, hsyn, hfin, hnext, hn]
    simp only [Bool.true_or, Bool.false_or, ↓reduceIte, Bool.false_eq_true]
    omega
  · have hfin' : (s.finFlag || (s.dataSegment n).header.fin) = true := by
      rw [emit_finFlag] at hfin
      exact hfin
    rw [hf, Bool.false_or] at hfin'
    rw [emit_stream]
    exact ((dataSegment_fin s n).1 hfin').1
  · rw [emit_synFlag, show (s.readPayload n).synFlag = true from hs] at hsyn
    cases hsyn

theorem Counts.sendFin (h : Counts s) (hs : s.synFlag = true) (hf : s.finFlag = false)
    (he : s.stream.eof = true) : Counts s.sendFin := by
  have hn := h.next
  rw [hs, hf] at hn
  rw [sendFin_eq]
  refine ⟨?_, fun _ => by rw [emit_stream]; exact he, fun hsyn => ?_⟩
  · rw [emit_nextSeqno, emit_synFlag, emit_finFlag, emit_stream, hn, hs]
    simp [finSegment, lengthInSequenceSpace]
  · rw [emit_synFlag, hs] at hsyn
    cases hsyn

theorem Data.sendSyn (h : Data isn W s) (hn : s.nextSeqno = 0) (hb : s.bytesInFlight = 0)
    (hs : s.synFlag = false) : Data isn W s.sendSyn := by
  have hcounts := h.counts.sendSyn hn hb hs
  rw [sendSyn_eq hn hb] at hcounts ⊢
  refine ⟨?_, ?_, ?_, hcounts⟩
  · rw [emit_isn]; exact h.isn
  · rw [emit_stream]; exact h.contents
  · rw [emit_stream]; exact h.written

theorem Data.sendData (h : Data isn W s) (hs : s.synFlag = true) (hc : s.stream.contents ≠ [])
    (n : ℕ) : Data isn W (s.sendData n).2 := by
  have hcounts := h.counts.sendData hs hc n
  rw [sendData_eq] at hcounts ⊢
  refine ⟨?_, ?_, ?_, hcounts⟩
  · rw [emit_isn]; exact h.isn
  · rw [emit_stream]; exact h.drop_eq _
  · rw [emit_stream]; exact h.written

theorem Data.sendFin (h : Data isn W s) (hs : s.synFlag = true) (hf : s.finFlag = false)
    (he : s.stream.eof = true) : Data isn W s.sendFin := by
  have hcounts := h.counts.sendFin hs hf he
  rw [sendFin_eq] at hcounts ⊢
  refine ⟨?_, ?_, ?_, hcounts⟩
  · rw [emit_isn]; exact h.isn
  · rw [emit_stream]; exact h.contents
  · rw [emit_stream]; exact h.written

/-- A round of the loop sends the next bytes of `W`. -/
theorem Data.carries_data (h : Data isn W s) (hs : s.synFlag = true)
    (hc : s.stream.contents ≠ []) (n : ℕ) :
    Carries isn W s.stream.inputEnded s.nextSeqno (s.dataSegment n) := by
  have hn := h.counts.next
  rw [hs, h.counts.not_fin hc] at hn
  simp only [↓reduceIte, Bool.false_eq_true, Nat.add_zero] at hn
  refine ⟨by rw [dataSegment_seqno, h.isn], fun hsyn => ?_, fun k c hk => ⟨by omega, ?_⟩,
    fun hf => ?_⟩
  · rw [dataSegment_syn] at hsyn
    cases hsyn
  · rw [dataSegment_payload, List.getElem?_take] at hk
    split at hk
    · rw [h.contents, List.getElem?_drop] at hk
      rwa [show s.nextSeqno - 1 + k = s.stream.bytesRead + k by omega]
    · cases hk
  · obtain ⟨hnil, hend⟩ := (ByteStream.eof_iff _).1 ((dataSegment_fin s n).1 hf).1
    have hlen : (s.dataSegment n).payload.length = s.stream.contents.length := by
      have : (s.stream.contents.drop (min n TCPConfig.maxPayloadSize)).length = 0 := by
        rw [← ByteStream.contents_popOutput]
        exact congrArg List.length hnil
      rw [List.length_drop] at this
      rw [dataSegment_payload, List.length_take]
      omega
    have := h.bytesRead_le
    exact ⟨hend, by omega, by omega⟩

theorem Data.carries_fin (h : Data isn W s) (hs : s.synFlag = true) (hf : s.finFlag = false)
    (he : s.stream.eof = true) :
    Carries isn W s.stream.inputEnded s.nextSeqno s.finSegment := by
  have hn := h.counts.next
  rw [hs, hf] at hn
  simp only [↓reduceIte, Bool.false_eq_true, Nat.add_zero] at hn
  obtain ⟨hnil, hend⟩ := (s.stream.eof_iff).1 he
  have hlen := h.bytesRead_le
  rw [hnil, List.length_nil] at hlen
  refine ⟨by rw [finSegment, h.isn], fun hsyn => ?_, fun k c hk => ?_,
    fun _ => ⟨hend, by omega, ?_⟩⟩
  · cases hsyn
  · simp [finSegment] at hk
  · simp only [finSegment, List.length_nil]
    omega

theorem carries_syn (h : s.isn = isn) (ended : Bool) : Carries isn W ended 0 s.synSegment := by
  refine ⟨?_, fun _ => ⟨rfl, rfl, rfl⟩, fun k c hk => ?_, fun hf => ?_⟩
  · rw [← h, wrap_zero]
    rfl
  · simp [synSegment] at hk
  · cases hf

theorem carries_empty (h : s.isn = isn) (ended : Bool) :
    Carries isn W ended s.nextSeqno s.emptySegment := by
  refine ⟨by rw [← h]; rfl, fun hsyn => ?_, fun k c hk => ?_, fun hf => ?_⟩
  · cases hsyn
  · simp [emptySegment] at hk
  · cases hf

/-- **Everything `fill_window` sends carries what it should.** -/
theorem emits_carries (isn : WrappingInt32) (W : List UInt8) (ended : Bool) :
    Emits (Carries isn W ended) (fun s => Data isn W s ∧ s.stream.inputEnded = ended) where
  syn s h hj hs := by
    obtain ⟨h1, h2⟩ := h.fresh hs
    refine ⟨carries_syn hj.1.isn ended, hj.1.sendSyn h1 h2 hs, ?_⟩
    rw [sendSyn_eq h1 h2, emit_stream]
    exact hj.2
  data n s h hj hs hn hc := by
    refine ⟨?_, hj.1.sendData hs hc n, ?_⟩
    · rw [← hj.2]
      exact hj.1.carries_data hs hc n
    · rw [sendData_eq, emit_stream]
      exact hj.2
  fin s h hj hs hf he := by
    refine ⟨?_, hj.1.sendFin hs hf he, ?_⟩
    · rw [← hj.2]
      exact hj.1.carries_fin hs hf he
    · rw [sendFin_eq, emit_stream]
      exact hj.2

/-! ## Whole calls -/

/-- **The sender of the stream `W`**: bookkeeping and data together. -/
structure Sends (isn : WrappingInt32) (W : List UInt8) (s : TCPSender) : Prop where
  inv : Inv (Carries isn W s.stream.inputEnded) s
  data : Data isn W s

theorem new_sends (capacity : UInt64) (retxTimeout : UInt16) (fixedIsn : Option WrappingInt32)
    (random : UInt32) :
    Sends (fixedIsn.getD ⟨random⟩) [] (new capacity retxTimeout fixedIsn random) :=
  ⟨new_inv capacity retxTimeout fixedIsn random, rfl, rfl, rfl, rfl, nofun, fun _ => ⟨rfl, rfl⟩⟩

/-- A change of the stream that leaves what was sent. -/
theorem Sends.setStream {W' : List UInt8} {stream : ByteStream} (h : Sends isn W s)
    (hc : ∀ p seg, Carries isn W s.stream.inputEnded p seg → Carries isn W' stream.inputEnded p seg)
    (hr : stream.bytesRead = s.stream.bytesRead)
    (hcont : stream.contents = W'.drop s.stream.bytesRead)
    (hw : stream.bytesWritten = W'.length) (he : s.finFlag = true → stream.eof = true) :
    Sends isn W' { s with stream := stream } := by
  have hinv := h.inv.mono hc
  exact ⟨hinv.setStream _, h.data.isn,
    by rw [hr]; exact hcont, hw, h.data.counts.setStream hr he⟩

/-- Writing to an open stream. -/
theorem Sends.write (h : Sends isn W s) (ho : s.stream.inputEnded = false) (d : List UInt8) :
    Sends isn (W ++ d.take (s.stream.write d).1) { s with stream := (s.stream.write d).2 } := by
  have hlen := h.data.bytesRead_le
  refine h.setStream (fun p seg hc => ?_) rfl ?_ ?_ fun hf => ?_
  · rw [ByteStream.inputEnded_write, ho]
    rw [ho] at hc
    exact hc.write _
  · rw [List.drop_append_of_le_length (by omega), ← h.data.contents, ByteStream.contents_write,
      ByteStream.write_fst, List.take_eq_take_min, Nat.min_comm]
  · rw [ByteStream.bytesWritten_eq, ByteStream.bytesRead_write, ByteStream.contents_write,
      ByteStream.write_fst]
    simp only [List.length_append, List.length_take]
    omega
  · have := ((s.stream.eof_iff).1 (h.data.counts.fin hf)).2
    rw [ho] at this
    cases this

/-- Writing without effect: nothing is given, or there is no room. -/
theorem Sends.writeNothing (h : Sends isn W s) {d : List UInt8}
    (hd : d.take s.stream.remainingCapacity = []) :
    Sends isn W { s with stream := (s.stream.write d).2 } := by
  have hcont : (s.stream.write d).2.contents = s.stream.contents := by
    rw [ByteStream.contents_write, hd, List.append_nil]
  refine h.setStream (fun _ _ hc => hc) rfl ?_ ?_ fun hf => ?_
  · rw [hcont]
    exact h.data.contents
  · rw [ByteStream.bytesWritten_eq, hcont, ByteStream.bytesRead_write, ← h.data.bytesRead_le]
  · rw [ByteStream.eof_iff, hcont, ByteStream.inputEnded_write, ← ByteStream.eof_iff]
    exact h.data.counts.fin hf

theorem Sends.endInput (h : Sends isn W s) :
    Sends isn W { s with stream := s.stream.endInput } := by
  refine h.setStream (fun p seg hc => hc.endInput) rfl h.data.contents h.data.written fun hf => ?_
  exact (ByteStream.eof_iff _).2 ⟨((s.stream.eof_iff).1 (h.data.counts.fin hf)).1, rfl⟩

theorem Sends.setError (h : Sends isn W s) : Sends isn W { s with stream := s.stream.setError } :=
  h.setStream (fun _ _ hc => hc) rfl h.data.contents h.data.written h.data.counts.fin

theorem Sends.fillWindow (h : Sends isn W s) : Sends isn W s.fillWindow := by
  obtain ⟨h1, h2, h3⟩ := (emits_carries isn W _).fillWindow h.inv ⟨h.data, rfl⟩
  exact ⟨by rw [h3]; exact h1, h2⟩

theorem Sends.ackReceived (h : Sends isn W s) (ackno : WrappingInt32) (windowSize : UInt16) :
    Sends isn W (s.ackReceived ackno windowSize) := by
  have hd := h.data
  obtain ⟨h1, h2, h3⟩ := (emits_carries isn W _).ackReceived h.inv ackno windowSize
    (fun _ => ⟨⟨hd.isn, hd.contents, hd.written, hd.counts.next, hd.counts.fin, hd.counts.fresh⟩,
      rfl⟩)
    (fun _ => ⟨⟨hd.isn, hd.contents, hd.written, hd.counts.next, hd.counts.fin, hd.counts.fresh⟩,
      rfl⟩)
  exact ⟨by rw [h3]; exact h1, h2⟩

theorem Sends.tick (h : Sends isn W s) (ms : ℕ) : Sends isn W (s.tick ms) := by
  have hf := tick_frame s ms
  have hinv := h.inv.tick ms
  refine ⟨by rw [hf.stream]; exact hinv, ?_, ?_, ?_, ?_, ?_, ?_⟩
  · rw [hf.isn]; exact h.data.isn
  · rw [hf.stream]; exact h.data.contents
  · rw [hf.stream]; exact h.data.written
  · rw [hf.stream, hf.nextSeqno, hf.synFlag, hf.finFlag]; exact h.data.counts.next
  · rw [hf.stream, hf.finFlag]; exact h.data.counts.fin
  · rw [hf.stream, hf.synFlag, hf.finFlag]; exact h.data.counts.fresh

theorem Sends.sendEmptySegment (h : Sends isn W s) : Sends isn W s.sendEmptySegment :=
  ⟨h.inv.sendEmptySegment (carries_empty h.data.isn _), h.data.isn, h.data.contents, h.data.written,
    h.data.counts.next, h.data.counts.fin, h.data.counts.fresh⟩

/-- The owner takes segments off the queue. -/
theorem Sends.setQueue (h : Sends isn W s) {queue : List TCPSegment}
    (hq : ∀ seg ∈ queue, seg ∈ s.segmentsOut) : Sends isn W { s with segmentsOut := queue } :=
  ⟨h.inv.setQueue hq, h.data.isn, h.data.contents, h.data.written, h.data.counts.next,
    h.data.counts.fin, h.data.counts.fresh⟩

/-- Once the FIN is sent, everything written has been sent, and the FIN has the number after it. -/
theorem Sends.finished (h : Sends isn W s) (hf : s.finFlag = true) :
    s.synFlag = true ∧ s.stream.contents = [] ∧ s.nextSeqno = W.length + 2 := by
  have hcounts := h.data.counts
  obtain ⟨hc, -⟩ := (ByteStream.eof_iff _).1 (hcounts.fin hf)
  have hlen := h.data.bytesRead_le
  have hnext := hcounts.next
  have hs : s.synFlag = true := by
    refine Bool.eq_true_of_not_eq_false fun hs => ?_
    have := (hcounts.fresh hs).2
    rw [hf] at this
    cases this
  rw [hc, List.length_nil] at hlen
  simp only [hs, hf, ↓reduceIte] at hnext
  exact ⟨hs, hc, by omega⟩

end Sponge.TCPSender
