import Sponge.Proof.SenderRun
import Sponge.Proof.SenderWindow

/-!
# When `fill_window` overfills the window

`fill_window` takes the room in the window to be the 64-bit difference of the window and the bytes
in flight. An acknowledgment may announce a window below what it leaves in flight; the difference
then wraps around, and `fill_window` sends all it has.

* `fillWindow_emits`: what one call sends once the SYN is out.
* `fillsWithin_iff`: a call stays within the window exactly if no more was in flight before it.
* `run_fills_within_iff`: every state of a run is such a state exactly if no acknowledgment that is
  not ignored announces a window smaller than what it leaves in flight (`LeavesRoom`).
-/

namespace Sponge

open Run
open TCPSegment (lengthInSequenceSpace)

namespace TCPSender

variable {s : TCPSender}

/-! ## One call -/

/-- What `s'` has sent since `s`. -/
def Sent (s s' : TCPSender) : Prop :=
  ∃ new, s'.segmentsOut = s.segmentsOut ++ new ∧
    s'.bytesInFlight = s.bytesInFlight + totalLength new ∧ s'.window = s.window ∧
    ∀ seg ∈ new, seg.payload.length ≤ TCPConfig.maxPayloadSize

theorem Sent.emit {s₀ : TCPSender} (h : Sent s₀ s) {seg : TCPSegment}
    (hseg : seg.payload.length ≤ TCPConfig.maxPayloadSize) : Sent s₀ (s.emit seg) := by
  obtain ⟨new, hout, hflight, hwindow, hnew⟩ := h
  refine ⟨new ++ [seg], ?_, ?_, ?_, ?_⟩
  · rw [emit_segmentsOut, hout, List.append_assoc]
  · rw [emit_bytesInFlight, hflight, totalLength_append, Nat.add_assoc]
    simp [totalLength]
  · rw [emit_window_eq, hwindow]
  · intro t ht
    rcases List.mem_append.1 ht with ht | ht
    · exact hnew t ht
    · rw [List.mem_singleton.1 ht]
      exact hseg

/-- **What `fill_window` sends**: segments of at most 1000 bytes, each of which it counts. -/
theorem fillWindow_emits (hs : s.synFlag = true) : Sent s s.fillWindow := by
  refine fillWindow_rule (I := Sent s) ⟨[], by simp [totalLength]⟩ (fun hnot => ?_)
    (fun n s' hsent _ _ _ => ?_) (fun s' hsent _ _ _ => ?_)
  · rw [hs] at hnot
    cases hnot
  · rw [sendData_eq]
    refine Sent.emit (s := s'.readPayload n) hsent ?_
    rw [dataSegment_payload, List.length_take]
    omega
  · rw [sendFin_eq]
    exact hsent.emit (Nat.zero_le _)

/-- `fill_window` does not overfill the window in this state: the room does not wrap around, what is
in flight after a segment was sent fits the window, payloads are of at most 1000 bytes, and a FIN is
sent only if it fits. -/
structure FillsWithin (s : TCPSender) : Prop where
  room : (s.remain : ℤ) = max 1 s.receiverWindowSize.toNat - s.bytesInFlight
  within : SenderRun.pushed s .fillWindow ≠ [] →
    s.fillWindow.bytesInFlight ≤ max 1 s.fillWindow.receiverWindowSize.toNat
  payload : ∀ seg ∈ SenderRun.pushed s .fillWindow, seg.payload.length ≤ 1000
  fin : ∀ before seg after, SenderRun.pushed s .fillWindow = before ++ seg :: after →
    seg.header.fin = true →
    s.bytesInFlight + totalLength (before ++ [seg]) ≤ max 1 s.receiverWindowSize.toNat

/-- **One call** of `fill_window` stays within the window exactly if no more was in flight. -/
theorem fillsWithin_iff (hs : s.synFlag = true) :
    FillsWithin s ↔ s.bytesInFlight ≤ s.window := by
  constructor
  · intro h
    have hroom : (s.remain : ℤ) = s.window - s.bytesInFlight := h.room
    omega
  · intro hle
    obtain ⟨hwindow, hflight⟩ := fillWindow_within hs hle
    obtain ⟨new, hout, hnew, -, hpayload⟩ := fillWindow_emits hs
    have hpushed : SenderRun.pushed s .fillWindow = new := by
      show s.fillWindow.segmentsOut.drop s.segmentsOut.length = new
      rw [hout, List.drop_left]
    have hsum := add_remain hle
    refine ⟨?_, fun _ => ?_, ?_, ?_⟩
    · show (s.remain : ℤ) = s.window - s.bytesInFlight
      omega
    · show s.fillWindow.bytesInFlight ≤ s.fillWindow.window
      rw [hwindow]
      exact hflight
    · rw [hpushed]
      exact hpayload
    · intro before seg after hsplit _
      have hlen : totalLength new = totalLength (before ++ [seg]) + totalLength after := by
        rw [← totalLength_append, ← hpushed, hsplit, List.append_assoc, List.singleton_append]
      show s.bytesInFlight + totalLength (before ++ [seg]) ≤ s.window
      omega

/-! ## Runs -/

/-- The condition: an acknowledgment that is not ignored announces a window for all that it leaves
in flight. -/
def LeavesRoom (s : TCPSender) : SenderOp → Prop
  | .ackReceived ackno windowSize =>
    ∀ t ∈ s.segmentsOutstanding.head?,
      s.ackIgnored (unwrap ackno s.isn s.nextSeqno) windowSize t = false →
      totalLength (s.kept (unwrap ackno s.isn s.nextSeqno)) ≤ max 1 windowSize.toNat
  | _ => True

/-- The sender's bookkeeping, with segments that carry their own numbers. -/
def Kept (s : TCPSender) : Prop := Inv (Numbered s.isn) s

/-- Once the SYN is sent, `fill_window` would stay within the window. -/
def Fits (s : TCPSender) : Prop := s.synFlag = true → FillsWithin s

theorem Kept.fits_iff (h : Kept s) : Fits s ↔ s.bytesInFlight ≤ s.window := by
  unfold Fits
  cases hs : s.synFlag with
  | false =>
    obtain ⟨-, hzero⟩ := Inv.fresh h hs
    refine iff_of_true (fun hnot => by cases hnot) ?_
    rw [hzero]
    exact Nat.zero_le _
  | true =>
    rw [← fillsWithin_iff hs]
    exact forall_prop_of_true rfl

theorem Kept.filled (h : Kept s) : Kept s.fillWindow := by
  obtain ⟨hinv, hisn⟩ := (emits_numbered s.isn).fillWindow h rfl
  unfold Kept
  rw [hisn]
  exact hinv

theorem Kept.popped (h : Kept s) (a : ℕ) (windowSize : UInt16) :
    Kept (s.ackPopped a windowSize) := Inv.ackPopped h a windowSize

/-- **Step**: every call keeps the bookkeeping. -/
theorem Kept.step (h : Kept s) (op : SenderOp) : Kept (s.step op) := by
  have hinv : Inv (Numbered s.isn) s := h
  cases op with
  | write data => exact hinv.setStream _
  | endInput => exact hinv.setStream _
  | fillWindow => exact h.filled
  | ackReceived ackno windowSize =>
    obtain ⟨hkeep, hisn⟩ := (emits_numbered s.isn).ackReceived hinv ackno windowSize
      (fun _ => rfl) (fun _ => rfl)
    show Inv (Numbered (s.ackReceived ackno windowSize).isn) _
    rw [hisn]
    exact hkeep
  | tick ms =>
    show Inv (Numbered (s.tick ms).isn) _
    rw [(tick_frame s ms).isn]
    exact hinv.tick ms
  | sendEmptySegment => exact hinv.sendEmptySegment rfl
  | popSegment => exact hinv.setQueue fun _ => List.mem_of_mem_tail

/-- A call of `fill_window` with the SYN sent leaves too much in flight exactly if there was too
much before. -/
theorem flight_fillWindow_le_iff (hs : s.synFlag = true) :
    s.fillWindow.bytesInFlight ≤ s.fillWindow.window ↔ s.bytesInFlight ≤ s.window := by
  obtain ⟨new, -, hflight, hwindow, -⟩ := fillWindow_emits hs
  constructor
  · omega
  · intro hle
    obtain ⟨-, hwithin⟩ := fillWindow_within hs hle
    rw [hwindow]
    exact hwithin

/-- **An acknowledgment** keeps what is in flight within the window exactly if it leaves room. -/
theorem Kept.ack_iff (h : Kept s) (hle : s.bytesInFlight ≤ s.window) (ackno : WrappingInt32)
    (windowSize : UInt16) :
    (s.ackReceived ackno windowSize).bytesInFlight ≤ (s.ackReceived ackno windowSize).window ↔
      s.LeavesRoom (.ackReceived ackno windowSize) := by
  have hinv : Inv (Numbered s.isn) s := h
  unfold LeavesRoom
  obtain ⟨hl, he⟩ | ⟨t, rest, hl, hi, he⟩ | ⟨t, rest, hl, hi, he⟩ :=
    ackReceived_cases s ackno windowSize rfl <;> rw [he, hl]
  · have hzero : (s.ackWindow (unwrap ackno s.isn s.nextSeqno) windowSize).bytesInFlight = 0 :=
      hinv.outstanding_eq_nil.1 hl
    rw [hzero]
    exact iff_of_true (Nat.zero_le _) (fun t ht => by cases ht)
  · -- the window is the old one
    rw [ackWindow_of_ne (hinv.ne_of_ignored hle hl hi)]
    refine iff_of_true hle fun t' ht' hnot => ?_
    rw [← Option.mem_some_iff.1 ht', hi] at hnot
    cases hnot
  · have hpopped : Kept (s.ackPopped (unwrap ackno s.isn s.nextSeqno) windowSize) :=
      h.popped _ _
    have hsyn : (s.ackPopped (unwrap ackno s.isn s.nextSeqno) windowSize).synFlag = true := by
      obtain ⟨-, hpos, hend⟩ := hinv.front hl
      exact hinv.syn.2 (by omega)
    rw [flight_fillWindow_le_iff hsyn, Inv.flight_eq hpopped]
    constructor
    · intro hroom t' _ _
      exact hroom
    · intro hroom
      exact hroom t rfl hi

/-- **Step**: what is in flight stays within the window exactly if the call leaves room. -/
theorem Kept.step_iff (h : Kept s) (hle : s.bytesInFlight ≤ s.window) (op : SenderOp) :
    (s.step op).bytesInFlight ≤ (s.step op).window ↔ s.LeavesRoom op := by
  cases op with
  | ackReceived ackno windowSize => exact h.ack_iff hle ackno windowSize
  | fillWindow =>
    obtain ⟨hwindow, hflight⟩ := fillWindow_flight h hle
    exact iff_of_true (hflight.trans_eq hwindow.symm) trivial
  | tick ms =>
    have hframe := tick_frame s ms
    refine iff_of_true ?_ trivial
    show (s.tick ms).bytesInFlight ≤ max 1 (s.tick ms).receiverWindowSize.toNat
    rw [hframe.bytesInFlight, hframe.window]
    exact hle
  | _ => exact iff_of_true hle trivial

/-- **`fill_window` never overfills the window** in a run, exactly if every acknowledgment that is
not ignored leaves room in its window for what stays in flight. -/
theorem run_fills_within_iff (capacity : UInt64) (retxTimeout : UInt16)
    (fixedIsn : Option WrappingInt32) (random : UInt32) (ops : List SenderOp) :
    (∀ n, Fits (exec step (new capacity retxTimeout fixedIsn random) (ops.take n))) ↔
      Guarded step LeavesRoom (new capacity retxTimeout fixedIsn random) ops := by
  have hnew : Kept (new capacity retxTimeout fixedIsn random) := new_inv _ _ _ _
  apply always_iff_guarded (A := fun _ _ => True) (I := Kept) _ _ hnew
    (hnew.fits_iff.2 (Nat.zero_le _)) (guarded_of_forall (fun _ _ => trivial) _ _)
  · intro s op h _ _ _
    exact h.step op
  · intro s op h hfits _
    rw [(h.step op).fits_iff]
    exact h.step_iff (h.fits_iff.1 hfits) op

/-- Three segments of one byte, and then an acknowledgment of the SYN again, with a window of two.
-/
def shrunk : List SenderOp :=
  [.fillWindow, .ackReceived ⟨1⟩ 3, .write [97], .fillWindow, .write [98], .fillWindow, .write [99],
    .fillWindow, .ackReceived ⟨1⟩ 2]

/-- **A window of two after three bytes in flight**: the next byte is sent all the same. -/
theorem shrunk_window_overfilled :
    (exec step (new 10 1000 (some ⟨0⟩) 0) (shrunk ++ [.write [100]])).synFlag = true ∧
    ¬ (SenderRun.pushed (exec step (new 10 1000 (some ⟨0⟩) 0) (shrunk ++ [.write [100]]))
        .fillWindow ≠ [] →
      (exec step (new 10 1000 (some ⟨0⟩) 0) (shrunk ++ [.write [100]])).fillWindow.bytesInFlight ≤
        max 1 (exec step (new 10 1000 (some ⟨0⟩) 0)
          (shrunk ++ [.write [100]])).fillWindow.receiverWindowSize.toNat) := by
  decide +kernel

end TCPSender

end Sponge
