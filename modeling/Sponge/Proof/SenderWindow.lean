import Sponge.Proof.SenderAck

/-!
# The room in the window

`window s` is the peer's window as `fill_window` reads it: zero counts as one. `remain` is the
64-bit difference of `window` and `_bytes_in_flight`. `fillWindow_full`: after `fill_window`,
anything left unsent means that the window is used up, whether or not the difference wrapped
around. `fillWindow_within`: if it did not, `fill_window` stays within the window.
-/

namespace Sponge.TCPSender

open TCPSegment (lengthInSequenceSpace)

/-- The peer's window; a zero window counts as one. -/
def window (s : TCPSender) : ℕ := max 1 s.receiverWindowSize.toNat

variable {s : TCPSender}

theorem window_pos (s : TCPSender) : 1 ≤ s.window := Nat.le_max_left _ _

theorem window_lt (s : TCPSender) : s.window < 2 ^ 16 := by
  have := s.receiverWindowSize.toNat_lt
  unfold window
  omega

theorem remain_eq (s : TCPSender) :
    s.remain = (((s.window : ℤ) - s.bytesInFlight) % 2 ^ 64).toNat := by
  have hw : ((s.receiverWindowSize.toNat : ℤ) + (if s.receiverWindowSize = 0 then 1 else 0)) =
      s.window := by
    unfold window
    by_cases h0 : s.receiverWindowSize = 0
    · rw [if_pos h0, h0]
      rfl
    · have hpos : s.receiverWindowSize.toNat ≠ 0 := fun h => h0 (UInt16.toNat_inj.1 h)
      rw [if_neg h0]
      omega
  unfold remain
  dsimp only
  rw [hw]

/-- In flight and room together reach the window, whether or not the difference wraps around. -/
theorem window_le_add_remain (s : TCPSender) : s.window ≤ s.bytesInFlight + s.remain := by
  have := s.window_lt
  rw [remain_eq]
  omega

/-- The difference does not wrap around while no more is in flight than the window allows. -/
theorem add_remain (h : s.bytesInFlight ≤ s.window) : s.bytesInFlight + s.remain = s.window := by
  have := s.window_lt
  rw [remain_eq]
  omega

@[simp] theorem emit_window_eq (s : TCPSender) (seg : TCPSegment) :
    (s.emit seg).window = s.window := by
  rw [window, emit_window]
  rfl

@[simp] theorem readPayload_window (s : TCPSender) (n : ℕ) : (s.readPayload n).window = s.window :=
  rfl

/-! ## Rounds of the loop -/

theorem sendData_window (s : TCPSender) (n : ℕ) : (s.sendData n).2.window = s.window := by
  rw [sendData_eq, emit_window_eq, readPayload_window]

/-- A round takes its payload from the room, and one more number for a FIN. -/
theorem sendData_flight (s : TCPSender) (n : ℕ) :
    (s.sendData n).2.bytesInFlight + (s.sendData n).1 =
      s.bytesInFlight + n + (if (s.dataSegment n).header.fin then 1 else 0) := by
  have hle : (s.dataSegment n).payload.length ≤ n := by
    rw [dataSegment_payload, List.length_take]
    omega
  have hflight : (s.readPayload n).bytesInFlight = s.bytesInFlight := rfl
  rw [sendData_eq, emit_bytesInFlight, sendData_fst, hflight]
  simp only [lengthInSequenceSpace, dataSegment_syn, Bool.false_eq_true, ↓reduceIte]
  omega

theorem sendData_finFlag (s : TCPSender) (n : ℕ) :
    (s.sendData n).2.finFlag = (s.finFlag || (s.dataSegment n).header.fin) := by
  rw [sendData_eq, emit_finFlag]
  rfl

/-- After a round whose segment has the FIN, nothing is left to send and there was room for it. -/
theorem sendData_of_fin {n : ℕ} (hf : (s.dataSegment n).header.fin = true) :
    (s.sendData n).2.stream.contents = [] ∧ 0 < (s.sendData n).1 := by
  obtain ⟨heof, hroom⟩ := (dataSegment_fin s n).1 hf
  refine ⟨?_, hroom⟩
  rw [sendData_eq, emit_stream]
  exact ((ByteStream.eof_iff _).1 heof).1

/-! ## The whole call -/

/-- Something is left to send: bytes, or the FIN of an ended stream. -/
def Unsent (s : TCPSender) : Prop :=
  s.stream.contents ≠ [] ∨ (s.stream.inputEnded = true ∧ s.finFlag = false)

instance (s : TCPSender) : Decidable s.Unsent := inferInstanceAs (Decidable (_ ∨ _))

/-- **`fill_window` fills the window**: if something is left, the window is used up. -/
theorem fillWindow_full (hs : s.synFlag = true) (hu : s.fillWindow.Unsent) :
    s.fillWindow.window ≤ s.fillWindow.bytesInFlight := by
  obtain ⟨⟨hw, hle⟩, -⟩ := fillLoop_rule (I := fun n s' => s'.window = s.window ∧
      s.window ≤ s'.bytesInFlight + n)
    (fun n s' hi _ _ _ => ⟨by rw [sendData_window]; exact hi.1, by
      have := sendData_flight s' n
      have := hi.2
      omega⟩)
    s.stream.bufferSize s.remain ⟨rfl, s.window_le_add_remain⟩ hs
  have hexit := fillLoop_exits s.stream.bufferSize s.remain s (Nat.le_refl _)
  unfold fillWindow at hu ⊢
  rw [if_neg (by rw [hs]; decide)] at hu ⊢
  dsimp only at hu ⊢
  generalize fillLoop s.stream.bufferSize s.remain s = p at hw hle hexit hu ⊢
  split at hu
  · -- the lone FIN has been sent, and no bytes were left
    rename_i hc
    rw [sendFin_eq] at hu
    rcases hu with hu | ⟨-, hu⟩
    · rw [emit_stream] at hu
      exact absurd ((ByteStream.eof_iff _).1 hc.2.1).1 hu
    · rw [emit_finFlag] at hu
      simp [finSegment] at hu
  · rename_i hc
    rw [if_neg hc, hw]
    have hzero : p.1 = 0 := by
      rcases hexit with hz | hnil
      · exact hz
      · rcases hu with hu | ⟨hend, hfin⟩
        · exact absurd hnil hu
        · exact Classical.byContradiction fun hne =>
            hc ⟨hfin, (ByteStream.eof_iff _).2 ⟨hnil, hend⟩, hne⟩
    omega

/-- While no more is in flight than the window allows, an acknowledgment of everything sent is not
ignored. -/
theorem Inv.ne_of_ignored (h : Inv (Numbered s.isn) s) (hle : s.bytesInFlight ≤ s.window)
    {t : TCPSegment} {rest : List TCPSegment} (hl : s.segmentsOutstanding = t :: rest) {a : ℕ}
    {windowSize : UInt16} (hi : s.ackIgnored a windowSize t = true) : a ≠ s.nextSeqno := by
  have hadd := h.una_add
  have hwlt := s.window_lt
  obtain ⟨hnum, -, -⟩ := h.front hl
  have habs : s.absSeqno t = s.una := absSeqno_eq hnum (by omega) (by omega)
  rintro rfl
  exact h.not_ignored_next hl habs windowSize hi

/-- **`fill_window` stays within the window**, if no more was in flight before. -/
theorem fillWindow_within (hs : s.synFlag = true) (h : s.bytesInFlight ≤ s.window) :
    s.fillWindow.window = s.window ∧ s.fillWindow.bytesInFlight ≤ s.window := by
  -- the room left is exact until a FIN is sent with data, which ends the loop
  obtain ⟨⟨hw, hroom⟩, -⟩ := fillLoop_rule (I := fun n s' => s'.window = s.window ∧
      (s'.bytesInFlight + n = s.window ∨
        (s'.bytesInFlight ≤ s.window ∧ s'.stream.contents = [] ∧ s'.finFlag = true)))
    (fun n s' hi _ _ hc => by
      refine ⟨by rw [sendData_window]; exact hi.1, ?_⟩
      have hfl := sendData_flight s' n
      rcases hi.2 with hn | ⟨-, hnil, -⟩
      · cases hf : (s'.dataSegment n).header.fin with
        | false =>
          rw [hf] at hfl
          simp only [Bool.false_eq_true, ↓reduceIte] at hfl
          exact .inl (by omega)
        | true =>
          obtain ⟨hnil, hpos⟩ := sendData_of_fin hf
          rw [hf] at hfl
          simp only [↓reduceIte] at hfl
          refine .inr ⟨by omega, hnil, ?_⟩
          rw [sendData_finFlag, hf, Bool.or_true]
      · exact absurd hnil hc)
    s.stream.bufferSize s.remain ⟨rfl, .inl (add_remain h)⟩ hs
  unfold fillWindow
  rw [if_neg (by rw [hs]; decide)]
  dsimp only
  generalize fillLoop s.stream.bufferSize s.remain s = p at hw hroom ⊢
  split
  · rename_i hc
    rw [sendFin_eq, emit_window_eq, emit_bytesInFlight]
    refine ⟨hw, ?_⟩
    have hlen : p.2.finSegment.lengthInSequenceSpace = 1 := by
      simp [finSegment, lengthInSequenceSpace]
    rcases hroom with hn | ⟨-, -, hf⟩
    · have := hc.2.2
      omega
    · rw [hc.1] at hf
      cases hf
  · refine ⟨hw, ?_⟩
    rcases hroom with hn | ⟨hle, -⟩ <;> omega

/-- The same with the SYN still to be sent: it fits every window. -/
theorem fillWindow_flight {P : ℕ → TCPSegment → Prop} (h : Inv P s)
    (hle : s.bytesInFlight ≤ s.window) :
    s.fillWindow.window = s.window ∧ s.fillWindow.bytesInFlight ≤ s.window := by
  cases hs : s.synFlag with
  | true => exact fillWindow_within hs hle
  | false =>
    obtain ⟨-, hzero⟩ := h.fresh hs
    have hpos := s.window_pos
    rw [fillWindow_of_fresh h hs, emit_window_eq, emit_bytesInFlight, length_synSegment, hzero]
    exact ⟨rfl, by omega⟩

end Sponge.TCPSender
