import Sponge.Proof.ReceiverWindow

/-!
# The acknowledgment number never goes back

`ackno` is two past the cursor while the reassembler is empty and the end of the stream is known,
and one past it otherwise (`AckInv`). So it goes back, from two to one past the cursor, when the
stream has ended and a byte is stored behind the end. The guard of `segment_received` that should
prevent it asks whether all bytes have been read (`eof`), not whether the stream has ended:
`run_advances_iff` says that this is the only way.
-/

namespace Sponge.TCPReceiver

open Run

variable {r : TCPReceiver} {seg : TCPSegment} {op : ReceiverOp}

/-! ## The number -/

/-- How far `ackno` is past the cursor. -/
def ahead (r : TCPReceiver) : ℕ :=
  if r.reassembler.empty && r.reassembler.isEof then 2 else 1

/-- `ackno` as an absolute number; 0 before the SYN. -/
def absAckno (r : TCPReceiver) : ℕ :=
  r.ackno.elim 0 fun ackno => (ackno.rawValue - r.isn.rawValue).toNat

/-- What `ackno` says, and the receiver's flags. -/
structure AckInv (r : TCPReceiver) : Prop where
  inv : Inv (fun _ _ => True) r
  fin : r.finFlag = r.reassembler.isEof
  ackno : r.synFlag = true →
    r.acknoField = wrap (r.reassembler.firstUnassembled + r.ahead) r.isn
  ended : r.streamOut.inputEnded = true → r.reassembler.empty = true

theorem new_ackInv (capacity : UInt64) : AckInv (new capacity) :=
  ⟨new_inv capacity, rfl, nofun, nofun⟩

theorem one_le_ahead (r : TCPReceiver) : 1 ≤ r.ahead := by
  unfold ahead
  split <;> omega

theorem ahead_le_two (r : TCPReceiver) : r.ahead ≤ 2 := by
  unfold ahead
  split <;> omega

theorem AckInv.absAckno_eq (h : AckInv r) (hs : r.synFlag = true)
    (hlt : r.streamOut.bytesWritten < 2 ^ 31) :
    r.absAckno = r.reassembler.firstUnassembled + r.ahead := by
  have hle := r.ahead_le_two
  rw [h.inv.bytesWritten_eq] at hlt
  unfold absAckno TCPReceiver.ackno
  rw [hs, if_neg (by decide), Option.elim_some, h.ackno hs, toNat_wrap_sub]
  omega

/-- The stream has ended exactly if `ackno` is two past the cursor. -/
theorem AckInv.ahead_eq (h : AckInv r) :
    r.ahead = if r.streamOut.inputEnded then 2 else 1 := by
  unfold ahead
  cases he : r.streamOut.inputEnded with
  | true => rw [h.ended he, h.inv.ended he]; rfl
  | false =>
    rw [if_neg]
    · rfl
    · intro hboth
      obtain ⟨hempty, heof⟩ := Bool.and_eq_true_iff.1 hboth
      rw [h.inv.complete heof hempty] at he
      cases he

/-! ## One segment -/

/-- The choice of `ackno` at the end of `segment_received`. -/
theorem deliver_acknoField (r : TCPReceiver) (seg : TCPSegment) : (r.deliver seg).acknoField =
    wrap ((r.deliver seg).reassembler.firstUnassembled +
      (if (r.deliver seg).reassembler.empty && (r.deliver seg).finFlag then 2 else 1))
      (r.deliver seg).isn := by
  unfold deliver
  dsimp only
  split <;> rfl

/-- What a segment that is not dropped leaves. -/
theorem AckInv.delivered (h : AckInv r) (hd : ¬ r.Drops seg) :
    (r.segmentReceived seg).synFlag = true ∧
      (r.segmentReceived seg).finFlag = (r.segmentReceived seg).reassembler.isEof ∧
      (r.segmentReceived seg).acknoField =
        wrap ((r.segmentReceived seg).reassembler.firstUnassembled + (r.segmentReceived seg).ahead)
          (r.segmentReceived seg).isn := by
  have heof := (h.inv.pushed hd).2.isEof
  have hfin : (r.finFlag || (seg.header.fin && (r.segmentReceived seg).reassembler.isEof)) =
      (r.segmentReceived seg).reassembler.isEof := by
    rw [heof, h.fin]
    cases r.reassembler.isEof <;> cases seg.header.fin <;> simp
  rw [segmentReceived_of_not_drops hd] at hfin ⊢
  rw [← opened_finFlag r seg] at hfin
  have hflag : ((r.opened seg).deliver seg).finFlag =
      ((r.opened seg).deliver seg).reassembler.isEof := hfin
  refine ⟨opened_syn hd, hflag, ?_⟩
  rw [deliver_acknoField, ahead, hflag]

/-- After its end, the stream gets a byte that is not held yet: the segment is processed, because
not all bytes have been read, and has such a byte inside the window. -/
def Reopens (r : TCPReceiver) (seg : TCPSegment) : Prop :=
  r.streamOut.inputEnded = true ∧ r.streamOut.eof = false ∧
    ∃ k < seg.payload.length, r.indexOf seg + k < r.reassembler.windowEdge ∧
      r.reassembler.mExist (r.indexOf seg + k) = false

instance (r : TCPReceiver) (seg : TCPSegment) : Decidable (r.Reopens seg) :=
  inferInstanceAs (Decidable (_ ∧ _ ∧ ∃ k < _, _))

/-- `r'` is at or after `r`: `ackno` has not gone back, and has not changed once the stream had
ended, and neither have the bytes written. -/
def Advances (r r' : TCPReceiver) : Prop :=
  (r.synFlag = true → r'.synFlag = true) ∧ r.absAckno ≤ r'.absAckno ∧
    (r.streamOut.inputEnded = true → r'.streamOut.inputEnded = true ∧ r'.ackno = r.ackno ∧
      r'.streamOut.bytesWritten = r.streamOut.bytesWritten)

instance (r r' : TCPReceiver) : Decidable (r.Advances r') := inferInstanceAs (Decidable (_ ∧ _))

theorem Advances.refl (r : TCPReceiver) : r.Advances r :=
  ⟨fun hs => hs, Nat.le_refl _, fun he => ⟨he, rfl, rfl⟩⟩

theorem Advances.trans {r₁ r₂ r₃ : TCPReceiver} (h : r₁.Advances r₂) (h' : r₂.Advances r₃) :
    r₁.Advances r₃ := by
  refine ⟨fun hs => h'.1 (h.1 hs), Nat.le_trans h.2.1 h'.2.1, fun he => ?_⟩
  obtain ⟨he₂, hack, hwritten⟩ := h.2.2 he
  obtain ⟨he₃, hack', hwritten'⟩ := h'.2.2 he₂
  exact ⟨he₃, hack'.trans hack, hwritten'.trans hwritten⟩

theorem syn_of_ended {Q : ℕ → UInt8 → Prop} (h : Inv Q r) (he : r.streamOut.inputEnded = true) :
    r.synFlag = true := by
  refine Bool.eq_true_of_not_eq_false fun hs => ?_
  have := h.ended he
  rw [(h.fresh hs).1] at this
  cases this

/-- A segment for an open stream: the cursor does not go back, so neither does `ackno`. -/
theorem AckInv.open_segment (h : AckInv r) (hd : ¬ r.Drops seg)
    (hopen : r.streamOut.inputEnded = false)
    (hlt : (r.segmentReceived seg).streamOut.bytesWritten < 2 ^ 31) :
    AckInv (r.segmentReceived seg) ∧ r.Advances (r.segmentReceived seg) := by
  obtain ⟨hinv, hp⟩ := h.inv.pushed hd
  obtain ⟨hs, hfin, hack⟩ := h.delivered hd
  have hle := h.inv.cursor_le hinv fun j hj => (hp.mExist j).2 (.inl hj)
  have hnew : AckInv (r.segmentReceived seg) := by
    refine ⟨hinv, hfin, fun _ => hack, fun he => ?_⟩
    have hended : (r.segmentReceived seg).streamOut.inputEnded = (r.streamOut.inputEnded ||
      ((r.segmentReceived seg).reassembler.empty &&
        (r.segmentReceived seg).reassembler.isEof)) := hp.inputEnded
    rw [hended, hopen, Bool.false_or, Bool.and_eq_true] at he
    exact he.1
  refine ⟨hnew, fun _ => hs, ?_, fun he => by rw [hopen] at he; cases he⟩
  rw [hnew.absAckno_eq hs hlt]
  cases hold : r.synFlag with
  | false =>
    have hnone : r.ackno = none := by
      unfold TCPReceiver.ackno
      rw [hold, if_pos rfl]
    rw [absAckno, hnone]
    exact Nat.zero_le _
  | true =>
    have hbefore : r.streamOut.bytesWritten < 2 ^ 31 := by
      rw [hinv.bytesWritten_eq] at hlt
      rw [h.inv.bytesWritten_eq]
      omega
    have hone : r.ahead = 1 := by
      rw [h.ahead_eq, hopen]
      rfl
    have := (r.segmentReceived seg).one_le_ahead
    rw [h.absAckno_eq hold hbefore, hone]
    omega

/-- A segment that is processed after the end of the stream, and brings nothing new. -/
theorem AckInv.ended_segment (h : AckInv r) (hd : ¬ r.Drops seg)
    (hend : r.streamOut.inputEnded = true) (heof : r.streamOut.eof = false)
    (hnew : ¬ r.Reopens seg) :
    AckInv (r.segmentReceived seg) ∧ r.Advances (r.segmentReceived seg) := by
  obtain ⟨hinv, hp⟩ := h.inv.pushed hd
  obtain ⟨hs, hfin, hack⟩ := h.delivered hd
  have hold := syn_of_ended h.inv hend
  rw [opened_of_syn hold] at hp
  have hsame : ∀ j, (r.segmentReceived seg).reassembler.mExist j = true ↔
      r.reassembler.mExist j = true := by
    intro j
    rw [hp.mExist]
    refine ⟨fun hj => hj.elim (fun hj => hj) ?_, .inl⟩
    rintro ⟨h1, h2, h3⟩
    refine Bool.eq_true_of_not_eq_false fun hmiss => hnew ⟨hend, heof, j - r.indexOf seg, ?_⟩
    rw [Nat.add_sub_cancel' h1]
    exact ⟨by omega, h3, hmiss⟩
  have hcursor : (r.segmentReceived seg).reassembler.firstUnassembled =
      r.reassembler.firstUnassembled :=
    Nat.le_antisymm (hinv.cursor_le h.inv fun j hj => (hsame j).1 hj)
      (h.inv.cursor_le hinv fun j hj => (hsame j).2 hj)
  have hempty : (r.segmentReceived seg).reassembler.empty = true := by
    have hdown := h.inv.empty_iff.1 (h.ended hend)
    apply hinv.empty_iff.2
    intro j k hjk hk
    exact (hsame j).2 (hdown j k hjk ((hsame k).1 hk))
  have hended : (r.segmentReceived seg).streamOut.inputEnded = true := by
    rw [show (r.segmentReceived seg).streamOut.inputEnded = _ from hp.inputEnded,
      show r.reassembler.output.inputEnded = true from hend, Bool.true_or]
  have hnewInv : AckInv (r.segmentReceived seg) := ⟨hinv, hfin, fun _ => hack, fun _ => hempty⟩
  have hisn : (r.segmentReceived seg).isn = r.isn := by
    rw [segmentReceived_of_not_drops hd, opened_of_syn hold]
    rfl
  have hfield : (r.segmentReceived seg).acknoField = r.acknoField := by
    rw [hack, hnewInv.ahead_eq, hended, hcursor, hisn, h.ackno hold, h.ahead_eq, hend]
  have hackno : (r.segmentReceived seg).ackno = r.ackno := by
    unfold TCPReceiver.ackno
    rw [hs, hold, hfield]
  refine ⟨hnewInv, fun _ => hs, ?_, fun _ => ⟨hended, hackno, ?_⟩⟩
  · rw [absAckno, absAckno, hackno, hisn]
  · rw [hinv.bytesWritten_eq, h.inv.bytesWritten_eq, hcursor]

/-- A new byte after the end of the stream changes `ackno` or the bytes written. -/
theorem AckInv.not_advances (h : AckInv r) (hd : ¬ r.Drops seg) (hnew : r.Reopens seg) :
    ¬ r.Advances (r.segmentReceived seg) := by
  obtain ⟨hend, -, k, hk, hedge, hmiss⟩ := hnew
  obtain ⟨hinv, hp⟩ := h.inv.pushed hd
  obtain ⟨hs, -, hack⟩ := h.delivered hd
  have hold := syn_of_ended h.inv hend
  rw [opened_of_syn hold] at hp
  rintro ⟨-, -, hstill⟩
  obtain ⟨-, hackno, hwritten⟩ := hstill hend
  rw [hinv.bytesWritten_eq, h.inv.bytesWritten_eq] at hwritten
  have hheld : (r.segmentReceived seg).reassembler.mExist (r.indexOf seg + k) = true :=
    (hp.mExist _).2 (.inr ⟨by omega, by omega, hedge⟩)
  have hgap : (r.segmentReceived seg).reassembler.mExist
      r.reassembler.firstUnassembled = false := by
    rw [← hwritten]
    exact hinv.gap
  -- the byte lies past the cursor, which has not moved: it is stored
  have hpast : r.reassembler.firstUnassembled < r.indexOf seg + k := by
    rcases Nat.lt_trichotomy r.reassembler.firstUnassembled (r.indexOf seg + k) with hlt | heq | hgt
    · exact hlt
    · rw [heq, hheld] at hgap
      cases hgap
    · rw [h.inv.reassembler.below _ hgt] at hmiss
      cases hmiss
  have hone : (r.segmentReceived seg).ahead = 1 := by
    unfold ahead
    rw [if_neg]
    intro hboth
    have hdown := hinv.empty_iff.1 (Bool.and_eq_true_iff.1 hboth).1 _ _ hpast hheld
    rw [hgap] at hdown
    cases hdown
  have hisn : (r.segmentReceived seg).isn = r.isn := by
    rw [segmentReceived_of_not_drops hd, opened_of_syn hold]
    rfl
  have hfield : (r.segmentReceived seg).acknoField = r.acknoField := by
    unfold TCPReceiver.ackno at hackno
    rw [hs, hold] at hackno
    simpa using hackno
  rw [hack, h.ackno hold, hone, h.ahead_eq, hend, hisn, hwritten] at hfield
  have hnum := congrArg (fun a => (a.rawValue - r.isn.rawValue).toNat) hfield
  simp only [toNat_wrap_sub, ↓reduceIte] at hnum
  omega

/-! ## Runs -/

/-- Fewer than `2 ^ 31` bytes are assembled after the call. -/
def Small (r : TCPReceiver) (op : ReceiverOp) : Prop :=
  (r.step op).streamOut.bytesWritten < 2 ^ 31

instance (r : TCPReceiver) (op : ReceiverOp) : Decidable (r.Small op) :=
  inferInstanceAs (Decidable (_ < _))

/-- The call does not bring a new byte after the end of the stream. -/
def StaysEnded (r : TCPReceiver) : ReceiverOp → Prop
  | .segment seg => ¬ r.Reopens seg
  | .read _ => True

instance (r : TCPReceiver) : DecidablePred r.StaysEnded
  | .segment _ => inferInstanceAs (Decidable (¬ _))
  | .read _ => inferInstanceAs (Decidable True)

theorem AckInv.read (h : AckInv r) (n : ℕ) : AckInv (r.popOutput n) ∧ r.Advances (r.popOutput n) :=
  ⟨⟨popOutput_inv h.inv n, h.fin, h.ackno, h.ended⟩, fun hs => hs, Nat.le_refl _,
    fun he => ⟨he, rfl, rfl⟩⟩

/-- **One call**. -/
theorem AckInv.step (h : AckInv r) (hsmall : r.Small op) :
    (r.StaysEnded op → AckInv (r.step op)) ∧ (r.Advances (r.step op) ↔ r.StaysEnded op) := by
  cases op with
  | read n => exact ⟨fun _ => (h.read n).1, iff_of_true (h.read n).2 trivial⟩
  | segment seg =>
    by_cases hd : r.Drops seg
    · have hsame : r.step (.segment seg) = r := segmentReceived_of_drops hd
      rw [hsame]
      refine ⟨fun _ => h, iff_of_true (.refl r) ?_⟩
      rintro ⟨hend, heof, -⟩
      rcases hd with ⟨-, hd⟩ | ⟨hd, -⟩
      · rw [syn_of_ended h.inv hend] at hd
        cases hd
      · rw [heof] at hd
        cases hd
    · cases hend : r.streamOut.inputEnded with
      | false =>
        obtain ⟨h1, h2⟩ := h.open_segment hd hend hsmall
        refine ⟨fun _ => h1, iff_of_true h2 ?_⟩
        rintro ⟨hend', -⟩
        rw [hend] at hend'
        cases hend'
      | true =>
        have heof : r.streamOut.eof = false := by
          refine Bool.eq_false_iff.2 fun heof => hd (.inr ⟨heof, ?_⟩)
          rw [h.fin]
          exact h.inv.ended hend
        by_cases hnew : r.Reopens seg
        · exact ⟨fun hno => absurd hnew hno,
            iff_of_false (h.not_advances hd hnew) fun hno => hno hnew⟩
        · obtain ⟨h1, h2⟩ := h.ended_segment hd hend heof hnew
          exact ⟨fun _ => h1, iff_of_true h2 hnew⟩

/-- **The acknowledgment number never goes back**, and stays once the stream has ended, in exactly
the runs in which no segment brings a new byte after the end of the stream. -/
theorem run_advances_iff (capacity : UInt64) (ops : List ReceiverOp)
    (hsmall : Guarded step Small (new capacity) ops) :
    (∀ m n, m ≤ n →
        Advances (exec step (new capacity) (ops.take m)) (exec step (new capacity) (ops.take n))) ↔
      Guarded step StaysEnded (new capacity) ops := by
  rw [← guarded_iff_rel Advances.refl fun _ _ _ h h' => Advances.trans h h']
  apply guarded_iff_guarded (I := AckInv) _ _ (new_ackInv capacity) hsmall
  · intro r op h hs hstays
    exact (h.step hs).1 hstays
  · intro r op h hs
    exact (h.step hs).2

/-- A stream of one byte, delivered twice: the acknowledgment stays where it is. -/
theorem advances_of_repeated_byte :
    Advances (exec step (new 4) [.segment { header := { syn := true } },
        .segment { header := { seqno := ⟨1⟩, fin := true }, payload := [97] }])
      (exec step (new 4) [.segment { header := { syn := true } },
        .segment { header := { seqno := ⟨1⟩, fin := true }, payload := [97] },
        .segment { header := { seqno := ⟨1⟩, fin := true }, payload := [97] }]) :=
  (run_advances_iff 4 [.segment { header := { syn := true } },
    .segment { header := { seqno := ⟨1⟩, fin := true }, payload := [97] },
    .segment { header := { seqno := ⟨1⟩, fin := true }, payload := [97] }] (by decide)).2
    (by decide) 2 3 (by decide)

/-- A byte behind the end of a stream of one unread byte: the acknowledgment goes back. -/
theorem byte_behind_end_regresses :
    ¬ Advances (exec step (new 4) [.segment { header := { syn := true } },
        .segment { header := { seqno := ⟨1⟩, fin := true }, payload := [97] }])
      (exec step (new 4) [.segment { header := { syn := true } },
        .segment { header := { seqno := ⟨1⟩, fin := true }, payload := [97] },
        .segment { header := { seqno := ⟨3⟩ }, payload := [98] }]) := by
  decide

end Sponge.TCPReceiver
