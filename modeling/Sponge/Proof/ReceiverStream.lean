import Sponge.Proof.Receiver
import Sponge.Proof.SenderData

/-!
# The receiver of a stream

`W` is the peer's stream. `Receives isn W r`: the receiver holds bytes of `W` at their own indices,
and knows the peer's initial number. A segment that is cut from `W` (`Cut`) keeps this, whenever it
comes: all numbers fit 32 bits, so that the receiver recovers the segment's index.

The reassembler ends the stream as soon as some FIN has arrived in the window and nothing is stored
past the cursor. So the stream is cut short exactly when a segment with which an end is known leaves
a proper front of `W` held and nothing else (`Whole.segmentReceived_iff`).

A FIN with payload brings the last byte with it; a lone FIN does not. `Ends` is what holds if a lone
FIN comes only after the last byte (`LastBeforeFin`): once a FIN is recorded, the last byte is held,
so that the stream can only end with it.
-/

namespace Sponge.TCPReceiver

open TCPSender (Carries)

variable {isn : WrappingInt32} {W : List UInt8} {r : TCPReceiver} {seg : TCPSegment} {p : ℕ}
  {ended : Bool}

/-! ## The receiver of a stream -/

/-- The receiver holds bytes of `W`. -/
structure Receives (isn : WrappingInt32) (W : List UInt8) (r : TCPReceiver) : Prop where
  inv : Inv (fun j c => W[j]? = some c) r
  peer : r.synFlag = true → r.isn = isn
  read_le : r.streamOut.bytesRead ≤ W.length

theorem new_receives (isn : WrappingInt32) (capacity : UInt64) : Receives isn [] (new capacity) :=
  ⟨new_inv capacity, nofun, Nat.le_refl 0⟩

theorem Receives.append (h : Receives isn W r) (d : List UInt8) : Receives isn (W ++ d) r := by
  refine ⟨h.inv.mono fun j c hc => TCPSender.getElem?_append_some d hc, h.peer, ?_⟩
  rw [List.length_append]
  exact Nat.le_add_right_of_le h.read_le

theorem Receives.cursor_eq (h : Receives isn W r) : r.reassembler.firstUnassembled =
    r.streamOut.bytesRead + r.streamOut.contents.length := by
  have hl := h.inv.reassembler.content
  rw [List.append_nil] at hl
  exact hl.ones_length

/-- The bytes buffered are the next ones of `W`. -/
theorem Receives.contents_eq (h : Receives isn W r) : r.streamOut.contents =
    (W.drop r.streamOut.bytesRead).take r.streamOut.contents.length := by
  have hl : Laid (fun j c => W[j]? = some c) (fun _ => 1) r.streamOut.bytesRead
      (r.streamOut.contents ++ []) r.reassembler.firstUnassembled := h.inv.reassembler.content
  rw [List.append_nil, h.cursor_eq] at hl
  have hs := hl.eq_slice
  rwa [Nat.add_sub_cancel_left] at hs

/-- No byte past the end of `W` is assembled. -/
theorem Receives.cursor_le (h : Receives isn W r) : r.reassembler.firstUnassembled ≤ W.length := by
  have h1 := h.cursor_eq
  have h2 := h.read_le
  have h3 := congrArg List.length h.contents_eq
  rw [List.length_take, List.length_drop] at h3
  omega

/-! ## Segments cut from a stream -/

/-- The number of positions that a segment's SYN takes. -/
def synLength (seg : TCPSegment) : ℕ := if seg.header.syn then 1 else 0

/-- A segment with number `p` that is cut from the stream `W`, its SYN before it and its FIN after
it: the SYN at number 0, the bytes of `W` from number 1 on. -/
structure Cut (isn : WrappingInt32) (W : List UInt8) (p : ℕ) (seg : TCPSegment) : Prop where
  seqno : seg.header.seqno = wrap p isn
  syn : seg.header.syn = true → p = 0
  payload : ∀ k c, seg.payload[k]? = some c →
    1 ≤ p + synLength seg ∧ W[p + synLength seg - 1 + k]? = some c
  fin : seg.header.fin = true → p + synLength seg + seg.payload.length = W.length + 1

/-- What a sender emits is cut from what was written to it. -/
theorem cut_of_carries (h : Carries isn W ended p seg) : Cut isn W p seg := by
  cases hs : seg.header.syn with
  | true =>
    obtain ⟨hp, hnil, hf⟩ := h.syn hs
    refine ⟨h.seqno, fun _ => hp, fun k c hk => ?_, fun hfin => ?_⟩
    · rw [hnil] at hk
      cases hk
    · rw [hf] at hfin
      cases hfin
  | false =>
    have hzero : synLength seg = 0 := by rw [synLength, hs, if_neg (by decide)]
    refine ⟨h.seqno, ?_, ?_, ?_⟩
    · intro hsyn
      rw [hs] at hsyn
      cases hsyn
    · rw [hzero]
      exact h.payload
    · intro hf
      rw [hzero]
      exact (h.fin hf).2.2

theorem Cut.firstSeqno (h : Cut isn W p seg) :
    seg.header.seqno + (if seg.header.syn then (1 : UInt32) else 0) =
      wrap (p + synLength seg) isn := by
  unfold synLength
  rw [h.seqno]
  split
  · exact wrap_succ p isn
  · exact wrap_add_zero _

/-- A FIN does not come before number 1. -/
theorem Cut.pos_of_fin (h : Cut isn W p seg) (hf : seg.header.fin = true) :
    1 ≤ p + synLength seg := by
  have hlen := h.fin hf
  apply Nat.pos_of_ne_zero
  intro hzero
  have hpos : 0 < seg.payload.length := by omega
  have := (h.payload 0 _ (List.getElem?_eq_getElem hpos)).1
  omega

/-- Once opened, the receiver knows the sender's initial number. -/
theorem Receives.opened_isn (h : Receives isn W r) (hc : Cut isn W p seg)
    (hd : ¬ r.Drops seg) : (r.opened seg).isn = isn := by
  cases hs : r.synFlag with
  | true =>
    rw [opened_of_syn hs]
    exact h.peer hs
  | false =>
    have hsyn : seg.header.syn = true := by
      refine Bool.eq_true_of_not_eq_false fun hf => hd (.inl ⟨hf, hs⟩)
    have hseq := hc.seqno
    rw [hc.syn hsyn, wrap_zero] at hseq
    unfold opened
    rw [if_pos ⟨hsyn, hs⟩]
    exact hseq

/-- The index at which the receiver puts a segment's payload. -/
theorem Receives.indexOf_eq (h : Receives isn W r) (hc : Cut isn W p seg) (hd : ¬ r.Drops seg)
    (hpos : 1 ≤ p + synLength seg) (hp : p < 2 ^ 32 - 1) (hW : W.length < 2 ^ 31) :
    (r.opened seg).indexOf seg = p + synLength seg - 1 := by
  have hle := h.cursor_le
  have hlen : synLength seg ≤ 1 := by
    unfold synLength
    split <;> omega
  have hstart : (r.opened seg).seqStart seg = p + synLength seg := by
    unfold seqStart
    rw [hc.firstSeqno, h.opened_isn hc hd, opened_checkpoint, h.inv.checkpoint]
    exact unwrap_wrap_small (by omega) (by omega)
  unfold indexOf
  rw [hstart]
  omega

/-- **A segment cut from the stream** keeps what the receiver holds. -/
theorem Receives.segmentReceived (h : Receives isn W r) (hc : Cut isn W p seg)
    (hp : p < 2 ^ 32 - 1) (hW : W.length < 2 ^ 31) : Receives isn W (r.segmentReceived seg) := by
  refine ⟨segmentReceived_inv h.inv fun hd k c hk _ => ?_, fun _ => ?_, ?_⟩
  · obtain ⟨hpos, hw⟩ := hc.payload k c hk
    rw [h.indexOf_eq hc hd hpos hp hW]
    exact hw
  · by_cases hd : r.Drops seg
    · rw [segmentReceived_of_drops hd] at *
      rename_i hr
      exact h.peer hr
    · rw [segmentReceived_of_not_drops hd]
      exact h.opened_isn hc hd
  · rw [segmentReceived_bytesRead h.inv]
    exact h.read_le

theorem Receives.popOutput (h : Receives isn W r) (n : ℕ) : Receives isn W (r.popOutput n) := by
  refine ⟨popOutput_inv h.inv n, h.peer, ?_⟩
  have h1 := h.cursor_eq
  have h2 := h.cursor_le
  show (r.streamOut.popOutput n).bytesRead ≤ W.length
  rw [ByteStream.bytesRead_popOutput]
  omega

/-- The cursor does not go back. -/
theorem Inv.cursor_le_pushed {Q : ℕ → UInt8 → Prop} (h : Inv Q r) (hd : ¬ r.Drops seg) :
    r.reassembler.firstUnassembled ≤ (r.segmentReceived seg).reassembler.firstUnassembled := by
  obtain ⟨hinv, hp⟩ := h.pushed hd
  exact h.cursor_le hinv fun j hj => (hp.mExist j).2 (.inl hj)

/-! ## The end of the stream -/

/-- The last byte of `W`, if it has one, is held. -/
def HoldsLast (W : List UInt8) (r : TCPReceiver) : Prop :=
  W = [] ∨ r.reassembler.mExist (W.length - 1) = true

instance (W : List UInt8) (r : TCPReceiver) : Decidable (HoldsLast W r) :=
  inferInstanceAs (Decidable (_ ∨ _))

/-- A recorded FIN means that the sender has finished and that its last byte is held; at the end of
the stream everything is assembled. -/
structure Ends (W : List UInt8) (ended : Bool) (r : TCPReceiver) : Prop where
  eof : r.reassembler.isEof = true → ended = true ∧ HoldsLast W r
  complete : r.streamOut.inputEnded = true → r.reassembler.firstUnassembled = W.length

/-- The segment's FIN, if it comes without payload and would be recorded, finds the last byte
held. -/
def LastBeforeFin (W : List UInt8) (r : TCPReceiver) (seg : TCPSegment) : Prop :=
  seg.header.fin = true → seg.payload = [] → r.synFlag = true →
    W.length ≤ r.reassembler.windowEdge → HoldsLast W r

instance (W : List UInt8) (r : TCPReceiver) (seg : TCPSegment) :
    Decidable (LastBeforeFin W r seg) :=
  inferInstanceAs (Decidable (_ → _))

/-- A FIN is recorded at the length of `W`. -/
theorem Receives.fin_index (h : Receives isn W r) (hc : Cut isn W p seg)
    (hf : seg.header.fin = true) (hd : ¬ r.Drops seg) (hp : p < 2 ^ 32 - 1)
    (hW : W.length < 2 ^ 31) : (r.opened seg).indexOf seg + seg.payload.length = W.length := by
  have hpos := hc.pos_of_fin hf
  have hlen := hc.fin hf
  rw [h.indexOf_eq hc hd hpos hp hW]
  omega

/-- A lone FIN that comes with the SYN ends an empty stream. -/
theorem nil_of_syn_fin (hc : Cut isn W p seg) (hf : seg.header.fin = true)
    (hs : seg.header.syn = true) (hpay : seg.payload = []) : W = [] := by
  have hlen := hc.fin hf
  rw [hc.syn hs, hpay, synLength, hs] at hlen
  apply List.eq_nil_of_length_eq_zero
  simpa using hlen.symm

/-- With the last byte held and nothing waiting, everything is assembled. -/
theorem Inv.length_le_of_holdsLast {Q : ℕ → UInt8 → Prop} (h : Inv Q r)
    (hempty : r.reassembler.empty = true) (hlast : HoldsLast W r) :
    W.length ≤ r.reassembler.firstUnassembled := by
  have hgap : r.reassembler.mExist r.reassembler.firstUnassembled = false := h.gap
  rcases hlast with hnil | hlast
  · rw [hnil]
    exact Nat.zero_le _
  · refine Nat.le_of_not_lt fun hlt => ?_
    have hcur : r.reassembler.mExist r.reassembler.firstUnassembled = true := by
      rcases Nat.lt_or_eq_of_le (Nat.le_sub_one_of_lt hlt) with hlt' | heq
      · exact h.empty_iff.1 hempty _ _ hlt' hlast
      · rw [heq]
        exact hlast
    rw [hgap] at hcur
    cases hcur

/-- A FIN is recorded only with the last byte held: the payload brings it, or it was there. -/
theorem Ends.eof_segmentReceived (he : Ends W ended r) (h : Receives isn W r)
    (hc : Cut isn W p seg) (hp : p < 2 ^ 32 - 1) (hW : W.length < 2 ^ 31)
    (hended : seg.header.fin = true → ended = true)
    (hfin : LastBeforeFin W r seg) (hd : ¬ r.Drops seg)
    (heof : (r.segmentReceived seg).reassembler.isEof = true) :
    ended = true ∧ HoldsLast W (r.segmentReceived seg) := by
  obtain ⟨-, hpush⟩ := h.inv.pushed hd
  have hmono : HoldsLast W r → HoldsLast W (r.segmentReceived seg) :=
    Or.imp_right fun hm => (hpush.mExist _).2 (.inl hm)
  rw [hpush.isEof, Bool.or_eq_true, Bool.and_eq_true, decide_eq_true_iff] at heof
  rcases heof with heof | ⟨hf, hle⟩
  · exact ⟨(he.eof heof).1, hmono (he.eof heof).2⟩
  · have hidx := h.fin_index hc hf hd hp hW
    rw [hidx, Nat.mod_eq_of_lt (by omega)] at hle
    refine ⟨hended hf, ?_⟩
    cases hpay : seg.payload with
    | nil =>
      cases hs : r.synFlag with
      | true => exact hmono (hfin hf hpay hs hle)
      | false =>
        have hsyn : seg.header.syn = true :=
          Bool.eq_true_of_not_eq_false fun hsyn => hd (.inl ⟨hsyn, hs⟩)
        exact .inl (nil_of_syn_fin hc hf hsyn hpay)
    | cons b rest =>
      have hpos : 0 < seg.payload.length := by rw [hpay]; exact Nat.zero_lt_succ _
      refine .inr ((hpush.mExist _).2 (.inr ?_))
      omega

/-- **A segment cut from the stream** that meets the condition keeps it. -/
theorem Ends.segmentReceived (he : Ends W ended r) (h : Receives isn W r)
    (hc : Cut isn W p seg) (hp : p < 2 ^ 32 - 1) (hW : W.length < 2 ^ 31)
    (hended : seg.header.fin = true → ended = true) (hfin : LastBeforeFin W r seg) :
    Ends W ended (r.segmentReceived seg) := by
  by_cases hd : r.Drops seg
  · rw [segmentReceived_of_drops hd]
    exact he
  have heof := he.eof_segmentReceived h hc hp hW hended hfin hd
  obtain ⟨hinv, hpush⟩ := h.inv.pushed hd
  refine ⟨heof, fun hend => Nat.le_antisymm (h.segmentReceived hc hp hW).cursor_le ?_⟩
  have hend' : (r.segmentReceived seg).streamOut.inputEnded = _ := hpush.inputEnded
  rw [hend', Bool.or_eq_true, Bool.and_eq_true] at hend
  rcases hend with hend | ⟨hempty, heof'⟩
  · -- the stream had ended with everything assembled, and stays so
    rw [← he.complete hend]
    exact h.inv.cursor_le_pushed hd
  · exact hinv.length_le_of_holdsLast hempty (heof heof').2

/-! ## The end of the stream, exactly -/

/-- Unless it is in error, the stream has ended only with all of `W`, and once the other side has
finished. -/
def Whole (W : List UInt8) (ended : Bool) (r : TCPReceiver) : Prop :=
  r.streamOut.inputEnded = true → r.streamOut.error = false →
    ended = true ∧ r.streamOut.bytesWritten = W.length

/-- A segment with which an end of the stream is known, before the stream has ended, leaves the last
byte of `W` held, or some byte held without one before it. -/
def Timely (W : List UInt8) (r : TCPReceiver) (seg : TCPSegment) : Prop :=
  ¬ r.Drops seg → r.streamOut.inputEnded = false → r.EndKnown seg →
    W = [] ∨ W.length - 1 ∈ r.heldAfter seg ∨
      ∃ k < W.length, k ∈ r.heldAfter seg ∧ ∃ j < k, j ∉ r.heldAfter seg

instance (W : List UInt8) (r : TCPReceiver) (seg : TCPSegment) : Decidable (Timely W r seg) :=
  inferInstanceAs (Decidable (¬ r.Drops seg → _ → r.EndKnown seg → _))

/-- What is held are indices of `W`. -/
theorem Receives.held_lt (h : Receives isn W r) {j : ℕ} (hj : r.reassembler.mExist j = true) :
    j < W.length := by
  rcases Nat.lt_or_ge j r.reassembler.firstUnassembled with hlt | hle
  · exact Nat.lt_of_lt_of_le hlt h.cursor_le
  · obtain ⟨c, -, hc⟩ := h.inv.reassembler.stored j hle hj
    exact (List.getElem?_eq_some_iff.1 hc).1

theorem Receives.written_eq_iff (h : Receives isn W r) :
    r.streamOut.bytesWritten = W.length ↔ W.length ≤ r.reassembler.firstUnassembled := by
  have hle := h.cursor_le
  rw [h.inv.bytesWritten_eq]
  omega

/-- **Where the stream may end**: unless it had ended before, the stream is whole after a segment of
it exactly if the segment is timely. -/
theorem Whole.segmentReceived_iff (h : Whole W ended r) (hr : Receives isn W r)
    (hc : Cut isn W p seg) (hp : p < 2 ^ 32 - 1) (hW : W.length < 2 ^ 31)
    (hended : (r.segmentReceived seg).reassembler.isEof = true → ended = true)
    (herr : r.streamOut.error = false) :
    Whole W ended (r.segmentReceived seg) ↔ Timely W r seg := by
  by_cases hd : r.Drops seg
  · rw [segmentReceived_of_drops hd]
    exact iff_of_true h fun hno => absurd hd hno
  have hr' := hr.segmentReceived hc hp hW
  have hmem := hr.inv.mem_heldAfter hd
  obtain ⟨hinv, -⟩ := hr.inv.pushed hd
  cases hend : r.streamOut.inputEnded with
  | true =>
    -- everything was assembled, and stays so
    have hlen := hr.written_eq_iff.1 (h hend herr).2
    refine iff_of_true (fun _ _ => ⟨(h hend herr).1, hr'.written_eq_iff.2 ?_⟩) ?_
    · exact Nat.le_trans hlen (hr.inv.cursor_le_pushed hd)
    · intro _ hno
      rw [hend] at hno
      cases hno
  | false =>
    constructor
    · intro hwhole _ _ hknown
      refine or_iff_not_imp_left.2 fun hne => or_iff_not_imp_right.2 fun hnone => ?_
      have hcompletes : r.Completes seg := by
        refine ⟨hd, hknown, fun j k hjk hk => Classical.byContradiction fun hj => hnone ?_⟩
        exact ⟨k, hr'.held_lt ((hmem k).1 hk), hk, j, hjk, hj⟩
      have hlen := hr'.written_eq_iff.1 (hwhole
        ((segmentReceived_inputEnded hr.inv seg).2 (.inr hcompletes))
        ((segmentReceived_error hr.inv seg).trans herr)).2
      have hpos := List.length_pos_of_ne_nil hne
      exact (hmem _).2 (hinv.reassembler.below _ (by omega))
    · intro ht hend' _
      obtain hend' | ⟨-, hknown, hdown⟩ := (segmentReceived_inputEnded hr.inv seg).1 hend'
      · rw [hend] at hend'
        cases hend'
      have heof := (hr.inv.endKnown_iff hd).1 hknown
      have hempty : (r.segmentReceived seg).reassembler.empty = true := by
        refine hinv.empty_iff.2 fun j k hjk hk => ?_
        rw [← hmem] at hk ⊢
        exact hdown j k hjk hk
      refine ⟨hended heof, hr'.written_eq_iff.2 (hinv.length_le_of_holdsLast hempty ?_)⟩
      obtain hnil | hlast | ⟨k, -, hk, j, hjk, hj⟩ := ht hd hend hknown
      · exact .inl hnil
      · exact .inr ((hmem _).1 hlast)
      · exact absurd (hdown j k hjk hk) hj

/-- A lone FIN behind the last byte is timely. -/
theorem Ends.timely (he : Ends W ended r) (h : Receives isn W r) (hc : Cut isn W p seg)
    (hp : p < 2 ^ 32 - 1) (hW : W.length < 2 ^ 31) (hended : seg.header.fin = true → ended = true)
    (hfin : LastBeforeFin W r seg) : Timely W r seg := by
  intro hd _ hknown
  obtain ⟨-, hlast⟩ := he.eof_segmentReceived h hc hp hW hended hfin hd
    ((h.inv.endKnown_iff hd).1 hknown)
  exact hlast.imp_right fun hlast => .inl ((h.inv.mem_heldAfter hd _).2 hlast)

theorem new_ends (ended : Bool) (capacity : UInt64) : Ends [] ended (new capacity) :=
  ⟨nofun, nofun⟩

end Sponge.TCPReceiver
