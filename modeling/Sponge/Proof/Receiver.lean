import Sponge.TCPReceiver
import Sponge.Proof.Reassembler
import Sponge.Lib.Run

/-!
# The receiver

`TCPReceiver.Inv Q r` is the receiver's invariant over the reassembler's: `checkpoint` is the
cursor, the flags agree with the reassembler's, and nothing is held before the SYN. `Q` is the
reassembler's: what may stand at each stream index. `deliver_spec` and `segmentReceived_inv` carry
it through a segment whose bytes satisfy `Q` where they are inside the window.
-/

namespace Sponge.TCPReceiver

open StreamReassembler (Gap Pushed)

/-- The receiver's invariant. -/
structure Inv (Q : ℕ → UInt8 → Prop) (r : TCPReceiver) : Prop where
  reassembler : StreamReassembler.Inv Q r.reassembler []
  gap : Gap r.reassembler
  checkpoint : r.checkpoint = r.reassembler.firstUnassembled
  fin : r.finFlag = true → r.reassembler.isEof = true
  ended : r.streamOut.inputEnded = true → r.reassembler.isEof = true
  complete : r.reassembler.isEof = true → r.reassembler.empty = true → r.streamOut.inputEnded = true
  fresh : r.synFlag = false → r.reassembler.isEof = false ∧ r.reassembler.firstUnassembled = 0 ∧
    ∀ j, r.reassembler.mExist j = false

variable {Q : ℕ → UInt8 → Prop} {r : TCPReceiver} {seg : TCPSegment}

/-- The stream index of a segment's first payload byte, as the receiver computes it. -/
def indexOf (r : TCPReceiver) (seg : TCPSegment) : ℕ := (r.seqStart seg + (2 ^ 64 - 1)) % 2 ^ 64

theorem indexOf_lt (r : TCPReceiver) (seg : TCPSegment) : r.indexOf seg < 2 ^ 64 :=
  Nat.mod_lt _ (by decide)

/-- The receiver once a segment's SYN has been recorded. -/
def opened (r : TCPReceiver) (seg : TCPSegment) : TCPReceiver :=
  if seg.header.syn = true ∧ r.synFlag = false then
    { r with isn := seg.header.seqno, synFlag := true } else r

/-- The two early returns. -/
def Drops (r : TCPReceiver) (seg : TCPSegment) : Prop :=
  (seg.header.syn = false ∧ r.synFlag = false) ∨ (r.streamOut.eof = true ∧ r.finFlag = true)

instance (r : TCPReceiver) (seg : TCPSegment) : Decidable (r.Drops seg) :=
  inferInstanceAs (Decidable ((_ ∧ _) ∨ (_ ∧ _)))

theorem segmentReceived_of_drops (h : r.Drops seg) : r.segmentReceived seg = r := by
  unfold segmentReceived
  dsimp only
  rcases h with h | h
  · rw [if_pos h]
  · rw [if_pos h]
    split <;> rfl

theorem segmentReceived_of_not_drops (h : ¬ r.Drops seg) :
    r.segmentReceived seg = (r.opened seg).deliver seg := by
  obtain ⟨h1, h2⟩ := not_or.1 h
  unfold segmentReceived opened
  dsimp only
  rw [if_neg h1, if_neg h2]

theorem opened_of_syn (h : r.synFlag = true) (seg : TCPSegment) : r.opened seg = r := by
  unfold opened
  rw [if_neg]
  simp [h]

theorem opened_syn (h : ¬ r.Drops seg) : (r.opened seg).synFlag = true := by
  unfold opened
  split
  · rfl
  · rename_i hn
    obtain ⟨h1, -⟩ := not_or.1 h
    cases hs : seg.header.syn <;> cases hr : r.synFlag <;> simp_all

@[simp] theorem opened_reassembler (r : TCPReceiver) (seg : TCPSegment) :
    (r.opened seg).reassembler = r.reassembler := by
  unfold opened
  split <;> rfl

@[simp] theorem opened_checkpoint (r : TCPReceiver) (seg : TCPSegment) :
    (r.opened seg).checkpoint = r.checkpoint := by
  unfold opened
  split <;> rfl

@[simp] theorem opened_finFlag (r : TCPReceiver) (seg : TCPSegment) :
    (r.opened seg).finFlag = r.finFlag := by
  unfold opened
  split <;> rfl

theorem Inv.mono {Q' : ℕ → UInt8 → Prop} (h : Inv Q r) (hQ : ∀ j c, Q j c → Q' j c) : Inv Q' r :=
  ⟨h.reassembler.mono hQ, h.gap, h.checkpoint, h.fin, h.ended, h.complete, h.fresh⟩

theorem new_inv (capacity : UInt64) : Inv Q (new capacity) :=
  ⟨StreamReassembler.new_inv capacity, rfl, rfl, nofun, nofun, nofun,
    fun _ => ⟨rfl, rfl, fun _ => rfl⟩⟩

theorem Inv.opened (h : Inv Q r) (hd : ¬ r.Drops seg) : Inv Q (r.opened seg) := by
  have hs := opened_syn hd
  refine ⟨?_, ?_, ?_, ?_, ?_, ?_, fun hf => ?_⟩
  · rw [opened_reassembler]; exact h.reassembler
  · rw [opened_reassembler]; exact h.gap
  · rw [opened_reassembler, opened_checkpoint]; exact h.checkpoint
  · rw [opened_reassembler, opened_finFlag]; exact h.fin
  · rw [streamOut, opened_reassembler]; exact h.ended
  · rw [streamOut, opened_reassembler]; exact h.complete
  · rw [hs] at hf; cases hf

/-- **The delivery of a segment** to the reassembler. -/
theorem deliver_spec (seg : TCPSegment) (h : Inv Q r) (hs : r.synFlag = true)
    (hq : ∀ k c, seg.payload[k]? = some c → r.indexOf seg + k < r.reassembler.windowEdge →
      Q (r.indexOf seg + k) c) :
    Inv Q (r.deliver seg) ∧ Pushed r.reassembler seg.payload (r.indexOf seg) seg.header.fin
      (r.deliver seg).reassembler := by
  obtain ⟨h1, h2⟩ := StreamReassembler.push_spec seg.header.fin h.reassembler h.gap
    (indexOf_lt r seg) hq
  have hended : (r.deliver seg).streamOut.inputEnded = (r.streamOut.inputEnded ||
      ((r.deliver seg).reassembler.empty && (r.deliver seg).reassembler.isEof)) := h2.inputEnded
  have hmono : r.reassembler.isEof = true → (r.deliver seg).reassembler.isEof = true := by
    intro he
    rw [show (r.deliver seg).reassembler.isEof = _ from h2.isEof, he, Bool.true_or]
  refine ⟨⟨h1, h2.gap, rfl, fun hf => ?_, fun he => ?_, fun he hem => ?_, fun hf => ?_⟩, h2⟩
  · have hf : (r.finFlag || (seg.header.fin && (r.deliver seg).reassembler.isEof)) = true := hf
    rcases Bool.or_eq_true_iff.1 hf with hf | hf
    · exact hmono (h.fin hf)
    · exact (Bool.and_eq_true_iff.1 hf).2
  · rw [hended] at he
    rcases Bool.or_eq_true_iff.1 he with he | he
    · exact hmono (h.ended he)
    · exact (Bool.and_eq_true_iff.1 he).2
  · rw [hended, he, hem, Bool.true_and, Bool.or_true]
  · have : r.synFlag = false := hf
    rw [hs] at this
    cases this

/-- **A segment** whose bytes inside the window satisfy `Q` keeps the invariant. -/
theorem segmentReceived_inv (h : Inv Q r)
    (hq : ¬ r.Drops seg → ∀ k c, seg.payload[k]? = some c →
      (r.opened seg).indexOf seg + k < r.reassembler.windowEdge →
      Q ((r.opened seg).indexOf seg + k) c) :
    Inv Q (r.segmentReceived seg) := by
  by_cases hd : r.Drops seg
  · rw [segmentReceived_of_drops hd]
    exact h
  · rw [segmentReceived_of_not_drops hd]
    exact (deliver_spec seg (h.opened hd) (opened_syn hd)
      (by rw [opened_reassembler]; exact hq hd)).1

theorem popOutput_inv (h : Inv Q r) (n : ℕ) : Inv Q (r.popOutput n) :=
  ⟨StreamReassembler.popOutput_inv h.reassembler n, h.gap, h.checkpoint, h.fin, h.ended, h.complete,
    h.fresh⟩

/-- The error flag is not part of the invariant. -/
theorem Inv.setError (h : Inv Q r) : Inv Q { r with reassembler :=
    { r.reassembler with output := r.reassembler.output.setError } } :=
  ⟨⟨h.reassembler.cap, h.reassembler.content, h.reassembler.below, h.reassembler.stored,
    h.reassembler.bound, h.reassembler.count⟩, h.gap, h.checkpoint, h.fin, h.ended, h.complete,
    h.fresh⟩

/-- The SYN is recorded, whenever it comes. -/
theorem segmentReceived_synFlag (h : Inv Q r) (seg : TCPSegment) :
    (r.segmentReceived seg).synFlag = (r.synFlag || seg.header.syn) := by
  by_cases hd : r.Drops seg
  · rw [segmentReceived_of_drops hd]
    cases hs : r.synFlag with
    | true => rfl
    | false =>
      rcases hd with hd | hd
      · rw [hd.1]
        rfl
      · have := h.fin hd.2
        rw [(h.fresh hs).1] at this
        cases this
  · rw [segmentReceived_of_not_drops hd]
    show (r.opened seg).synFlag = _
    rw [opened_syn hd]
    obtain ⟨h1, -⟩ := not_or.1 hd
    cases hs : seg.header.syn <;> cases hr : r.synFlag <;> simp_all

/-- **A segment that is not dropped** is pushed at its index, whatever its bytes are. -/
theorem Inv.pushed (h : Inv Q r) (hd : ¬ r.Drops seg) :
    Inv (fun _ _ => True) (r.segmentReceived seg) ∧
      Pushed r.reassembler seg.payload ((r.opened seg).indexOf seg) seg.header.fin
        (r.segmentReceived seg).reassembler := by
  have ht : Inv (fun _ _ => True) r := h.mono fun _ _ _ => trivial
  have hspec := deliver_spec seg (ht.opened hd) (opened_syn hd) fun _ _ _ _ => trivial
  rwa [opened_reassembler, ← segmentReceived_of_not_drops hd] at hspec

/-- A segment leaves the error flag alone. -/
theorem segmentReceived_error (h : Inv Q r) (seg : TCPSegment) :
    (r.segmentReceived seg).streamOut.error = r.streamOut.error := by
  by_cases hd : r.Drops seg
  · rw [segmentReceived_of_drops hd]
  · exact (h.pushed hd).2.error

/-- A segment reads nothing. -/
theorem segmentReceived_bytesRead (h : Inv Q r) (seg : TCPSegment) :
    (r.segmentReceived seg).streamOut.bytesRead = r.streamOut.bytesRead := by
  by_cases hd : r.Drops seg
  · rw [segmentReceived_of_drops hd]
  · exact (h.pushed hd).2.bytesRead

/-! ## The cursor -/

theorem Inv.bytesWritten_eq (h : Inv Q r) :
    r.streamOut.bytesWritten = r.reassembler.firstUnassembled := by
  have hc := h.reassembler.cursor
  rw [List.length_nil, Nat.add_zero] at hc
  rw [ByteStream.bytesWritten_eq]
  exact hc.symm

/-- The cursor is where the held indices first have a gap: with more indices it is not before. -/
theorem Inv.cursor_le {Q' : ℕ → UInt8 → Prop} {r' : TCPReceiver} (h : Inv Q r) (h' : Inv Q' r')
    (hsub : ∀ j, r.reassembler.mExist j = true → r'.reassembler.mExist j = true) :
    r.reassembler.firstUnassembled ≤ r'.reassembler.firstUnassembled := by
  apply Nat.le_of_not_lt
  intro hlt
  have hheld := hsub _ (h.reassembler.below _ hlt)
  rw [show r'.reassembler.mExist r'.reassembler.firstUnassembled = false from h'.gap] at hheld
  cases hheld

/-! ## The end of the stream -/

/-- The indices held once a segment has been delivered. -/
def heldAfter (r : TCPReceiver) (seg : TCPSegment) : Set ℕ :=
  {j | r.reassembler.mExist j = true ∨ ((r.opened seg).indexOf seg ≤ j ∧
    j < (r.opened seg).indexOf seg + seg.payload.length ∧ j < r.reassembler.windowEdge)}

instance (r : TCPReceiver) (seg : TCPSegment) (j : ℕ) : Decidable (j ∈ r.heldAfter seg) :=
  inferInstanceAs (Decidable (_ ∨ (_ ∧ _ ∧ _)))

/-- An end of the stream is known once a segment has been delivered: one was known before, or the
segment's FIN is within the window. -/
def EndKnown (r : TCPReceiver) (seg : TCPSegment) : Prop :=
  r.reassembler.isEof = true ∨ (seg.header.fin = true ∧
    ((r.opened seg).indexOf seg + seg.payload.length) % 2 ^ 64 ≤ r.reassembler.windowEdge)

instance (r : TCPReceiver) (seg : TCPSegment) : Decidable (r.EndKnown seg) :=
  inferInstanceAs (Decidable (_ ∨ (_ ∧ _)))

/-- The segment completes the inbound stream: with it an end of the stream is known, and no index is
missing below one that is held. -/
def Completes (r : TCPReceiver) (seg : TCPSegment) : Prop :=
  ¬ r.Drops seg ∧ r.EndKnown seg ∧ ∀ j k, j < k → k ∈ r.heldAfter seg → j ∈ r.heldAfter seg

/-- Nothing waits for earlier bytes exactly if no index is missing. -/
theorem Inv.empty_iff (h : Inv Q r) : r.reassembler.empty = true ↔
    ∀ j k, j < k → r.reassembler.mExist k = true → r.reassembler.mExist j = true := by
  obtain ⟨T, hT, hcard⟩ := h.reassembler.count
  have hgap : r.reassembler.mExist r.reassembler.firstUnassembled = false := h.gap
  unfold StreamReassembler.empty
  rw [beq_iff_eq, ← hcard, Finset.card_eq_zero]
  constructor
  · intro hnil j k hjk hk
    refine h.reassembler.below j (Nat.lt_of_lt_of_le hjk (Nat.le_of_not_lt fun hlt => ?_))
    have hmem : k ∈ T := (hT k).2 ⟨Nat.le_of_lt hlt, hk⟩
    rw [hnil] at hmem
    cases hmem
  · intro hdown
    refine Finset.eq_empty_of_forall_notMem fun k hk => ?_
    obtain ⟨hle, hex⟩ := (hT k).1 hk
    rcases Nat.lt_or_eq_of_le hle with hlt | heq
    · have := hdown _ k hlt hex
      rw [hgap] at this
      cases this
    · rw [← heq, hgap] at hex
      cases hex

theorem Inv.mem_heldAfter (h : Inv Q r) (hd : ¬ r.Drops seg) (j : ℕ) :
    j ∈ r.heldAfter seg ↔ (r.segmentReceived seg).reassembler.mExist j = true :=
  ((h.pushed hd).2.mExist j).symm

theorem Inv.endKnown_iff (h : Inv Q r) (hd : ¬ r.Drops seg) :
    r.EndKnown seg ↔ (r.segmentReceived seg).reassembler.isEof = true := by
  rw [(h.pushed hd).2.isEof, Bool.or_eq_true, Bool.and_eq_true, decide_eq_true_iff]
  rfl

/-- **The end of the inbound stream**: it has ended already, or the segment completes it. -/
theorem segmentReceived_inputEnded (h : Inv Q r) (seg : TCPSegment) :
    (r.segmentReceived seg).streamOut.inputEnded = true ↔
      r.streamOut.inputEnded = true ∨ r.Completes seg := by
  by_cases hd : r.Drops seg
  · rw [segmentReceived_of_drops hd]
    exact ⟨.inl, fun he => he.resolve_right fun hc => hc.1 hd⟩
  · obtain ⟨hinv, hp⟩ := h.pushed hd
    show (r.segmentReceived seg).reassembler.output.inputEnded = true ↔ _
    rw [hp.inputEnded, Bool.or_eq_true, Bool.and_eq_true, hinv.empty_iff, hp.isEof]
    refine or_congr Iff.rfl ?_
    unfold Completes EndKnown heldAfter
    simp only [Set.mem_ofPred_eq, hp.mExist, Bool.or_eq_true, Bool.and_eq_true, decide_eq_true_iff]
    exact ⟨fun hc => ⟨hd, hc.2, hc.1⟩, fun hc => ⟨hc.2.2, hc.2.1⟩⟩

/-! ## The window -/

/-- The stream indices held: assembled or stored. -/
def held (r : TCPReceiver) : Set ℕ :=
  {j | j < r.reassembler.firstUnassembledByte ∨ r.reassembler.mExist j = true}

theorem Inv.mem_held (h : Inv Q r) (j : ℕ) : j ∈ r.held ↔ r.reassembler.mExist j = true := by
  refine ⟨?_, .inr⟩
  rintro (hj | hj)
  · exact h.reassembler.below j hj
  · exact hj

/-- The right edge announced is the capacity past the bytes read. -/
theorem Inv.edge_eq (h : Inv Q r) : r.reassembler.firstUnassembledByte + r.windowSize =
    r.streamOut.bytesRead + r.reassembler.capacity := by
  have hc := h.reassembler.cursor
  have hl := r.streamOut.contents_length_le
  have hcap := h.reassembler.cap
  have hw : r.windowSize = r.streamOut.capacity - r.streamOut.contents.length :=
    r.streamOut.remainingCapacity_eq
  simp only [List.length_nil] at hc
  unfold StreamReassembler.firstUnassembledByte
  unfold streamOut at *
  omega

end Sponge.TCPReceiver
