import Sponge.Proof.Receiver

/-!
# The advertised window is the acceptance window

`window_size` comes from the output stream, acceptance from `first_unread + _capacity` in the
reassembler, and the index from `unwrap` around the cursor. `windowExact_iff` compares them: in
every run they agree (`WindowExact`) exactly if the 64-bit sum does not wrap around, or the
segment brings nothing new. `rounds` drives a receiver up to the wrap.
-/

namespace Sponge

open Run
open StreamReassembler (windowEdge windowEdge_le)

/-- The calls on a receiver: its owner's segments and its reader's pops. -/
inductive ReceiverOp where
  | segment (seg : TCPSegment)
  | read (n : ℕ)
deriving DecidableEq, Repr

namespace TCPReceiver

def step (r : TCPReceiver) : ReceiverOp → TCPReceiver
  | .segment seg => r.segmentReceived seg
  | .read n => r.popOutput n

/-- The sequence number of a segment's first payload byte. -/
def firstSeqno (seg : TCPSegment) : WrappingInt32 :=
  seg.header.seqno + (if seg.header.syn then (1 : UInt32) else 0)

theorem firstSeqno_of_not_syn {seg : TCPSegment} (h : seg.header.syn = false) :
    firstSeqno seg = seg.header.seqno := by
  rw [firstSeqno, if_neg (by rw [h]; decide), wrap_add_zero]

/-- After the segment, whose first payload byte is number `s`, exactly its indices below the
announced edge have been added, and nothing at or past the edge is held. -/
def WindowExact (r : TCPReceiver) (seg : TCPSegment) (s : ℕ) : Prop :=
  (r.segmentReceived seg).held = r.held ∪
      {j | s - 1 ≤ j ∧ j < s - 1 + seg.payload.length ∧
        j < r.reassembler.firstUnassembledByte + r.windowSize} ∧
    ∀ j ∈ (r.segmentReceived seg).held, j < r.reassembler.firstUnassembledByte + r.windowSize

variable {Q : ℕ → UInt8 → Prop} {r : TCPReceiver} {seg : TCPSegment}

/-! ## One segment -/

/-- A number near the cursor is recovered as the index before it. -/
theorem Inv.indexOf_eq (h : Inv Q r) {s : ℕ} (hseq : firstSeqno seg = wrap s r.isn) (h1 : 1 ≤ s)
    (hlo : r.reassembler.firstUnassembled ≤ s + 2 ^ 31)
    (hhi : s < r.reassembler.firstUnassembled + 2 ^ 31) (h64 : s < 2 ^ 64) :
    r.indexOf seg = s - 1 := by
  have hs : r.seqStart seg = s := by
    show unwrap (firstSeqno seg) r.isn r.checkpoint = s
    rw [hseq, h.checkpoint]
    exact unwrap_wrap hlo hhi h64
  rw [indexOf, hs]
  omega

theorem not_drops (hsyn : r.synFlag = true) (hopen : r.streamOut.inputEnded = false) :
    ¬ r.Drops seg := by
  rintro (⟨-, h⟩ | ⟨h, -⟩)
  · rw [hsyn] at h; cases h
  · rw [((r.streamOut.eof_iff).1 h).2] at hopen
    cases hopen

/-- What an open receiver holds after a segment. -/
theorem Inv.mem_held_segmentReceived (seg : TCPSegment) (h : Inv (fun _ _ => True) r)
    (hsyn : r.synFlag = true) (hopen : r.streamOut.inputEnded = false) (j : ℕ) :
    j ∈ (r.segmentReceived seg).held ↔ j ∈ r.held ∨
      (r.indexOf seg ≤ j ∧ j < r.indexOf seg + seg.payload.length ∧
        j < r.reassembler.windowEdge) := by
  have hd : ¬ r.Drops seg := not_drops hsyn hopen
  obtain ⟨h1, h2⟩ := h.pushed hd
  rw [h1.mem_held, h.mem_held, h2.mExist, opened_of_syn hsyn]

/-- **The window of one segment**: exact unless the edge has wrapped around below a new index. -/
theorem Inv.windowExact_iff (h : Inv (fun _ _ => True) r) (hsyn : r.synFlag = true)
    (hopen : r.streamOut.inputEnded = false) {s : ℕ} (hidx : r.indexOf seg = s - 1) :
    WindowExact r seg s ↔ r.streamOut.bytesRead + r.reassembler.capacity < 2 ^ 64 ∨
      ∀ j, s - 1 ≤ j → j < s - 1 + seg.payload.length →
        j < r.reassembler.firstUnassembledByte + r.windowSize → j ∈ r.held := by
  have hmem := h.mem_held_segmentReceived seg hsyn hopen
  have hbound : ∀ j ∈ r.held, j < r.reassembler.firstUnassembledByte + r.windowSize := by
    intro j hj
    rw [h.edge_eq]
    exact h.reassembler.bound j ((h.mem_held j).1 hj)
  have hedge : r.reassembler.windowEdge ≤
      r.reassembler.firstUnassembledByte + r.windowSize := by
    rw [h.edge_eq]
    exact windowEdge_le _
  rw [hidx] at hmem
  constructor
  · rintro ⟨hset, -⟩
    by_cases hwrap : r.streamOut.bytesRead + r.reassembler.capacity < 2 ^ 64
    · exact .inl hwrap
    · refine .inr fun j h1 h2 h3 => ?_
      have hj : j ∈ (r.segmentReceived seg).held := by
        rw [hset]
        exact .inr ⟨h1, h2, h3⟩
      rcases (hmem j).1 hj with hj | ⟨-, -, hj⟩
      · exact hj
      · -- the wrapped edge is below the cursor
        have hc := h.reassembler.cursor
        have := r.reassembler.output.capacity_lt
        have := h.reassembler.cap
        refine .inl ?_
        unfold windowEdge at hj
        unfold streamOut at hwrap
        unfold StreamReassembler.firstUnassembledByte
        omega
  · intro hcase
    refine ⟨Set.ext fun j => ?_, fun j hj => ?_⟩
    · rw [hmem, Set.mem_union, Set.mem_ofPred_eq]
      constructor
      · rintro (hj | ⟨h1, h2, h3⟩)
        · exact .inl hj
        · exact .inr ⟨h1, h2, by omega⟩
      · rintro (hj | ⟨h1, h2, h3⟩)
        · exact .inl hj
        · rcases hcase with hwrap | hall
          · rw [h.edge_eq] at h3
            exact .inr ⟨h1, h2, h3.trans_eq (Nat.mod_eq_of_lt hwrap).symm⟩
          · exact .inl (hall j h1 h2 h3)
    · rcases (hmem j).1 hj with hj | ⟨-, -, hj⟩
      · exact hbound j hj
      · omega

/-! ## Runs -/

theorem step_inv (h : Inv (fun _ _ => True) r) (op : ReceiverOp) :
    Inv (fun _ _ => True) (r.step op) := by
  cases op with
  | segment seg => exact segmentReceived_inv h fun _ _ _ _ _ => trivial
  | read n => exact popOutput_inv h n

theorem run_inv (capacity : UInt64) (ops : List ReceiverOp) :
    Inv (fun _ _ => True) (exec step (new capacity) ops) :=
  exec_invariant (I := Inv fun _ _ => True) (fun _ op h => step_inv h op) ops (new_inv capacity)

/-- **The advertised window**, in every run: for a segment whose first payload byte has true number
`s` near the cursor, it is exact unless the edge has wrapped around below a new index. -/
theorem run_windowExact_iff (capacity : UInt64) (ops : List ReceiverOp) (seg : TCPSegment) (s : ℕ)
    (hsyn : (exec step (new capacity) ops).synFlag = true)
    (hopen : (exec step (new capacity) ops).streamOut.inputEnded = false)
    (hseq : firstSeqno seg = wrap s (exec step (new capacity) ops).isn) (h1 : 1 ≤ s)
    (hlo : (exec step (new capacity) ops).reassembler.firstUnassembledByte < s + 2 ^ 31)
    (hhi : s < (exec step (new capacity) ops).reassembler.firstUnassembledByte + 2 ^ 31)
    (h64 : s < 2 ^ 64) :
    WindowExact (exec step (new capacity) ops) seg s ↔
      (exec step (new capacity) ops).streamOut.bytesRead +
          (exec step (new capacity) ops).reassembler.capacity < 2 ^ 64 ∨
        ∀ j, s - 1 ≤ j → j < s - 1 + seg.payload.length →
          j < (exec step (new capacity) ops).reassembler.firstUnassembledByte +
            (exec step (new capacity) ops).windowSize →
          j ∈ (exec step (new capacity) ops).held := by
  have h := run_inv capacity ops
  exact h.windowExact_iff hsyn hopen (h.indexOf_eq hseq h1 (Nat.le_of_lt hlo) hhi h64)

/-- A receiver of capacity 4 after the SYN takes the first four of five bytes. -/
theorem first_bytes_windowExact :
    WindowExact (exec step (new 4) [.segment { header := { syn := true } }])
      { header := { seqno := ⟨1⟩ }, payload := [1, 2, 3, 4, 5] } 1 :=
  (run_windowExact_iff 4 [.segment { header := { syn := true } }]
    { header := { seqno := ⟨1⟩ }, payload := [1, 2, 3, 4, 5] } 1 (by decide) (by decide) (by decide)
    (by decide) (by decide) (by decide) (by decide)).2 (.inl (by decide))

/-! ## A run up to the wrap -/

/-- The segment with byte `0` at stream index `k`, from initial sequence number `0`. -/
def byteAt (k : ℕ) : TCPSegment := { header := { seqno := wrap (k + 1) ⟨0⟩ }, payload := [0] }

/-- The SYN, then `n` bytes, each read at once. -/
def rounds : ℕ → List ReceiverOp
  | 0 => [.segment { header := { syn := true } }]
  | n + 1 => rounds n ++ [.segment (byteAt n), .read 1]

/-- A receiver that has received and read `n` bytes. -/
structure Drained (capacity n : ℕ) (r : TCPReceiver) : Prop where
  inv : Inv (fun _ _ => True) r
  capacity : r.reassembler.capacity = capacity
  syn : r.synFlag = true
  isn : r.isn = ⟨0⟩
  isEof : r.reassembler.isEof = false
  bytesRead : r.streamOut.bytesRead = n
  mExist : ∀ j, r.reassembler.mExist j = true ↔ j < n

variable {capacity n : ℕ}

theorem Drained.open (h : Drained capacity n r) : r.streamOut.inputEnded = false := by
  rw [Bool.eq_false_iff]
  intro he
  have := h.inv.ended he
  rw [h.isEof] at this
  cases this

theorem Drained.cursor (h : Drained capacity n r) : r.reassembler.firstUnassembled = n := by
  refine (h.inv.reassembler.firstGap h.inv.gap).eq ⟨fun j hj => (h.mExist j).2 hj, fun hn => ?_⟩
  exact Nat.lt_irrefl n ((h.mExist n).1 hn)

/-- One round: a segment with the next byte arrives, and the byte is read. -/
theorem Drained.round (h : Drained capacity n r) (hc : 0 < capacity) (h64 : n + capacity < 2 ^ 64)
    (hsyn : seg.header.syn = false) (hfin : seg.header.fin = false)
    (hseq : seg.header.seqno = wrap (n + 1) ⟨0⟩) (hone : seg.payload.length = 1) :
    Drained capacity (n + 1) ((r.segmentReceived seg).popOutput 1) := by
  have hcur := h.cursor
  have hidx : r.indexOf seg = n := h.inv.indexOf_eq (s := n + 1)
    (by rw [h.isn, firstSeqno_of_not_syn hsyn, hseq]) (by omega) (by omega) (by omega) (by omega)
  rw [segmentReceived_of_not_drops (not_drops h.syn h.open), opened_of_syn h.syn]
  obtain ⟨h1, h2⟩ := deliver_spec seg h.inv h.syn (fun _ _ _ _ => trivial)
  have hedge : r.reassembler.windowEdge = n + capacity := by
    rw [windowEdge, h.capacity, show r.reassembler.output.bytesRead = n from h.bytesRead]
    exact Nat.mod_eq_of_lt h64
  have hm : ∀ j, (r.deliver seg).reassembler.mExist j = true ↔ j < n + 1 := by
    intro j
    rw [h2.mExist, h.mExist, hidx, hedge, hone]
    omega
  have hf : (r.deliver seg).reassembler.firstUnassembled = n + 1 := by
    refine (h1.reassembler.firstGap h1.gap).eq ⟨fun j hj => (hm j).2 hj, fun hn => ?_⟩
    exact Nat.lt_irrefl _ ((hm _).1 hn)
  have hlen : (r.deliver seg).streamOut.contents.length = 1 := by
    have := h1.reassembler.cursor
    rw [h2.bytesRead, hf, show r.reassembler.output.bytesRead = n from h.bytesRead] at this
    simp only [List.length_nil] at this
    show (r.deliver seg).reassembler.output.contents.length = 1
    omega
  refine ⟨popOutput_inv h1 1, h2.capacity.trans h.capacity, h.syn, h.isn, ?_, ?_, hm⟩
  · show (r.deliver seg).reassembler.isEof = false
    rw [h2.isEof, h.isEof, hfin]
    rfl
  · show ((r.deliver seg).streamOut.popOutput 1).bytesRead = n + 1
    rw [ByteStream.bytesRead_popOutput, hlen]
    exact congrArg (· + 1) (h2.bytesRead.trans h.bytesRead)

/-- The first round: a SYN without payload. -/
theorem drained_zero (capacity : UInt64) (hsyn : seg.header.syn = true)
    (hfin : seg.header.fin = false) (hseq : seg.header.seqno = ⟨0⟩) (hnil : seg.payload = []) :
    Drained capacity.toNat 0 ((new capacity).segmentReceived seg) := by
  have h0 : ¬ (new capacity).Drops seg := by
    rintro (⟨h, -⟩ | ⟨-, h⟩)
    · rw [hsyn] at h; cases h
    · cases h
  obtain ⟨h1, h2⟩ := deliver_spec seg ((new_inv (Q := fun _ _ => True) capacity).opened h0)
    (opened_syn h0) (fun _ _ _ _ => trivial)
  have hisn : ((new capacity).opened seg).isn = ⟨0⟩ := by
    rw [opened, if_pos ⟨hsyn, rfl⟩]
    exact hseq
  rw [opened_reassembler, hnil, hfin] at h2
  rw [segmentReceived_of_not_drops h0]
  refine ⟨h1, h2.capacity, opened_syn h0, hisn, h2.isEof, h2.bytesRead, fun j => ?_⟩
  rw [h2.mExist]
  refine ⟨?_, fun hj => absurd hj (Nat.not_lt_zero j)⟩
  rintro (hj | ⟨h3, h4, -⟩)
  · cases hj
  · simp only [List.length_nil] at h4
    omega

theorem rounds_drained (capacity : UInt64) (hc : 0 < capacity.toNat) (n : ℕ)
    (hn : n + capacity.toNat ≤ 2 ^ 64) :
    Drained capacity.toNat n (exec step (new capacity) (rounds n)) := by
  induction n with
  | zero =>
    have h0 : Drained capacity.toNat 0
        ((new capacity).segmentReceived { header := { syn := true } }) :=
      drained_zero capacity rfl rfl rfl rfl
    exact h0
  | succ n ih =>
    rw [rounds, exec_append]
    exact (ih (by omega)).round hc (by omega) rfl rfl rfl rfl

/-- Four bytes from number `s` on. -/
def fourBytes (s : ℕ) : TCPSegment :=
  { header := { seqno := wrap s ⟨0⟩ }, payload := [0, 0, 0, 0] }

/-- When the edge has wrapped around, a new byte at the end of four is not taken. -/
theorem Drained.not_windowExact {s : ℕ} (h : Drained capacity n r) (hs : s + 2 = n) (h1 : 1 ≤ s)
    (hc : 0 < capacity) (h64 : n < 2 ^ 64) (hwrap : 2 ^ 64 ≤ n + capacity) :
    firstSeqno (fourBytes s) = wrap s r.isn ∧ ¬ WindowExact r (fourBytes s) s := by
  have hseq : firstSeqno (fourBytes s) = wrap s r.isn := by
    rw [h.isn, firstSeqno_of_not_syn rfl, fourBytes]
  have hcur := h.cursor
  refine ⟨hseq, ?_⟩
  rw [h.inv.windowExact_iff h.syn h.open
    (h.inv.indexOf_eq hseq h1 (by omega) (by omega) (by omega)), not_or, h.bytesRead,
    h.capacity, h.inv.edge_eq, h.bytesRead, h.capacity]
  refine ⟨Nat.not_lt.2 hwrap, fun hall => ?_⟩
  have hj := hall n (by omega) (by
    simp only [fourBytes, List.length_cons]
    omega) (by omega)
  rw [h.inv.mem_held, h.mExist] at hj
  exact Nat.lt_irrefl _ hj

/-- **The wrap**: capacity `2 ^ 63 - 1`, with `2 ^ 63 + 1` bytes received and read. The last of four
bytes from number `2 ^ 63 - 1` on is new and inside the announced window, and is dropped. -/
theorem window_wraps :
    ∃ r, r = exec step (new 0x7FFFFFFFFFFFFFFF) (rounds (2 ^ 63 + 1)) ∧
      r.synFlag = true ∧ r.streamOut.inputEnded = false ∧
      r.reassembler.firstUnassembledByte = 2 ^ 63 + 1 ∧
      firstSeqno (fourBytes (2 ^ 63 - 1)) = wrap (2 ^ 63 - 1) r.isn ∧
      ¬ WindowExact r (fourBytes (2 ^ 63 - 1)) (2 ^ 63 - 1) := by
  have h := rounds_drained 0x7FFFFFFFFFFFFFFF (by decide) (2 ^ 63 + 1) (by decide)
  -- named, so that nothing evaluates the run
  obtain ⟨r, hr⟩ : ∃ r, r = exec step (new 0x7FFFFFFFFFFFFFFF) (rounds (2 ^ 63 + 1)) := ⟨_, rfl⟩
  rw [← hr] at h
  obtain ⟨h1, h2⟩ := h.not_windowExact (s := 2 ^ 63 - 1) (by decide) (by decide) (by decide)
    (by decide) (by decide)
  exact ⟨r, hr, h.syn, h.open, h.cursor, h1, h2⟩

end TCPReceiver

end Sponge
