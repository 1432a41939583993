import Sponge.Proof.Reassembler
import Sponge.Lib.Run

/-!
# What the reassembler keeps in memory

The two maps of a reassembler only grow: `push_substring` erases no entry, neither when a stored
byte is assembled nor when it is read. `WithinMemory` bounds them by the capacity.

`MemoryRun` adds to a reassembler the history of its run: the indices `accepted` so far and, of
these, the ones that were `stored`, because they came ahead of the first missing index.
`run_within_iff`: the reassembler is within its memory in all states of a run exactly if never more
than `capacity` indices have been accepted, nor more than `capacity` stored and, in order, still to
be read (`Sparing`), so that no stream longer than the capacity can be assembled within it.
-/

namespace Sponge

open Run

namespace StreamReassembler

variable {Q : ℕ → UInt8 → Prop} {r : StreamReassembler} {w : List UInt8} {index i : ℕ}

/-! ## The stored bytes -/

theorem pushByte_mChar (cur : ℕ) (c : UInt8) (j : ℕ) :
    ((pushByte cur c r w).1.mChar j).isSome = true ↔ (r.mChar j).isSome = true ∨
      (j = cur ∧ r.mExist cur = false ∧ cur ≠ r.firstUnassembled) := by
  obtain ⟨-, hcur, he⟩ | ⟨hex, hcur, he⟩ | ⟨-, hcur, he⟩ | ⟨hex, -, he⟩ :=
    pushByte_cases cur c r w <;> rw [he]
  · simp [hcur]
  · by_cases hj : j = cur
    · simp [hj, hex, hcur]
    · simp [hj]
  · simp [hcur]
  · simp [hex]

/-- **A substring ahead of the cursor**: its new bytes are stored. -/
theorem pushLoop_ahead (data : List UInt8) (hahead : r.firstUnassembled < index + i)
    (hi : index + i < 2 ^ 64) (j : ℕ) :
    ((pushLoop index data i r w).1.mChar j).isSome = true ↔ (r.mChar j).isSome = true ∨
      (r.mExist j = false ∧ index + i ≤ j ∧ j < index + i + data.length ∧ j < r.edge) := by
  induction data generalizing i r w with
  | nil =>
    simp only [pushLoop, List.length_nil]
    refine ⟨.inl, ?_⟩
    rintro (hj | hj)
    · exact hj
    · omega
  | cons c data ih =>
    have hcur : (i + index) % 2 ^ 64 = index + i := by omega
    have hne : index + i ≠ r.firstUnassembled := by omega
    have helt : r.edge < 2 ^ 64 := Nat.mod_lt _ (by decide)
    simp only [pushLoop, hcur]
    by_cases hlt : index + i < r.edge
    · rw [if_pos hlt]
      have hcursor := pushByte_cursor (r := r) (w := w) (index + i) c
      have hexist := pushByte_mExist (r := r) (w := w) (index + i) c j
      have hchar := pushByte_mChar (r := r) (w := w) (index + i) c j
      have hedge := (pushByte_frame (r := r) (w := w) (index + i) c).edge
      rw [if_neg hne] at hcursor
      generalize pushByte (index + i) c r w = p at hcursor hexist hchar hedge ⊢
      have hnew : p.1.mExist j = false ↔ r.mExist j = false ∧ j ≠ index + i := by
        rw [← Bool.not_eq_true, hexist, not_or, Bool.not_eq_true]
      rw [ih (by omega) (by omega), hchar, hedge, hnew, List.length_cons]
      -- the byte itself, or one of the rest
      by_cases hj : j = index + i
      · subst hj
        simp [hne, hlt]
      · simp only [hj, false_and, or_false, ne_eq, not_false_eq_true, and_true]
        refine or_congr Iff.rfl (and_congr Iff.rfl ?_)
        omega
    · rw [if_neg hlt]
      refine ⟨.inl, ?_⟩
      rintro (hj | hj)
      · exact hj
      · omega

/-- **A substring that reaches the cursor**: nothing of it is stored. -/
theorem pushLoop_reaching (data : List UInt8) (hle : index + i ≤ r.firstUnassembled)
    (hbelow : ∀ j < r.firstUnassembled, r.mExist j = true) (hi : index + i < 2 ^ 64) :
    (pushLoop index data i r w).1.mChar = r.mChar := by
  induction data generalizing i r w with
  | nil => rfl
  | cons c data ih =>
    have hcur : (i + index) % 2 ^ 64 = index + i := by omega
    have helt : r.edge < 2 ^ 64 := Nat.mod_lt _ (by decide)
    simp only [pushLoop, hcur]
    by_cases hlt : index + i < r.edge
    · rw [if_pos hlt]
      obtain ⟨-, hc, he⟩ | ⟨hex, hc, he⟩ | ⟨hex, hc, he⟩ | ⟨-, hc, he⟩ :=
        pushByte_cases (index + i) c r w <;> rw [he]
      · rw [ih]
        · show index + (i + 1) ≤ r.firstUnassembled + 1
          omega
        · refine below_succ (fun j hj => ?_) (by simp [hc])
          exact (update_true_iff _ _ _).2 (.inl (hbelow j hj))
        · omega
      · rw [hbelow _ (by omega)] at hex
        cases hex
      · rw [ih]
        · show index + (i + 1) ≤ r.firstUnassembled + 1
          omega
        · exact below_succ hbelow (hc ▸ hex)
        · omega
      · exact ih (r := r) (by omega) hbelow (by omega)
    · rw [if_neg hlt]

theorem drain_mChar (fuel cur : ℕ) : (drain fuel cur r w).1.mChar = r.mChar := by
  induction fuel generalizing cur r w with
  | zero => rfl
  | succ fuel ih =>
    simp only [drain]
    split
    · rw [ih]
    · rfl

/-- **`push_substring` on the stored bytes**: those of a substring ahead of the cursor are added. -/
theorem pushSubstring_mChar (data : List UInt8) (eof : Bool) (h : Inv Q r [])
    (hi : index < 2 ^ 64) (j : ℕ) :
    ((r.pushSubstring data index eof).mChar j).isSome = true ↔ (r.mChar j).isSome = true ∨
      (r.firstUnassembled < index ∧ r.mExist j = false ∧
        index ≤ j ∧ j < index + data.length ∧ j < r.windowEdge) := by
  have hchars : (r.pushSubstring data index eof).mChar =
      (pushLoop index data 0 { r with firstUnread := r.output.bytesRead } []).1.mChar :=
    drain_mChar _ _
  rw [hchars]
  by_cases hahead : r.firstUnassembled < index
  · have hloop := pushLoop_ahead (r := { r with firstUnread := r.output.bytesRead }) (w := [])
      (i := 0) data hahead hi j
    rw [hloop, and_iff_right hahead]
    exact Iff.rfl
  · have hloop := pushLoop_reaching (r := { r with firstUnread := r.output.bytesRead }) (w := [])
      (i := 0) data (Nat.le_of_not_lt hahead) h.below hi
    rw [hloop]
    simp [hahead]

/-- The bytes stored and the indices marked stay within the capacity. -/
structure WithinMemory (capacity : ℕ) (r : StreamReassembler) : Prop where
  chars : ∃ T : Finset ℕ, (∀ j, j ∈ T ↔ (r.mChar j).isSome = true) ∧
    T.card + r.output.bufferSize ≤ capacity
  marks : ∃ T : Finset ℕ, (∀ j, j ∈ T ↔ r.mExist j = true) ∧ T.card ≤ capacity

end StreamReassembler

open StreamReassembler

/-- The calls on a reassembler, with arbitrary data. -/
inductive MemoryOp where
  | push (data : List UInt8) (index : UInt64) (eof : Bool)
  | pop (n : ℕ)
deriving DecidableEq, Repr

/-- A reassembler with the indices that were accepted and those that were stored. -/
structure MemoryRun where
  reassembler : StreamReassembler
  accepted : Finset ℕ
  stored : Finset ℕ

namespace MemoryRun

def new (capacity : UInt64) : MemoryRun := ⟨.new capacity, ∅, ∅⟩

/-- The indices of a push that lie in the window. -/
def arriving (s : MemoryRun) (data : List UInt8) (index : UInt64) : Finset ℕ :=
  (Finset.Ico index.toNat (index.toNat + data.length)).filter (· < s.reassembler.windowEdge)

/-- The indices accepted after a push. -/
def acceptedBy (s : MemoryRun) (data : List UInt8) (index : UInt64) : Finset ℕ :=
  s.accepted ∪ s.arriving data index

/-- The indices stored after a push: those that arrive for the first time, ahead of the first
missing index. -/
def storedBy (s : MemoryRun) (data : List UInt8) (index : UInt64) : Finset ℕ :=
  if s.reassembler.firstUnassembled < index.toNat then
    s.stored ∪ s.arriving data index \ s.accepted
  else s.stored

/-- One call, with the history it makes. -/
def step (s : MemoryRun) : MemoryOp → MemoryRun
  | .push data index eof =>
    { reassembler := s.reassembler.pushSubstring data index.toNat eof
      accepted := s.acceptedBy data index
      stored := s.storedBy data index }
  | .pop n => { s with reassembler := s.reassembler.popOutput n }

/-- The condition: after a push, no more than `capacity` indices have been accepted, nor more than
`capacity` stored and, from the start of the stream on without a gap, still to be read. -/
def Sparing (s : MemoryRun) : MemoryOp → Prop
  | .push data index _ =>
    (s.acceptedBy data index).card ≤ s.reassembler.capacity ∧
      ∀ m ≤ (s.acceptedBy data index).card, Finset.range m ⊆ s.acceptedBy data index →
        (s.storedBy data index).card + (m - s.reassembler.output.bytesRead) ≤
          s.reassembler.capacity
  | .pop _ => True

instance (s : MemoryRun) : (op : MemoryOp) → Decidable (s.Sparing op)
  | .push data index _ => inferInstanceAs (Decidable
    ((s.acceptedBy data index).card ≤ s.reassembler.capacity ∧
      ∀ m ≤ (s.acceptedBy data index).card, Finset.range m ⊆ s.acceptedBy data index →
        (s.storedBy data index).card + (m - s.reassembler.output.bytesRead) ≤
          s.reassembler.capacity))
  | .pop _ => .isTrue trivial

/-- The maps hold what the history says. -/
structure Follows (capacity : ℕ) (s : MemoryRun) : Prop where
  inv : Inv (fun _ _ => True) s.reassembler []
  gap : Gap s.reassembler
  capacity : s.reassembler.capacity = capacity
  accepted : ∀ j, j ∈ s.accepted ↔ s.reassembler.mExist j = true
  stored : ∀ j, j ∈ s.stored ↔ (s.reassembler.mChar j).isSome = true

variable {capacity : ℕ} {s : MemoryRun}

theorem new_follows (capacity : UInt64) : Follows capacity.toNat (new capacity) :=
  ⟨new_inv capacity, rfl, rfl, by simp [new, StreamReassembler.new],
    by simp [new, StreamReassembler.new]⟩

/-- The bound, by the history. -/
theorem Follows.within_iff (h : Follows capacity s) :
    WithinMemory capacity s.reassembler ↔ s.accepted.card ≤ capacity ∧
      s.stored.card + s.reassembler.output.bufferSize ≤ capacity := by
  constructor
  · rintro ⟨⟨T, hT, hchars⟩, T', hT', hmarks⟩
    have hstored : s.stored = T := Finset.ext fun j => (h.stored j).trans (hT j).symm
    have haccepted : s.accepted = T' := Finset.ext fun j => (h.accepted j).trans (hT' j).symm
    rw [hstored, haccepted]
    exact ⟨hmarks, hchars⟩
  · rintro ⟨hmarks, hchars⟩
    exact ⟨⟨s.stored, h.stored, hchars⟩, s.accepted, h.accepted, hmarks⟩

/-- The bytes to be read, as the longest initial segment of the stream that has been accepted. -/
theorem Follows.buffered_le_iff (h : Follows capacity s) {n : ℕ} :
    n + s.reassembler.output.bufferSize ≤ capacity ↔
      ∀ m ≤ s.accepted.card, Finset.range m ⊆ s.accepted →
        n + (m - s.reassembler.output.bytesRead) ≤ capacity := by
  have hcursor := h.inv.cursor
  rw [List.length_nil, ← ByteStream.bufferSize_eq] at hcursor
  have hgap := h.inv.firstGap h.gap
  constructor
  · intro hle m _ hm
    have hmax : m ≤ s.reassembler.firstUnassembled :=
      hgap.isGreatest.2 fun j hj => (h.accepted j).1 (hm (Finset.mem_range.2 hj))
    omega
  · intro hall
    have hsub : Finset.range s.reassembler.firstUnassembled ⊆ s.accepted :=
      fun j hj => (h.accepted j).2 (hgap.1 j (Finset.mem_range.1 hj))
    have hcard := Finset.card_le_card hsub
    rw [Finset.card_range] at hcard
    have hle := hall _ hcard hsub
    omega

theorem mem_arriving {data : List UInt8} {index : UInt64} {j : ℕ} :
    j ∈ s.arriving data index ↔ index.toNat ≤ j ∧ j < index.toNat + data.length ∧
      j < s.reassembler.windowEdge := by
  rw [arriving, Finset.mem_filter, Finset.mem_Ico, and_assoc]

/-- **Step**: the history keeps describing the maps. -/
theorem step_follows (h : Follows capacity s) (op : MemoryOp) : Follows capacity (s.step op) := by
  cases op with
  | pop n => exact ⟨popOutput_inv h.inv n, h.gap, h.capacity, h.accepted, h.stored⟩
  | push data index eof =>
    obtain ⟨hinv, hpushed⟩ := push_spec eof h.inv h.gap index.toNat_lt (fun _ _ _ _ => trivial)
    refine ⟨hinv, hpushed.gap, hpushed.capacity.trans h.capacity, fun j => ?_, fun j => ?_⟩
    · simp only [step, acceptedBy, Finset.mem_union, mem_arriving, h.accepted, hpushed.mExist]
    · have hchar := pushSubstring_mChar data eof h.inv index.toNat_lt j
      simp only [step, storedBy]
      by_cases hahead : s.reassembler.firstUnassembled < index.toNat
      · rw [if_pos hahead, hchar, Finset.mem_union, Finset.mem_sdiff, mem_arriving, h.stored,
          h.accepted, Bool.not_eq_true]
        tauto
      · rw [if_neg hahead, hchar, h.stored]
        simp [hahead]

/-- **Step**: the bound is kept exactly if the call is sparing. -/
theorem step_within_iff (h : Follows capacity s) (hwithin : WithinMemory capacity s.reassembler)
    (op : MemoryOp) : WithinMemory capacity (s.step op).reassembler ↔ s.Sparing op := by
  have hfollows := step_follows h op
  rw [hfollows.within_iff]
  cases op with
  | pop n =>
    -- reading only empties the buffer
    obtain ⟨hmarks, hchars⟩ := h.within_iff.1 hwithin
    refine iff_of_true ⟨hmarks, ?_⟩ trivial
    refine Nat.le_trans (Nat.add_le_add_left ?_ _) hchars
    simp [step, popOutput, ByteStream.bufferSize_eq]
  | push data index eof =>
    rw [hfollows.buffered_le_iff]
    have hread : (s.step (.push data index eof)).reassembler.output.bytesRead =
        s.reassembler.output.bytesRead :=
      (push_spec eof h.inv h.gap index.toNat_lt (fun _ _ _ _ => trivial)).2.bytesRead
    rw [hread, Sparing, h.capacity]
    exact Iff.rfl

/-- **The memory of a reassembler** is within its capacity in all states of a run exactly if all its
pushes are sparing. -/
theorem run_within_iff (capacity : UInt64) (ops : List MemoryOp) :
    (∀ n, WithinMemory capacity.toNat (exec step (new capacity) (ops.take n)).reassembler) ↔
      Guarded step Sparing (new capacity) ops := by
  have hstart : WithinMemory capacity.toNat (new capacity).reassembler := by
    rw [(new_follows capacity).within_iff]
    simp [new, StreamReassembler.new, ByteStream.bufferSize_eq]
  apply always_iff_guarded (A := fun _ _ => True) (I := Follows capacity.toNat)
    (P := fun s => WithinMemory capacity.toNat s.reassembler) _ _ (new_follows capacity) hstart
    (guarded_of_forall (fun _ _ => trivial) _ _)
  · intro s op h _ _ _
    exact step_follows h op
  · intro s op h hwithin _
    exact step_within_iff h hwithin op

/-- **The maps are never emptied**: a byte that was read is still marked when the next one is pushed
to a reassembler of capacity one, and a byte that was stored is still there when it has been
assembled in a reassembler of capacity two. -/
theorem maps_never_emptied :
    ¬ WithinMemory 1 (exec step (new 1)
      [.push [97] 0 false, .pop 1, .push [98] 1 false]).reassembler ∧
    ¬ WithinMemory 2 (exec step (new 2) [.push [98] 1 false, .push [97] 0 false]).reassembler := by
  constructor
  · rintro ⟨-, T, hT, hcard⟩
    have hzero : 0 ∈ T := (hT 0).2 (by decide)
    have hone : 1 ∈ T := (hT 1).2 (by decide)
    have htwo : 1 < T.card := Finset.one_lt_card.2 ⟨0, hzero, 1, hone, by decide⟩
    omega
  · rintro ⟨⟨T, hT, hcard⟩, -⟩
    have hone : 0 < T.card := Finset.card_pos.2 ⟨1, (hT 1).2 (by decide)⟩
    have hbuffered : (exec step (new 2)
        [.push [98] 1 false, .push [97] 0 false]).reassembler.output.bufferSize = 2 := by decide
    omega

end MemoryRun

end Sponge
