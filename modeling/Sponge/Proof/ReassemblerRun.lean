import Sponge.Proof.Reassembler
import Sponge.Lib.Run

/-!
# Runs of the reassembler on excerpts of one stream

`ExcerptRun` is a reassembler together with the history of its run: the indices that were
`accepted` (some push contained them while they were below `bytes_read + capacity`) and the bytes
`popped`. `Correct` says what a reassembler of the stream `S` should hold after such a history.

The window's edge `first_unread + _capacity` is computed in 64 bits. `run_correct_iff` shows that a
run is correct in all its states exactly if no push that brings new indices finds this sum
wrapped around (`Exact`).
-/

namespace Sponge

open StreamReassembler Run

/-- The calls on a reassembler that receives excerpts of the stream `S`. -/
inductive ExcerptOp (S : List UInt8) where
  | push (i n : ℕ) (eof : Bool) (inside : i + n ≤ S.length) (small : i + n < 2 ^ 64)
  | pop (n : ℕ)

/-- A reassembler with the history of its run. -/
structure ExcerptRun where
  reassembler : StreamReassembler
  accepted : Finset ℕ
  popped : List UInt8

namespace ExcerptRun

def new (capacity : UInt64) : ExcerptRun := ⟨.new capacity, ∅, []⟩

/-- The indices of a push of `[i, i + n)` that lie in the window. -/
def arriving (s : ExcerptRun) (i n : ℕ) : Finset ℕ :=
  (Finset.Ico i (i + n)).filter (· < s.reassembler.output.bytesRead + s.reassembler.capacity)

variable {S : List UInt8}

/-- One call, with the history it makes. -/
def step (s : ExcerptRun) : ExcerptOp S → ExcerptRun
  | .push i n eof _ _ =>
    { s with
      reassembler := s.reassembler.pushSubstring ((S.drop i).take n) i eof
      accepted := s.accepted ∪ s.arriving i n }
  | .pop n =>
    { s with
      reassembler := s.reassembler.popOutput n
      popped := s.popped ++ s.reassembler.output.peekOutput n }

/-- What the reassembler of `S` should hold after its history. -/
structure Correct (S : List UInt8) (capacity : ℕ) (s : ExcerptRun) : Prop where
  content : s.popped ++ s.reassembler.output.contents = S.take s.reassembler.firstUnassembledByte
  written : s.reassembler.firstUnassembledByte = s.reassembler.output.bytesWritten
  longest : IsGreatest {m | m ≤ S.length ∧ ∀ j < m, j ∈ s.accepted}
    s.reassembler.firstUnassembledByte
  unassembled : s.reassembler.unassembledBytes =
    (s.accepted.filter (s.reassembler.firstUnassembledByte ≤ ·)).card
  bounded : s.reassembler.output.bufferSize + s.reassembler.unassembledBytes ≤ capacity

/-- The sum `first_unread + _capacity` does not wrap around, or the push brings nothing new. -/
def Exact (s : ExcerptRun) : ExcerptOp S → Prop
  | .push i n _ _ _ => s.reassembler.output.bytesRead + s.reassembler.capacity < 2 ^ 64 ∨
    s.arriving i n ⊆ s.accepted
  | .pop _ => True

/-- The reassembler agrees with its history. -/
structure Agrees (S : List UInt8) (capacity : ℕ) (s : ExcerptRun) : Prop where
  inv : Inv (fun j c => S[j]? = some c) s.reassembler []
  gap : Gap s.reassembler
  capacity : s.reassembler.capacity = capacity
  popped : s.popped = S.take s.reassembler.output.bytesRead
  accepted : ∀ j, j ∈ s.accepted ↔ s.reassembler.mExist j = true
  inside : ∀ j ∈ s.accepted, j < S.length

variable {capacity : ℕ} {s : ExcerptRun}

theorem new_agrees (S : List UInt8) (capacity : UInt64) : Agrees S capacity.toNat (new capacity) :=
  ⟨new_inv capacity, rfl, rfl, by simp [new, StreamReassembler.new],
    fun j => by simp [new, StreamReassembler.new], fun j hj => by simp [new] at hj⟩

/-! ## Agreement gives correctness -/

theorem Agrees.firstGap (h : Agrees S capacity s) :
    FirstGap {j | j ∈ s.accepted} s.reassembler.firstUnassembled := by
  have hset : {j | j ∈ s.accepted} = s.reassembler.present := Set.ext h.accepted
  rw [hset]
  exact h.inv.firstGap h.gap

theorem Agrees.cursor_le_length (h : Agrees S capacity s) :
    s.reassembler.firstUnassembled ≤ S.length :=
  h.inv.cursor_le_of fun j hj => h.inside j ((h.accepted j).2 hj)

theorem Agrees.content (h : Agrees S capacity s) :
    s.popped ++ s.reassembler.output.contents = S.take s.reassembler.firstUnassembled := by
  have hslice := h.inv.content.eq_slice
  have hle := h.inv.content.le
  rw [List.append_nil] at hslice
  rw [h.popped, hslice, ← List.take_add, Nat.add_sub_cancel' hle]

theorem Agrees.unassembled (h : Agrees S capacity s) : s.reassembler.unassembled =
    (s.accepted.filter (s.reassembler.firstUnassembled ≤ ·)).card := by
  obtain ⟨T, hT, hcard⟩ := h.inv.count
  have : T = s.accepted.filter (s.reassembler.firstUnassembled ≤ ·) := by
    ext j
    rw [hT, Finset.mem_filter, h.accepted]
    exact And.comm
  rw [← this, hcard]

theorem Agrees.bounded (h : Agrees S capacity s) :
    s.reassembler.output.bufferSize + s.reassembler.unassembled ≤ capacity := by
  obtain ⟨T, hT, hcard⟩ := h.inv.count
  have hle := FirstGap.card_le (A := s.reassembler.present) hT h.inv.content.le h.inv.below
    h.inv.bound
  have hcur := h.inv.cursor
  rw [ByteStream.bufferSize_eq, ← hcard, ← h.capacity]
  simp only [List.length_nil] at hcur
  omega

theorem Agrees.correct (h : Agrees S capacity s) : Correct S capacity s := by
  refine ⟨h.content, ?_, ⟨⟨h.cursor_le_length, h.firstGap.1⟩, fun m hm => ?_⟩, h.unassembled,
    h.bounded⟩
  · have := h.inv.cursor
    rw [ByteStream.bytesWritten_eq]
    simpa [firstUnassembledByte] using this
  · exact h.firstGap.isGreatest.2 hm.2

/-! ## The steps -/

/-- A slice's bytes are the stream's bytes at their indices. -/
theorem getElem?_slice {i n k : ℕ} {c : UInt8} (h : ((S.drop i).take n)[k]? = some c) :
    S[i + k]? = some c := by
  rw [List.getElem?_take] at h
  split at h
  · rwa [List.getElem?_drop] at h
  · cases h

theorem mem_arriving {i n j : ℕ} : j ∈ s.arriving i n ↔
    (i ≤ j ∧ j < i + n) ∧ j < s.reassembler.output.bytesRead + s.reassembler.capacity := by
  rw [arriving, Finset.mem_filter, Finset.mem_Ico]

/-- What the push of an excerpt adds, whether or not the edge wraps around. -/
theorem push_excerpt {r : StreamReassembler} (hinv : Inv (fun j c => S[j]? = some c) r [])
    (hgap : Gap r) {i n : ℕ} (eof : Bool) (hin : i + n ≤ S.length) (h64 : i + n < 2 ^ 64) :
    Inv (fun j c => S[j]? = some c) (r.pushSubstring ((S.drop i).take n) i eof) [] ∧
      Pushed r ((S.drop i).take n) i eof (r.pushSubstring ((S.drop i).take n) i eof) ∧
      ((S.drop i).take n).length = n := by
  obtain ⟨h1, h2⟩ := push_spec eof hinv hgap
    (Nat.lt_of_le_of_lt (Nat.le_add_right i n) h64) (fun k c hk _ => getElem?_slice hk)
  refine ⟨h1, h2, ?_⟩
  rw [List.length_take, List.length_drop]
  omega

/-- **A guarded step** keeps the reassembler and its history in agreement. -/
theorem step_agrees (h : Agrees S capacity s) (op : ExcerptOp S) (hg : s.Exact op) :
    Agrees S capacity (s.step op) := by
  cases op with
  | push i n eof hin h64 =>
    obtain ⟨h1, h2, hlen⟩ := push_excerpt h.inv h.gap eof hin h64
    refine ⟨h1, h2.gap, h2.capacity.trans h.capacity, ?_, fun j => ?_, fun j hj => ?_⟩
    · simp only [step, h2.bytesRead, h.popped]
    · simp only [step, h2.mExist, Finset.mem_union, mem_arriving, h.accepted, hlen]
      rcases hg with hg | hg
      · rw [windowEdge, Nat.mod_eq_of_lt hg, and_assoc]
      · refine ⟨?_, ?_⟩
        · rintro (hj | hj)
          · exact .inl hj
          · exact .inl ((h.accepted j).1 (hg (mem_arriving.2 hj)))
        · rintro (hj | ⟨h3, h4, h5⟩)
          · exact .inl hj
          · exact .inr ⟨⟨h3, h4⟩, Nat.lt_of_lt_of_le h5 (windowEdge_le _)⟩
    · rcases Finset.mem_union.1 hj with hj | hj
      · exact h.inside j hj
      · have := mem_arriving.1 hj
        omega
  | pop n =>
    refine ⟨popOutput_inv h.inv n, h.gap, h.capacity, ?_, h.accepted, h.inside⟩
    have hlen : s.reassembler.output.contents.length =
        s.reassembler.firstUnassembled - s.reassembler.output.bytesRead := by
      have := h.inv.cursor
      simp only [List.length_nil] at this
      omega
    have hslice := h.inv.content.eq_slice
    rw [List.append_nil] at hslice
    simp only [step, popOutput, ByteStream.peekOutput_eq, ByteStream.bytesRead_popOutput]
    rw [h.popped, hlen, hslice, List.take_take, ← List.take_add]

/-- A push that is not exact leaves an accepted index out of the count. -/
theorem not_correct_of_not_exact (h : Agrees S capacity s) (op : ExcerptOp S)
    (hg : ¬ s.Exact op) : ¬ Correct S capacity (s.step op) := by
  cases op with
  | pop n => exact absurd trivial hg
  | push i n eof hin h64 =>
    obtain ⟨hwrap, hnew⟩ := not_or.1 hg
    obtain ⟨h1, h2, hlen⟩ := push_excerpt h.inv h.gap eof hin h64
    obtain ⟨j, hj, hjn⟩ := Finset.not_subset.1 hnew
    intro hc
    have hsame : ∀ k, (s.step (.push i n eof hin h64)).reassembler.mExist k = true ↔
        k ∈ s.accepted := by
      intro k
      rw [h.accepted]
      exact h2.mExist_of_wrapped h.inv hwrap k
    have hfg : FirstGap {k | k ∈ s.accepted}
        (s.step (.push i n eof hin h64)).reassembler.firstUnassembled := by
      have hset : {k | k ∈ s.accepted} = present _ := Set.ext fun k => (hsame k).symm
      rw [hset]
      exact h1.firstGap h2.gap
    have hcur := hfg.eq h.firstGap
    -- one more index is accepted at or past the cursor
    have hun := hc.unassembled
    obtain ⟨T, hT, hcard⟩ := h1.count
    have hsub : T ⊂ (s.step (.push i n eof hin h64)).accepted.filter
        ((s.step (.push i n eof hin h64)).reassembler.firstUnassembledByte ≤ ·) := by
      rw [Finset.ssubset_iff_of_subset]
      · refine ⟨j, Finset.mem_filter.2 ⟨Finset.mem_union_right _ hj, ?_⟩, fun hjT => ?_⟩
        · by_contra hlt
          exact hjn (hfg.1 j (Nat.lt_of_not_le hlt))
        · exact hjn ((hsame j).1 ((hT j).1 hjT).2)
      · intro k hk
        have := (hT k).1 hk
        exact Finset.mem_filter.2 ⟨Finset.mem_union_left _ ((hsame k).1 this.2), this.1⟩
    have := Finset.card_lt_card hsub
    rw [hcard, ← hun] at this
    exact Nat.lt_irrefl _ this

/-- **A run is correct in all its states exactly if its pushes are exact.** -/
theorem run_correct_iff (S : List UInt8) (capacity : UInt64) (ops : List (ExcerptOp S)) :
    (∀ n, Correct S capacity.toNat (exec step (new capacity) (ops.take n))) ↔
      Guarded step Exact (new capacity) ops := by
  have hnew := new_agrees S capacity
  refine always_iff_guarded (A := fun _ _ => True) (I := Agrees S capacity.toNat)
    (fun s op h _ _ hg => step_agrees h op hg)
    (fun s op h _ _ => ⟨fun hc => ?_, fun hg => (step_agrees h op hg).correct⟩) hnew hnew.correct
    (guarded_of_forall (fun _ _ => trivial) _ _)
  by_contra hg
  exact not_correct_of_not_exact h op hg hc

/-- With capacity `2 ^ 64 - 1` and one byte read, the edge is `0` and the next byte is lost. -/
theorem wrapped_edge_loses_byte :
    ¬ Correct [97, 98] (2 ^ 64 - 1) (exec (step (S := [97, 98])) (new 0xFFFFFFFFFFFFFFFF)
      [.push 0 1 false (by decide) (by decide), .pop 1,
        .push 1 1 false (by decide) (by decide)]) := by
  intro h
  exact absurd h.unassembled (by decide)

end ExcerptRun

end Sponge
