import Sponge.Proof.ReassemblerRun

/-!
# The order of the pushes does not matter

A reassembler that is never read from has its window at `[0, capacity)`. When it is pushed excerpts
of one stream `S` inside that window, everything observable about it follows from the set of indices
they cover: `Assembled S capacity A r` says that `r` is a reassembler of the indices `A`, and
`Assembled.same` that two of them agree. `push_assembled` is the step, `assemble_assembled` the run.
-/

namespace Sponge

open StreamReassembler Run

/-- A substring of the stream `S` inside the first `capacity` bytes, as it is pushed. -/
structure Excerpt (S : List UInt8) (capacity : ℕ) where
  index : ℕ
  length : ℕ
  eof : Bool
  inside : index + length ≤ S.length
  fits : index + length ≤ capacity

namespace Excerpt

variable {S : List UInt8} {capacity : ℕ}

def data (x : Excerpt S capacity) : List UInt8 := (S.drop x.index).take x.length

/-- The stream indices that the pushes cover. -/
def covered (pushes : List (Excerpt S capacity)) : Set ℕ :=
  {j | ∃ x ∈ pushes, x.index ≤ j ∧ j < x.index + x.length}

@[simp] theorem covered_nil : covered ([] : List (Excerpt S capacity)) = ∅ := by
  simp [covered]

@[simp] theorem covered_cons (x : Excerpt S capacity) (pushes : List (Excerpt S capacity)) :
    covered (x :: pushes) = Set.Ico x.index (x.index + x.length) ∪ covered pushes := by
  ext j
  simp [covered]

end Excerpt

namespace StreamReassembler

variable {S : List UInt8} {capacity : ℕ}

/-- One push of an excerpt. -/
def pushExcerpt (r : StreamReassembler) (x : Excerpt S capacity) : StreamReassembler :=
  r.pushSubstring x.data x.index x.eof

/-- A fresh reassembler after the pushes, in order. -/
def assemble (capacity : UInt64) (pushes : List (Excerpt S capacity.toNat)) : StreamReassembler :=
  exec pushExcerpt (new capacity) pushes

/-- A reassembler of the indices `A` of `S`, from which nothing has been read. -/
structure Assembled (S : List UInt8) (capacity : ℕ) (A : Set ℕ) (r : StreamReassembler) :
    Prop where
  inv : Inv (fun j c => S[j]? = some c) r []
  gap : Gap r
  capacity : r.capacity = capacity
  unread : r.output.bytesRead = 0
  present : r.present = A

variable {A : Set ℕ} {r r' : StreamReassembler}

theorem new_assembled (S : List UInt8) (capacity : UInt64) :
    Assembled S capacity.toNat ∅ (new capacity) :=
  ⟨new_inv capacity, rfl, rfl, rfl, by simp [present, new]⟩

/-- **Step**: a push adds the indices of its excerpt. -/
theorem push_assembled (h : Assembled S capacity A r) (x : Excerpt S capacity)
    (hcap : capacity < 2 ^ 64) :
    Assembled S capacity (A ∪ Set.Ico x.index (x.index + x.length)) (r.pushExcerpt x) := by
  have hfits := x.fits
  obtain ⟨hinv, hpushed, hlen⟩ :=
    ExcerptRun.push_excerpt h.inv h.gap x.eof x.inside (Nat.lt_of_le_of_lt hfits hcap)
  have hedge : r.windowEdge = capacity := by
    rw [windowEdge, h.unread, h.capacity, Nat.zero_add, Nat.mod_eq_of_lt hcap]
  refine ⟨hinv, hpushed.gap, hpushed.capacity.trans h.capacity,
    hpushed.bytesRead.trans h.unread, ?_⟩
  rw [← h.present]
  ext j
  have hj := hpushed.mExist j
  rw [hlen, hedge] at hj
  simp only [present, Set.mem_ofPred_eq, Set.mem_union, Set.mem_Ico]
  refine hj.trans (or_congr Iff.rfl ⟨fun hj => ⟨hj.1, hj.2.1⟩, fun hj => ⟨hj.1, hj.2, by omega⟩⟩)

/-- **Run**: the pushes make a reassembler of the indices they cover. -/
theorem assemble_assembled (capacity : UInt64) (pushes : List (Excerpt S capacity.toNat)) :
    Assembled S capacity.toNat (Excerpt.covered pushes) (assemble capacity pushes) := by
  have hfrom : ∀ (A : Set ℕ) (r : StreamReassembler), Assembled S capacity.toNat A r →
      Assembled S capacity.toNat (A ∪ Excerpt.covered pushes) (exec pushExcerpt r pushes) := by
    induction pushes with
    | nil => simp
    | cons x pushes ih =>
      intro A r h
      rw [Excerpt.covered_cons, ← Set.union_assoc, exec_cons]
      exact ih _ _ (push_assembled h x capacity.toNat_lt)
  simpa [assemble] using hfrom ∅ _ (new_assembled S capacity)

/-- **The indices determine what is seen** of a reassembler. -/
theorem Assembled.same (h : Assembled S capacity A r) (h' : Assembled S capacity A r') :
    r.output.contents = r'.output.contents ∧
      r.firstUnassembledByte = r'.firstUnassembledByte ∧
      r.unassembledBytes = r'.unassembledBytes := by
  have hcursor : r.firstUnassembled = r'.firstUnassembled := by
    apply FirstGap.eq (A := A)
    · rw [← h.present]
      exact h.inv.firstGap h.gap
    · rw [← h'.present]
      exact h'.inv.firstGap h'.gap
  refine ⟨?_, hcursor, ?_⟩
  · have hcontents := h.inv.content.eq_slice
    have hcontents' := h'.inv.content.eq_slice
    simp only [List.append_nil, h.unread, h'.unread, hcursor] at hcontents hcontents'
    rw [hcontents, hcontents']
  · obtain ⟨T, hT, hcard⟩ := h.inv.count
    obtain ⟨T', hT', hcard'⟩ := h'.inv.count
    have hsame : T = T' := by
      ext j
      have hj : r.mExist j = true ↔ r'.mExist j = true :=
        Set.ext_iff.1 (h.present.trans h'.present.symm) j
      rw [hT, hT', hcursor, hj]
    show r.unassembled = r'.unassembled
    rw [← hcard, hsame, hcard']

/-- **Order and multiplicity of the pushes do not matter**, only the indices they cover. -/
theorem assemble_order (S : List UInt8) (capacity : UInt64)
    (pushes pushes' : List (Excerpt S capacity.toNat))
    (hcovered : Excerpt.covered pushes = Excerpt.covered pushes') :
    (assemble capacity pushes).output.contents = (assemble capacity pushes').output.contents ∧
      (assemble capacity pushes).firstUnassembledByte =
        (assemble capacity pushes').firstUnassembledByte ∧
      (assemble capacity pushes).unassembledBytes =
        (assemble capacity pushes').unassembledBytes := by
  have h := assemble_assembled capacity pushes
  rw [hcovered] at h
  exact h.same (assemble_assembled capacity pushes')

/-- The bytes 1 to 3 of a stream in one piece. -/
def onePiece : List (Excerpt [97, 98, 99, 100] (UInt64.toNat 4)) :=
  [⟨1, 3, true, by decide, by decide⟩]

/-- The same bytes in overlapping pieces, the last one first. -/
def overlappingPieces : List (Excerpt [97, 98, 99, 100] (UInt64.toNat 4)) :=
  [⟨3, 1, false, by decide, by decide⟩, ⟨1, 2, false, by decide, by decide⟩,
    ⟨2, 2, true, by decide, by decide⟩]

theorem overlappingPieces_assembled :
    Excerpt.covered onePiece = Excerpt.covered overlappingPieces ∧
      (assemble 4 onePiece).output.contents = (assemble 4 overlappingPieces).output.contents ∧
      (assemble 4 onePiece).firstUnassembledByte =
        (assemble 4 overlappingPieces).firstUnassembledByte ∧
      (assemble 4 onePiece).unassembledBytes = (assemble 4 overlappingPieces).unassembledBytes := by
  have hcovered : Excerpt.covered onePiece = Excerpt.covered overlappingPieces := by
    ext j
    simp only [onePiece, overlappingPieces, Excerpt.covered_cons, Excerpt.covered_nil,
      Set.mem_union, Set.mem_Ico, Set.mem_empty_iff_false, or_false]
    omega
  exact ⟨hcovered, assemble_order _ 4 onePiece overlappingPieces hcovered⟩

end StreamReassembler

end Sponge
