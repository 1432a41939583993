import Sponge.StreamReassembler
import Sponge.Lib.Gap
import Sponge.Lib.Laid

/-!
# The reassembler's invariant

`Inv Q r w`: the state of a reassembler inside `push_substring`, with `w` waiting to be written.
`Q j c` says that byte `c` may stand at stream index `j`: `True` for arbitrary pushes, "the
`j`-th byte of `S`" for excerpts of one stream. The two maps, the counter and the cursor agree:
everything below the cursor is present, what is present above it is stored and counted, and
nothing is present at or past the window's edge.

`push_spec` is the specification of `push_substring`: it keeps the invariant, adds exactly the
indices of the substring below the edge, and leaves the cursor at the first gap (`Gap`).
-/

namespace Sponge.StreamReassembler

/-- The invariant inside `push_substring` (module doc). -/
structure Inv (Q : ℕ → UInt8 → Prop) (r : StreamReassembler) (w : List UInt8) : Prop where
  cap : r.output.capacity = r.capacity
  content : Laid Q (fun _ => 1) r.output.bytesRead (r.output.contents ++ w) r.firstUnassembled
  below : ∀ j < r.firstUnassembled, r.mExist j = true
  stored : ∀ j, r.firstUnassembled ≤ j → r.mExist j = true → ∃ c, r.mChar j = some c ∧ Q j c
  bound : ∀ j, r.mExist j = true → j < r.output.bytesRead + r.capacity
  count : ∃ T : Finset ℕ, (∀ j, j ∈ T ↔ r.firstUnassembled ≤ j ∧ r.mExist j = true) ∧
    T.card = r.unassembled

theorem Inv.mono {Q Q' : ℕ → UInt8 → Prop} {r : StreamReassembler} {w : List UInt8}
    (h : Inv Q r w) (hQ : ∀ j c, Q j c → Q' j c) : Inv Q' r w := by
  refine ⟨h.cap, h.content.mono hQ, h.below, fun j hj he => ?_, h.bound, h.count⟩
  obtain ⟨c, hc, hq⟩ := h.stored j hj he
  exact ⟨c, hc, hQ j c hq⟩

/-- The indices present. -/
def present (r : StreamReassembler) : Set ℕ := {j | r.mExist j = true}

/-- The cursor is at the first gap. -/
def Gap (r : StreamReassembler) : Prop := r.mExist r.firstUnassembled = false

/-- What the loops of `push_substring` leave alone. -/
structure Frame (r r' : StreamReassembler) : Prop where
  output : r'.output = r.output
  capacity : r'.capacity = r.capacity
  firstUnread : r'.firstUnread = r.firstUnread
  isEof : r'.isEof = r.isEof

theorem Frame.refl (r : StreamReassembler) : Frame r r := ⟨rfl, rfl, rfl, rfl⟩

theorem Frame.trans {r₁ r₂ r₃ : StreamReassembler} (h : Frame r₁ r₂) (h' : Frame r₂ r₃) :
    Frame r₁ r₃ :=
  ⟨h'.output.trans h.output, h'.capacity.trans h.capacity, h'.firstUnread.trans h.firstUnread,
    h'.isEof.trans h.isEof⟩

theorem Frame.edge {r r' : StreamReassembler} (h : Frame r r') : r'.edge = r.edge := by
  unfold StreamReassembler.edge
  rw [h.firstUnread, h.capacity]

variable {Q : ℕ → UInt8 → Prop} {r : StreamReassembler} {w : List UInt8}

/-- The cursor is where the bytes read, buffered and waiting end. -/
theorem Inv.cursor (h : Inv Q r w) :
    r.firstUnassembled = r.output.bytesRead + r.output.contents.length + w.length := by
  have := h.content.ones_length
  rw [List.length_append] at this
  omega

/-- The cursor is not past a bound of what is present. -/
theorem Inv.cursor_le_of (h : Inv Q r w) {N : ℕ} (hN : ∀ j, r.mExist j = true → j < N) :
    r.firstUnassembled ≤ N := by
  rcases Nat.eq_zero_or_pos r.firstUnassembled with h0 | h0
  · omega
  · have hlast := hN _ (h.below (r.firstUnassembled - 1) (by omega))
    omega

theorem Inv.cursor_le (h : Inv Q r w) :
    r.firstUnassembled ≤ r.output.bytesRead + r.capacity := h.cursor_le_of h.bound

theorem Inv.firstGap (h : Inv Q r w) (hg : Gap r) : FirstGap r.present r.firstUnassembled := by
  refine ⟨h.below, fun hp => ?_⟩
  have : r.mExist r.firstUnassembled = true := hp
  rw [hg] at this
  cases this

/-! ## One byte of the substring -/

/-- The four cases of the loop body. -/
theorem pushByte_cases (cur : ℕ) (c : UInt8) (r : StreamReassembler) (w : List UInt8) :
    (r.mExist cur = false ∧ cur = r.firstUnassembled ∧
      pushByte cur c r w = ({ r with
        mExist := Function.update r.mExist cur true
        firstUnassembled := r.firstUnassembled + 1 }, w ++ [c])) ∨
    (r.mExist cur = false ∧ cur ≠ r.firstUnassembled ∧
      pushByte cur c r w = ({ r with
        mExist := Function.update r.mExist cur true
        mChar := Function.update r.mChar cur (some c)
        unassembled := r.unassembled + 1 }, w)) ∨
    (r.mExist cur = true ∧ cur = r.firstUnassembled ∧
      pushByte cur c r w = ({ r with
        firstUnassembled := r.firstUnassembled + 1
        unassembled := r.unassembled - 1 }, w ++ [(r.mChar cur).getD 0])) ∨
    (r.mExist cur = true ∧ cur ≠ r.firstUnassembled ∧ pushByte cur c r w = (r, w)) := by
  cases hex : r.mExist cur <;> by_cases hcur : cur = r.firstUnassembled
  · exact .inl ⟨rfl, hcur, by simp only [pushByte, hex, if_pos hcur, ↓reduceIte]⟩
  · exact .inr (.inl ⟨rfl, hcur, by simp only [pushByte, hex, if_neg hcur, ↓reduceIte]⟩)
  · exact .inr (.inr (.inl ⟨rfl, hcur, by
      simp only [pushByte, hex, Bool.true_eq_false, if_pos hcur, ↓reduceIte]⟩))
  · exact .inr (.inr (.inr ⟨rfl, hcur, by
      simp only [pushByte, hex, Bool.true_eq_false, if_neg hcur, ↓reduceIte]⟩))

theorem pushByte_frame (cur : ℕ) (c : UInt8) : Frame r (pushByte cur c r w).1 := by
  obtain ⟨-, -, he⟩ | ⟨-, -, he⟩ | ⟨-, -, he⟩ | ⟨-, -, he⟩ := pushByte_cases cur c r w <;>
    rw [he] <;> exact ⟨rfl, rfl, rfl, rfl⟩

theorem update_true_iff (m : ℕ → Bool) (cur j : ℕ) :
    Function.update m cur true j = true ↔ m j = true ∨ j = cur := by
  by_cases hj : j = cur
  · subst hj; simp
  · simp [hj]

theorem pushByte_mExist (cur : ℕ) (c : UInt8) (j : ℕ) :
    (pushByte cur c r w).1.mExist j = true ↔ r.mExist j = true ∨ j = cur := by
  obtain ⟨-, -, he⟩ | ⟨-, -, he⟩ | ⟨hex, -, he⟩ | ⟨hex, -, he⟩ := pushByte_cases cur c r w <;>
    rw [he]
  · exact update_true_iff r.mExist cur j
  · exact update_true_iff r.mExist cur j
  all_goals
    refine ⟨.inl, ?_⟩
    rintro (h | rfl)
    · exact h
    · exact hex

theorem pushByte_cursor (cur : ℕ) (c : UInt8) :
    (pushByte cur c r w).1.firstUnassembled =
      if cur = r.firstUnassembled then r.firstUnassembled + 1 else r.firstUnassembled := by
  obtain ⟨-, hc, he⟩ | ⟨-, hc, he⟩ | ⟨-, hc, he⟩ | ⟨-, hc, he⟩ := pushByte_cases cur c r w <;>
    rw [he] <;> simp only [hc, ↓reduceIte]

/-- The cursor passes a byte that is appended to `w`. -/
theorem Inv.content_concat (h : Inv Q r w) {c : UInt8} (hc : Q r.firstUnassembled c) :
    Laid Q (fun _ => 1) r.output.bytesRead (r.output.contents ++ (w ++ [c]))
      (r.firstUnassembled + 1) := by
  rw [← List.append_assoc]
  exact h.content.append (.single hc)

/-- Everything below the cursor stays present when the cursor passes a present index. -/
theorem below_succ {m : ℕ → Bool} {n : ℕ} (hb : ∀ j < n, m j = true) (hn : m n = true) :
    ∀ j < n + 1, m j = true := by
  intro j hj
  rcases Nat.lt_succ_iff_lt_or_eq.1 hj with h | rfl
  · exact hb j h
  · exact hn

/-- The stored bytes when the cursor passes one of them. -/
theorem count_erase {m : ℕ → Bool} {n k : ℕ} (hn : m n = true)
    (h : ∃ T : Finset ℕ, (∀ j, j ∈ T ↔ n ≤ j ∧ m j = true) ∧ T.card = k) :
    ∃ T : Finset ℕ, (∀ j, j ∈ T ↔ n + 1 ≤ j ∧ m j = true) ∧ T.card = k - 1 := by
  obtain ⟨T, hT, hk⟩ := h
  refine ⟨T.erase n, fun j => ?_, ?_⟩
  · rw [Finset.mem_erase, hT]
    constructor
    · rintro ⟨hne, hle, hm⟩
      exact ⟨by omega, hm⟩
    · rintro ⟨hle, hm⟩
      exact ⟨by omega, by omega, hm⟩
  · rw [Finset.card_erase_of_mem ((hT n).2 ⟨Nat.le_refl _, hn⟩), hk]

/-- The stored bytes when the cursor's own index arrives. -/
theorem count_next {m : ℕ → Bool} {n k : ℕ} (hn : m n = false)
    (h : ∃ T : Finset ℕ, (∀ j, j ∈ T ↔ n ≤ j ∧ m j = true) ∧ T.card = k) :
    ∃ T : Finset ℕ, (∀ j, j ∈ T ↔ n + 1 ≤ j ∧ Function.update m n true j = true) ∧ T.card = k := by
  obtain ⟨T, hT, hk⟩ := h
  refine ⟨T, fun j => ?_, hk⟩
  rw [hT, update_true_iff]
  constructor
  · rintro ⟨hle, hm⟩
    have : j ≠ n := by rintro rfl; rw [hn] at hm; cases hm
    exact ⟨by omega, .inl hm⟩
  · rintro ⟨hle, hm | rfl⟩
    · exact ⟨by omega, hm⟩
    · omega

/-- The stored bytes when one more index is stored. -/
theorem count_insert {m : ℕ → Bool} {n k cur : ℕ} (hc : m cur = false) (hle : n ≤ cur)
    (h : ∃ T : Finset ℕ, (∀ j, j ∈ T ↔ n ≤ j ∧ m j = true) ∧ T.card = k) :
    ∃ T : Finset ℕ, (∀ j, j ∈ T ↔ n ≤ j ∧ Function.update m cur true j = true) ∧
      T.card = k + 1 := by
  obtain ⟨T, hT, hk⟩ := h
  refine ⟨insert cur T, fun j => ?_, ?_⟩
  · rw [Finset.mem_insert, hT, update_true_iff]
    constructor
    · rintro (rfl | ⟨h1, h2⟩)
      · exact ⟨hle, .inr rfl⟩
      · exact ⟨h1, .inl h2⟩
    · rintro ⟨h1, h2 | rfl⟩
      · exact .inr ⟨h1, h2⟩
      · exact .inl rfl
  · rw [Finset.card_insert_of_notMem, hk]
    rw [hT, hc]
    simp

/-- The cursor passes an index that was stored earlier. -/
theorem Inv.pass (h : Inv Q r w) (hex : r.mExist r.firstUnassembled = true) :
    Inv Q { r with firstUnassembled := r.firstUnassembled + 1, unassembled := r.unassembled - 1 }
      (w ++ [(r.mChar r.firstUnassembled).getD 0]) := by
  obtain ⟨c, hc, hq⟩ := h.stored _ (Nat.le_refl _) hex
  rw [hc, Option.getD_some]
  exact ⟨h.cap, h.content_concat hq, below_succ h.below hex,
    fun j hj hm => h.stored j (Nat.le_of_succ_le hj) hm, h.bound, count_erase hex h.count⟩

/-- **One byte**: below the edge, the loop body keeps the invariant. -/
theorem pushByte_inv {cur : ℕ} {c : UInt8} (h : Inv Q r w)
    (hb : cur < r.output.bytesRead + r.capacity) (hq : Q cur c) :
    Inv Q (pushByte cur c r w).1 (pushByte cur c r w).2 := by
  have hbound : ∀ j, Function.update r.mExist cur true j = true →
      j < r.output.bytesRead + r.capacity := by
    intro j hj
    rcases (update_true_iff _ _ _).1 hj with hj | rfl
    · exact h.bound j hj
    · exact hb
  obtain ⟨hex, rfl, he⟩ | ⟨hex, hcur, he⟩ | ⟨hex, rfl, he⟩ | ⟨-, -, he⟩ :=
    pushByte_cases cur c r w <;> rw [he]
  · -- the next byte in order: it goes to `w` directly
    refine ⟨h.cap, h.content_concat hq, below_succ (fun j hj => ?_) (by simp), fun j hj hm => ?_,
      hbound, count_next hex h.count⟩
    · exact (update_true_iff _ _ _).2 (.inl (h.below j hj))
    · have hj : r.firstUnassembled + 1 ≤ j := hj
      rcases (update_true_iff _ _ _).1 hm with hm | rfl
      · exact h.stored j (by omega) hm
      · omega
  · -- a byte past the cursor: it is stored and counted
    have hge : r.firstUnassembled ≤ cur := by
      by_contra hlt
      have := h.below cur (by omega)
      rw [hex] at this
      cases this
    refine ⟨h.cap, h.content, fun j hj => ?_, fun j hj hm => ?_, hbound,
      count_insert hex hge h.count⟩
    · exact (update_true_iff _ _ _).2 (.inl (h.below j hj))
    · dsimp only at hm ⊢
      by_cases hjc : j = cur
      · subst hjc
        exact ⟨c, by simp, hq⟩
      · rw [Function.update_of_ne hjc] at hm ⊢
        exact h.stored j hj hm
  · exact h.pass hex
  · exact h

/-- The cursor follows the byte, or stays at its gap. -/
theorem pushByte_gap {cur : ℕ} (c : UInt8) (hg : r.firstUnassembled = cur ∨ Gap r) :
    (pushByte cur c r w).1.firstUnassembled = cur + 1 ∨ Gap (pushByte cur c r w).1 := by
  have hcursor := pushByte_cursor (r := r) (w := w) cur c
  by_cases hc : cur = r.firstUnassembled
  · rw [if_pos hc] at hcursor
    exact .inl (by omega)
  · rw [if_neg hc] at hcursor
    refine .inr ?_
    unfold Gap
    rw [hcursor, Bool.eq_false_iff]
    intro hex
    rcases (pushByte_mExist cur c _).1 hex with hex | hex
    · rcases hg with hg | hg
      · exact hc hg.symm
      · rw [hg] at hex
        cases hex
    · exact hc hex.symm

/-! ## The loops -/

/-- **The loop over the substring**: it keeps the invariant, adds the indices below the edge, and
leaves the cursor at a gap or at the end of the substring. -/
theorem pushLoop_spec {index i : ℕ} (data : List UInt8) (h : Inv Q r w) (hi : index + i < 2 ^ 64)
    (he : r.edge = r.output.bytesRead + r.capacity) (hg : r.firstUnassembled = index + i ∨ Gap r)
    (hq : ∀ k c, data[k]? = some c → index + i + k < r.edge → Q (index + i + k) c) :
    Inv Q (pushLoop index data i r w).1 (pushLoop index data i r w).2 ∧
      Frame r (pushLoop index data i r w).1 ∧
      (∀ j, (pushLoop index data i r w).1.mExist j = true ↔
        r.mExist j = true ∨ (index + i ≤ j ∧ j < index + i + data.length ∧ j < r.edge)) ∧
      ((pushLoop index data i r w).1.firstUnassembled = index + i + data.length ∨
        Gap (pushLoop index data i r w).1) := by
  induction data generalizing i r w with
  | nil =>
    simp only [pushLoop]
    refine ⟨h, .refl r, fun j => ⟨.inl, ?_⟩, hg⟩
    rintro (hj | ⟨h1, h2, -⟩)
    · exact hj
    · simp only [List.length_nil] at h2
      omega
  | cons c data ih =>
    have hcur : (i + index) % 2 ^ 64 = index + i := by omega
    have helt : r.edge < 2 ^ 64 := Nat.mod_lt _ (by decide)
    simp only [pushLoop, hcur]
    by_cases hlt : index + i < r.edge
    · rw [if_pos hlt]
      have hf := pushByte_frame (r := r) (w := w) (index + i) c
      have hm := pushByte_mExist (r := r) (w := w) (index + i) c
      have hgap := pushByte_gap (w := w) c hg
      have hinv := pushByte_inv (c := c) h (by omega) (hq 0 c rfl hlt)
      generalize pushByte (index + i) c r w = p at hf hm hgap hinv ⊢
      have hbytes : ∀ k c', data[k]? = some c' → index + (i + 1) + k < p.1.edge →
          Q (index + (i + 1) + k) c' := by
        intro k c' hk hkl
        rw [hf.edge] at hkl
        have hqk := hq (k + 1) c' hk (by omega)
        rwa [show index + (i + 1) + k = index + i + (k + 1) by omega]
      obtain ⟨h1, h2, h3, h4⟩ := ih (i := i + 1) hinv (by omega)
        (by rw [hf.edge, hf.output, hf.capacity]; exact he) hgap hbytes
      refine ⟨h1, hf.trans h2, fun j => ?_, ?_⟩
      · rw [h3, hm, hf.edge, List.length_cons]
        constructor
        · rintro ((hj | hj) | ⟨h5, h6, h7⟩)
          · exact .inl hj
          · exact .inr (by omega)
          · exact .inr (by omega)
        · rintro (hj | ⟨h5, h6, h7⟩)
          · exact .inl (.inl hj)
          · by_cases hj : j = index + i
            · exact .inl (.inr hj)
            · exact .inr (by omega)
      · rw [List.length_cons, show index + i + (data.length + 1) = index + (i + 1) + data.length by
          omega]
        exact h4
    · -- the byte is past the window: the rest of the substring is dropped
      rw [if_neg hlt]
      refine ⟨h, .refl r, fun j => ⟨.inl, ?_⟩, .inr ?_⟩
      · rintro (hj | ⟨h1, -, h2⟩)
        · exact hj
        · omega
      · rcases hg with hg | hg
        · show r.mExist r.firstUnassembled = false
          rw [Bool.eq_false_iff]
          intro hex
          have := h.bound _ hex
          omega
        · exact hg

/-- Below the cursor the loop changes nothing. -/
theorem pushLoop_below {index i : ℕ} {data : List UInt8} (h : Inv Q r w)
    (he : r.edge ≤ r.firstUnassembled) : pushLoop index data i r w = (r, w) := by
  induction data generalizing i with
  | nil => rfl
  | cons c data ih =>
    simp only [pushLoop]
    split
    · rename_i hlt
      have hex := h.below _ (Nat.lt_of_lt_of_le hlt he)
      obtain ⟨hex', -⟩ | ⟨hex', -⟩ | ⟨-, hc, -⟩ | ⟨-, -, hp⟩ :=
        pushByte_cases ((i + index) % 2 ^ 64) c r w
      · rw [hex] at hex'; cases hex'
      · rw [hex] at hex'; cases hex'
      · omega
      · rw [hp]
        exact ih
    · rfl

/-- **The loop over stored bytes**: it runs to the first gap, within its bound on the rounds. -/
theorem drain_spec (fuel cur : ℕ) (h : Inv Q r w) (hf : r.unassembled ≤ fuel)
    (hg : r.firstUnassembled = cur ∨ Gap r) :
    Inv Q (drain fuel cur r w).1 (drain fuel cur r w).2 ∧ Frame r (drain fuel cur r w).1 ∧
      (drain fuel cur r w).1.mExist = r.mExist ∧ Gap (drain fuel cur r w).1 := by
  induction fuel generalizing cur r w with
  | zero =>
    refine ⟨h, .refl r, rfl, ?_⟩
    obtain ⟨T, hT, hk⟩ := h.count
    have hT0 : T = ∅ := Finset.card_eq_zero.1 (by omega)
    show r.mExist r.firstUnassembled = false
    rw [Bool.eq_false_iff]
    intro hex
    have := (hT _).2 ⟨Nat.le_refl _, hex⟩
    simp [hT0] at this
  | succ fuel ih =>
    simp only [drain]
    split
    · rename_i hc
      obtain ⟨rfl, hex⟩ := hc
      have hp := h.pass hex
      obtain ⟨h1, h2, h3, h4⟩ := ih (r.firstUnassembled + 1) hp
        (by show r.unassembled - 1 ≤ fuel; omega) (.inl rfl)
      exact ⟨h1, ⟨h2.output, h2.capacity, h2.firstUnread, h2.isEof⟩, h3, h4⟩
    · rename_i hc
      refine ⟨h, .refl r, rfl, ?_⟩
      rcases hg with hg | hg
      · show r.mExist r.firstUnassembled = false
        rw [Bool.eq_false_iff]
        intro hex
        exact hc ⟨hg.symm, hg ▸ hex⟩
      · exact hg

/-! ## The whole call -/

/-- The first index past the window when a substring arrives. -/
def windowEdge (r : StreamReassembler) : ℕ := (r.output.bytesRead + r.capacity) % 2 ^ 64

theorem windowEdge_le (r : StreamReassembler) :
    r.windowEdge ≤ r.output.bytesRead + r.capacity := Nat.mod_le _ _

/-- A wrapped edge is below everything read. -/
theorem Inv.windowEdge_lt (h : Inv Q r w) (hwrap : ¬ r.output.bytesRead + r.capacity < 2 ^ 64) :
    r.windowEdge < r.output.bytesRead := by
  have hlt := r.output.capacity_lt
  have hcap := h.cap
  unfold windowEdge
  omega

/-- What `push_substring` does to a reassembler. -/
structure Pushed (r : StreamReassembler) (data : List UInt8) (index : ℕ) (eof : Bool)
    (r' : StreamReassembler) : Prop where
  mExist : ∀ j, r'.mExist j = true ↔
    r.mExist j = true ∨ (index ≤ j ∧ j < index + data.length ∧ j < r.windowEdge)
  gap : Gap r'
  capacity : r'.capacity = r.capacity
  bytesRead : r'.output.bytesRead = r.output.bytesRead
  error : r'.output.error = r.output.error
  isEof : r'.isEof = (r.isEof || (eof && decide ((index + data.length) % 2 ^ 64 ≤ r.windowEdge)))
  inputEnded : r'.output.inputEnded = (r.output.inputEnded || (r'.empty && r'.isEof))

/-- The waiting bytes fit the output stream. -/
theorem Inv.fits (h : Inv Q r w) : w.length ≤ r.output.remainingCapacity := by
  have h1 := h.cursor
  have h2 := h.cursor_le
  have h3 := h.cap
  rw [ByteStream.remainingCapacity_eq]
  omega

theorem finish_isEof (last : ℕ) (eof : Bool) (r : StreamReassembler) (w : List UInt8) :
    (finish last eof r w).isEof = (r.isEof || (eof && decide (last ≤ r.edge))) := by
  unfold finish
  by_cases hl : last ≤ r.edge <;> cases he : r.isEof <;> cases eof <;> simp [hl]

/-- **The end of the call**: everything waiting is written. -/
theorem finish_inv (last : ℕ) (eof : Bool) (h : Inv Q r w) : Inv Q (finish last eof r w) [] := by
  have hw : (r.output.write w).2.contents = r.output.contents ++ w := by
    rw [ByteStream.contents_write, List.take_of_length_le h.fits]
  have hcontent : Laid Q (fun _ => 1) r.output.bytesRead
      ((r.output.write w).2.contents ++ []) r.firstUnassembled := by
    rw [List.append_nil, hw]
    exact h.content
  unfold finish
  dsimp only
  generalize (if eof = true ∧ r.isEof = false ∧ last ≤ r.edge then true else r.isEof) = e
  cases hem : r.empty && e <;> exact ⟨h.cap, hcontent, h.below, h.stored, h.bound, h.count⟩

theorem finish_output (last : ℕ) (eof : Bool) (r : StreamReassembler) (w : List UInt8) :
    (finish last eof r w).output.bytesRead = r.output.bytesRead ∧
      (finish last eof r w).output.error = r.output.error ∧
      (finish last eof r w).output.inputEnded =
        (r.output.inputEnded || ((finish last eof r w).empty && (finish last eof r w).isEof)) := by
  unfold finish
  dsimp only
  generalize (if eof = true ∧ r.isEof = false ∧ last ≤ r.edge then true else r.isEof) = e
  unfold empty
  dsimp only
  cases hem : (r.unassembled == 0) && e <;> simp

/-- The two loops of the call, from a reassembler whose `first_unread` has been set. -/
theorem loops_spec {data : List UInt8} {index : ℕ} (h : Inv Q r []) (hg : Gap r)
    (hi : index < 2 ^ 64) (hu : r.firstUnread = r.output.bytesRead)
    (hq : ∀ k c, data[k]? = some c → index + k < r.edge → Q (index + k) c)
    {p q : StreamReassembler × List UInt8} (hp : pushLoop index data 0 r [] = p)
    (hd : drain p.1.unassembled ((index + data.length) % 2 ^ 64) p.1 p.2 = q) :
    Inv Q q.1 q.2 ∧ Frame r q.1 ∧ Gap q.1 ∧ ∀ j, q.1.mExist j = true ↔
      r.mExist j = true ∨ (index ≤ j ∧ j < index + data.length ∧ j < r.edge) := by
  have hedge : r.edge = (r.output.bytesRead + r.capacity) % 2 ^ 64 := by rw [edge, hu]
  obtain ⟨hp1, hp2, hp3, hp4⟩ : Inv Q p.1 p.2 ∧ Frame r p.1 ∧
      (∀ j, p.1.mExist j = true ↔
        r.mExist j = true ∨ (index ≤ j ∧ j < index + data.length ∧ j < r.edge)) ∧
      (p.1.firstUnassembled = (index + data.length) % 2 ^ 64 ∨ Gap p.1) := by
    by_cases hwrap : r.output.bytesRead + r.capacity < 2 ^ 64
    · rw [Nat.mod_eq_of_lt hwrap] at hedge
      obtain ⟨h1, h2, h3, h4⟩ := pushLoop_spec data (i := 0) h hi hedge (.inr hg) hq
      rw [hp] at h1 h2 h3 h4
      refine ⟨h1, h2, h3, ?_⟩
      rcases h4 with h4 | h4
      · have := h1.cursor_le
        rw [h2.output, h2.capacity] at this
        exact .inl (by omega)
      · exact .inr h4
    · -- the edge has wrapped around: it is below everything read
      have hle : r.edge ≤ r.firstUnassembled := by
        have hlt := h.windowEdge_lt hwrap
        have hcursor := h.cursor
        rw [windowEdge, ← hedge] at hlt
        omega
      rw [pushLoop_below h hle] at hp
      subst hp
      refine ⟨h, .refl r, fun j => ⟨.inl, ?_⟩, .inr hg⟩
      rintro (hj | ⟨-, -, hj⟩)
      · exact hj
      · exact h.below j (by omega)
  obtain ⟨h1, h2, h3, h4⟩ := drain_spec _ _ hp1 (Nat.le_refl _) hp4
  rw [hd] at h1 h2 h3 h4
  exact ⟨h1, hp2.trans h2, h4, fun j => by rw [h3, hp3]⟩

/-- **`push_substring`** keeps the invariant and does what `Pushed` says. -/
theorem push_spec {data : List UInt8} {index : ℕ} (eof : Bool) (h : Inv Q r []) (hg : Gap r)
    (hi : index < 2 ^ 64)
    (hq : ∀ k c, data[k]? = some c → index + k < r.windowEdge → Q (index + k) c) :
    Inv Q (r.pushSubstring data index eof) [] ∧
      Pushed r data index eof (r.pushSubstring data index eof) := by
  unfold pushSubstring
  dsimp only
  have h0 : Inv Q { r with firstUnread := r.output.bytesRead } [] :=
    ⟨h.cap, h.content, h.below, h.stored, h.bound, h.count⟩
  generalize hp : pushLoop index data 0 { r with firstUnread := r.output.bytesRead } [] = p
  generalize hd : drain p.1.unassembled ((index + data.length) % 2 ^ 64) p.1 p.2 = q
  obtain ⟨h1, h2, h3, h4⟩ := loops_spec h0 hg hi rfl hq hp hd
  have hout := finish_output ((index + data.length) % 2 ^ 64) eof q.1 q.2
  have heof := finish_isEof ((index + data.length) % 2 ^ 64) eof q.1 q.2
  rw [h2.output] at hout
  rw [h2.isEof, h2.edge] at heof
  exact ⟨finish_inv _ eof h1, h4, h3, h2.capacity, hout.1, hout.2.1, heof, hout.2.2⟩

/-- **A push past a wrapped edge** brings nothing. -/
theorem Pushed.mExist_of_wrapped {data : List UInt8} {index : ℕ} {eof : Bool}
    {r' : StreamReassembler} (h : Pushed r data index eof r') (hinv : Inv Q r w)
    (hwrap : ¬ r.output.bytesRead + r.capacity < 2 ^ 64) (j : ℕ) :
    r'.mExist j = true ↔ r.mExist j = true := by
  have hedge := hinv.windowEdge_lt hwrap
  have hcursor := hinv.cursor
  refine (h.mExist j).trans ⟨?_, .inl⟩
  intro hj
  obtain hj | ⟨-, -, hj⟩ := hj
  · exact hj
  · exact hinv.below j (by omega)

/-- Nothing is stored exactly if everything present is below the cursor. -/
theorem Inv.empty_iff (h : Inv Q r w) :
    r.empty = true ↔ ∀ j, r.mExist j = true → j < r.firstUnassembled := by
  obtain ⟨T, hT, hcard⟩ := h.count
  rw [empty, beq_iff_eq, ← hcard, Finset.card_eq_zero, Finset.eq_empty_iff_forall_notMem]
  constructor
  · intro hnone j hj
    by_contra hle
    exact hnone j ((hT j).2 ⟨Nat.le_of_not_lt hle, hj⟩)
  · intro hbelow j hj
    have hmem := (hT j).1 hj
    exact absurd (hbelow j hmem.2) (Nat.not_lt.2 hmem.1)

theorem new_inv (capacity : UInt64) : Inv Q (new capacity) [] := by
  refine ⟨rfl, by simp [new], fun j hj => absurd hj (Nat.not_lt_zero j), fun j _ hj => ?_,
    fun j hj => ?_, ⟨∅, fun j => ?_, rfl⟩⟩
  · cases hj
  · cases hj
  · simp [new]

/-- **Reading** keeps the invariant: the window only moves up. -/
theorem popOutput_inv (h : Inv Q r []) (n : ℕ) : Inv Q (r.popOutput n) [] := by
  have hsplit := h.content
  rw [List.append_nil, ← List.take_append_drop n r.output.contents, Laid.append_iff] at hsplit
  obtain ⟨b, hb, hrest⟩ := hsplit
  have hlen := hb.ones_length
  refine ⟨h.cap, ?_, h.below, h.stored, fun j hj => ?_, h.count⟩
  · show Laid Q _ (r.output.popOutput n).bytesRead ((r.output.popOutput n).contents ++ []) _
    rw [ByteStream.bytesRead_popOutput, ByteStream.contents_popOutput, List.append_nil]
    rw [List.length_take] at hlen
    rw [← hlen]
    exact hrest
  · have := h.bound j hj
    show j < (r.output.popOutput n).bytesRead + r.capacity
    rw [ByteStream.bytesRead_popOutput]
    omega

end Sponge.StreamReassembler
