import Mathlib.Data.Finset.Card
import Mathlib.Order.Bounds.Basic
import Mathlib.Order.Interval.Finset.Nat

/-!
# The first gap of a set of natural numbers

`FirstGap A n`: `A` holds every number below `n` and not `n` itself, so `n` is the length of the
longest initial segment inside `A` (`FirstGap.isGreatest`). It is unique (`FirstGap.eq`).
`FirstGap.card_le` counts the members from an offset on when the set is bounded.
-/

/-- `A` holds everything below `n` but not `n`. -/
def FirstGap (A : Set ℕ) (n : ℕ) : Prop := (∀ j < n, j ∈ A) ∧ n ∉ A

namespace FirstGap

variable {A : Set ℕ} {m n : ℕ}

theorem eq (hm : FirstGap A m) (hn : FirstGap A n) : m = n := by
  rcases Nat.lt_trichotomy m n with h | h | h
  · exact absurd (hn.1 m h) hm.2
  · exact h
  · exact absurd (hm.1 n h) hn.2

/-- The first gap is the length of the longest initial segment inside `A`. -/
theorem isGreatest (h : FirstGap A n) : IsGreatest {m | ∀ j < m, j ∈ A} n := by
  refine ⟨h.1, fun m hm => ?_⟩
  by_contra hlt
  exact h.2 (hm n (by omega))

/-- Members of a bounded set from an offset `b` on: those below the gap and those after it. -/
theorem card_le {T : Finset ℕ} {b c : ℕ} (hT : ∀ j, j ∈ T ↔ n ≤ j ∧ j ∈ A)
    (hb : b ≤ n) (hbelow : ∀ j < n, j ∈ A) (hA : ∀ j ∈ A, j < b + c) : (n - b) + T.card ≤ c := by
  have hdis : Disjoint (Finset.Ico b n) T := by
    rw [Finset.disjoint_left]
    intro j hj hjT
    have := (hT j).1 hjT
    have := Finset.mem_Ico.1 hj
    omega
  have hsub : Finset.Ico b n ∪ T ⊆ Finset.Ico b (b + c) := by
    intro j hj
    rw [Finset.mem_Ico]
    rcases Finset.mem_union.1 hj with hj | hj
    · have := Finset.mem_Ico.1 hj
      exact ⟨this.1, hA j (hbelow j this.2)⟩
    · have := (hT j).1 hj
      exact ⟨by omega, hA j this.2⟩
  have := Finset.card_le_card hsub
  rw [Finset.card_union_of_disjoint hdis, Nat.card_Ico, Nat.card_Ico] at this
  omega

end FirstGap
