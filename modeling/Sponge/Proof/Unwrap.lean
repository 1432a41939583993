import Mathlib.Algebra.Order.Group.Unbundled.Int
import Mathlib.Data.Int.ModEq
import Sponge.WrappingIntegers

/-!
# `unwrap` finds the nearest preimage

The absolute numbers that wrap to `n` are those congruent to the difference `n - isn` modulo `2 ^
32` (`wrap_eq_iff`). `unwrap_spec` says which of them `unwrap` picks: the difference itself if it is
at or past the checkpoint, and else the one less than `2 ^ 31` above or at most `2 ^ 31` below it.
`unwrap_nearest`: no other is nearer, and another that is as near is larger.

`unwrapChecked` does the same in 64-bit arithmetic that fails where an operation wraps around.
-/

namespace Sponge

/-! ## Arithmetic that does not wrap around -/

def checkedAdd (a b : ℕ) : Option ℕ := if a + b < 2 ^ 64 then some (a + b) else none

def checkedSub (a b : ℕ) : Option ℕ := if b ≤ a then some (a - b) else none

def checkedMul (a b : ℕ) : Option ℕ := if a * b < 2 ^ 64 then some (a * b) else none

theorem checkedAdd_of_lt {a b : ℕ} (h : a + b < 2 ^ 64) : checkedAdd a b = some (a + b) := if_pos h

theorem checkedSub_of_le {a b : ℕ} (h : b ≤ a) : checkedSub a b = some (a - b) := if_pos h

theorem checkedMul_of_lt {a b : ℕ} (h : a * b < 2 ^ 64) : checkedMul a b = some (a * b) := if_pos h

/-- `unwrap` with every 64-bit operation checked. The difference of the two raw values is one of 32
bits, and meant to wrap around. -/
def unwrapChecked (n isn : WrappingInt32) (checkpoint : ℕ) : Option ℕ := do
  let t := (n.rawValue - isn.rawValue).toNat
  if t ≥ checkpoint then return t
  let time := (← checkedSub checkpoint t) / 2 ^ 32
  let t ← checkedAdd t (← checkedMul time (2 ^ 32))
  if (← checkedSub checkpoint t) > 2 ^ 31 then checkedAdd t (2 ^ 32) else return t

variable {n isn : WrappingInt32} {checkpoint : ℕ}

/-! ## The preimages -/

theorem wrap_eq_iff {m : ℕ} : wrap m isn = n ↔ m % 2 ^ 32 = (n.rawValue - isn.rawValue).toNat := by
  constructor
  · rintro rfl
    exact (toNat_wrap_sub m isn).symm
  · intro h
    have hraw : (wrap m isn).rawValue - isn.rawValue = n.rawValue - isn.rawValue := by
      rw [← UInt32.toNat_inj, toNat_wrap_sub, h]
    have hsame : (wrap m isn).rawValue = n.rawValue := by
      rw [← UInt32.sub_add_cancel (wrap m isn).rawValue isn.rawValue, hraw, UInt32.sub_add_cancel]
    cases n
    exact congrArg WrappingInt32.mk hsame

theorem wrap_eq_iff_modEq {m : ℕ} :
    wrap m isn = n ↔ (m : ℤ) ≡ n.rawValue.toNat - isn.rawValue.toNat [ZMOD 2 ^ 32] := by
  have hisn := isn.rawValue.toNat_lt
  rw [wrap_eq_iff, UInt32.toNat_sub, Int.ModEq]
  omega

/-- **What `unwrap` returns**: a preimage near the checkpoint, or the least one past it. -/
theorem unwrap_spec (n isn : WrappingInt32) (hc : checkpoint ≤ 2 ^ 64 - 2 ^ 31) :
    wrap (unwrap n isn checkpoint) isn = n ∧
      checkpoint ≤ unwrap n isn checkpoint + 2 ^ 31 ∧
      (unwrap n isn checkpoint < checkpoint + 2 ^ 31 ∨ unwrap n isn checkpoint < 2 ^ 32 ∧
        checkpoint ≤ unwrap n isn checkpoint) := by
  have ht := (n.rawValue - isn.rawValue).toNat_lt
  rw [wrap_eq_iff]
  unfold unwrap
  dsimp only
  generalize (n.rawValue - isn.rawValue).toNat = t at ht ⊢
  split
  · omega
  · split <;> omega

/-- **No 64-bit operation wraps around.** -/
theorem unwrapChecked_eq (hc : checkpoint ≤ 2 ^ 64 - 2 ^ 31) :
    unwrapChecked n isn checkpoint = some (unwrap n isn checkpoint) := by
  have ht := (n.rawValue - isn.rawValue).toNat_lt
  unfold unwrapChecked unwrap
  dsimp only
  generalize (n.rawValue - isn.rawValue).toNat = t at ht ⊢
  by_cases hlt : t ≥ checkpoint
  · rw [if_pos hlt, if_pos hlt]
    rfl
  · simp only [if_neg hlt, Option.bind_eq_bind]
    rw [checkedSub_of_le (Nat.le_of_not_le hlt), Option.bind_some, checkedMul_of_lt (by omega),
      Option.bind_some, checkedAdd_of_lt (by omega), Option.bind_some, checkedSub_of_le (by omega),
      Option.bind_some]
    split
    · rw [checkedAdd_of_lt (by omega), Nat.mod_eq_of_lt (by omega)]
    · rfl

/-- **The nearest preimage**: for a checkpoint up to `2 ^ 64 - 2 ^ 31` no 64-bit operation of
`unwrap` wraps around, its result wraps to `n`, and every number that does is at least as far from
the checkpoint, and larger if it is as far. So a number less than `2 ^ 31` away is recovered. -/
theorem unwrap_nearest (n isn : WrappingInt32) (checkpoint : ℕ)
    (hc : checkpoint ≤ 2 ^ 64 - 2 ^ 31) :
    unwrapChecked n isn checkpoint = some (unwrap n isn checkpoint) ∧
    wrap (unwrap n isn checkpoint) isn = n ∧
    (∀ m : ℕ, (m : ℤ) ≡ n.rawValue.toNat - isn.rawValue.toNat [ZMOD 2 ^ 32] →
      |(unwrap n isn checkpoint : ℤ) - checkpoint| ≤ |(m : ℤ) - checkpoint| ∧
      (|(unwrap n isn checkpoint : ℤ) - checkpoint| = |(m : ℤ) - checkpoint| →
        unwrap n isn checkpoint ≤ m)) ∧
    ∀ x : ℕ, |(x : ℤ) - checkpoint| < 2 ^ 31 → unwrap (wrap x isn) isn checkpoint = x := by
  obtain ⟨hwrap, hlo, hhi⟩ := unwrap_spec n isn hc
  refine ⟨unwrapChecked_eq hc, hwrap, ?_, ?_⟩
  · intro m hm
    rw [← wrap_eq_iff_modEq] at hm
    have hmod : unwrap n isn checkpoint % 2 ^ 32 = m % 2 ^ 32 := by
      rw [wrap_eq_iff.1 hwrap, wrap_eq_iff.1 hm]
    rw [Int.abs_eq_natAbs, Int.abs_eq_natAbs]
    omega
  · intro x hx
    rw [Int.abs_eq_natAbs] at hx
    exact unwrap_wrap (by omega) (by omega) (by omega)

/-- Just past a tie: the checkpoint is `2 ^ 31 + 1` past `10`, so that `10 + 2 ^ 32` is nearer. -/
theorem unwrap_past_tie :
    unwrap ⟨17⟩ ⟨7⟩ (2 ^ 31 + 11) = 2 ^ 32 + 10 ∧
      unwrapChecked ⟨17⟩ ⟨7⟩ (2 ^ 31 + 11) = some (unwrap ⟨17⟩ ⟨7⟩ (2 ^ 31 + 11)) ∧
      wrap (unwrap ⟨17⟩ ⟨7⟩ (2 ^ 31 + 11)) ⟨7⟩ = ⟨17⟩ := by
  obtain ⟨hchecked, hwrap, -⟩ := unwrap_nearest ⟨17⟩ ⟨7⟩ (2 ^ 31 + 11) (by decide)
  exact ⟨by decide, hchecked, hwrap⟩

end Sponge
