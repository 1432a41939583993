import Sponge.Lib.OnesComplement

/-!
# The Internet checksum (`libsponge/util/util.hh`, `util.cc`)

The bytes are added into a 32-bit sum, alternately as the high and the low half of a 16-bit word;
`value` folds the carries back in and complements.

`toNat_sum_add`: the sum is the one's-complement word sum, modulo `2 ^ 32`. `toNat_value`: the value
is the complement of its reduction, so it is zero exactly on the sums that verify
(`value_eq_zero_iff`). `checksum_of_pieces` puts this together for a string that is added in pieces
and fits a datagram: the checksum by the book.
-/

namespace Sponge

open OnesComplement

/-- The internet checksum algorithm. -/
structure InternetChecksum where
  sum : UInt32 := 0
  parity : Bool := false
deriving DecidableEq, Repr

namespace InternetChecksum

/-- The body of the loop of `add`. -/
def addByte (c : InternetChecksum) (byte : UInt8) : InternetChecksum :=
  let val := byte.toUInt16
  let val := if c.parity = false then val <<< 8 else val
  { sum := c.sum + val.toUInt32, parity := !c.parity }

def add (c : InternetChecksum) (data : List UInt8) : InternetChecksum := data.foldl addByte c

/-- The loop of `value`: at most `n` times, fold the carries into the low half. -/
def fold : Nat → UInt32 → UInt32
  | 0, ret => ret
  | n + 1, ret => if ret > 0xffff then fold n ((ret >>> 16) + (ret &&& 0xffff)) else ret

/-- The checksum; two folds of a 32-bit sum leave no carry (`fold_le`). -/
def value (c : InternetChecksum) : UInt16 := ~~~ (fold 2 c.sum).toUInt16

theorem toNat_carry (ret : UInt32) :
    ((ret >>> 16) + (ret &&& 0xffff)).toNat = ret.toNat / 65536 + ret.toNat % 65536 := by
  have hhigh : (ret >>> 16).toNat = ret.toNat / 65536 := by
    rw [UInt32.toNat_shiftRight]
    exact Nat.shiftRight_eq_div_pow ret.toNat 16
  have hlow : (ret &&& 0xffff).toNat = ret.toNat % 65536 := by
    rw [UInt32.toNat_and]
    exact Nat.and_two_pow_sub_one_eq_mod ret.toNat 16
  have hlt := ret.toNat_lt
  rw [UInt32.toNat_add, hhigh, hlow]
  omega

/-- **Two folds are enough**: the loop of `value` has ended. -/
theorem fold_le (ret : UInt32) : fold 2 ret ≤ 0xffff := by
  have hlast : ∀ r : UInt32, r.toNat ≤ 2 * 65535 → fold 1 r ≤ 0xffff := by
    intro r hr
    rw [fold]
    split
    · rename_i hc
      have hc' : 65535 < r.toNat := UInt32.lt_iff_toNat_lt.1 hc
      rw [fold, UInt32.le_iff_toNat_le, toNat_carry]
      change r.toNat / 65536 + r.toNat % 65536 ≤ 65535
      omega
    · rename_i hc
      exact UInt32.not_lt.1 hc
  rw [fold]
  split
  · apply hlast
    have hlt := ret.toNat_lt
    rw [toNat_carry]
    omega
  · rename_i hc
    exact UInt32.not_lt.1 hc

/-! ## The word sum -/

theorem toNat_sum_addByte (c : InternetChecksum) (byte : UInt8) :
    (c.addByte byte).sum.toNat =
      (c.sum.toNat + (if c.parity then byte.toNat else byte.toNat * 256)) % 2 ^ 32 := by
  have hshift : byte.toNat <<< 8 % 65536 = byte.toNat * 256 := by
    have hlt := byte.toNat_lt
    rw [Nat.shiftLeft_eq]
    omega
  cases hparity : c.parity with
  | false => simp [addByte, hparity, UInt32.toNat_add, hshift]
  | true => simp [addByte, hparity, UInt32.toNat_add]

/-- **The sum** of what was added, modulo `2 ^ 32`. -/
theorem toNat_sum_add (c : InternetChecksum) (data : List UInt8) :
    (c.add data).sum.toNat = (c.sum.toNat + wordSum c.parity data) % 2 ^ 32 := by
  induction data generalizing c with
  | nil => simp [add, Nat.mod_eq_of_lt c.sum.toNat_lt]
  | cons byte data ih =>
    have hstep : c.add (byte :: data) = (c.addByte byte).add data := rfl
    have hparity : (c.addByte byte).parity = !c.parity := rfl
    rw [hstep, ih, toNat_sum_addByte, hparity, wordSum, Nat.mod_add_mod, Nat.add_assoc]

theorem add_append (c : InternetChecksum) (data rest : List UInt8) :
    c.add (data ++ rest) = (c.add data).add rest := by
  simp [add]

theorem foldl_add (c : InternetChecksum) (pieces : List (List UInt8)) :
    pieces.foldl add c = c.add pieces.flatten := by
  induction pieces generalizing c with
  | nil => rfl
  | cons data pieces ih => rw [List.foldl_cons, ih, List.flatten_cons, add_append]

/-- The folding loop keeps the reduction of the sum. -/
theorem residue_fold (n : Nat) (ret : UInt32) :
    residue (fold n ret).toNat = residue ret.toNat := by
  induction n generalizing ret with
  | zero => rfl
  | succ n ih =>
    rw [fold]
    split
    · rw [ih, toNat_carry]
      exact residue_carry ret.toNat
    · rfl

/-- **The value** is the complement of the reduced sum. -/
theorem toNat_value (c : InternetChecksum) : c.value.toNat = 65535 - residue c.sum.toNat := by
  have hle : (fold 2 c.sum).toNat ≤ 65535 := UInt32.le_iff_toNat_le.1 (fold_le c.sum)
  have hfold : (fold 2 c.sum).toNat = residue c.sum.toNat := by
    rw [← residue_fold 2 c.sum, residue_of_le hle]
  have hlow : (fold 2 c.sum).toUInt16.toNat = residue c.sum.toNat := by
    rw [UInt32.toNat_toUInt16, hfold]
    have := residue_le c.sum.toNat
    omega
  rw [value, UInt16.toNat_not, hlow]
  rfl

/-- **A checksum of zero**: the sum verifies. -/
theorem value_eq_zero_iff (c : InternetChecksum) : c.value = 0 ↔ Verifies c.sum.toNat := by
  have hle := residue_le c.sum.toNat
  rw [← UInt16.toNat_inj, toNat_value, verifies_iff_residue]
  simp only [UInt16.toNat_zero]
  omega

/-- The sum of a string short enough not to overflow. -/
theorem toNat_sum_add_of_lt {initialSum : UInt32} {data : List UInt8}
    (h : initialSum.toNat + 65280 * data.length < 2 ^ 32) :
    (({ sum := initialSum } : InternetChecksum).add data).sum.toNat =
      initialSum.toNat + wordSum false data := by
  have hle := wordSum_le false data
  rw [toNat_sum_add]
  exact Nat.mod_eq_of_lt (by dsimp only; omega)

theorem toNat_value_add {initialSum : UInt32} {data : List UInt8}
    (h : initialSum.toNat + 65280 * data.length < 2 ^ 32) :
    (({ sum := initialSum } : InternetChecksum).add data).value.toNat =
      65535 - residue (initialSum.toNat + wordSum false data) := by
  rw [toNat_value, toNat_sum_add_of_lt h]

theorem value_add_eq_zero_iff {initialSum : UInt32} {data : List UInt8}
    (h : initialSum.toNat + 65280 * data.length < 2 ^ 32) :
    (({ sum := initialSum } : InternetChecksum).add data).value = 0 ↔
      Verifies (initialSum.toNat + wordSum false data) := by
  rw [value_eq_zero_iff, toNat_sum_add_of_lt h]

/-- **The checksum of a string that is added in pieces**, from an initial sum as large as that of a
pseudo-header: how it is cut does not matter, the sum never overflows, the folding loop ends after
two rounds, and the value is the complement of the sum by the book of the two halves of the initial
sum and the words of the string. -/
theorem checksum_of_pieces (initialSum : UInt32) (pieces : List (List UInt8))
    (hlen : pieces.flatten.length ≤ 65535) (hsum : initialSum.toNat ≤ 5 * 65535 + 255) :
    pieces.foldl add { sum := initialSum } =
      ({ sum := initialSum } : InternetChecksum).add pieces.flatten ∧
    (∀ n, (({ sum := initialSum } : InternetChecksum).add (pieces.flatten.take n)).sum.toNat =
      initialSum.toNat + wordSum false (pieces.flatten.take n)) ∧
    fold 2 (pieces.foldl add { sum := initialSum }).sum ≤ 0xffff ∧
    (pieces.foldl add { sum := initialSum }).value.toNat =
      65535 - onesSum (initialSum.toNat / 65536 :: initialSum.toNat % 65536 ::
        words pieces.flatten) ∧
    ((pieces.foldl add { sum := initialSum }).value = 0 ↔
      0 < initialSum.toNat + (words pieces.flatten).sum ∧
        65535 ∣ initialSum.toNat + (words pieces.flatten).sum) := by
  have hsmall : initialSum.toNat + 65280 * pieces.flatten.length < 2 ^ 32 := by omega
  rw [foldl_add]
  refine ⟨rfl, fun n => ?_, fold_le _, ?_, ?_⟩
  · apply toNat_sum_add_of_lt
    rw [List.length_take]
    omega
  · have hhalves : ∀ w ∈ initialSum.toNat / 65536 :: initialSum.toNat % 65536 ::
        words pieces.flatten, w ≤ 65535 := by
      have hlt := initialSum.toNat_lt
      simp only [List.forall_mem_cons]
      exact ⟨by omega, by omega, fun w hw => le_of_mem_words hw⟩
    rw [toNat_value_add hsmall, onesSum_eq hhalves, wordSum_eq_sum, List.sum_cons, List.sum_cons,
      ← Nat.add_assoc, ← residue_carry_add, carry]
  · rw [value_add_eq_zero_iff hsmall, wordSum_eq_sum, Verifies, Nat.dvd_iff_mod_eq_zero]

/-- Three pieces, two of them of odd length. -/
theorem checksum_of_odd_pieces :
    [[1], [2, 3, 4], [5]].foldl add { sum := 327930 } =
      ({ sum := 327930 } : InternetChecksum).add [1, 2, 3, 4, 5] ∧
    (∀ n, (({ sum := 327930 } : InternetChecksum).add ([1, 2, 3, 4, 5].take n)).sum.toNat =
      327930 + wordSum false ([1, 2, 3, 4, 5].take n)) ∧
    fold 2 ([[1], [2, 3, 4], [5]].foldl add { sum := 327930 }).sum ≤ 0xffff ∧
    ([[1], [2, 3, 4], [5]].foldl add { sum := 327930 }).value.toNat =
      65535 - onesSum [327930 / 65536, 327930 % 65536, 0x0102, 0x0304, 0x0500] ∧
    (([[1], [2, 3, 4], [5]].foldl add { sum := 327930 }).value = 0 ↔
      0 < 327930 + (words [1, 2, 3, 4, 5]).sum ∧ 65535 ∣ 327930 + (words [1, 2, 3, 4, 5]).sum) :=
  checksum_of_pieces 327930 [[1], [2, 3, 4], [5]] (by decide) (by decide)

end InternetChecksum

end Sponge
