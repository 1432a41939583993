import Mathlib.Algebra.Ring.Nat
import Mathlib.Data.List.Basic
import Mathlib.Data.Nat.Bitwise
import Mathlib.Data.UInt

/-!
# Numbers in network byte order

`toBytes len n` are the `len` low bytes of `n`, most significant first, and `ofBytes` reads such a
string back: `ofBytes_toBytes`, `toBytes_ofBytes`. `field bs off len` is the number in the `len`
bytes at offset `off` of a longer string; `field_toBytes` and `field_skip` find it in a string that
was put together from numbers.
-/

namespace BigEndian

/-- The number a byte string spells, most significant byte first. -/
def ofBytes (bs : List UInt8) : ℕ := bs.foldl (fun n b => n <<< 8 + b.toNat) 0

/-- The `len` low bytes of `n`, most significant first. -/
def toBytes (len n : ℕ) : List UInt8 :=
  (List.range len).map fun i => UInt8.ofNat (n >>> ((len - i - 1) * 8))

@[simp] theorem length_toBytes (len n : ℕ) : (toBytes len n).length = len := by simp [toBytes]

theorem ofBytes_concat (bs : List UInt8) (b : UInt8) :
    ofBytes (bs ++ [b]) = ofBytes bs * 256 + b.toNat := by
  simp [ofBytes, Nat.shiftLeft_eq]

theorem toBytes_succ (len n : ℕ) :
    toBytes (len + 1) n = toBytes len (n / 256) ++ [UInt8.ofNat n] := by
  have hlow : ∀ i ∈ List.range len, UInt8.ofNat (n >>> ((len + 1 - i - 1) * 8)) =
      UInt8.ofNat ((n / 256) >>> ((len - i - 1) * 8)) := by
    intro i hi
    have hi := List.mem_range.1 hi
    rw [show (len + 1 - i - 1) * 8 = 8 + (len - i - 1) * 8 by omega, Nat.shiftRight_add,
      Nat.shiftRight_eq_div_pow n 8]
  rw [toBytes, List.range_succ, List.map_append, List.map_congr_left hlow]
  simp [toBytes]

/-- **Reading back** what was written: the number, modulo the width. -/
theorem ofBytes_toBytes (len n : ℕ) : ofBytes (toBytes len n) = n % 256 ^ len := by
  induction len generalizing n with
  | zero => simp [toBytes, ofBytes, Nat.mod_one]
  | succ len ih =>
    have hbyte : (UInt8.ofNat n).toNat = n % 256 := by simp
    rw [toBytes_succ, ofBytes_concat, ih, hbyte, Nat.pow_succ', Nat.mod_mul, Nat.mul_comm 256,
      Nat.add_comm]

theorem ofBytes_lt (bs : List UInt8) : ofBytes bs < 256 ^ bs.length := by
  induction bs using List.reverseRecOn with
  | nil => simp [ofBytes]
  | append_singleton bs b ih =>
    have hb := b.toNat_lt
    rw [ofBytes_concat, List.length_append, List.length_singleton, Nat.pow_succ]
    omega

/-- **Writing back** what was read. -/
theorem toBytes_ofBytes (bs : List UInt8) : toBytes bs.length (ofBytes bs) = bs := by
  induction bs using List.reverseRecOn with
  | nil => rfl
  | append_singleton bs b ih =>
    have hb := b.toNat_lt
    have hhigh : (ofBytes bs * 256 + b.toNat) / 256 = ofBytes bs := by omega
    have hlow : UInt8.ofNat (ofBytes bs * 256 + b.toNat) = b := by
      rw [← UInt8.toNat_inj]
      simp
    rw [ofBytes_concat, List.length_append, List.length_singleton, toBytes_succ, hhigh, hlow, ih]

/-- Every string that is long enough begins with a number of `len` bytes. -/
theorem exists_toBytes {len : ℕ} {bs : List UInt8} (h : len ≤ bs.length) :
    ∃ n rest, n < 256 ^ len ∧ bs = toBytes len n ++ rest ∧ rest.length = bs.length - len := by
  have hlen : (bs.take len).length = len := by simp [h]
  refine ⟨ofBytes (bs.take len), bs.drop len, ?_, ?_, by simp⟩
  · have hlt := ofBytes_lt (bs.take len)
    rwa [hlen] at hlt
  · have hfront := toBytes_ofBytes (bs.take len)
    rw [hlen] at hfront
    rw [hfront, List.take_append_drop]

/-! ## Fields of a string -/

/-- The number in the `len` bytes at offset `off`. -/
def field (bs : List UInt8) (off len : ℕ) : ℕ := ofBytes ((bs.drop off).take len)

theorem field_lt {bs : List UInt8} {off len : ℕ} : field bs off len < 256 ^ len := by
  have hlt := ofBytes_lt ((bs.drop off).take len)
  have hlen : ((bs.drop off).take len).length ≤ len := by simp
  exact Nat.lt_of_lt_of_le hlt (Nat.pow_le_pow_right (by decide) hlen)

@[simp] theorem field_toBytes (len n : ℕ) (rest : List UInt8) :
    field (toBytes len n ++ rest) 0 len = n % 256 ^ len := by
  have hfront : (toBytes len n ++ rest).take len = toBytes len n := by simp
  rw [field, List.drop_zero, hfront, ofBytes_toBytes]

theorem field_skip {m off : ℕ} (h : m ≤ off) (n len : ℕ) (rest : List UInt8) :
    field (toBytes m n ++ rest) off len = field rest (off - m) len := by
  have hdrop : (toBytes m n ++ rest).drop off = rest.drop (off - m) := by
    simp [List.drop_append, List.drop_eq_nil_of_le, h]
  rw [field, hdrop, field]

/-! ## Fields narrower than a byte -/

theorem u8_and_mask {x mask : UInt8} {i : ℕ} (h : mask.toNat = 2 ^ i) :
    (x &&& mask != 0) = x.toNat.testBit i := by
  have hand : (x &&& mask).toNat = (x.toNat.testBit i).toNat * 2 ^ i := by
    rw [UInt8.toNat_and, h, Nat.and_two_pow]
  have hzero : (x &&& mask = 0) ↔ x.toNat.testBit i = false := by
    rw [← UInt8.toNat_inj, hand]
    cases x.toNat.testBit i <;> simp
  cases hbit : x.toNat.testBit i <;> simp [hzero, hbit]

theorem u16_and_mask {x mask : UInt16} {i : ℕ} (h : mask.toNat = 2 ^ i) :
    (x &&& mask != 0) = x.toNat.testBit i := by
  have hand : (x &&& mask).toNat = (x.toNat.testBit i).toNat * 2 ^ i := by
    rw [UInt16.toNat_and, h, Nat.and_two_pow]
  have hzero : (x &&& mask = 0) ↔ x.toNat.testBit i = false := by
    rw [← UInt16.toNat_inj, hand]
    cases x.toNat.testBit i <;> simp
  cases hbit : x.toNat.testBit i <;> simp [hzero, hbit]

theorem toNat_u8_shiftRight (x : UInt8) : (x >>> 4).toNat = x.toNat / 16 := by
  rw [UInt8.toNat_shiftRight]
  exact Nat.shiftRight_eq_div_pow x.toNat 4

theorem toNat_u8_and (x : UInt8) : (x &&& 0x0f).toNat = x.toNat % 16 := by
  rw [UInt8.toNat_and]
  exact Nat.and_two_pow_sub_one_eq_mod x.toNat 4

theorem toNat_u16_and (x : UInt16) : (x &&& 0x1fff).toNat = x.toNat % 8192 := by
  rw [UInt16.toNat_and]
  exact Nat.and_two_pow_sub_one_eq_mod x.toNat 13

end BigEndian
