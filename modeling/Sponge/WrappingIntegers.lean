import Mathlib.Data.UInt

/-!
# 32-bit sequence numbers (`libsponge/wrapping_integers.hh`, `wrapping_integers.cc`)

`wrap` maps an absolute 64-bit sequence number to a 32-bit one relative to the initial sequence
number; `unwrap` picks the absolute number nearest to a checkpoint. Absolute numbers are `Nat`;
the one 64-bit operation of `unwrap` that can overflow is reduced modulo `2 ^ 64`.

`unwrap_wrap` is what the sender and the receiver rely on: a number within `2 ^ 31` of the
checkpoint is recovered.
-/

namespace Sponge

/-- A 32-bit integer, expressed relative to an arbitrary initial sequence number. -/
structure WrappingInt32 where
  rawValue : UInt32
deriving DecidableEq, Repr

/-- The point `b` steps past `a`. -/
instance : HAdd WrappingInt32 UInt32 WrappingInt32 := ⟨fun a b => ⟨a.rawValue + b⟩⟩

/-- An absolute sequence number (zero-indexed) as a `WrappingInt32`. -/
def wrap (n : Nat) (isn : WrappingInt32) : WrappingInt32 :=
  let n := n % (2 ^ 32 - 1 + 1)
  ⟨isn.rawValue + UInt32.ofNat n⟩

/-- The absolute sequence number that wraps to `n` and is closest to `checkpoint`. -/
def unwrap (n isn : WrappingInt32) (checkpoint : Nat) : Nat :=
  let t := (n.rawValue - isn.rawValue).toNat
  if t ≥ checkpoint then t
  else
    let time := (checkpoint - t) / 2 ^ 32
    -- at most `checkpoint`, so within 64 bits
    let t := t + time * 2 ^ 32
    if checkpoint - t > 2 ^ 31 then (t + 2 ^ 32) % 2 ^ 64 else t

theorem toNat_wrap_sub (n : Nat) (isn : WrappingInt32) :
    ((wrap n isn).rawValue - isn.rawValue).toNat = n % 2 ^ 32 := by
  simp only [wrap]
  rw [UInt32.add_comm, UInt32.add_sub_cancel, UInt32.toNat_ofNat']
  omega

theorem wrap_succ (n : Nat) (isn : WrappingInt32) :
    wrap n isn + (1 : UInt32) = wrap (n + 1) isn := by
  show (⟨(wrap n isn).rawValue + 1⟩ : WrappingInt32) = wrap (n + 1) isn
  simp only [wrap, WrappingInt32.mk.injEq, UInt32.add_assoc]
  congr 1
  apply UInt32.toNat_inj.1
  simp only [UInt32.toNat_add, UInt32.toNat_ofNat', UInt32.reduceToNat]
  omega

theorem wrap_zero (isn : WrappingInt32) : wrap 0 isn = isn := by
  show (⟨isn.rawValue + UInt32.ofNat 0⟩ : WrappingInt32) = isn
  rw [show UInt32.ofNat 0 = 0 from rfl, UInt32.add_zero]

theorem wrap_add_zero (a : WrappingInt32) : a + (0 : UInt32) = a := by
  show (⟨a.rawValue + 0⟩ : WrappingInt32) = a
  rw [UInt32.add_zero]

/-- **A number at or below the checkpoint**, by at most `2 ^ 31`, is recovered. -/
theorem unwrap_wrap_le {x checkpoint : Nat} {isn : WrappingInt32} (hle : x ≤ checkpoint)
    (hd : checkpoint ≤ x + 2 ^ 31) : unwrap (wrap x isn) isn checkpoint = x := by
  simp only [unwrap, toNat_wrap_sub]
  split
  · omega
  · split <;> omega

/-- **Any number nearest to the checkpoint** is recovered. -/
theorem unwrap_wrap {x checkpoint : Nat} {isn : WrappingInt32} (hlo : checkpoint ≤ x + 2 ^ 31)
    (hhi : x < checkpoint + 2 ^ 31) (hx : x < 2 ^ 64) : unwrap (wrap x isn) isn checkpoint = x := by
  rcases Nat.lt_or_ge checkpoint x with h | h
  · simp only [unwrap, toNat_wrap_sub]
    split
    · omega
    · split <;> omega
  · exact unwrap_wrap_le h hlo

/-- **A 32-bit number** is recovered from a checkpoint up to `2 ^ 31`, however far it is. -/
theorem unwrap_wrap_small {x checkpoint : Nat} {isn : WrappingInt32} (hx : x < 2 ^ 32)
    (hc : checkpoint ≤ 2 ^ 31) : unwrap (wrap x isn) isn checkpoint = x := by
  simp only [unwrap, toNat_wrap_sub]
  split
  · omega
  · split <;> omega

@[simp] theorem unwrap_wrap_self (x : Nat) (isn : WrappingInt32) : unwrap (wrap x isn) isn x = x :=
  unwrap_wrap_le (Nat.le_refl _) (by omega)

end Sponge
