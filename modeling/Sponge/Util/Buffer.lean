import Mathlib.Algebra.Ring.Nat
import Mathlib.Data.List.Basic

/-!
# Reference-counted strings (`libsponge/util/buffer.hh`, `buffer.cc`)

A `Buffer` is shared read-only storage and the offset of its first live byte; a `BufferList` is a
deque of them. `BufferList.removePrefix` walks the deque and throws when it runs out of buffers:
`removePrefix_ok` is its specification (no throw within the size, and the contents lose exactly
the prefix).
-/

namespace Sponge

/-- The C++ exceptions the modelled code can throw, with their `what()` text. -/
inductive Exn where
  | outOfRange (what : String)
  | runtimeError (what : String)
deriving DecidableEq, Repr

/-- The value of a computation that is known not to throw. -/
def getOk {ε α : Type} : (x : Except ε α) → (∃ a, x = .ok a) → α
  | .ok a, _ => a
  | .error _, h => False.elim (by obtain ⟨_, h⟩ := h; cases h)

theorem getOk_eq {ε α : Type} {x : Except ε α} {a : α} (h : x = .ok a) (h' : ∃ a, x = .ok a) :
    getOk x h' = a := by
  subst h; rfl

/-- A reference-counted read-only string that can discard bytes from the front. -/
structure Buffer where
  storage : Option (List UInt8) := none
  startingOffset : Nat := 0
deriving DecidableEq, Repr

namespace Buffer

/-- Construct by taking ownership of a string. -/
def ofString (str : List UInt8) : Buffer := { storage := some str }

/-- The live bytes. -/
def str (b : Buffer) : List UInt8 :=
  match b.storage with
  | none => []
  | some s => s.drop b.startingOffset

def size (b : Buffer) : Nat := b.str.length

/-- Discard the first `n` bytes; the storage is released once nothing is left of it. -/
def removePrefix (b : Buffer) (n : Nat) : Except Exn Buffer :=
  if n > b.str.length then .error (.outOfRange "Buffer::remove_prefix")
  else
    let b := { b with startingOffset := b.startingOffset + n }
    match b.storage with
    | some s => if b.startingOffset = s.length then .ok { b with storage := none } else .ok b
    | none => .ok b

@[simp] theorem str_ofString (s : List UInt8) : (ofString s).str = s := by simp [ofString, str]

theorem removePrefix_ok {b : Buffer} {n : Nat} (h : n ≤ b.str.length) :
    ∃ b', b.removePrefix n = .ok b' ∧ b'.str = b.str.drop n := by
  obtain ⟨_ | s, o⟩ := b
  · exact ⟨⟨none, o + n⟩, by simp_all [removePrefix, str], by simp [str]⟩
  · simp only [removePrefix, Nat.not_lt.2 h, ↓reduceIte]
    split
    · rename_i hl
      exact ⟨_, rfl, by simp [str, List.drop_drop, hl]⟩
    · exact ⟨_, rfl, by simp [str, List.drop_drop]⟩

end Buffer

/-- A deque of buffers. -/
abbrev BufferList := List Buffer

namespace BufferList

/-- Construct by taking ownership of a string: one buffer, also when the string is empty. -/
def ofString (str : List UInt8) : BufferList := [Buffer.ofString str]

def append (bs other : BufferList) : BufferList := bs ++ other

/-- `operator Buffer`: throws unless the list is contiguous. -/
def toBuffer : BufferList → Except Exn Buffer
  | [] => .ok {}
  | [b] => .ok b
  | _ => .error (.runtimeError
      "BufferList: please use concatenate() to combine a multi-Buffer BufferList into one Buffer")

def concatenate (bs : BufferList) : List UInt8 := bs.flatMap Buffer.str

def size (bs : BufferList) : Nat := (bs.map Buffer.size).sum

/-- Discard the first `n` bytes of the list. -/
def removePrefix : BufferList → Nat → Except Exn BufferList
  | bs, 0 => .ok bs
  | [], _ + 1 => .error (.outOfRange "BufferList::remove_prefix")
  | b :: bs, n + 1 =>
    if n + 1 < b.str.length then
      match b.removePrefix (n + 1) with
      | .ok b' => .ok (b' :: bs)
      | .error e => .error e
    else removePrefix bs (n + 1 - b.str.length)

@[simp] theorem concatenate_nil : concatenate [] = [] := rfl

@[simp] theorem concatenate_ofString (s : List UInt8) : (ofString s).concatenate = s := by
  simp [ofString, concatenate]

@[simp] theorem concatenate_append (bs cs : BufferList) :
    (append bs cs).concatenate = bs.concatenate ++ cs.concatenate := by
  simp [append, concatenate]

theorem str_toBuffer {bs : BufferList} {buffer : Buffer} (h : bs.toBuffer = .ok buffer) :
    buffer.str = bs.concatenate := by
  match bs, h with
  | [], h =>
    cases h
    rfl
  | [b], h =>
    cases h
    simp [concatenate]

theorem toBuffer_ok_iff (bs : BufferList) :
    (∃ buffer, bs.toBuffer = .ok buffer) ↔ bs.length ≤ 1 := by
  match bs with
  | [] => simp [toBuffer]
  | [b] => simp [toBuffer]
  | b :: c :: bs => simp [toBuffer]

/-- `size()` counts the bytes of `concatenate()`. -/
theorem size_eq (bs : BufferList) : bs.size = bs.concatenate.length := by
  induction bs with
  | nil => rfl
  | cons b bs ih =>
    simp only [size, concatenate, List.map_cons, List.sum_cons, List.flatMap_cons,
      List.length_append] at ih ⊢
    rw [ih, Buffer.size]

/-- **`remove_prefix` within the size** does not throw and drops exactly the prefix. -/
theorem removePrefix_ok {bs : BufferList} {n : Nat} (h : n ≤ bs.size) :
    ∃ bs', bs.removePrefix n = .ok bs' ∧ bs'.concatenate = bs.concatenate.drop n := by
  induction bs generalizing n with
  | nil =>
    have hn : n = 0 := Nat.eq_zero_of_le_zero h
    exact ⟨[], by rw [hn]; rfl, by simp⟩
  | cons b bs ih =>
    cases n with
    | zero => exact ⟨b :: bs, rfl, rfl⟩
    | succ n =>
      rw [removePrefix]
      split
      · rename_i hlt
        obtain ⟨b', hb', hs⟩ := Buffer.removePrefix_ok (Nat.le_of_lt hlt)
        refine ⟨b' :: bs, by rw [hb'], ?_⟩
        simp only [concatenate, List.flatMap_cons, hs]
        rw [List.drop_append_of_le_length (Nat.le_of_lt hlt)]
      · rename_i hge
        have hsz : n + 1 - b.str.length ≤ size bs := by
          simp only [size, List.map_cons, List.sum_cons, Buffer.size] at h ⊢
          omega
        obtain ⟨bs', h1, h2⟩ := ih hsz
        have hb : b.str.drop (n + 1) = [] := List.drop_eq_nil_of_le (by omega)
        refine ⟨bs', h1, h2.trans ?_⟩
        simp only [concatenate, List.flatMap_cons, List.drop_append, hb, List.nil_append]

end BufferList

end Sponge
