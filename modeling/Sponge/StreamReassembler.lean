import Sponge.ByteStream
import Mathlib.Logic.Function.Basic

/-!
# The stream reassembler (`libsponge/stream_reassembler.hh`, `stream_reassembler.cc`)

`pushSubstring` is the source's loop over the substring (`pushLoop`, one byte in `pushByte`), its
trailing loop over stored bytes (`drain`) and the final write. The two `unordered_map`s are
functions: `mExist` with default `false`, `mChar` with the entries present. Indices are `size_t`:
`i + index`, `index + len` and `first_unread + _capacity` are reduced modulo `2 ^ 64`.

`first_unacceptable` is set by the constructor and never read; it is left out.
-/

namespace Sponge

/-- Assembles excerpts of a byte stream, possibly out of order and overlapping. -/
structure StreamReassembler where
  output : ByteStream
  capacity : Nat
  firstUnread : Nat
  firstUnassembled : Nat
  unassembled : Nat
  isEof : Bool
  mExist : Nat → Bool
  mChar : Nat → Option UInt8

namespace StreamReassembler

/-- `StreamReassembler(const size_t capacity)`. -/
def new (capacity : UInt64) : StreamReassembler where
  output := .new capacity
  capacity := capacity.toNat
  firstUnread := 0
  firstUnassembled := 0
  unassembled := 0
  isEof := false
  mExist := fun _ => false
  mChar := fun _ => none

def unassembledBytes (r : StreamReassembler) : Nat := r.unassembled

def firstUnassembledByte (r : StreamReassembler) : Nat := r.firstUnassembled

def empty (r : StreamReassembler) : Bool := r.unassembled == 0

/-- `first_unread + _capacity`: the first index past the window. -/
def edge (r : StreamReassembler) : Nat := (r.firstUnread + r.capacity) % 2 ^ 64

/-- The loop body of `push_substring` at index `cur` with byte `c`; `w` is `to_write`. -/
def pushByte (cur : Nat) (c : UInt8) (r : StreamReassembler) (w : List UInt8) :
    StreamReassembler × List UInt8 :=
  if r.mExist cur = false then
    let r := { r with mExist := Function.update r.mExist cur true }
    if cur = r.firstUnassembled then
      ({ r with firstUnassembled := r.firstUnassembled + 1 }, w ++ [c])
    else
      ({ r with
        mChar := Function.update r.mChar cur (some c), unassembled := r.unassembled + 1 }, w)
  else if cur = r.firstUnassembled then
    ({ r with firstUnassembled := r.firstUnassembled + 1, unassembled := r.unassembled - 1 },
      w ++ [(r.mChar cur).getD 0])
  else (r, w)

/-- The loop over the substring, from its `i`-th byte; it stops at the window's edge. -/
def pushLoop (index : Nat) : List UInt8 → Nat → StreamReassembler → List UInt8 →
    StreamReassembler × List UInt8
  | [], _, r, w => (r, w)
  | c :: data, i, r, w =>
    let cur := (i + index) % 2 ^ 64
    if cur < r.edge then
      let p := pushByte cur c r w
      pushLoop index data (i + 1) p.1 p.2
    else (r, w)

/-- The loop that assembles stored bytes from `cur` on. Every round takes one of the
`unassembled` stored bytes, which bounds the rounds (`drain_spec`). -/
def drain : Nat → Nat → StreamReassembler → List UInt8 → StreamReassembler × List UInt8
  | 0, _, r, w => (r, w)
  | fuel + 1, cur, r, w =>
    if cur = r.firstUnassembled ∧ r.mExist cur = true then
      drain fuel (cur + 1)
        { r with firstUnassembled := r.firstUnassembled + 1, unassembled := r.unassembled - 1 }
        (w ++ [(r.mChar cur).getD 0])
    else (r, w)

/-- The end of `push_substring`: the write and the end-of-stream decision; `last` is
`index + len`. -/
def finish (last : Nat) (eof : Bool) (r : StreamReassembler) (w : List UInt8) :
    StreamReassembler :=
  let output := (r.output.write w).2
  let isEof := if eof = true ∧ r.isEof = false ∧ last ≤ r.edge then true else r.isEof
  { r with isEof := isEof, output := if r.empty && isEof then output.endInput else output }

/-- Receive a substring and write any newly contiguous bytes into the stream. -/
def pushSubstring (r : StreamReassembler) (data : List UInt8) (index : Nat) (eof : Bool) :
    StreamReassembler :=
  let r := { r with firstUnread := r.output.bytesRead }
  let p := pushLoop index data 0 r []
  let last := (index + data.length) % 2 ^ 64
  let q := drain p.1.unassembled last p.1 p.2
  finish last eof q.1 q.2

/-- The reader pops `n` bytes of the output stream. -/
def popOutput (r : StreamReassembler) (n : Nat) : StreamReassembler :=
  { r with output := r.output.popOutput n }

end StreamReassembler

end Sponge
