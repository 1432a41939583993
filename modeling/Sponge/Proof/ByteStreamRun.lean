import Sponge.ByteStream
import Sponge.Lib.Run

/-!
# Runs of the byte stream

`StreamRun` is a byte stream with the history of its run: the bytes that `write` has `accepted` and
those that `pop_output` or `read` have `popped`. `Fifo`: the stream is a queue of bounded size that
holds what was accepted and not yet popped, whatever its deque of buffers looks like, and no call on
it throws. `run_fifo`: it is in every state of every run.
-/

namespace Sponge

open Run

/-- The calls on a byte stream. -/
inductive StreamOp where
  | write (data : List UInt8)
  | peekOutput (len : ℕ)
  | popOutput (len : ℕ)
  | read (len : ℕ)
  | endInput
deriving DecidableEq, Repr

/-- A byte stream with the history of its run. -/
structure StreamRun where
  stream : ByteStream
  accepted : List UInt8
  popped : List UInt8

namespace StreamRun

def new (capacity : UInt64) : StreamRun := ⟨.new capacity, [], []⟩

/-- One call, with the history it makes. -/
def step (s : StreamRun) : StreamOp → StreamRun
  | .write data =>
    { s with
      stream := (s.stream.write data).2
      accepted := s.accepted ++ data.take (s.stream.write data).1 }
  | .peekOutput _ => s
  | .popOutput len =>
    { s with
      stream := s.stream.popOutput len
      popped := s.popped ++ s.stream.peekOutput len }
  | .read len =>
    { s with
      stream := (s.stream.read len).2
      popped := s.popped ++ (s.stream.read len).1 }
  | .endInput => { s with stream := s.stream.endInput }

/-- The stream is a bounded first-in first-out queue of what was accepted. -/
structure Fifo (capacity : ℕ) (s : StreamRun) : Prop where
  /-- `pop_output` and `read` make the only call that can throw. -/
  returns : ∀ len,
    s.stream.buffer.removePrefix (s.stream.takeLen len) = .ok (s.stream.popOutput len).buffer
  accepts : ∀ data, (s.stream.write data).1 = min data.length s.stream.remainingCapacity ∧
    (s.stream.write data).2.contents =
      s.stream.contents ++ data.take (min data.length s.stream.remainingCapacity)
  order : s.popped ++ s.stream.contents = s.accepted
  peeks : ∀ k, s.stream.peekOutput k = s.stream.contents.take (min k s.stream.bufferSize)
  reads : ∀ k, (s.stream.read k).1 = s.stream.contents.take (min k s.stream.bufferSize)
  written : s.stream.bytesWritten = s.accepted.length
  popped : s.stream.bytesRead = s.popped.length
  size : s.stream.bufferSize = s.stream.contents.length ∧
    s.stream.bytesRead + s.stream.bufferSize = s.stream.bytesWritten
  bounded : s.stream.bufferSize ≤ capacity
  remaining : s.stream.remainingCapacity + s.stream.bufferSize = capacity

/-- The history agrees with the stream. -/
structure Agrees (capacity : ℕ) (s : StreamRun) : Prop where
  capacity : s.stream.capacity = capacity
  order : s.popped ++ s.stream.contents = s.accepted
  popped : s.stream.bytesRead = s.popped.length

variable {capacity : ℕ} {s : StreamRun}

theorem new_agrees (capacity : UInt64) : Agrees capacity.toNat (new capacity) := by
  constructor <;> simp [new]

/-- Popping moves the first bytes of the queue to the history. -/
theorem Agrees.popOutput (h : Agrees capacity s) (len : ℕ) :
    Agrees capacity (s.step (.popOutput len)) := by
  refine ⟨by simp [step, h.capacity], ?_, ?_⟩
  · simp only [step, ByteStream.peekOutput_eq, ByteStream.contents_popOutput]
    rw [List.append_assoc, List.take_append_drop, h.order]
  · simp [step, h.popped]

/-- **Step**: every call keeps the history in agreement. -/
theorem step_agrees (h : Agrees capacity s) (op : StreamOp) : Agrees capacity (s.step op) := by
  cases op with
  | write data =>
    refine ⟨by simp [step, h.capacity], ?_, by simp [step, h.popped]⟩
    simp only [step, ByteStream.contents_write, ByteStream.write_fst]
    rw [← List.append_assoc, h.order, Nat.min_comm, ← List.take_eq_take_min]
  | peekOutput len => exact h
  | popOutput len => exact h.popOutput len
  | read len =>
    have hread : s.step (.read len) = s.step (.popOutput len) := rfl
    rw [hread]
    exact h.popOutput len
  | endInput => exact ⟨h.capacity, h.order, h.popped⟩

theorem removePrefix_popOutput (s : ByteStream) (len : ℕ) :
    s.buffer.removePrefix (s.takeLen len) = .ok (s.popOutput len).buffer := by
  obtain ⟨b, hb, -⟩ := s.removePrefix_takeLen len
  have hpop : (s.popOutput len).buffer = b := getOk_eq hb _
  rw [hb, hpop]

theorem Agrees.fifo (h : Agrees capacity s) : Fifo capacity s := by
  have hle := s.stream.contents_length_le
  have hwritten := s.stream.bytesWritten_eq
  refine ⟨removePrefix_popOutput s.stream, fun data => ⟨by simp, ?_⟩, h.order, fun k => ?_,
    fun k => ?_, ?_, h.popped, ⟨s.stream.bufferSize_eq, ?_⟩, ?_, ?_⟩
  · rw [ByteStream.contents_write, Nat.min_comm, ← List.take_eq_take_min]
  · rw [ByteStream.peekOutput_eq, ByteStream.bufferSize_eq, ← List.take_eq_take_min]
  · rw [ByteStream.read_fst, ByteStream.bufferSize_eq, ← List.take_eq_take_min]
  · rw [← h.order, List.length_append, ← h.popped, hwritten]
  · rw [ByteStream.bufferSize_eq, hwritten]
  · rw [ByteStream.bufferSize_eq, ← h.capacity]
    exact hle
  · rw [ByteStream.remainingCapacity_eq, ByteStream.bufferSize_eq, h.capacity]
    rw [h.capacity] at hle
    omega

/-- **A byte stream is a bounded first-in first-out queue** after every run. -/
theorem run_fifo (capacity : UInt64) (ops : List StreamOp) :
    Fifo capacity.toNat (exec step (new capacity) ops) := by
  have hagrees : Agrees capacity.toNat (exec step (new capacity) ops) :=
    exec_invariant (I := fun s : StreamRun => Agrees capacity.toNat s)
      (fun _ op h => step_agrees h op) ops (new_agrees capacity)
  exact hagrees.fifo

-- an empty write leaves an empty buffer in the deque, and a read goes across it
example : (exec step (new 4) [.write [1, 2], .write [], .write [3, 4, 5], .read 3]).popped =
    [1, 2, 3] := by decide

end StreamRun

end Sponge
