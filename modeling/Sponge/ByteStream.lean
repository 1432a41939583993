import Sponge.Util.Buffer

/-!
# The in-order byte stream (`libsponge/byte_stream.hh`, `byte_stream.cc`)

The stream's fields carry what every operation keeps: the buffered bytes fit the capacity (so
the `size_t` subtraction `_capacity - _buffer.size()` never wraps), the capacity is a `size_t`,
and the bytes written are the bytes read and the bytes buffered. `contents` is the abstract
queue: the lemmas about it are what the rest of the development uses.
-/

namespace Sponge

/-- A finite in-order byte stream with room for `capacity` bytes. -/
structure ByteStream where
  buffer : BufferList
  capacity : Nat
  readCount : Nat
  writeCount : Nat
  inputEndedFlag : Bool
  errorFlag : Bool
  size_le : buffer.size ≤ capacity
  capacity_lt : capacity < 2 ^ 64
  count : writeCount = readCount + buffer.size

namespace ByteStream

/-- `ByteStream(const size_t capacity)`. -/
def new (capacity : UInt64) : ByteStream where
  buffer := []
  capacity := capacity.toNat
  readCount := 0
  writeCount := 0
  inputEndedFlag := false
  errorFlag := false
  size_le := Nat.zero_le _
  capacity_lt := capacity.toNat_lt
  count := rfl

/-- The bytes buffered, oldest first. -/
def contents (s : ByteStream) : List UInt8 := s.buffer.concatenate

def inputEnded (s : ByteStream) : Bool := s.inputEndedFlag

def error (s : ByteStream) : Bool := s.errorFlag

def bufferSize (s : ByteStream) : Nat := s.buffer.size

def bufferEmpty (s : ByteStream) : Bool := s.buffer.size == 0

def eof (s : ByteStream) : Bool := s.bufferEmpty && s.inputEnded

def bytesWritten (s : ByteStream) : Nat := s.writeCount

def bytesRead (s : ByteStream) : Nat := s.readCount

def remainingCapacity (s : ByteStream) : Nat := s.capacity - s.buffer.size

/-- The number of bytes of `data` that `write` takes. -/
def acceptLen (s : ByteStream) (data : List UInt8) : Nat :=
  if data.length > s.capacity - s.buffer.size then s.capacity - s.buffer.size else data.length

theorem acceptLen_eq (s : ByteStream) (data : List UInt8) :
    s.acceptLen data = min data.length s.remainingCapacity := by
  unfold acceptLen remainingCapacity
  split <;> omega

theorem size_append_take (s : ByteStream) (data : List UInt8) :
    (s.buffer.append (.ofString (data.take (s.acceptLen data)))).size =
      s.buffer.size + s.acceptLen data := by
  have := s.acceptLen_eq data
  rw [BufferList.size_eq, BufferList.concatenate_append, BufferList.concatenate_ofString,
    List.length_append, ← BufferList.size_eq, List.length_take]
  omega

/-- Write a string of bytes into the stream: as many as fit, and how many were written. -/
def write (s : ByteStream) (data : List UInt8) : Nat × ByteStream :=
  let len := s.acceptLen data
  (len,
    { s with
      writeCount := s.writeCount + len
      buffer := s.buffer.append (.ofString (data.take len))
      size_le := by
        have := s.size_le
        have := s.acceptLen_eq data
        rw [size_append_take]
        unfold remainingCapacity at this
        omega
      count := by rw [size_append_take, s.count, Nat.add_assoc] })

/-- The number of bytes that `peek_output` and `pop_output` take. -/
def takeLen (s : ByteStream) (len : Nat) : Nat :=
  if len > s.buffer.size then s.buffer.size else len

theorem takeLen_eq (s : ByteStream) (len : Nat) : s.takeLen len = min len s.bufferSize := by
  unfold takeLen bufferSize
  split <;> omega

/-- Peek at the next `len` bytes. -/
def peekOutput (s : ByteStream) (len : Nat) : List UInt8 :=
  s.buffer.concatenate.take (s.takeLen len)

theorem removePrefix_takeLen (s : ByteStream) (len : Nat) :
    ∃ b, s.buffer.removePrefix (s.takeLen len) = .ok b ∧
      b.concatenate = s.buffer.concatenate.drop (s.takeLen len) :=
  BufferList.removePrefix_ok (by unfold takeLen; split <;> omega)

/-- The buffers left by `pop_output`, whose `remove_prefix` never throws. -/
def popBuffer (s : ByteStream) (len : Nat) : BufferList :=
  getOk (s.buffer.removePrefix (s.takeLen len))
    (by obtain ⟨b, hb, -⟩ := s.removePrefix_takeLen len; exact ⟨b, hb⟩)

theorem concatenate_popBuffer (s : ByteStream) (len : Nat) :
    (s.popBuffer len).concatenate = s.buffer.concatenate.drop (s.takeLen len) := by
  obtain ⟨b, hb, hc⟩ := s.removePrefix_takeLen len
  rw [popBuffer, getOk_eq hb, hc]

theorem size_popBuffer (s : ByteStream) (len : Nat) :
    (s.popBuffer len).size + s.takeLen len = s.buffer.size := by
  have : s.takeLen len ≤ s.buffer.size := by unfold takeLen; split <;> omega
  rw [BufferList.size_eq, concatenate_popBuffer, List.length_drop, ← BufferList.size_eq]
  omega

/-- Remove `len` bytes from the buffer. -/
def popOutput (s : ByteStream) (len : Nat) : ByteStream :=
  { s with
    readCount := s.readCount + s.takeLen len
    buffer := s.popBuffer len
    size_le := by have := s.size_popBuffer len; have := s.size_le; omega
    count := by have := s.size_popBuffer len; have := s.count; omega }

/-- Read (i.e., copy and then pop) the next `len` bytes. -/
def read (s : ByteStream) (len : Nat) : List UInt8 × ByteStream :=
  (s.peekOutput len, s.popOutput len)

def endInput (s : ByteStream) : ByteStream := { s with inputEndedFlag := true }

def setError (s : ByteStream) : ByteStream := { s with errorFlag := true }

/-! ## The abstract queue -/

variable (s : ByteStream) (data : List UInt8) (n : Nat)

theorem bufferSize_eq : s.bufferSize = s.contents.length := BufferList.size_eq _

theorem bytesWritten_eq : s.bytesWritten = s.bytesRead + s.contents.length := by
  rw [← bufferSize_eq]; exact s.count

theorem contents_length_le : s.contents.length ≤ s.capacity := by
  rw [← bufferSize_eq]; exact s.size_le

theorem remainingCapacity_eq : s.remainingCapacity = s.capacity - s.contents.length := by
  rw [← bufferSize_eq]; rfl

theorem bufferEmpty_iff : s.bufferEmpty = true ↔ s.contents = [] := by
  simp [bufferEmpty, BufferList.size_eq, contents]

theorem eof_iff : s.eof = true ↔ s.contents = [] ∧ s.inputEnded = true := by
  simp [eof, bufferEmpty_iff]

theorem bufferSize_pos_iff : 0 < s.bufferSize ↔ s.contents ≠ [] := by
  rw [bufferSize_eq, List.length_pos_iff]

@[simp] theorem contents_new (c : UInt64) : (new c).contents = [] := rfl
@[simp] theorem inputEnded_new (c : UInt64) : (new c).inputEnded = false := rfl
@[simp] theorem error_new (c : UInt64) : (new c).error = false := rfl
@[simp] theorem bytesRead_new (c : UInt64) : (new c).bytesRead = 0 := rfl
@[simp] theorem bytesWritten_new (c : UInt64) : (new c).bytesWritten = 0 := rfl
@[simp] theorem capacity_new (c : UInt64) : (new c).capacity = c.toNat := rfl

@[simp] theorem write_fst : (s.write data).1 = min data.length s.remainingCapacity :=
  s.acceptLen_eq data

@[simp] theorem contents_write :
    (s.write data).2.contents = s.contents ++ data.take s.remainingCapacity := by
  simp only [write, contents, BufferList.concatenate_append, BufferList.concatenate_ofString,
    acceptLen_eq]
  rw [Nat.min_comm, ← List.take_eq_take_min]

@[simp] theorem bytesRead_write : (s.write data).2.bytesRead = s.bytesRead := rfl
@[simp] theorem capacity_write : (s.write data).2.capacity = s.capacity := rfl
@[simp] theorem inputEnded_write : (s.write data).2.inputEnded = s.inputEnded := rfl
@[simp] theorem error_write : (s.write data).2.error = s.error := rfl

@[simp] theorem peekOutput_eq : s.peekOutput n = s.contents.take n := by
  rw [peekOutput, takeLen_eq, bufferSize_eq, contents, ← List.take_eq_take_min]

@[simp] theorem contents_popOutput : (s.popOutput n).contents = s.contents.drop n := by
  show (s.popBuffer n).concatenate = s.buffer.concatenate.drop n
  rw [concatenate_popBuffer, takeLen_eq, bufferSize_eq, contents]
  by_cases h : n ≤ s.buffer.concatenate.length
  · rw [Nat.min_eq_left h]
  · rw [List.drop_eq_nil_of_le (by omega), List.drop_eq_nil_of_le (by omega)]

@[simp] theorem bytesRead_popOutput :
    (s.popOutput n).bytesRead = s.bytesRead + min n s.contents.length := by
  rw [← bufferSize_eq, ← takeLen_eq]; rfl

@[simp] theorem bytesWritten_popOutput : (s.popOutput n).bytesWritten = s.bytesWritten := rfl
@[simp] theorem capacity_popOutput : (s.popOutput n).capacity = s.capacity := rfl
@[simp] theorem inputEnded_popOutput : (s.popOutput n).inputEnded = s.inputEnded := rfl
@[simp] theorem error_popOutput : (s.popOutput n).error = s.error := rfl

@[simp] theorem read_fst : (s.read n).1 = s.contents.take n := s.peekOutput_eq n
@[simp] theorem read_snd : (s.read n).2 = s.popOutput n := rfl

@[simp] theorem contents_endInput : s.endInput.contents = s.contents := rfl
@[simp] theorem inputEnded_endInput : s.endInput.inputEnded = true := rfl
@[simp] theorem error_endInput : s.endInput.error = s.error := rfl
@[simp] theorem bytesRead_endInput : s.endInput.bytesRead = s.bytesRead := rfl
@[simp] theorem bytesWritten_endInput : s.endInput.bytesWritten = s.bytesWritten := rfl
@[simp] theorem capacity_endInput : s.endInput.capacity = s.capacity := rfl

@[simp] theorem contents_setError : s.setError.contents = s.contents := rfl
@[simp] theorem inputEnded_setError : s.setError.inputEnded = s.inputEnded := rfl
@[simp] theorem error_setError : s.setError.error = true := rfl
@[simp] theorem bytesRead_setError : s.setError.bytesRead = s.bytesRead := rfl
@[simp] theorem bytesWritten_setError : s.setError.bytesWritten = s.bytesWritten := rfl
@[simp] theorem capacity_setError : s.setError.capacity = s.capacity := rfl

end ByteStream

end Sponge
