import Sponge.Util.Buffer

/-!
# File descriptors (`libsponge/util/file_descriptor.hh`, `file_descriptor.cc`, `socket.cc`)

Copies of a `FileDescriptor` share an `FDWrapper`; the state here is that of the wrapper, without
the number that the kernel gave it. The answers of the kernel are arguments: what a system call
returns, or the exception that `SystemCall` makes of its error.
-/

namespace Sponge

/-- A deque of string views. -/
abbrev BufferViewList := List (List UInt8)

namespace BufferViewList

/-- Construct from a string. -/
def ofString (str : List UInt8) : BufferViewList := [str]

/-- Construct from a `BufferList`. -/
def ofBufferList (buffers : BufferList) : BufferViewList := buffers.map Buffer.str

def size (views : BufferViewList) : Nat := (views.map List.length).sum

/-- Discard the first `n` bytes. -/
def removePrefix : BufferViewList → Nat → Except Exn BufferViewList
  | views, 0 => .ok views
  | [], _ + 1 => .error (.outOfRange "BufferListView::remove_prefix")
  | view :: views, n + 1 =>
    if n + 1 < view.length then .ok (view.drop (n + 1) :: views)
    else removePrefix views (n + 1 - view.length)

end BufferViewList

/-- A handle to a file descriptor. -/
structure FileDescriptor where
  eof : Bool := false
  closed : Bool := false
  readCount : UInt32 := 0
  writeCount : UInt32 := 0
deriving DecidableEq, Repr

namespace FileDescriptor

def registerRead (fd : FileDescriptor) : FileDescriptor := { fd with readCount := fd.readCount + 1 }

def registerWrite (fd : FileDescriptor) : FileDescriptor :=
  { fd with writeCount := fd.writeCount + 1 }

/-- The maximum size of a read. -/
def bufferSize : Nat := 1024 * 1024

/-- Read up to `limit` bytes. -/
def read (fd : FileDescriptor) (limit : Nat) (answer : Except Exn (List UInt8)) :
    FileDescriptor × Except Exn (List UInt8) :=
  let sizeToRead := min bufferSize limit
  match answer with
  | .error e => (fd, .error e)
  | .ok bytes =>
    let fd := if limit > 0 ∧ bytes.length = 0 then { fd with eof := true } else fd
    if bytes.length > sizeToRead then (fd, .error (.runtimeError "read() read more than requested"))
    else (fd.registerRead, .ok bytes)

/-- The loop of `write`, with the bytes written so far: `writev` gives the kernel's answers in their
order. A round that goes on has written something, so that the size of the buffer bounds the
rounds. -/
def writeLoop (writeAll : Bool) :
    Nat → (Nat → Except Exn Nat) → FileDescriptor → BufferViewList → Nat →
      FileDescriptor × BufferViewList × Except Exn Nat
  | 0, _, fd, buffer, totalBytesWritten => (fd, buffer, .ok totalBytesWritten)
  | rounds + 1, writev, fd, buffer, totalBytesWritten =>
    match writev 0 with
    | .error e => (fd, buffer, .error e)
    | .ok bytesWritten =>
      if bytesWritten = 0 ∧ buffer.size ≠ 0 then
        (fd, buffer, .error (.runtimeError "write returned 0 given non-empty input buffer"))
      else if bytesWritten > buffer.size then
        (fd, buffer, .error (.runtimeError "write wrote more than length of input buffer"))
      else
        let fd := fd.registerWrite
        match buffer.removePrefix bytesWritten with
        | .error e => (fd, buffer, .error e)
        | .ok buffer =>
          let totalBytesWritten := totalBytesWritten + bytesWritten
          if writeAll = true ∧ buffer.size ≠ 0 then
            writeLoop writeAll rounds (fun i => writev (i + 1)) fd buffer totalBytesWritten
          else (fd, buffer, .ok totalBytesWritten)

/-- Write a buffer, possibly until all is written: what is left of the buffer, and the number of
bytes written. -/
def write (fd : FileDescriptor) (buffer : BufferViewList) (writeAll : Bool)
    (writev : Nat → Except Exn Nat) : FileDescriptor × BufferViewList × Except Exn Nat :=
  writeLoop writeAll (buffer.size + 1) writev fd buffer 0

/-- Close the underlying file descriptor. -/
def close (fd : FileDescriptor) (answer : Except Exn Unit) : FileDescriptor × Except Exn Unit :=
  match answer with
  | .error e => (fd, .error e)
  | .ok () => ({ fd with eof := true, closed := true }, .ok ())

/-- `Socket::shutdown(SHUT_WR)`. -/
def shutdownWrite (fd : FileDescriptor) (answer : Except Exn Unit) :
    FileDescriptor × Except Exn Unit :=
  match answer with
  | .error e => (fd, .error e)
  | .ok () => (fd.registerWrite, .ok ())

end FileDescriptor

namespace BufferViewList

theorem size_eq (views : BufferViewList) : views.size = views.flatten.length := by
  rw [List.length_flatten, size]

/-- **`remove_prefix` within the size** does not throw and drops exactly the first bytes. -/
theorem removePrefix_ok {views : BufferViewList} {n : Nat} (h : n ≤ views.size) :
    ∃ views', views.removePrefix n = .ok views' ∧ views'.flatten = views.flatten.drop n := by
  induction views generalizing n with
  | nil =>
    have hn : n = 0 := Nat.eq_zero_of_le_zero h
    exact ⟨[], by rw [hn]; rfl, by simp⟩
  | cons view views ih =>
    cases n with
    | zero => exact ⟨view :: views, rfl, rfl⟩
    | succ n =>
      rw [removePrefix]
      split
      · rename_i hlt
        refine ⟨_, rfl, ?_⟩
        rw [List.flatten_cons, List.flatten_cons, List.drop_append_of_le_length (Nat.le_of_lt hlt)]
      · rename_i hge
        have hsize : n + 1 - view.length ≤ size views := by
          simp only [size, List.map_cons, List.sum_cons] at h ⊢
          omega
        obtain ⟨views', h1, h2⟩ := ih hsize
        have hview : view.drop (n + 1) = [] := List.drop_eq_nil_of_le (by omega)
        refine ⟨views', h1, h2.trans ?_⟩
        rw [List.flatten_cons, List.drop_append, hview, List.nil_append]

end BufferViewList

namespace FileDescriptor

/-! ## The loop of `write` -/

/-- The exceptions of `read` and `write` that show a kernel that breaks its word. -/
def Fault (e : Exn) : Prop :=
  e = .runtimeError "read() read more than requested" ∨
    e = .runtimeError "write returned 0 given non-empty input buffer" ∨
    e = .runtimeError "write wrote more than length of input buffer"

theorem writeCount_once (fd : FileDescriptor) : fd.registerWrite.writeCount ≠ fd.writeCount := by
  simp [registerWrite]

theorem writeCount_twice (fd : FileDescriptor) :
    fd.registerWrite.registerWrite.writeCount ≠ fd.writeCount := by
  intro hsame
  have hsame := congrArg UInt32.toNat hsame
  simp only [registerWrite, UInt32.toNat_add] at hsame
  have := fd.writeCount.toNat_lt
  simp at hsame
  omega

/-- A read throws and changes nothing, or it returns what the kernel answers. -/
theorem read_cases (fd : FileDescriptor) (limit : Nat) (answer : Except Exn (List UInt8)) :
    (∃ e, (answer = .error e ∨ Fault e) ∧ fd.read limit answer = (fd, .error e)) ∨
      ∃ data, answer = .ok data ∧ data.length ≤ limit ∧ fd.read limit answer =
        ({ fd with eof := fd.eof || decide (limit > 0 ∧ data.length = 0),
                   readCount := fd.readCount + 1 }, .ok data) := by
  unfold read
  cases answer with
  | error e => exact .inl ⟨e, .inl rfl, rfl⟩
  | ok data =>
    dsimp only
    split
    · rename_i hmore
      refine .inl ⟨_, .inr (.inl rfl), ?_⟩
      rw [if_neg (by omega)]
    · rename_i hle
      refine .inr ⟨data, rfl, by omega, ?_⟩
      by_cases hend : limit > 0 ∧ data.length = 0
      · rw [if_pos hend, decide_eq_true hend, Bool.or_true]
        rfl
      · rw [if_neg hend, decide_eq_false hend, Bool.or_false]
        rfl

/-- One round: it throws, or it takes the front of the buffer. -/
theorem writeLoop_succ (writeAll : Bool) (rounds : Nat) (writev : Nat → Except Exn Nat)
    (fd : FileDescriptor) (buffer : BufferViewList) (total : Nat) :
    (∃ e, (writev 0 = .error e ∨ Fault e) ∧
        writeLoop writeAll (rounds + 1) writev fd buffer total = (fd, buffer, .error e)) ∨
      ∃ n rest, n ≤ buffer.size ∧ (n = 0 → buffer.size = 0) ∧
        rest.flatten = buffer.flatten.drop n ∧
        writeLoop writeAll (rounds + 1) writev fd buffer total =
          if writeAll = true ∧ rest.size ≠ 0 then
            writeLoop writeAll rounds (fun i => writev (i + 1)) fd.registerWrite rest (total + n)
          else (fd.registerWrite, rest, .ok (total + n)) := by
  rw [writeLoop]
  split
  · rename_i e he
    exact .inl ⟨e, .inl he, rfl⟩
  · rename_i n hn
    split
    · exact .inl ⟨_, .inr (.inr (.inl rfl)), rfl⟩
    · rename_i hzero
      split
      · exact .inl ⟨_, .inr (.inr (.inr rfl)), rfl⟩
      · rename_i hle
        obtain ⟨rest, hrest, hflat⟩ := BufferViewList.removePrefix_ok (Nat.le_of_not_lt hle)
        exact .inr ⟨n, rest, Nat.le_of_not_lt hle, by omega, hflat, by rw [hrest]⟩

/-- A single `writev`. -/
theorem write_once (fd : FileDescriptor) (buffer : BufferViewList) (writev : Nat → Except Exn Nat) :
    (∃ e, (writev 0 = .error e ∨ Fault e) ∧
        fd.write buffer false writev = (fd, buffer, .error e)) ∨
      ∃ n rest, n ≤ buffer.size ∧ rest.flatten = buffer.flatten.drop n ∧
        fd.write buffer false writev = (fd.registerWrite, rest, .ok n) := by
  rcases writeLoop_succ false buffer.size writev fd buffer 0 with
    ⟨e, hw, he⟩ | ⟨n, rest, hn, -, hf, he⟩
  · exact .inl ⟨e, hw, he⟩
  · exact .inr ⟨n, rest, hn, hf, he.trans (by simp)⟩

end FileDescriptor

end Sponge
