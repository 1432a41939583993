import Sponge.ByteStream
import Sponge.Util.EventLoop

/-!
# Copying between the standard streams and a socket (`apps/bidirectional_stream_copy.cc`)

The state is that of the local variables, with the bytes that went through each descriptor.
-/

namespace Sponge

/-- `max_copy_length`. -/
def maxCopyLength : Nat := 65536

/-- The answers of the kernel to the system calls of a callback. -/
structure CopyAnswers where
  read : Except Exn (List UInt8) := .ok []
  writev : Nat → Except Exn Nat := fun _ => .ok 0
  shutdown : Except Exn Unit := .ok ()
  close : Except Exn Unit := .ok ()

/-- The local variables of `bidirectional_stream_copy`. -/
structure StreamCopy where
  input : FileDescriptor := {}
  output : FileDescriptor := {}
  socket : FileDescriptor := {}
  outbound : ByteStream := .new 1048576
  inbound : ByteStream := .new 1048576
  outboundShutdown : Bool := false
  inboundShutdown : Bool := false
  /-- What was read from the standard input. -/
  typed : List UInt8 := []
  /-- What was written to the socket. -/
  sent : List UInt8 := []
  /-- What was read from the socket. -/
  received : List UInt8 := []
  /-- What was written to the standard output. -/
  shown : List UInt8 := []

namespace StreamCopy

/-- `stream.write(fd.read(stream.remaining_capacity()))`, and the end of the input: the bytes read.
-/
def fill (fd : FileDescriptor) (stream : ByteStream) (answer : Except Exn (List UInt8)) :
    FileDescriptor × ByteStream × Except Exn (List UInt8) :=
  match fd.read stream.remainingCapacity answer with
  | (fd, .error e) => (fd, stream, .error e)
  | (fd, .ok data) =>
    let stream := (stream.write data).2
    (fd, if fd.eof then stream.endInput else stream, .ok data)

/-- `stream.pop_output(fd.write(stream.peek_output(...), false))`: the bytes written. -/
def drain (fd : FileDescriptor) (stream : ByteStream) (writev : Nat → Except Exn Nat) :
    FileDescriptor × ByteStream × Except Exn (List UInt8) :=
  let data := stream.peekOutput (min maxCopyLength stream.bufferSize)
  match fd.write (.ofString data) false writev with
  | (fd, _, .error e) => (fd, stream, .error e)
  | (fd, _, .ok bytesWritten) => (fd, stream.popOutput bytesWritten, .ok (data.take bytesWritten))

/-- Rule 1: read from stdin into outbound byte stream. -/
def readInput (answers : CopyAnswers) (s : StreamCopy) : StreamCopy × Except Exn Unit :=
  match fill s.input s.outbound answers.read with
  | (input, outbound, .error e) => ({ s with input := input, outbound := outbound }, .error e)
  | (input, outbound, .ok data) =>
    ({ s with input := input, outbound := outbound, typed := s.typed ++ data }, .ok ())

/-- Rule 2: read from outbound byte stream into socket. -/
def writeSocket (answers : CopyAnswers) (s : StreamCopy) : StreamCopy × Except Exn Unit :=
  match drain s.socket s.outbound answers.writev with
  | (socket, outbound, .error e) => ({ s with socket := socket, outbound := outbound }, .error e)
  | (socket, outbound, .ok data) =>
    let s := { s with socket := socket, outbound := outbound, sent := s.sent ++ data }
    if s.outbound.eof then
      match s.socket.shutdownWrite answers.shutdown with
      | (socket, .error e) => ({ s with socket := socket }, .error e)
      | (socket, .ok ()) => ({ s with socket := socket, outboundShutdown := true }, .ok ())
    else (s, .ok ())

/-- Rule 3: read from socket into inbound byte stream. -/
def readSocket (answers : CopyAnswers) (s : StreamCopy) : StreamCopy × Except Exn Unit :=
  match fill s.socket s.inbound answers.read with
  | (socket, inbound, .error e) => ({ s with socket := socket, inbound := inbound }, .error e)
  | (socket, inbound, .ok data) =>
    ({ s with socket := socket, inbound := inbound, received := s.received ++ data }, .ok ())

/-- Rule 4: read from inbound byte stream into stdout. -/
def writeOutput (answers : CopyAnswers) (s : StreamCopy) : StreamCopy × Except Exn Unit :=
  match drain s.output s.inbound answers.writev with
  | (output, inbound, .error e) => ({ s with output := output, inbound := inbound }, .error e)
  | (output, inbound, .ok data) =>
    let s := { s with output := output, inbound := inbound, shown := s.shown ++ data }
    if s.inbound.eof then
      match s.output.close answers.close with
      | (output, .error e) => ({ s with output := output }, .error e)
      | (output, .ok ()) => ({ s with output := output, inboundShutdown := true }, .ok ())
    else (s, .ok ())

/-- The four rules, in their order. -/
inductive Name where
  | readInput | writeSocket | readSocket | writeOutput
deriving DecidableEq, Repr

def rule : Name → Rule CopyAnswers StreamCopy
  | .readInput =>
    { fd := input
      direction := .In
      callback := readInput
      interest := fun s =>
        !s.outbound.error && decide (s.outbound.remainingCapacity > 0) && !s.inbound.error
      cancel := fun s => ({ s with outbound := s.outbound.endInput }, .ok ()) }
  | .writeSocket =>
    { fd := socket
      direction := .Out
      callback := writeSocket
      interest := fun s => !s.outbound.bufferEmpty || (s.outbound.eof && !s.outboundShutdown)
      cancel := fun s => ({ s with outbound := s.outbound.endInput }, .ok ()) }
  | .readSocket =>
    { fd := socket
      direction := .In
      callback := readSocket
      interest := fun s =>
        !s.inbound.error && decide (s.inbound.remainingCapacity > 0) && !s.outbound.error
      cancel := fun s => ({ s with inbound := s.inbound.endInput }, .ok ()) }
  | .writeOutput =>
    { fd := output
      direction := .Out
      callback := writeOutput
      interest := fun s => !s.inbound.bufferEmpty || (s.inbound.eof && !s.inboundShutdown)
      cancel := fun s => ({ s with inbound := s.inbound.endInput }, .ok ()) }

/-- The rules as `bidirectional_stream_copy` adds them. -/
def names : List Name := [.readInput, .writeSocket, .readSocket, .writeOutput]

def eventloop : EventLoop CopyAnswers StreamCopy :=
  ((({} : EventLoop CopyAnswers StreamCopy).addRule (rule .readInput)).addRule
    (rule .writeSocket)).addRule (rule .readSocket) |>.addRule (rule .writeOutput)

/-- How far `bidirectional_stream_copy` has come. -/
inductive Progress where
  | running
  | returned
  | threw (e : Exn)
deriving DecidableEq, Repr

/-- The loop until completion, with its rules and its state. -/
structure Loop where
  eventloop : EventLoop CopyAnswers StreamCopy := StreamCopy.eventloop
  state : StreamCopy := {}
  progress : Progress := .running

/-- One round: `wait_next_event(-1)`, until it returns `Exit` or throws. -/
def Loop.step (l : Loop) (poll : Poll CopyAnswers) : Loop :=
  if l.progress = .running then
    match l.eventloop.waitNextEvent poll l.state with
    | (eventloop, state, .error e) => ⟨eventloop, state, .threw e⟩
    | (eventloop, state, .ok result) =>
      ⟨eventloop, state, if result = .exit then .returned else .running⟩
  else l

end StreamCopy

end Sponge
