import Sponge.TCPOverIPv4Adapter
import Sponge.TCPState
import Sponge.Util.EventLoop

/-!
# The socket around a connection

`libsponge/tcp_helpers/tcp_sponge_socket.hh` and `tcp_sponge_socket.cc`. The four rules of the event
loop act on the members of the socket; `Process` adds where the two threads are: in the loop of
`connect` or of `listen_and_accept`, or in the one of `_tcp_main`. The owner's part of the socket
pair is the kernel's, so that what the owner does with it shows in the kernel's answers; the
debugging output is left out.
-/

namespace Sponge

/-- What a `TCPSpongeSocket` asks of its datagram adapter; `ι` is what the outside answers to one
call, `κ` the adapter's configuration. `write` also sets the ports of the segment, which nothing
reads afterwards. -/
class DatagramAdapter (α : Type) (ι κ : outParam Type) where
  /-- The conversion to a `FileDescriptor`. -/
  fd : α → FileDescriptor
  read : α → ι → α × Except Exn (Option TCPSegment)
  write : α → TCPSegment → ι → α × Except Exn Unit
  /-- It may not return: `none`. -/
  tick : α → Nat → ι → Option (α × Except Exn Unit)
  /-- `config_mut() = cfg`. -/
  setConfig : α → κ → α
  setListening : α → Bool → α

/-- A string that names the state. -/
def TCPState.name (s : TCPState) : String :=
  "sender=`" ++ s.sender.text ++ "`, receiver=`" ++ s.receiver.text ++ "`, active=" ++
    toString s.active.toNat ++ ", linger_after_streams_finish=" ++
    toString s.lingerAfterStreamsFinish.toNat

/-- The destructor of a `TCPConnection`. -/
def TCPConnection.destroy (c : TCPConnection) : TCPConnection :=
  if c.active then c.uncleanShutdown true else c

/-- The members of a socket whose connection has been initialized, with the history of what passed
through it. -/
structure TCPSpongeSocket (α : Type) where
  threadData : FileDescriptor := {}
  datagramAdapter : α
  tcp : TCPConnection
  inboundShutdown : Bool := false
  outboundShutdown : Bool := false
  fullyAcked : Bool := false
  /-- The segments that the adapter wrote. -/
  sent : List TCPSegment := []
  /-- The bytes read from the owner. -/
  fromOwner : List UInt8 := []
  /-- The bytes written to the owner. -/
  toOwner : List UInt8 := []

/-- What the outside answers to the calls of one callback. -/
structure SocketAnswers (ι : Type) where
  /-- To `_datagram_adapter.read()`. -/
  datagram : ι
  /-- To `_datagram_adapter.write(...)`, one after the other. -/
  datagrams : Nat → ι
  read : Except Exn (List UInt8) := .ok []
  writev : Nat → Except Exn Nat := fun _ => .ok 0
  shutdown : Except Exn Unit := .ok ()

namespace TCPSpongeSocket

variable {α ι κ : Type} [DatagramAdapter α ι κ]

/-- Rule 1: read from filtered packet stream and dump into TCPConnection. -/
def readDatagram (answers : SocketAnswers ι) (s : TCPSpongeSocket α) :
    TCPSpongeSocket α × Except Exn Unit :=
  match DatagramAdapter.read s.datagramAdapter answers.datagram with
  | (adapter, .error e) => ({ s with datagramAdapter := adapter }, .error e)
  | (adapter, .ok seg) =>
    let s := { s with datagramAdapter := adapter }
    let s := match seg with
      | some seg => { s with tcp := s.tcp.segmentReceived seg }
      | none => s
    ({ s with fullyAcked := s.fullyAcked || (s.threadData.eof && s.tcp.bytesInFlight == 0) },
      .ok ())

/-- Rule 2: read from pipe into outbound buffer. -/
def readPipe (answers : SocketAnswers ι) (s : TCPSpongeSocket α) :
    TCPSpongeSocket α × Except Exn Unit :=
  match s.threadData.read s.tcp.remainingOutboundCapacity answers.read with
  | (threadData, .error e) => ({ s with threadData := threadData }, .error e)
  | (threadData, .ok data) =>
    let s := { s with threadData := threadData, fromOwner := s.fromOwner ++ data }
    let (amountWritten, tcp) := s.tcp.write data
    let s := { s with tcp := tcp }
    if amountWritten ≠ data.length then
      (s, .error (.runtimeError "TCPConnection::write() accepted less than advertised length"))
    else if s.threadData.eof then
      ({ s with tcp := s.tcp.endInputStream, outboundShutdown := true }, .ok ())
    else (s, .ok ())

/-- Rule 3: read from inbound buffer into pipe. -/
def writePipe (answers : SocketAnswers ι) (s : TCPSpongeSocket α) :
    TCPSpongeSocket α × Except Exn Unit :=
  let inbound := s.tcp.inboundStream
  let buffer := inbound.peekOutput (min 65536 inbound.bufferSize)
  match s.threadData.write (.ofString buffer) false answers.writev with
  | (threadData, _, .error e) => ({ s with threadData := threadData }, .error e)
  | (threadData, _, .ok bytesWritten) =>
    let s := { s with
      threadData := threadData
      tcp := s.tcp.read bytesWritten
      toOwner := s.toOwner ++ buffer.take bytesWritten }
    if s.tcp.inboundStream.eof || s.tcp.inboundStream.error then
      match s.threadData.shutdownWrite answers.shutdown with
      | (threadData, .error e) => ({ s with threadData := threadData }, .error e)
      | (threadData, .ok ()) =>
        ({ s with threadData := threadData, inboundShutdown := true }, .ok ())
    else (s, .ok ())

/-- The loop of rule 4 over the segments of the queue. -/
def sendSegments : List TCPSegment → (Nat → ι) → TCPSpongeSocket α →
    TCPSpongeSocket α × Except Exn Unit
  | [], _, s => (s, .ok ())
  | seg :: rest, answers, s =>
    match DatagramAdapter.write s.datagramAdapter seg (answers 0) with
    | (adapter, .error e) => ({ s with datagramAdapter := adapter }, .error e)
    | (adapter, .ok ()) =>
      sendSegments rest (fun i => answers (i + 1))
        { s with
          datagramAdapter := adapter, tcp := s.tcp.step .popSegment, sent := s.sent ++ [seg] }

/-- Rule 4: read outbound segments from TCPConnection and send as datagrams. -/
def writeDatagrams (answers : SocketAnswers ι) (s : TCPSpongeSocket α) :
    TCPSpongeSocket α × Except Exn Unit :=
  sendSegments s.tcp.segmentsOut answers.datagrams s

/-- The four rules, in their order. -/
inductive Name where
  | readDatagram | readPipe | writePipe | writeDatagrams
deriving DecidableEq, Repr

def rule : Name → Rule (SocketAnswers ι) (TCPSpongeSocket α)
  | .readDatagram =>
    { fd := fun s => DatagramAdapter.fd s.datagramAdapter
      direction := .In
      callback := readDatagram
      interest := fun s => s.tcp.active }
  | .readPipe =>
    { fd := threadData
      direction := .In
      callback := readPipe
      interest := fun s => s.tcp.active && !s.outboundShutdown &&
        decide (s.tcp.remainingOutboundCapacity > 0)
      cancel := fun s =>
        ({ s with tcp := s.tcp.endInputStream, outboundShutdown := true }, .ok ()) }
  | .writePipe =>
    { fd := threadData
      direction := .Out
      callback := writePipe
      interest := fun s => !s.tcp.inboundStream.bufferEmpty ||
        ((s.tcp.inboundStream.eof || s.tcp.inboundStream.error) && !s.inboundShutdown) }
  | .writeDatagrams =>
    { fd := fun s => DatagramAdapter.fd s.datagramAdapter
      direction := .Out
      callback := writeDatagrams
      interest := fun s => !s.tcp.segmentsOut.isEmpty }

/-- The rules as `_initialize_TCP` adds them. -/
def names : List Name := [.readDatagram, .readPipe, .writePipe, .writeDatagrams]

def eventloop : EventLoop (SocketAnswers ι) (TCPSpongeSocket α) :=
  ((({} : EventLoop (SocketAnswers ι) (TCPSpongeSocket α)).addRule (rule .readDatagram)).addRule
    (rule .readPipe)).addRule (rule .writePipe) |>.addRule (rule .writeDatagrams)

/-- `_tcp.emplace(config)`; `random` is what the `random_device` returns. -/
def initializeTCP (adapter : α) (config : TCPConfig) (random : UInt32) : TCPSpongeSocket α where
  datagramAdapter := adapter
  tcp := .new config random

/-- Which loop the socket is in, or how it ended. -/
inductive Stage where
  /-- The loop of `connect`. -/
  | connecting
  /-- The loop of `listen_and_accept`. -/
  | accepting
  /-- The loop of `_tcp_main`, in its own thread. -/
  | running
  /-- `_tcp_main` has returned. -/
  | closed
  | threw (e : Exn)
  /-- The adapter's `tick` does not return. -/
  | stuck
deriving DecidableEq, Repr

/-- The condition of `_tcp_loop`. -/
def Stage.condition (stage : Stage) (tcp : TCPConnection) : Bool :=
  match stage with
  | .connecting => tcp.state == .ofState .synSent
  | .accepting => tcp.state == .ofState .listen || tcp.state == .ofState .synRcvd ||
      tcp.state == .ofState .synSent
  | .running => true
  | .closed | .threw _ | .stuck => false

/-- A socket with its threads. -/
structure Process (α ι : Type) where
  stage : Stage
  eventloop : EventLoop (SocketAnswers ι) (TCPSpongeSocket α)
  socket : TCPSpongeSocket α
  baseTime : Nat
  /-- Flag used by the owner to force the TCPConnection thread to shut down. -/
  abort : Bool := false
  /-- The segments that were on the connection's queue when it was destroyed. -/
  lost : List TCPSegment := []

/-- `connect`, up to its loop; `now` is the time when the loop is entered. -/
def connect (adapter : α) (config : TCPConfig) (adapterConfig : κ) (random : UInt32) (now : Nat) :
    Process α ι :=
  let s := initializeTCP (DatagramAdapter.setConfig adapter adapterConfig) config random
  let s := { s with tcp := s.tcp.connect }
  { stage :=
      if s.tcp.state ≠ .ofState .synSent then
        .threw (.runtimeError ("After TCPConnection::connect(), state was " ++ s.tcp.state.name ++
          " but expected " ++ (TCPState.ofState .synSent).name))
      else .connecting
    eventloop := eventloop
    socket := s
    baseTime := now }

/-- `listen_and_accept`, up to its loop. -/
def listenAndAccept (adapter : α) (config : TCPConfig) (adapterConfig : κ) (random : UInt32)
    (now : Nat) : Process α ι where
  stage := .accepting
  eventloop := eventloop
  socket := initializeTCP
    (DatagramAdapter.setListening (DatagramAdapter.setConfig adapter adapterConfig) true) config
    random
  baseTime := now

namespace Process

/-- What follows a loop that ends: `connect` and `listen_and_accept` start the thread, which enters
its loop; `_tcp_main` shuts the owner's socket down and destroys the connection, of which `socket`
keeps the last state. -/
def leave (p : Process α ι) (now : Nat) (shutdown : Except Exn Unit) : Process α ι :=
  match p.stage with
  | .connecting | .accepting => { p with stage := .running, baseTime := now }
  | .running =>
    match shutdown with
    | .error e => { p with stage := .threw e }
    | .ok () => { p with stage := .closed, lost := p.socket.tcp.destroy.segmentsOut }
  | .closed | .threw _ | .stuck => p

/-- The end of a round of `_tcp_loop`: time passes for the connection and for the adapter. -/
def passTime (p : Process α ι) (now : Nat) (answer : ι) : Process α ι :=
  if p.socket.tcp.active then
    let s := { p.socket with tcp := p.socket.tcp.tick (now - p.baseTime) }
    match DatagramAdapter.tick s.datagramAdapter (now - p.baseTime) answer with
    | none => { p with stage := .stuck, socket := s }
    | some (adapter, .error e) =>
      { p with stage := .threw e, socket := { s with datagramAdapter := adapter } }
    | some (adapter, .ok ()) =>
      { p with socket := { s with datagramAdapter := adapter }, baseTime := now }
  else p

/-- One round of `_tcp_loop`. -/
def round (p : Process α ι) (poll : Poll (SocketAnswers ι)) (now : Nat) (answer : ι)
    (shutdown : Except Exn Unit) : Process α ι :=
  if p.stage.condition p.socket.tcp then
    match p.eventloop.waitNextEvent poll p.socket with
    | (eventloop, s, .error e) => { p with stage := .threw e, eventloop := eventloop, socket := s }
    | (eventloop, s, .ok result) =>
      if result = .exit ∨ p.abort = true then
        { p with eventloop := eventloop, socket := s }.leave now shutdown
      else { p with eventloop := eventloop, socket := s }.passTime now answer
  else p.leave now shutdown

end Process

/-- What happens to a socket: a round of its loop, or its owner destructs it. -/
inductive Op (ι : Type) where
  | round (poll : Poll (SocketAnswers ι)) (now : Nat) (answer : ι) (shutdown : Except Exn Unit)
  | abort

def Process.step (p : Process α ι) : Op ι → Process α ι
  | .round poll now answer shutdown => p.round poll now answer shutdown
  | .abort => { p with abort := true }

end TCPSpongeSocket

end Sponge
