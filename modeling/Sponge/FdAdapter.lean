import Sponge.TCPSpongeSocket

/-!
# TCP segments in UDP payloads, and an adapter that loses some

`libsponge/tcp_helpers/fd_adapter.hh`, `fd_adapter.cc` and `lossy_fd_adapter.hh`, with the calls of
`UDPSocket` (`libsponge/util/socket.cc`) that they make. What `UDPSocket` sent is kept beside its
descriptor.
-/

namespace Sponge

/-- A datagram on its way: its source, its destination and its payload. -/
structure UDPDatagram where
  source : Address
  destination : Address
  payload : List UInt8
deriving DecidableEq, Repr

/-- A UDP socket, bound to an address. -/
structure UDPSocket where
  fd : FileDescriptor := {}
  address : Address
  /-- What was sent. -/
  sent : List UDPDatagram := []

namespace UDPSocket

/-- `received_datagram`. -/
structure ReceivedDatagram where
  sourceAddress : Address
  payload : List UInt8
deriving DecidableEq, Repr

/-- Receive a datagram and the address of its sender. With `MSG_TRUNC` the kernel answers with the
size of the whole datagram. -/
def recv (s : UDPSocket) (answer : Except Exn ReceivedDatagram) (mtu : Nat := 65536) :
    UDPSocket × Except Exn ReceivedDatagram :=
  match answer with
  | .error e => (s, .error e)
  | .ok datagram =>
    if datagram.payload.length > mtu then
      (s, .error (.runtimeError "recvfrom (oversized datagram)"))
    else ({ s with fd := s.fd.registerRead }, .ok datagram)

/-- Send a datagram to the specified address; the kernel answers with the number of bytes sent. -/
def sendto (s : UDPSocket) (destination : Address) (payload : BufferList)
    (answer : Except Exn Nat) : UDPSocket × Except Exn Unit :=
  match answer with
  | .error e => (s, .error e)
  | .ok bytesSent =>
    if bytesSent ≠ payload.size then
      (s, .error (.runtimeError "datagram payload too big for sendmsg()"))
    else
      ({ s with
        fd := s.fd.registerWrite
        sent := s.sent ++ [⟨s.address, destination, payload.concatenate⟩] }, .ok ())

end UDPSocket

/-- A FD adaptor that reads and writes TCP segments in UDP payloads. -/
structure TCPOverUDPSocketAdapter where
  cfg : FdAdapterConfig := {}
  /-- Is the connected TCP FSM in listen state? -/
  listen : Bool := false
  sock : UDPSocket

/-- The answers of the kernel to a call of the adapter. -/
structure UDPAnswer where
  recv : Except Exn UDPSocket.ReceivedDatagram
  sendmsg : Except Exn Nat

namespace TCPOverUDPSocketAdapter

/-- Attempts to read and return a TCP segment related to the current connection from a UDP
payload. -/
def read (a : TCPOverUDPSocketAdapter) (answer : UDPAnswer) :
    TCPOverUDPSocketAdapter × Except Exn (Option TCPSegment) :=
  match a.sock.recv answer.recv with
  | (sock, .error e) => ({ a with sock := sock }, .error e)
  | (sock, .ok datagram) =>
    let a := { a with sock := sock }
    -- is it for us?
    if a.listen = false ∧ datagram.sourceAddress ≠ a.cfg.destination then (a, .ok none)
    else
      -- is the payload a valid TCP segment?
      let (seg, result) := TCPSegment.parse {} (Buffer.ofString datagram.payload) 0
      if result ≠ .noError then (a, .ok none)
      -- should we target this source in all future replies?
      else if a.listen = true then
        if seg.header.syn = true ∧ seg.header.rst = false then
          ({ a with
            cfg := { a.cfg with destination := datagram.sourceAddress }
            listen := false }, .ok (some seg))
        else (a, .ok none)
      else (a, .ok (some seg))

/-- The segment with the ports of the configuration. -/
def setPorts (a : TCPOverUDPSocketAdapter) (seg : TCPSegment) : TCPSegment :=
  { seg with
    header := { seg.header with sport := a.cfg.source.port, dport := a.cfg.destination.port } }

/-- Serialize a TCP segment and send it as the payload of a UDP datagram. -/
def write (a : TCPOverUDPSocketAdapter) (seg : TCPSegment) (answer : UDPAnswer) :
    TCPOverUDPSocketAdapter × Except Exn Unit :=
  match (a.setPorts seg).serialize 0 with
  | .error e => (a, .error e)
  | .ok payload =>
    let (sock, result) := a.sock.sendto a.cfg.destination payload answer.sendmsg
    ({ a with sock := sock }, result)

end TCPOverUDPSocketAdapter

instance : DatagramAdapter TCPOverUDPSocketAdapter UDPAnswer FdAdapterConfig where
  fd a := a.sock.fd
  read := TCPOverUDPSocketAdapter.read
  write := TCPOverUDPSocketAdapter.write
  tick a _ _ := some (a, .ok ())
  setConfig a cfg := { a with cfg := cfg }
  setListening a listen := { a with listen := listen }

/-- The loss rates of `FdAdapterConfig`, which only `LossyFdAdapter` reads, beside the rest of it.
-/
structure LossyConfig (κ : Type) where
  cfg : κ
  /-- Downlink loss rate. -/
  lossRateDn : UInt16 := 0
  /-- Uplink loss rate. -/
  lossRateUp : UInt16 := 0

/-- An adapter class that adds random dropping behavior to an FD adapter. -/
structure LossyFdAdapter (α : Type) where
  adapter : α
  lossRateDn : UInt16 := 0
  lossRateUp : UInt16 := 0

namespace LossyFdAdapter

variable {α ι κ : Type} [DatagramAdapter α ι κ]

/-- Determine whether or not to drop a given read or write; `random` is `uint16_t(_rand())`. -/
def shouldDrop (a : LossyFdAdapter α) (uplink : Bool) (random : UInt16) : Bool :=
  let loss := if uplink then a.lossRateUp else a.lossRateDn
  loss != 0 && decide (random < loss)

/-- Read from the underlying adapter, potentially dropping the read datagram. -/
def read (a : LossyFdAdapter α) (answer : ι × UInt16) :
    LossyFdAdapter α × Except Exn (Option TCPSegment) :=
  match DatagramAdapter.read a.adapter answer.1 with
  | (adapter, .error e) => ({ a with adapter := adapter }, .error e)
  | (adapter, .ok ret) =>
    let a := { a with adapter := adapter }
    if a.shouldDrop false answer.2 then (a, .ok none) else (a, .ok ret)

/-- Write to the underlying adapter, potentially dropping the datagram to be written. -/
def write (a : LossyFdAdapter α) (seg : TCPSegment) (answer : ι × UInt16) :
    LossyFdAdapter α × Except Exn Unit :=
  if a.shouldDrop true answer.2 then (a, .ok ())
  else
    let (adapter, result) := DatagramAdapter.write a.adapter seg answer.1
    ({ a with adapter := adapter }, result)

end LossyFdAdapter

instance {α ι κ : Type} [DatagramAdapter α ι κ] :
    DatagramAdapter (LossyFdAdapter α) (ι × UInt16) (LossyConfig κ) where
  fd a := DatagramAdapter.fd a.adapter
  read := LossyFdAdapter.read
  write := LossyFdAdapter.write
  tick a ms answer := (DatagramAdapter.tick a.adapter ms answer.1).map fun p =>
    ({ a with adapter := p.1 }, p.2)
  setConfig a cfg :=
    { adapter := DatagramAdapter.setConfig a.adapter cfg.cfg
      lossRateDn := cfg.lossRateDn
      lossRateUp := cfg.lossRateUp }
  setListening a listen := { a with adapter := DatagramAdapter.setListening a.adapter listen }

abbrev LossyTCPOverUDPSocketAdapter := LossyFdAdapter TCPOverUDPSocketAdapter

end Sponge
