import Sponge.FdAdapter

/-!
# TCP segments over a TUN or a TAP device

`libsponge/tcp_helpers/tuntap_adapter.hh` and `tuntap_adapter.cc`, the two classes of
`tcp_sponge_socket.cc` that open a socket on such a device, and `NetworkInterfaceAdapter` of
`apps/lab7.cc`, which does the same on a pair of datagram sockets. A packet device takes a packet as
a whole or not at all; what it took is kept beside its descriptor.
-/

namespace Sponge

/-- A descriptor that each call reads or writes one packet on. -/
structure PacketFD where
  fd : FileDescriptor := {}
  /-- What was written. -/
  packets : List (List UInt8) := []

namespace PacketFD

/-- `read()`, without a limit. -/
def read (d : PacketFD) (answer : Except Exn (List UInt8)) : PacketFD × Except Exn (List UInt8) :=
  let (fd, result) := d.fd.read (2 ^ 64 - 1) answer
  ({ d with fd := fd }, result)

/-- `write(packet)`; `writev` takes all of it if it succeeds. -/
def write (d : PacketFD) (packet : BufferList) (answer : Except Exn Unit) :
    PacketFD × Except Exn Unit :=
  let buffer := BufferViewList.ofBufferList packet
  match d.fd.write buffer true fun _ => answer.map fun _ => buffer.size with
  | (fd, _, .error e) => ({ d with fd := fd }, .error e)
  | (fd, _, .ok _) => ({ fd := fd, packets := d.packets ++ [packet.concatenate] }, .ok ())

end PacketFD

/-- A FD adapter for IPv4 datagrams read from and written to a TUN device. -/
structure TCPOverIPv4OverTunFdAdapter where
  base : TCPOverIPv4Adapter := {}
  tun : PacketFD := {}

/-- The answers of the kernel to a call of an adapter on a packet device: to the read, and to the
writes in their order. -/
structure PacketAnswer where
  read : Except Exn (List UInt8) := .ok []
  writes : Nat → Except Exn Unit := fun _ => .ok ()

namespace TCPOverIPv4OverTunFdAdapter

/-- Attempts to read and parse an IPv4 datagram containing a TCP segment related to the current
connection. -/
def read (a : TCPOverIPv4OverTunFdAdapter) (answer : PacketAnswer) :
    TCPOverIPv4OverTunFdAdapter × Except Exn (Option TCPSegment) :=
  match a.tun.read answer.read with
  | (tun, .error e) => ({ a with tun := tun }, .error e)
  | (tun, .ok bytes) =>
    let (ipDgram, result) := IPv4Datagram.parse {} (Buffer.ofString bytes)
    if result ≠ .noError then ({ a with tun := tun }, .ok none)
    else
      let (base, seg) := a.base.unwrapTcpInIp ipDgram
      ({ base := base, tun := tun }, seg)

/-- Creates an IPv4 datagram from a TCP segment and writes it to the TUN device. -/
def write (a : TCPOverIPv4OverTunFdAdapter) (seg : TCPSegment) (answer : PacketAnswer) :
    TCPOverIPv4OverTunFdAdapter × Except Exn Unit :=
  match (a.base.wrapTcpInIp seg).2 with
  | .error e => (a, .error e)
  | .ok ipDgram =>
    match ipDgram.serialize with
    | .error e => (a, .error e)
    | .ok packet =>
      let (tun, result) := a.tun.write packet (answer.writes 0)
      ({ a with tun := tun }, result)

end TCPOverIPv4OverTunFdAdapter

instance : DatagramAdapter TCPOverIPv4OverTunFdAdapter PacketAnswer FdAdapterConfig where
  fd a := a.tun.fd
  read := TCPOverIPv4OverTunFdAdapter.read
  write := TCPOverIPv4OverTunFdAdapter.write
  tick a _ _ := some (a, .ok ())
  setConfig a cfg := { a with base := { a.base with cfg := cfg } }
  setListening a listen := { a with base := { a.base with listen := listen } }

abbrev LossyTCPOverIPv4OverTunFdAdapter := LossyFdAdapter TCPOverIPv4OverTunFdAdapter

/-- A FD adapter for IPv4 datagrams in Ethernet frames. -/
structure TCPOverIPv4OverEthernetAdapter where
  base : TCPOverIPv4Adapter := {}
  /-- Raw Ethernet connection. -/
  tap : PacketFD := {}
  /-- NIC abstraction. -/
  interface : NetworkInterface
  /-- IP address of the next hop. -/
  nextHop : Address

namespace TCPOverIPv4OverEthernetAdapter

/-- The frame that primes a TAP device. -/
def dummyFrame : EthernetFrame := EthernetFrame.new

/-- The adapter on a TAP device, which has taken the dummy frame. -/
def new (ethAddress : EthernetAddress) (ipAddress nextHop : Address) :
    TCPOverIPv4OverEthernetAdapter where
  tap :=
    { fd := ({} : FileDescriptor).registerWrite, packets := [dummyFrame.serialize.concatenate] }
  interface := .new ethAddress ipAddress
  nextHop := nextHop

/-- The loop of `send_pending` over the frames of the interface. -/
def sendFrames : List EthernetFrame → (Nat → Except Exn Unit) → TCPOverIPv4OverEthernetAdapter →
    TCPOverIPv4OverEthernetAdapter × Except Exn Unit
  | [], _, a => (a, .ok ())
  | frame :: rest, answers, a =>
    match a.tap.write frame.serialize (answers 0) with
    | (tap, .error e) => ({ a with tap := tap }, .error e)
    | (tap, .ok ()) =>
      sendFrames rest (fun i => answers (i + 1))
        { a with tap := tap, interface := a.interface.step .popFrame }

/-- Sends any pending Ethernet frames. -/
def sendPending (a : TCPOverIPv4OverEthernetAdapter) (answers : Nat → Except Exn Unit) :
    TCPOverIPv4OverEthernetAdapter × Except Exn Unit :=
  sendFrames a.interface.framesOut answers a

/-- Attempts to read and parse an Ethernet frame containing an IPv4 datagram that contains a TCP
segment. -/
def read (a : TCPOverIPv4OverEthernetAdapter) (answer : PacketAnswer) :
    TCPOverIPv4OverEthernetAdapter × Except Exn (Option TCPSegment) :=
  match a.tap.read answer.read with
  | (tap, .error e) => ({ a with tap := tap }, .error e)
  | (tap, .ok bytes) =>
    let a := { a with tap := tap }
    let (frame, result) := EthernetFrame.new.parse (Buffer.ofString bytes)
    if result ≠ .noError then (a, .ok none)
    else
      match a.interface.recvFrame frame with
      | (interface, .error e) => ({ a with interface := interface }, .error e)
      | (interface, .ok ipDgram) =>
        -- the incoming frame may have caused the interface to send a frame
        match { a with interface := interface }.sendPending answer.writes with
        | (a, .error e) => (a, .error e)
        | (a, .ok ()) =>
          match ipDgram with
          | none => (a, .ok none)
          | some ipDgram =>
            let (base, seg) := a.base.unwrapTcpInIp ipDgram
            ({ a with base := base }, seg)

/-- Sends a TCP segment (in an IPv4 datagram, in an Ethernet frame). -/
def write (a : TCPOverIPv4OverEthernetAdapter) (seg : TCPSegment) (answer : PacketAnswer) :
    TCPOverIPv4OverEthernetAdapter × Except Exn Unit :=
  match (a.base.wrapTcpInIp seg).2 with
  | .error e => (a, .error e)
  | .ok ipDgram =>
    match a.interface.sendDatagram ipDgram a.nextHop with
    | (interface, .error e) => ({ a with interface := interface }, .error e)
    | (interface, .ok ()) => { a with interface := interface }.sendPending answer.writes

/-- Called periodically when time elapses; the interface's `tick` may not return. -/
def tick (a : TCPOverIPv4OverEthernetAdapter) (ms : Nat) (answer : PacketAnswer) :
    Option (TCPOverIPv4OverEthernetAdapter × Except Exn Unit) :=
  (a.interface.tick ms).map fun interface =>
    { a with interface := interface }.sendPending answer.writes

end TCPOverIPv4OverEthernetAdapter

instance : DatagramAdapter TCPOverIPv4OverEthernetAdapter PacketAnswer FdAdapterConfig where
  fd a := a.tap.fd
  read := TCPOverIPv4OverEthernetAdapter.read
  write := TCPOverIPv4OverEthernetAdapter.write
  tick := TCPOverIPv4OverEthernetAdapter.tick
  setConfig a cfg := { a with base := { a.base with cfg := cfg } }
  setListening a listen := { a with base := { a.base with listen := listen } }

/-- `NetworkInterfaceAdapter` of `lab7`: the same on a pair of datagram sockets, without the dummy
frame. -/
def networkInterfaceAdapter (ethAddress : EthernetAddress) (ipAddress nextHop : Address) :
    TCPOverIPv4OverEthernetAdapter where
  interface := .new ethAddress ipAddress
  nextHop := nextHop

/-! ## Sockets that behave more like a kernel's -/

/-- `Address{"a.b.c.d", port}`. -/
def dotted (a b c d : UInt8) (port : UInt16 := 0) : Address where
  ip := a.toUInt32 <<< 24 ||| b.toUInt32 <<< 16 ||| c.toUInt32 <<< 8 ||| d.toUInt32
  port := port

/-- `CS144TCPSocket::connect`, from a random port. -/
def CS144TCPSocket.connect (address : Address) (port : UInt16) (random : UInt32) (now : Nat) :
    TCPSpongeSocket.Process TCPOverIPv4OverTunFdAdapter PacketAnswer :=
  TCPSpongeSocket.connect {} { rtTimeout := 100 }
    { source := dotted 169 254 144 9 port, destination := address } random now

theorem zero_lt_six : 0 < 6 := by decide

/-- A random local Ethernet address. -/
def randomPrivateEthernetAddress (rd : EthernetAddress) : EthernetAddress :=
  rd.set 0 ((rd.get 0 ||| 0x02) &&& 0xfe) zero_lt_six

namespace FullStackSocket

/-- The adapter of a `FullStackSocket`. -/
def new (rd : EthernetAddress) : TCPOverIPv4OverEthernetAdapter :=
  .new (randomPrivateEthernetAddress rd) (dotted 169 254 10 9) (dotted 169 254 10 1)

/-- `FullStackSocket::connect`, from a random port. -/
def connect (rd : EthernetAddress) (address : Address) (port : UInt16) (random : UInt32)
    (now : Nat) :
    TCPSpongeSocket.Process TCPOverIPv4OverEthernetAdapter PacketAnswer :=
  TCPSpongeSocket.connect (new rd) { rtTimeout := 100 }
    { source := dotted 169 254 10 9 port, destination := address } random now

end FullStackSocket

end Sponge
