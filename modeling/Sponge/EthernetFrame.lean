import Sponge.Util.Parser

/-!
# Ethernet frames

`libsponge/tcp_helpers/ethernet_header.hh`, `ethernet_header.cc`, `ethernet_frame.hh` and
`ethernet_frame.cc`. The textual representations are left out.
-/

namespace Sponge

/-- An Ethernet address, `std::array<uint8_t, 6>`. -/
abbrev EthernetAddress := Vector UInt8 6

/-- `ETHERNET_BROADCAST`: the Ethernet broadcast address (ff:ff:ff:ff:ff:ff). -/
def ethernetBroadcast : EthernetAddress := #v[0xff, 0xff, 0xff, 0xff, 0xff, 0xff]

/-- Ethernet frame header. -/
structure EthernetHeader where
  dst : EthernetAddress
  src : EthernetAddress
  type : UInt16
deriving DecidableEq, Repr

namespace EthernetHeader

/-- `TYPE_IPv4`: type number for IPv4. -/
def typeIPv4 : UInt16 := 0x800

/-- `TYPE_ARP`: type number for ARP. -/
def typeARP : UInt16 := 0x806

/-- `LENGTH`: Ethernet header length in bytes. -/
def length : Nat := 14

/-- Parse the Ethernet fields from the provided parser. A frame that is too short is reported by the
result only: the parser has no error. -/
def parse (h : EthernetHeader) (p : NetParser) : EthernetHeader × NetParser × ParseResult :=
  if p.buffer.length < length then (h, p, .packetTooShort)
  else
    let (dst, p) := p.u8s 6
    let (src, p) := p.u8s 6
    let (type, p) := p.u16
    ({ dst, src, type }, p, p.error)

/-- Serialize the Ethernet fields to a string. -/
def serialize (h : EthernetHeader) : List UInt8 :=
  let ret := NetUnparser.u8s [] h.dst
  let ret := NetUnparser.u8s ret h.src
  let ret := NetUnparser.u16 ret h.type
  ret

end EthernetHeader

/-- Ethernet frame. -/
structure EthernetFrame where
  header : EthernetHeader
  payload : BufferList := []
deriving DecidableEq, Repr

namespace EthernetFrame

/-- A fresh frame, with the value-initialized header. -/
def new : EthernetFrame where
  header := { dst := Vector.replicate 6 0, src := Vector.replicate 6 0, type := 0 }

/-- Parse the frame from a string. The result of the header's `parse` is not looked at. -/
def parse (frame : EthernetFrame) (buffer : Buffer) : EthernetFrame × ParseResult :=
  let p : NetParser := { buffer := buffer.str }
  let (header, p, _) := frame.header.parse p
  ({ header := header, payload := BufferList.ofString p.buffer }, p.error)

/-- Serialize the frame to a string. -/
def serialize (frame : EthernetFrame) : BufferList :=
  BufferList.append (BufferList.ofString frame.header.serialize) frame.payload

end EthernetFrame

end Sponge
