import Sponge.IPv4Datagram
import Sponge.TCPSegment

/-!
# Parsing and serializing TCP segments

The `parse` and `serialize` methods of `libsponge/tcp_helpers/tcp_header.cc` and `tcp_segment.cc`.
`TCPHeader::parse` overwrites every field of the header it is called on. The textual representations
are left out.
-/

namespace Sponge

open IPv4Header (resize)

namespace TCPHeader

/-- `LENGTH`: TCP header length, not including options. -/
def length : Nat := 20

/-- Parse the TCP fields from the provided parser. A data offset below 5 is reported by the result
only: the parser has no error. -/
def parse (_h : TCPHeader) (p : NetParser) : TCPHeader × NetParser × ParseResult :=
  let (sport, p) := p.u16
  let (dport, p) := p.u16
  let (seqno, p) := p.u32
  let (ackno, p) := p.u32
  let (doff, p) := p.u8
  let (flB, p) := p.u8
  let (win, p) := p.u16
  let (cksum, p) := p.u16
  let (uptr, p) := p.u16
  let h : TCPHeader :=
    { sport, dport
      seqno := ⟨seqno⟩
      ackno := ⟨ackno⟩
      doff := doff >>> 4
      urg := flB &&& 0b00100000 != 0
      ack := flB &&& 0b00010000 != 0
      psh := flB &&& 0b00001000 != 0
      rst := flB &&& 0b00000100 != 0
      syn := flB &&& 0b00000010 != 0
      fin := flB &&& 0b00000001 != 0
      win, cksum, uptr }
  if h.doff < 5 then (h, p, .headerTooShort)
  else
    -- skip any options or anything extra in the header
    let p := p.removePrefix (h.doff.toNat * 4 - length)
    if p.hasError then (h, p, p.error) else (h, p, .noError)

/-- `fl_b` of `serialize`: the byte of the flags. -/
def flB (h : TCPHeader) : UInt8 :=
  (if h.urg then 0b00100000 else 0) ||| (if h.ack then 0b00010000 else 0) |||
    (if h.psh then 0b00001000 else 0) ||| (if h.rst then 0b00000100 else 0) |||
    (if h.syn then 0b00000010 else 0) ||| (if h.fin then 0b00000001 else 0)

/-- Serialize the TCP fields (does not recompute the checksum). -/
def serialize (h : TCPHeader) : Except Exn (List UInt8) :=
  if h.doff < 5 then .error (.runtimeError "TCP header too short")
  else
    let ret := NetUnparser.u16 [] h.sport
    let ret := NetUnparser.u16 ret h.dport
    let ret := NetUnparser.u32 ret h.seqno.rawValue
    let ret := NetUnparser.u32 ret h.ackno.rawValue
    let ret := NetUnparser.u8 ret (h.doff <<< 4)
    let ret := NetUnparser.u8 ret h.flB
    let ret := NetUnparser.u16 ret h.win
    let ret := NetUnparser.u16 ret h.cksum
    let ret := NetUnparser.u16 ret h.uptr
    .ok (resize ret (4 * h.doff.toNat))

/-- `header.cksum = cksum`. -/
def setCksum (h : TCPHeader) (cksum : UInt16) : TCPHeader := { h with cksum := cksum }

end TCPHeader

namespace TCPSegment

/-- Parse the segment from a string. The result of the header's `parse` is not looked at. -/
def parse (seg : TCPSegment) (buffer : Buffer) (datagramLayerChecksum : UInt32 := 0) :
    TCPSegment × ParseResult :=
  let check : InternetChecksum := { sum := datagramLayerChecksum }
  let check := check.add buffer.str
  if check.value ≠ 0 then (seg, .badChecksum)
  else
    let p : NetParser := { buffer := buffer.str }
    let (header, p, _) := seg.header.parse p
    ({ header := header, payload := p.buffer }, p.error)

/-- Serialize the segment to a string, with a new checksum. -/
def serialize (seg : TCPSegment) (datagramLayerChecksum : UInt32 := 0) : Except Exn BufferList := do
  let headerOut := seg.header.setCksum 0
  -- the checksum is taken over the entire segment
  let check : InternetChecksum := { sum := datagramLayerChecksum }
  let header ← headerOut.serialize
  let check := (check.add header).add seg.payload
  let headerOut := headerOut.setCksum check.value
  let header ← headerOut.serialize
  return (BufferList.append (BufferList.ofString header) (BufferList.ofString seg.payload))

end TCPSegment

end Sponge
