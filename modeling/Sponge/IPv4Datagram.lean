import Sponge.Util.InternetChecksum
import Sponge.Util.Parser

/-!
# IPv4 headers and datagrams

`libsponge/tcp_helpers/ipv4_header.hh`, `ipv4_header.cc`, `ipv4_datagram.hh` and
`ipv4_datagram.cc`. The `parse` methods overwrite the fields of the object they are called on as far
as they get. The textual representations are left out.

`serialize_ok_iff`: exactly the datagrams with version 4, a header of at least 20 bytes and a
payload of the size their header says can be serialized.
-/

namespace Sponge

/-- IPv4 Internet datagram header. -/
structure IPv4Header where
  ver : UInt8 := 4
  hlen : UInt8 := 20 / 4
  tos : UInt8 := 0
  len : UInt16 := 0
  id : UInt16 := 0
  df : Bool := true
  mf : Bool := false
  offset : UInt16 := 0
  ttl : UInt8 := 128
  proto : UInt8 := 6
  cksum : UInt16 := 0
  src : UInt32 := 0
  dst : UInt32 := 0
deriving DecidableEq, Repr

namespace IPv4Header

/-- `LENGTH`: IPv4 header length, not including options. -/
def length : Nat := 20

/-- Parse the IP fields from the provided parser. -/
def parse (h : IPv4Header) (p : NetParser) : IPv4Header × NetParser × ParseResult :=
  let originalSerializedVersion := p.buffer
  let dataSize := p.buffer.length
  if dataSize < length then (h, p, .packetTooShort)
  else
    let (firstByte, p) := p.u8
    let (tos, p) := p.u8
    let (len, p) := p.u16
    let (id, p) := p.u16
    let (foVal, p) := p.u16
    let (ttl, p) := p.u8
    let (proto, p) := p.u8
    let (cksum, p) := p.u16
    let (src, p) := p.u32
    let (dst, p) := p.u32
    let h : IPv4Header :=
      { ver := firstByte >>> 4
        hlen := firstByte &&& 0x0f
        tos, len, id
        df := foVal &&& 0x4000 != 0
        mf := foVal &&& 0x2000 != 0
        offset := foVal &&& 0x1fff
        ttl, proto, cksum, src, dst }
    if dataSize < 4 * h.hlen.toNat then (h, p, .packetTooShort)
    else if h.ver ≠ 4 then (h, p, .wrongIPVersion)
    else if h.hlen < 5 then (h, p, .headerTooShort)
    else if dataSize ≠ h.len.toNat then (h, p, .truncatedPacket)
    else
      let p := p.removePrefix (h.hlen.toNat * 4 - length)
      if p.hasError then (h, p, p.error)
      else
        let check := ({} : InternetChecksum).add
          (originalSerializedVersion.take (4 * h.hlen.toNat))
        if check.value ≠ 0 then (h, p, .badChecksum) else (h, p, .noError)

/-- `std::string::resize`. -/
def resize (s : List UInt8) (n : Nat) : List UInt8 := s.take n ++ List.replicate (n - s.length) 0

/-- Serialize the IP fields (does not recompute the checksum). -/
def serialize (h : IPv4Header) : Except Exn (List UInt8) :=
  if h.ver ≠ 4 then .error (.runtimeError "wrong IP version")
  else if 4 * h.hlen.toNat < length then .error (.runtimeError "IP header too short")
  else
    let firstByte := h.ver <<< 4 ||| h.hlen &&& 0xf
    let ret := NetUnparser.u8 [] firstByte
    let ret := NetUnparser.u8 ret h.tos
    let ret := NetUnparser.u16 ret h.len
    let ret := NetUnparser.u16 ret h.id
    let foVal := (if h.df then 0x4000 else 0) ||| (if h.mf then 0x2000 else 0) |||
      h.offset &&& 0x1fff
    let ret := NetUnparser.u16 ret foVal
    let ret := NetUnparser.u8 ret h.ttl
    let ret := NetUnparser.u8 ret h.proto
    let ret := NetUnparser.u16 ret h.cksum
    let ret := NetUnparser.u32 ret h.src
    let ret := NetUnparser.u32 ret h.dst
    .ok (resize ret (4 * h.hlen.toNat))

/-- `header.cksum = cksum`. -/
def setCksum (h : IPv4Header) (cksum : UInt16) : IPv4Header := { h with cksum := cksum }

/-- Length of the payload, modulo `2 ^ 16`. -/
def payloadLength (h : IPv4Header) : UInt16 := h.len - 4 * h.hlen.toUInt16

/-- The pseudo-header's contribution to the checksum of an encapsulated TCP segment. -/
def pseudoCksum (h : IPv4Header) : UInt32 :=
  let pcksum := (h.src >>> 16) + (h.src &&& 0xffff)
  let pcksum := pcksum + ((h.dst >>> 16) + (h.dst &&& 0xffff))
  let pcksum := pcksum + h.proto.toUInt32
  pcksum + h.payloadLength.toUInt32

theorem serialize_ok_iff (h : IPv4Header) :
    (∃ s, h.serialize = .ok s) ↔ h.ver = 4 ∧ 5 ≤ h.hlen.toNat := by
  unfold serialize length
  split
  · rename_i hver
    simp [hver]
  · rename_i hver
    split
    · simp
      omega
    · simp
      exact ⟨not_not.1 hver, by omega⟩

end IPv4Header

/-- IPv4 Internet datagram. -/
structure IPv4Datagram where
  header : IPv4Header := {}
  payload : BufferList := []
deriving DecidableEq, Repr

abbrev InternetDatagram := IPv4Datagram

namespace IPv4Datagram

/-- Parse the datagram from a string. The result of the header's `parse` is not looked at. -/
def parse (d : IPv4Datagram) (buffer : Buffer) : IPv4Datagram × ParseResult :=
  let p : NetParser := { buffer := buffer.str }
  let (header, p, _) := d.header.parse p
  let d : IPv4Datagram := { header := header, payload := BufferList.ofString p.buffer }
  if d.payload.size ≠ d.header.payloadLength.toNat then (d, .packetTooShort) else (d, p.error)

/-- Serialize the datagram to a string, with a new checksum. -/
def serialize (d : IPv4Datagram) : Except Exn BufferList :=
  if d.payload.size ≠ d.header.payloadLength.toNat then
    .error (.runtimeError "IPv4Datagram::serialize: payload is wrong size")
  else do
    let headerOut := d.header.setCksum 0
    let headerZeroChecksum ← headerOut.serialize
    -- the checksum is taken over the header only
    let check := ({} : InternetChecksum).add headerZeroChecksum
    let headerOut := headerOut.setCksum check.value
    let header ← headerOut.serialize
    return (BufferList.append (BufferList.ofString header) d.payload)

/-- The datagrams `serialize` does not throw on. -/
def Serializable (d : IPv4Datagram) : Prop :=
  d.header.ver = 4 ∧ 5 ≤ d.header.hlen.toNat ∧ d.payload.size = d.header.payloadLength.toNat

instance (d : IPv4Datagram) : Decidable d.Serializable :=
  inferInstanceAs (Decidable (_ ∧ _ ∧ _))

theorem serialize_ok_iff (d : IPv4Datagram) : (∃ s, d.serialize = .ok s) ↔ d.Serializable := by
  -- both passes over the header have its version and length, so the second throws with the first
  have hpass : ∀ cksum, (∃ s, (d.header.setCksum cksum).serialize = .ok s) ↔
      d.header.ver = 4 ∧ 5 ≤ d.header.hlen.toNat :=
    fun cksum => IPv4Header.serialize_ok_iff (d.header.setCksum cksum)
  unfold serialize Serializable
  split
  · rename_i hsize
    simp [hsize]
  · rename_i hsize
    have hsize := not_not.1 hsize
    cases hzero : (d.header.setCksum 0).serialize with
    | error e =>
      have hnot := (hpass 0).not.1 (by simp [hzero])
      constructor
      · rintro ⟨s, hs⟩
        simp [bind, Except.bind, hzero] at hs
      · rintro ⟨hver, hlen, -⟩
        exact absurd ⟨hver, hlen⟩ hnot
    | ok zero =>
      have hfields := (hpass 0).1 ⟨zero, hzero⟩
      obtain ⟨header, hheader⟩ := (hpass (({} : InternetChecksum).add zero).value).2 hfields
      have hsecond : ((d.header.setCksum 0).setCksum
          (({} : InternetChecksum).add zero).value).serialize = .ok header := hheader
      constructor
      · rintro -
        exact ⟨hfields.1, hfields.2, hsize⟩
      · rintro -
        exact ⟨BufferList.append (BufferList.ofString header) d.payload,
          by simp only [bind, Except.bind, hzero, hsecond]; rfl⟩

end IPv4Datagram

end Sponge
