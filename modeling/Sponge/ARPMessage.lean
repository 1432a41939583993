import Sponge.EthernetFrame
import Sponge.Util.Parser

/-!
# ARP messages (`libsponge/tcp_helpers/arp_message.hh`, `arp_message.cc`)

`parse` overwrites the fields of the message it is called on as far as it gets; `serialize` throws
on a message that is not `supported`. `parse_bytes`: what it wrote is read back in every field.
-/

namespace Sponge

open BigEndian

/-- ARP message. -/
structure ARPMessage where
  /-- Type of the link-layer protocol; `TYPE_ETHERNET`. -/
  hardwareType : UInt16 := 1
  /-- Type of the Internet-layer protocol. -/
  protocolType : UInt16 := EthernetHeader.typeIPv4
  hardwareAddressSize : UInt8 := 6
  protocolAddressSize : UInt8 := 4
  /-- Request or reply. -/
  opcode : UInt16 := 0
  senderEthernetAddress : EthernetAddress := Vector.replicate 6 0
  senderIpAddress : UInt32 := 0
  targetEthernetAddress : EthernetAddress := Vector.replicate 6 0
  targetIpAddress : UInt32 := 0
deriving DecidableEq, Repr

namespace ARPMessage

/-- `LENGTH`: ARP message length in bytes. -/
def length : Nat := 28

def typeEthernet : UInt16 := 1

def opcodeRequest : UInt16 := 1

def opcodeReply : UInt16 := 2

/-- Is this type of ARP message supported by the parser? -/
def supported (m : ARPMessage) : Bool :=
  m.hardwareType == typeEthernet && m.protocolType == EthernetHeader.typeIPv4 &&
    m.hardwareAddressSize == 6 && m.protocolAddressSize == 4 &&
    (m.opcode == opcodeRequest || m.opcode == opcodeReply)

/-- Parse the ARP message from a string. -/
def parse (m : ARPMessage) (buffer : Buffer) : ARPMessage × ParseResult :=
  let p : NetParser := { buffer := buffer.str }
  if p.buffer.length < length then (m, .packetTooShort)
  else
    let (hardwareType, p) := p.u16
    let (protocolType, p) := p.u16
    let (hardwareAddressSize, p) := p.u8
    let (protocolAddressSize, p) := p.u8
    let (opcode, p) := p.u16
    let m := { m with
      hardwareType, protocolType, hardwareAddressSize, protocolAddressSize, opcode }
    if m.supported = false then (m, .unsupported)
    else
      let (senderEthernetAddress, p) := p.u8s 6
      let (senderIpAddress, p) := p.u32
      let (targetEthernetAddress, p) := p.u8s 6
      let (targetIpAddress, p) := p.u32
      ({ m with
        senderEthernetAddress, senderIpAddress, targetEthernetAddress, targetIpAddress }, p.error)

/-- Serialize the ARP message to a string. -/
def serialize (m : ARPMessage) : Except Exn (List UInt8) :=
  if m.supported = false then
    .error (.runtimeError
      "ARPMessage::serialize(): unsupported field combination (must be Ethernet/IP, and request or reply)")
  else
    let ret := NetUnparser.u16 [] m.hardwareType
    let ret := NetUnparser.u16 ret m.protocolType
    let ret := NetUnparser.u8 ret m.hardwareAddressSize
    let ret := NetUnparser.u8 ret m.protocolAddressSize
    let ret := NetUnparser.u16 ret m.opcode
    let ret := NetUnparser.u8s ret m.senderEthernetAddress
    let ret := NetUnparser.u32 ret m.senderIpAddress
    let ret := NetUnparser.u8s ret m.targetEthernetAddress
    let ret := NetUnparser.u32 ret m.targetIpAddress
    .ok ret

/-- The fields one after the other, in network byte order. -/
def bytes (m : ARPMessage) : List UInt8 :=
  toBytes 2 m.hardwareType.toNat ++ (toBytes 2 m.protocolType.toNat ++
    (toBytes 1 m.hardwareAddressSize.toNat ++ (toBytes 1 m.protocolAddressSize.toNat ++
      (toBytes 2 m.opcode.toNat ++ (m.senderEthernetAddress.toList ++
        (toBytes 4 m.senderIpAddress.toNat ++ (m.targetEthernetAddress.toList ++
          (toBytes 4 m.targetIpAddress.toNat ++ []))))))))

theorem length_bytes (m : ARPMessage) : m.bytes.length = length := by
  simp [bytes, length]

theorem bytes_append (m : ARPMessage) (rest : List UInt8) :
    m.bytes ++ rest =
      toBytes 2 m.hardwareType.toNat ++ (toBytes 2 m.protocolType.toNat ++
        (toBytes 1 m.hardwareAddressSize.toNat ++ (toBytes 1 m.protocolAddressSize.toNat ++
          (toBytes 2 m.opcode.toNat ++ (m.senderEthernetAddress.toList ++
            (toBytes 4 m.senderIpAddress.toNat ++ (m.targetEthernetAddress.toList ++
              (toBytes 4 m.targetIpAddress.toNat ++ rest)))))))) := by
  simp only [bytes, List.append_assoc, List.nil_append]

theorem serialize_eq {m : ARPMessage} (h : m.supported = true) : m.serialize = .ok m.bytes := by
  simp [serialize, h, NetUnparser.u8, NetUnparser.u16, NetUnparser.u32, NetUnparser.u8s_eq, bytes]

/-- Every string that is long enough begins with the fields of a message. -/
theorem exists_bytes {b : List UInt8} (h : length ≤ b.length) :
    ∃ (m : ARPMessage) (rest : List UInt8), b = m.bytes ++ rest := by
  have h : 28 ≤ b.length := h
  obtain ⟨hardwareType, b₁, rfl, h₁⟩ := exists_u16 (b := b) (by omega)
  obtain ⟨protocolType, b₂, rfl, h₂⟩ := exists_u16 (b := b₁) (by omega)
  obtain ⟨hardwareAddressSize, b₃, rfl, h₃⟩ := exists_u8 (b := b₂) (by omega)
  obtain ⟨protocolAddressSize, b₄, rfl, h₄⟩ := exists_u8 (b := b₃) (by omega)
  obtain ⟨opcode, b₅, rfl, h₅⟩ := exists_u16 (b := b₄) (by omega)
  obtain ⟨senderEthernetAddress, b₆, rfl, h₆⟩ := exists_u8s (n := 6) (b := b₅) (by omega)
  obtain ⟨senderIpAddress, b₇, rfl, h₇⟩ := exists_u32 (b := b₆) (by omega)
  obtain ⟨targetEthernetAddress, b₈, rfl, h₈⟩ := exists_u8s (n := 6) (b := b₇) (by omega)
  obtain ⟨targetIpAddress, rest, rfl, -⟩ := exists_u32 (b := b₈) (by omega)
  refine ⟨⟨hardwareType, protocolType, hardwareAddressSize, protocolAddressSize, opcode,
    senderEthernetAddress, senderIpAddress, targetEthernetAddress, targetIpAddress⟩, rest, ?_⟩
  rw [bytes_append]

/-- **Parsing** the fields of a message, with anything behind them: they are all read if the message
is supported, and the first five if it is not. -/
theorem parse_append (m' m : ARPMessage) {buffer : Buffer} {rest : List UInt8}
    (hb : buffer.str = m.bytes ++ rest) :
    m'.parse buffer =
      if m.supported = true then (m, .noError)
      else
        ({ m' with
          hardwareType := m.hardwareType
          protocolType := m.protocolType
          hardwareAddressSize := m.hardwareAddressSize
          protocolAddressSize := m.protocolAddressSize
          opcode := m.opcode }, .unsupported) := by
  have hlen : ¬ (m.bytes ++ rest).length < length := by simp [length_bytes]
  have hfields : supported { m' with
      hardwareType := m.hardwareType
      protocolType := m.protocolType
      hardwareAddressSize := m.hardwareAddressSize
      protocolAddressSize := m.protocolAddressSize
      opcode := m.opcode } = m.supported := rfl
  unfold parse
  rw [hb, if_neg hlen, bytes_append]
  -- field by field: a simp over all of them leaves the kernel a term it takes minutes to check
  iterate 2
    rw [NetParser.u16_append]
    dsimp only
  iterate 2
    rw [NetParser.u8_append]
    dsimp only
  rw [NetParser.u16_append]
  dsimp only
  rw [hfields]
  cases hm : m.supported with
  | false => rfl
  | true =>
    rw [if_neg (by decide), if_pos rfl, NetParser.u8s_append]
    dsimp only
    rw [NetParser.u32_append]
    dsimp only
    rw [NetParser.u8s_append]
    dsimp only
    rw [NetParser.u32_append]

/-- **Round trip**: into any message, every field of a supported message is read back. -/
theorem parse_bytes (m' : ARPMessage) {m : ARPMessage} (h : m.supported = true) {buffer : Buffer}
    (hb : buffer.str = m.bytes) : m'.parse buffer = (m, .noError) := by
  have hb' : buffer.str = m.bytes ++ [] := by rw [hb, List.append_nil]
  rw [parse_append m' m hb', if_pos h]

end ARPMessage

end Sponge
