import Sponge.ARPMessage

/-!
# The codecs of the link layer

A string that is long enough is a header in front of a payload (`EthernetHeader.exists_serialize`)
or a message in front of padding (`ARPMessage.exists_bytes`), so both directions of each codec
follow from what `parse` does with such a string.

* `EthernetFrame.codec_iff`: every frame is read back, and a string is accepted and written back as
  it should be exactly if it holds a whole header. `EthernetFrame::parse` never refuses a shorter
  one: the error of `EthernetHeader::parse` is only in the result it does not look at.
* `ARPMessage.codec`: exactly the supported messages are accepted, and written back.
-/

namespace Sponge

open BigEndian

/-! ## Ethernet frames -/

namespace EthernetHeader

theorem serialize_eq (h : EthernetHeader) :
    h.serialize = h.dst.toList ++ (h.src.toList ++ toBytes 2 h.type.toNat) := by
  simp [serialize, NetUnparser.u8s_eq, NetUnparser.u16]

@[simp] theorem length_serialize (h : EthernetHeader) : h.serialize.length = length := by
  simp [serialize_eq, length]

theorem exists_serialize {b : List UInt8} (h : length ≤ b.length) :
    ∃ (header : EthernetHeader) (rest : List UInt8), b = header.serialize ++ rest := by
  have h : 14 ≤ b.length := h
  obtain ⟨dst, b₁, rfl, h₁⟩ := exists_u8s (n := 6) (b := b) (by omega)
  obtain ⟨src, b₂, rfl, h₂⟩ := exists_u8s (n := 6) (b := b₁) (by omega)
  obtain ⟨type, rest, rfl, -⟩ := exists_u16 (b := b₂) (by omega)
  exact ⟨⟨dst, src, type⟩, rest, by simp [serialize_eq]⟩

theorem parse_append (h' h : EthernetHeader) (rest : List UInt8) :
    h'.parse ⟨h.serialize ++ rest, .noError⟩ = (h, ⟨rest, .noError⟩, .noError) := by
  have hlen : ¬ (h.serialize ++ rest).length < length := by simp
  unfold parse
  rw [if_neg hlen, serialize_eq, List.append_assoc, List.append_assoc, NetParser.u8s_append]
  dsimp only
  rw [NetParser.u8s_append]
  dsimp only
  rw [NetParser.u16_append]

theorem parse_short (h' : EthernetHeader) {b : List UInt8} (hb : b.length < length) :
    h'.parse ⟨b, .noError⟩ = (h', ⟨b, .noError⟩, .packetTooShort) := by
  unfold parse
  rw [if_pos hb]

end EthernetHeader

namespace EthernetFrame

theorem parse_append (frame' : EthernetFrame) (header : EthernetHeader) (rest : List UInt8) :
    frame'.parse (Buffer.ofString (header.serialize ++ rest)) =
      ({ header := header, payload := BufferList.ofString rest }, .noError) := by
  simp only [parse, Buffer.str_ofString, EthernetHeader.parse_append]

/-- A string shorter than a header is all payload, and is not refused. -/
theorem parse_short (frame' : EthernetFrame) {b : List UInt8}
    (hb : b.length < EthernetHeader.length) :
    frame'.parse (Buffer.ofString b) =
      ({ header := frame'.header, payload := BufferList.ofString b }, .noError) := by
  simp only [parse, Buffer.str_ofString, EthernetHeader.parse_short frame'.header hb]

theorem concatenate_serialize (frame : EthernetFrame) :
    frame.serialize.concatenate = frame.header.serialize ++ frame.payload.concatenate := by
  simp [serialize]

/-- The frame is read back from what it is serialized to. -/
def RoundTrips (frame : EthernetFrame) : Prop :=
  let parsed := new.parse (Buffer.ofString frame.serialize.concatenate)
  parsed.2 = .noError ∧ parsed.1.header = frame.header ∧
    parsed.1.payload.concatenate = frame.payload.concatenate

/-- The string is accepted exactly if it holds a whole header, and is then written back. -/
def Recovers (b : List UInt8) : Prop :=
  let parsed := new.parse (Buffer.ofString b)
  (parsed.2 = .noError ↔ 14 ≤ b.length) ∧
    (parsed.2 = .noError → parsed.1.serialize.concatenate = b)

theorem roundTrips (frame : EthernetFrame) : frame.RoundTrips := by
  unfold RoundTrips
  rw [concatenate_serialize, parse_append]
  simp

theorem recovers_of_le {b : List UInt8} (h : 14 ≤ b.length) : Recovers b := by
  obtain ⟨header, rest, rfl⟩ := EthernetHeader.exists_serialize h
  unfold Recovers
  rw [parse_append]
  simp only [concatenate_serialize, BufferList.concatenate_ofString, true_iff, forall_const,
    and_true]
  exact h

theorem not_recovers_of_lt {b : List UInt8} (h : b.length < 14) : ¬ Recovers b := by
  intro hrec
  have hlen : 14 ≤ b.length := by
    apply hrec.1.1
    rw [parse_short new h]
  omega

/-- **The codec of Ethernet frames** does what it should on a frame and a string exactly if the
string holds a whole header. -/
theorem codec_iff (frame : EthernetFrame) (b : List UInt8) :
    (frame.RoundTrips ∧ Recovers b) ↔ 14 ≤ b.length := by
  constructor
  · intro h
    by_contra hlt
    exact not_recovers_of_lt (Nat.lt_of_not_le hlt) h.2
  · intro h
    exact ⟨frame.roundTrips, recovers_of_le h⟩

/-- The empty string is accepted, and written back as a header of zeros. -/
theorem empty_frame_accepted :
    (new.parse (Buffer.ofString [])).2 = .noError ∧
      (new.parse (Buffer.ofString [])).1.serialize.concatenate = List.replicate 14 0 ∧
      ¬ Recovers [] := by
  refine ⟨by decide, by decide, ?_⟩
  intro h
  exact absurd (h.1.1 (by decide)) (by decide)

end EthernetFrame

/-! ## ARP messages -/

namespace ARPMessage

/-- The first 8 bytes of a string are those of an Ethernet/IPv4 request or reply. -/
def Announces (b : List UInt8) : Prop :=
  field b 0 2 = 1 ∧ field b 2 2 = 0x800 ∧ field b 4 1 = 6 ∧ field b 5 1 = 4 ∧
    (field b 6 2 = 1 ∨ field b 6 2 = 2)

theorem supported_iff (m : ARPMessage) :
    m.supported = true ↔
      m.hardwareType.toNat = 1 ∧ m.protocolType.toNat = 0x800 ∧
        m.hardwareAddressSize.toNat = 6 ∧ m.protocolAddressSize.toNat = 4 ∧
        (m.opcode.toNat = 1 ∨ m.opcode.toNat = 2) := by
  simp only [supported, Bool.and_eq_true, Bool.or_eq_true, beq_iff_eq, and_assoc,
    ← UInt16.toNat_inj, ← UInt8.toNat_inj]
  rfl

theorem announces_iff (m : ARPMessage) (rest : List UInt8) :
    Announces (m.bytes ++ rest) ↔ m.supported = true := by
  rw [supported_iff, Announces, bytes_append]
  simp (disch := decide) only [field_skip, field_u8, field_u16, Nat.reduceSub]

/-- What `parse` accepts and what it reads. -/
theorem parse_noError_iff (m' : ARPMessage) (b : List UInt8) :
    (m'.parse (Buffer.ofString b)).2 = .noError ↔ 28 ≤ b.length ∧ Announces b := by
  by_cases hlen : 28 ≤ b.length
  · obtain ⟨m, rest, rfl⟩ := exists_bytes hlen
    rw [parse_append m' m (Buffer.str_ofString _), announces_iff]
    by_cases hm : m.supported = true
    · rw [if_pos hm]
      exact ⟨fun _ => ⟨hlen, hm⟩, fun _ => rfl⟩
    · rw [if_neg hm]
      simp [hm]
  · have hshort : (m'.parse (Buffer.ofString b)).2 = .packetTooShort := by
      have hlt : b.length < length := Nat.lt_of_not_le hlen
      simp [parse, hlt]
    simp [hshort, hlen]

theorem serialize_parse (m' : ARPMessage) {b : List UInt8} (hlen : 28 ≤ b.length)
    (hb : Announces b) :
    (m'.parse (Buffer.ofString b)).1.serialize = .ok (b.take 28) := by
  obtain ⟨m, rest, rfl⟩ := exists_bytes hlen
  have hm := (announces_iff m rest).1 hb
  have htake : (m.bytes ++ rest).take 28 = m.bytes := List.take_left' m.length_bytes
  rw [parse_append m' m (Buffer.str_ofString _), if_pos hm, serialize_eq hm, htake]

/-- **The codec of ARP messages**: a supported message is read back in every field; a string is
accepted exactly if it begins with a supported message, which is then written back. -/
theorem codec (m' : ARPMessage) :
    (∀ m : ARPMessage, m.supported = true →
      ∃ s, m.serialize = .ok s ∧ m'.parse (Buffer.ofString s) = (m, .noError)) ∧
    (∀ b : List UInt8, (m'.parse (Buffer.ofString b)).2 = .noError ↔
      28 ≤ b.length ∧ Announces b) ∧
    ∀ b : List UInt8, (m'.parse (Buffer.ofString b)).2 = .noError →
      (m'.parse (Buffer.ofString b)).1.serialize = .ok (b.take 28) := by
  refine ⟨?_, fun b => parse_noError_iff m' b, ?_⟩
  · intro m hm
    exact ⟨m.bytes, serialize_eq hm, parse_bytes m' hm (Buffer.str_ofString _)⟩
  · intro b hb
    obtain ⟨hlen, hann⟩ := (parse_noError_iff m' b).1 hb
    exact serialize_parse m' hlen hann

/-- An ARP request is supported. -/
theorem codec_request :
    ∃ s, serialize { opcode := 1 } = .ok s ∧
      parse {} (Buffer.ofString s) = ({ opcode := 1 }, .noError) :=
  (codec {}).1 { opcode := 1 } rfl

end ARPMessage

end Sponge
