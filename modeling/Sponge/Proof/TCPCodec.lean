import Sponge.Proof.IPv4Codec
import Sponge.TCPSegmentCodec

/-!
# The codec of TCP segments

`TCPHeader.parse_eq` and `parse_short` are the specification of the header's `parse`: of at least 20
bytes it reads the header `ofBits` spells, of fewer it leaves an error in the parser.

* `TCPSegment.exact_iff`: `TCPSegment::parse`, which does not look at the header's result, accepts
  exactly the well-formed segments but for one case: a data offset below 5 is accepted when the
  checksum verifies.
* `TCPSegment.segment_round_trip`: a segment that can be serialized is read back, because the
  checksum that `serialize` inserts always verifies.
* `TCPSegment.corrupted_byte_detected`: with one byte of it changed it no longer does.
-/

namespace Sponge

open BigEndian OnesComplement

namespace TCPHeader

/-! ## The header in the bytes -/

/-- The data offset, in words of four bytes. -/
def doffOf (b : List UInt8) : ℕ := field b 12 1 / 16

/-- The header that the first 20 bytes spell. -/
def ofBits (b : List UInt8) : TCPHeader where
  sport := UInt16.ofNat (field b 0 2)
  dport := UInt16.ofNat (field b 2 2)
  seqno := ⟨UInt32.ofNat (field b 4 4)⟩
  ackno := ⟨UInt32.ofNat (field b 8 4)⟩
  doff := UInt8.ofNat (doffOf b)
  urg := (field b 13 1).testBit 5
  ack := (field b 13 1).testBit 4
  psh := (field b 13 1).testBit 3
  rst := (field b 13 1).testBit 2
  syn := (field b 13 1).testBit 1
  fin := (field b 13 1).testBit 0
  win := UInt16.ofNat (field b 14 2)
  cksum := UInt16.ofNat (field b 16 2)
  uptr := UInt16.ofNat (field b 18 2)

theorem doffOf_lt (b : List UInt8) : doffOf b < 16 := by
  have h : field b 12 1 < 256 := field_lt
  unfold doffOf
  omega

@[simp] theorem toNat_doff_ofBits (b : List UInt8) : (ofBits b).doff.toNat = doffOf b :=
  UInt8.toNat_ofNat_of_lt' (Nat.lt_trans (doffOf_lt b) (by decide))

/-! ## Parsing -/

/-- The reads of `parse`. -/
def readFields (p : NetParser) : TCPHeader × NetParser :=
  let (sport, p) := p.u16
  let (dport, p) := p.u16
  let (seqno, p) := p.u32
  let (ackno, p) := p.u32
  let (doff, p) := p.u8
  let (flB, p) := p.u8
  let (win, p) := p.u16
  let (cksum, p) := p.u16
  let (uptr, p) := p.u16
  ({ sport, dport
     seqno := ⟨seqno⟩
     ackno := ⟨ackno⟩
     doff := doff >>> 4
     urg := flB &&& 0b00100000 != 0
     ack := flB &&& 0b00010000 != 0
     psh := flB &&& 0b00001000 != 0
     rst := flB &&& 0b00000100 != 0
     syn := flB &&& 0b00000010 != 0
     fin := flB &&& 0b00000001 != 0
     win, cksum, uptr }, p)

/-- The checks of `parse`. -/
def judge (h : TCPHeader) (p : NetParser) : TCPHeader × NetParser × ParseResult :=
  if h.doff < 5 then (h, p, .headerTooShort)
  else
    let p := p.removePrefix (h.doff.toNat * 4 - length)
    if p.hasError then (h, p, p.error) else (h, p, .noError)

theorem parse_eq_judge (h : TCPHeader) (p : NetParser) :
    h.parse p = judge (readFields p).1 (readFields p).2 := by
  unfold parse readFields
  obtain ⟨sport, p₁⟩ := p.u16
  obtain ⟨dport, p₂⟩ := p₁.u16
  obtain ⟨seqno, p₃⟩ := p₂.u32
  obtain ⟨ackno, p₄⟩ := p₃.u32
  obtain ⟨doff, p₅⟩ := p₄.u8
  obtain ⟨flB, p₆⟩ := p₅.u8
  obtain ⟨win, p₇⟩ := p₆.u16
  obtain ⟨cksum, p₈⟩ := p₇.u16
  obtain ⟨uptr, p₉⟩ := p₈.u16
  dsimp only [judge]

theorem readFields_eq {b : List UInt8} (hb : 20 ≤ b.length) :
    readFields ⟨b, .noError⟩ = (ofBits b, ⟨b.drop 20, .noError⟩) := by
  have hstart : (⟨b, .noError⟩ : NetParser) = ⟨b.drop 0, .noError⟩ := rfl
  have hdoff : UInt8.ofNat (field b 12 1) >>> 4 = (ofBits b).doff := by
    rw [← UInt8.toNat_inj, toNat_u8_shiftRight, UInt8.toNat_ofNat_of_lt' field_lt,
      toNat_doff_ofBits, doffOf]
  have hbit : ∀ (mask : UInt8) (i : ℕ), mask.toNat = 2 ^ i →
      (UInt8.ofNat (field b 13 1) &&& mask != 0) = (field b 13 1).testBit i := by
    intro mask i hmask
    rw [u8_and_mask hmask, UInt8.toNat_ofNat_of_lt' field_lt]
  -- the reads, each at the offset where the one before it ended
  unfold readFields
  rw [hstart, NetParser.u16_drop (by omega)]
  dsimp only
  rw [NetParser.u16_drop (by omega)]
  dsimp only
  iterate 2
    rw [NetParser.u32_drop (by omega)]
    dsimp only
  iterate 2
    rw [NetParser.u8_drop (by omega)]
    dsimp only
  iterate 3
    rw [NetParser.u16_drop (by omega)]
    dsimp only
  simp only [Nat.reduceAdd, hdoff, hbit 0b00100000 5 rfl, hbit 0b00010000 4 rfl,
    hbit 0b00001000 3 rfl, hbit 0b00000100 2 rfl, hbit 0b00000010 1 rfl, hbit 0b00000001 0 rfl]
  rfl

/-- The parser behind the reads. -/
theorem readFields_snd (p : NetParser) :
    (readFields p).2 = [2, 2, 4, 4, 1, 1, 2, 2, 2].foldl NetParser.removePrefix p := by
  simp only [List.foldl_cons, List.foldl_nil]
  unfold readFields
  rw [← NetParser.u16_snd p]
  obtain ⟨sport, p₁⟩ := p.u16
  dsimp only
  rw [← NetParser.u16_snd p₁]
  obtain ⟨dport, p₂⟩ := p₁.u16
  dsimp only
  rw [← NetParser.u32_snd p₂]
  obtain ⟨seqno, p₃⟩ := p₂.u32
  dsimp only
  rw [← NetParser.u32_snd p₃]
  obtain ⟨ackno, p₄⟩ := p₃.u32
  dsimp only
  rw [← NetParser.u8_snd p₄]
  obtain ⟨doff, p₅⟩ := p₄.u8
  dsimp only
  rw [← NetParser.u8_snd p₅]
  obtain ⟨flB, p₆⟩ := p₅.u8
  dsimp only
  rw [← NetParser.u16_snd p₆]
  obtain ⟨win, p₇⟩ := p₆.u16
  dsimp only
  rw [← NetParser.u16_snd p₇]
  obtain ⟨cksum, p₈⟩ := p₇.u16
  dsimp only
  rw [← NetParser.u16_snd p₈]

/-- **`parse` of at least 20 bytes.** -/
theorem parse_eq (h : TCPHeader) {b : List UInt8} (hb : 20 ≤ b.length) :
    h.parse ⟨b, .noError⟩ =
      if doffOf b < 5 then (ofBits b, ⟨b.drop 20, .noError⟩, .headerTooShort)
      else if 4 * doffOf b ≤ b.length then
        (ofBits b, ⟨b.drop (4 * doffOf b), .noError⟩, .noError)
      else (ofBits b, ⟨b.drop 20, .packetTooShort⟩, .packetTooShort) := by
  have hdoff : (ofBits b).doff < 5 ↔ doffOf b < 5 := by
    rw [UInt8.lt_iff_toNat_lt, toNat_doff_ofBits]
    rfl
  rw [parse_eq_judge, readFields_eq hb]
  unfold judge
  simp only [hdoff, toNat_doff_ofBits, length]
  by_cases h₁ : doffOf b < 5
  · simp [h₁]
  · by_cases h₂ : 4 * doffOf b ≤ b.length
    · have hskip : NetParser.removePrefix ⟨b.drop 20, .noError⟩ (doffOf b * 4 - 20) =
          ⟨b.drop (4 * doffOf b), .noError⟩ := by
        rw [NetParser.removePrefix_of_le (by rw [List.length_drop]; omega), List.drop_drop,
          show 20 + (doffOf b * 4 - 20) = 4 * doffOf b by omega]
      simp [h₁, h₂, hskip, NetParser.hasError]
    · have hskip : NetParser.removePrefix ⟨b.drop 20, .noError⟩ (doffOf b * 4 - 20) =
          ⟨b.drop 20, .packetTooShort⟩ :=
        NetParser.removePrefix_of_lt (by rw [List.length_drop]; omega)
      simp [h₁, h₂, hskip, NetParser.hasError]

/-- **`parse` of fewer bytes**: the error is in the parser as well. -/
theorem parse_short (h : TCPHeader) {b : List UInt8} (hb : b.length < 20) :
    (h.parse ⟨b, .noError⟩).2.1.error = .packetTooShort ∧
      (h.parse ⟨b, .noError⟩).2.2 ≠ .noError := by
  have herror : (readFields ⟨b, .noError⟩).2.error = .packetTooShort := by
    rw [readFields_snd, NetParser.error_foldl_removePrefix, NetParser.removePrefix_of_lt (by simpa)]
  rw [parse_eq_judge]
  generalize (readFields ⟨b, .noError⟩).1 = h' at *
  generalize (readFields ⟨b, .noError⟩).2 = p at *
  obtain ⟨buffer, error⟩ := p
  subst herror
  unfold judge
  split
  · simp
  · simp [NetParser.removePrefix_of_short, NetParser.hasError]

/-- **The header's `parse` accepts** exactly the strings that hold the whole header. -/
theorem parse_noError_iff (h : TCPHeader) (b : List UInt8) :
    (h.parse ⟨b, .noError⟩).2.2 = .noError ↔
      20 ≤ b.length ∧ 5 ≤ doffOf b ∧ 4 * doffOf b ≤ b.length := by
  by_cases hb : 20 ≤ b.length
  · rw [parse_eq h hb]
    by_cases h₁ : doffOf b < 5
    · simp [h₁]
    · by_cases h₂ : 4 * doffOf b ≤ b.length
      · simp [h₁, h₂, hb]
        omega
      · simp [h₁, h₂]
  · have hshort := (parse_short h (Nat.lt_of_not_le hb)).2
    simp [hshort, hb]

/-! ## Serializing -/

/-- The bytes in front of the checksum. -/
def front (h : TCPHeader) : List UInt8 :=
  toBytes 2 h.sport.toNat ++ (toBytes 2 h.dport.toNat ++ (toBytes 4 h.seqno.rawValue.toNat ++
    (toBytes 4 h.ackno.rawValue.toNat ++ (toBytes 1 (h.doff <<< 4).toNat ++
      (toBytes 1 h.flB.toNat ++ toBytes 2 h.win.toNat)))))

/-- The bytes behind the checksum. -/
def back (h : TCPHeader) : List UInt8 :=
  toBytes 2 h.uptr.toNat ++ List.replicate (4 * h.doff.toNat - 20) 0

@[simp] theorem length_front (h : TCPHeader) : h.front.length = 16 := by simp [front]

@[simp] theorem length_back (h : TCPHeader) : h.back.length = 2 + (4 * h.doff.toNat - 20) := by
  simp [back]

theorem serialize_eq {h : TCPHeader} (hdoff : 5 ≤ h.doff.toNat) :
    h.serialize = .ok (h.front ++ (toBytes 2 h.cksum.toNat ++ h.back)) := by
  have hnot : ¬ h.doff < 5 := by
    rw [UInt8.lt_iff_toNat_lt]
    exact Nat.not_lt.2 hdoff
  have hfits : ∀ s : List UInt8, s.length = 20 →
      IPv4Header.resize s (4 * h.doff.toNat) =
        s ++ List.replicate (4 * h.doff.toNat - 20) 0 := by
    intro s hs
    rw [IPv4Header.resize, hs, List.take_of_length_le (by omega)]
  unfold serialize
  rw [if_neg hnot]
  dsimp only
  rw [hfits _ (by simp [NetUnparser.u8, NetUnparser.u16, NetUnparser.u32])]
  simp [front, back, NetUnparser.u8, NetUnparser.u16, NetUnparser.u32]

theorem toNat_doff_shiftLeft {h : TCPHeader} (hdoff : h.doff.toNat ≤ 15) :
    (h.doff <<< 4).toNat = 16 * h.doff.toNat := by
  rw [UInt8.toNat_shiftLeft]
  change h.doff.toNat <<< 4 % 256 = 16 * h.doff.toNat
  rw [Nat.shiftLeft_eq]
  omega

/-- The bits of the byte of the flags. -/
theorem testBit_flB (h : TCPHeader) :
    h.flB.toNat.testBit 5 = h.urg ∧ h.flB.toNat.testBit 4 = h.ack ∧
      h.flB.toNat.testBit 3 = h.psh ∧ h.flB.toNat.testBit 2 = h.rst ∧
      h.flB.toNat.testBit 1 = h.syn ∧ h.flB.toNat.testBit 0 = h.fin := by
  unfold flB
  generalize h.urg = urg
  generalize h.ack = ack
  generalize h.psh = psh
  generalize h.rst = rst
  generalize h.syn = syn
  generalize h.fin = fin
  revert urg ack psh rst syn fin
  decide

/-- **The fields are read back**, whatever follows them. -/
theorem ofBits_append {h : TCPHeader} (hdoff : h.doff.toNat ≤ 15) (rest : List UInt8) :
    ofBits (h.front ++ (toBytes 2 h.cksum.toNat ++ (h.back ++ rest))) = h := by
  have hbytes : h.front ++ (toBytes 2 h.cksum.toNat ++ (h.back ++ rest)) =
      toBytes 2 h.sport.toNat ++ (toBytes 2 h.dport.toNat ++ (toBytes 4 h.seqno.rawValue.toNat ++
        (toBytes 4 h.ackno.rawValue.toNat ++ (toBytes 1 (h.doff <<< 4).toNat ++
          (toBytes 1 h.flB.toNat ++ (toBytes 2 h.win.toNat ++ (toBytes 2 h.cksum.toNat ++
            (toBytes 2 h.uptr.toNat ++
              (List.replicate (4 * h.doff.toNat - 20) 0 ++ rest))))))))) := by
    simp only [front, back, List.append_assoc]
  have hdoff' : UInt8.ofNat ((h.doff <<< 4).toNat / 16) = h.doff := by
    rw [toNat_doff_shiftLeft hdoff, Nat.mul_div_cancel_left _ (by decide), UInt8.ofNat_toNat]
  obtain ⟨hurg, hack, hpsh, hrst, hsyn, hfin⟩ := testBit_flB h
  rw [hbytes]
  simp (disch := decide) only [ofBits, doffOf, field_skip, field_u8, field_u16, field_u32,
    Nat.reduceSub, hdoff', hurg, hack, hpsh, hrst, hsyn, hfin, UInt16.ofNat_toNat,
    UInt32.ofNat_toNat]

end TCPHeader

namespace TCPSegment

open TCPHeader

/-! ## Segments -/

section
variable {c : UInt32} {b : List UInt8}

theorem parse_of_value (seg : TCPSegment) (c : UInt32) (b : List UInt8) :
    seg.parse (Buffer.ofString b) c =
      if (({ sum := c } : InternetChecksum).add b).value = 0 then
        (⟨(seg.header.parse { buffer := b }).1, (seg.header.parse { buffer := b }).2.1.buffer⟩,
          (seg.header.parse { buffer := b }).2.1.error)
      else (seg, .badChecksum) := by
  unfold parse
  dsimp only
  rw [Buffer.str_ofString]
  by_cases hv : (({ sum := c } : InternetChecksum).add b).value = 0
  · rw [if_neg (not_not.2 hv), if_pos hv]
  · rw [if_pos hv, if_neg hv]

/-- **`parse` of a string short enough for the sum not to overflow.** -/
theorem parse_eq (seg : TCPSegment) (hsmall : c.toNat + 65280 * b.length < 2 ^ 32) :
    seg.parse (Buffer.ofString b) c =
      if Verifies (c.toNat + wordSum false b) then
        (⟨(seg.header.parse { buffer := b }).1, (seg.header.parse { buffer := b }).2.1.buffer⟩,
          (seg.header.parse { buffer := b }).2.1.error)
      else (seg, .badChecksum) := by
  rw [parse_of_value]
  simp only [InternetChecksum.value_add_eq_zero_iff hsmall]

/-- Only the live bytes of the buffer count. -/
theorem parse_congr (seg : TCPSegment) (buffer : Buffer) (c : UInt32) :
    seg.parse buffer c = seg.parse (Buffer.ofString buffer.str) c := by
  simp [parse]

/-- **An accepted segment** has a whole header, whose fields are the bits of the string: also with a
data offset below 5, and also where the sum overflows. -/
theorem header_of_noError {seg : TCPSegment}
    (h : (seg.parse (Buffer.ofString b) c).2 = .noError) :
    20 ≤ b.length ∧ (seg.parse (Buffer.ofString b) c).1.header = ofBits b := by
  rw [parse_of_value] at h ⊢
  by_cases hv : (({ sum := c } : InternetChecksum).add b).value = 0
  · rw [if_pos hv] at h ⊢
    have hshort : b.length < 20 →
        (seg.header.parse { buffer := b }).2.1.error = .packetTooShort :=
      fun hlen => (TCPHeader.parse_short seg.header hlen).1
    have hbits : 20 ≤ b.length → (seg.header.parse { buffer := b }).1 = ofBits b := by
      intro hlen
      rw [TCPHeader.parse_eq seg.header hlen]
      split
      · rfl
      · split <;> rfl
    generalize seg.header.parse { buffer := b } = parsed at h hshort hbits ⊢
    have hlen : 20 ≤ b.length := by
      by_contra hlen
      exact absurd (h.symm.trans (hshort (Nat.lt_of_not_le hlen))) (by decide)
    exact ⟨hlen, hbits hlen⟩
  · rw [if_neg hv] at h
    cases h

end

/-- What `TCPSegment::parse` should do with a string: accept it exactly if its checksum verifies and
the header's `parse` accepts it, that is, it holds the whole header; and then read every field from
its bits, and the payload from behind the header. -/
def Exact (seg : TCPSegment) (c : UInt32) (b : List UInt8) : Prop :=
  let parsed := seg.parse (Buffer.ofString b) c
  let header := TCPHeader.parse {} { buffer := b }
  (parsed.2 = .noError ↔
    Verifies (c.toNat + wordSum false b) ∧ header.2.2 = .noError) ∧
  (header.2.2 = .noError ↔ 20 ≤ b.length ∧ 5 ≤ doffOf b ∧ 4 * doffOf b ≤ b.length) ∧
  (parsed.2 = .noError →
    parsed.1.header = ofBits b ∧ parsed.1.payload = b.drop (4 * doffOf b))

/-- **When `TCPSegment::parse` is exact**: unless the checksum verifies and the data offset is below
5. -/
theorem exact_iff (seg : TCPSegment) (ip : IPv4Header) {b : List UInt8} (hb : b.length ≤ 65535) :
    Exact seg ip.pseudoCksum b ↔
      ¬ (Verifies (ip.pseudoCksum.toNat + wordSum false b) ∧ 20 ≤ b.length ∧ doffOf b < 5) := by
  have hc := ip.toNat_pseudoCksum_le
  have hsmall : ip.pseudoCksum.toNat + 65280 * b.length < 2 ^ 32 := by omega
  unfold Exact
  dsimp only
  rw [TCPHeader.parse_noError_iff, parse_eq seg hsmall]
  by_cases hv : Verifies (ip.pseudoCksum.toNat + wordSum false b)
  · by_cases hlen : 20 ≤ b.length
    · rw [if_pos hv, TCPHeader.parse_eq seg.header hlen]
      by_cases h₁ : doffOf b < 5
      · simp [hv, hlen, h₁]
      · by_cases h₂ : 4 * doffOf b ≤ b.length
        · simp [hv, hlen, h₁, h₂]
          omega
        · simp [hv, hlen, h₁, h₂]
    · have hshort := (TCPHeader.parse_short seg.header (Nat.lt_of_not_le hlen)).1
      simp [hv, hlen, hshort]
  · simp [hv]

/-- An empty segment with data offset 5 and a checksum that verifies. -/
theorem exact_empty_segment :
    Exact {} ({ len := 40 } : IPv4Header).pseudoCksum
      (List.replicate 12 0 ++ [0x50, 0, 0, 0, 0xaf, 0xe5, 0, 0]) :=
  (exact_iff {} { len := 40 } (b := List.replicate 12 0 ++ [0x50, 0, 0, 0, 0xaf, 0xe5, 0, 0])
    (by decide)).2 (by decide)

/-- Twenty bytes with data offset 0: the header's `parse` refuses them, the segment's accepts
them. -/
theorem zero_doff_accepted :
    (parse {} (Buffer.ofString (List.replicate 16 0 ++ [0xff, 0xe5, 0, 0]))
      ({ len := 40 } : IPv4Header).pseudoCksum).2 = .noError ∧
    (TCPHeader.parse {} { buffer := List.replicate 16 0 ++ [0xff, 0xe5, 0, 0] }).2.2 =
      .headerTooShort ∧
    ¬ Exact {} ({ len := 40 } : IPv4Header).pseudoCksum
      (List.replicate 16 0 ++ [0xff, 0xe5, 0, 0]) := by
  refine ⟨by decide, by decide, ?_⟩
  intro h
  exact absurd (h.1.1 (by decide)).2 (by decide)

/-! ## Round trip -/

/-- The checksum that `serialize` computes. -/
def newCksum (seg : TCPSegment) (c : UInt32) : UInt16 :=
  (({ sum := c } : InternetChecksum).add
    (seg.header.front ++ (toBytes 2 0 ++ (seg.header.back ++ seg.payload)))).value

theorem serialize_eq {seg : TCPSegment} (hdoff : 5 ≤ seg.header.doff.toNat) (c : UInt32) :
    seg.serialize c = .ok (BufferList.append (BufferList.ofString (seg.header.front ++
      (toBytes 2 (seg.newCksum c).toNat ++ seg.header.back)))
      (BufferList.ofString seg.payload)) := by
  have hzero : (seg.header.setCksum 0).serialize =
      .ok (seg.header.front ++ (toBytes 2 0 ++ seg.header.back)) :=
    TCPHeader.serialize_eq hdoff
  have hout : ((seg.header.setCksum 0).setCksum (seg.newCksum c)).serialize =
      .ok (seg.header.front ++ (toBytes 2 (seg.newCksum c).toNat ++ seg.header.back)) :=
    TCPHeader.serialize_eq hdoff
  have hsum : ((({ sum := c } : InternetChecksum).add
      (seg.header.front ++ (toBytes 2 0 ++ seg.header.back))).add seg.payload).value =
      seg.newCksum c := by
    rw [newCksum, ← InternetChecksum.add_append]
    simp only [List.append_assoc]
  unfold serialize
  simp only [bind, Except.bind, hzero, hsum, hout]
  rfl

/-- What can be serialized has a complete header. -/
theorem doff_of_serialize {seg : TCPSegment} {c : UInt32} {s : BufferList}
    (h : seg.serialize c = .ok s) : 5 ≤ seg.header.doff.toNat := by
  by_contra hdoff
  have hshort : (seg.header.setCksum 0).doff < 5 := UInt8.lt_iff_toNat_lt.2 (Nat.not_le.1 hdoff)
  simp [serialize, TCPHeader.serialize, hshort, bind, Except.bind] at h

theorem concatenate_of_serialize {seg : TCPSegment} {c : UInt32} {s : BufferList}
    (h : seg.serialize c = .ok s) :
    s.concatenate = seg.header.front ++
      (toBytes 2 (seg.newCksum c).toNat ++ (seg.header.back ++ seg.payload)) := by
  rw [serialize_eq (doff_of_serialize h)] at h
  cases h
  simp

section
variable {seg : TCPSegment} {c : UInt32} (h5 : 5 ≤ seg.header.doff.toNat)
  (h15 : seg.header.doff.toNat ≤ 15)
  (hlen : 4 * seg.header.doff.toNat + seg.payload.length ≤ 65535)
  (hc : c.toNat ≤ 5 * 65535 + 255)
include h5 hlen hc

/-- **The new checksum verifies.** -/
theorem verifies_newCksum :
    Verifies (c.toNat + wordSum false (seg.header.front ++
      (toBytes 2 (seg.newCksum c).toNat ++ (seg.header.back ++ seg.payload)))) := by
  have hsmall : c.toNat + 65280 * (seg.header.front ++
      (toBytes 2 0 ++ (seg.header.back ++ seg.payload))).length < 2 ^ 32 := by
    simp only [List.length_append, length_front, length_toBytes, length_back]
    omega
  exact verifies_insert (by simp) _ (InternetChecksum.toNat_value_add hsmall)

include h15

/-- **Round trip**: what a segment is serialized to gives back everything but the checksum. -/
theorem exists_parse_serialize (seg' : TCPSegment) :
    ∃ s, seg.serialize c = .ok s ∧ s.size = 4 * seg.header.doff.toNat + seg.payload.length ∧
      Verifies (c.toNat + wordSum false s.concatenate) ∧
      seg'.parse (Buffer.ofString s.concatenate) c =
        (⟨seg.header.setCksum (seg.newCksum c), seg.payload⟩, .noError) := by
  have hver := verifies_newCksum h5 hlen hc
  refine ⟨_, serialize_eq h5 c, ?_⟩
  generalize hb : BufferList.append (BufferList.ofString (seg.header.front ++
    (toBytes 2 (seg.newCksum c).toNat ++ seg.header.back))) (BufferList.ofString seg.payload) = s
  have hbytes : s.concatenate = seg.header.front ++
      (toBytes 2 (seg.newCksum c).toNat ++ (seg.header.back ++ seg.payload)) := by
    rw [← hb]
    simp
  have hsize : s.size = 4 * seg.header.doff.toNat + seg.payload.length := by
    rw [BufferList.size_eq, hbytes]
    simp only [List.length_append, length_front, length_toBytes, length_back]
    omega
  refine ⟨hsize, by rwa [hbytes], ?_⟩
  -- the bytes spell the header
  have hbits : ofBits s.concatenate = seg.header.setCksum (seg.newCksum c) := by
    rw [hbytes]
    exact ofBits_append (h := seg.header.setCksum (seg.newCksum c)) h15 seg.payload
  have hdoff : doffOf s.concatenate = seg.header.doff.toNat := by
    rw [← toNat_doff_ofBits, hbits]
    rfl
  have hlength : s.concatenate.length = 4 * seg.header.doff.toNat + seg.payload.length := by
    rw [← BufferList.size_eq, hsize]
  have hdrop : s.concatenate.drop (4 * doffOf s.concatenate) = seg.payload := by
    have hhead : (seg.header.front ++ (toBytes 2 (seg.newCksum c).toNat ++
        seg.header.back)).length = 4 * seg.header.doff.toNat := by
      simp only [List.length_append, length_front, length_toBytes, length_back]
      omega
    rw [hdoff, ← hhead, ← hb, BufferList.concatenate_append, BufferList.concatenate_ofString,
      BufferList.concatenate_ofString, List.drop_left]
  rw [parse_eq seg' (by omega), if_pos (by rwa [hbytes]), TCPHeader.parse_eq _ (by omega),
    if_neg (by omega), if_pos (by omega), hbits, hdrop]

end

/-- **TCP segment round trip**, as the parsers' callers see it. -/
theorem segment_round_trip (seg seg' : TCPSegment) (c : UInt32)
    (h5 : 5 ≤ seg.header.doff.toNat) (h15 : seg.header.doff.toNat ≤ 15)
    (hlen : 4 * seg.header.doff.toNat + seg.payload.length ≤ 65535)
    (hc : c.toNat ≤ 5 * 65535 + 255) :
    ∃ s, seg.serialize c = .ok s ∧ Verifies (c.toNat + wordSum false s.concatenate) ∧
      (seg'.parse (Buffer.ofString s.concatenate) c).2 = .noError ∧
      (seg'.parse (Buffer.ofString s.concatenate) c).1.payload = seg.payload ∧
      (seg'.parse (Buffer.ofString s.concatenate) c).1.header.setCksum seg.header.cksum =
        seg.header := by
  obtain ⟨s, hs, -, hver, hparse⟩ := exists_parse_serialize h5 h15 hlen hc seg'
  refine ⟨s, hs, hver, ?_⟩
  rw [hparse]
  exact ⟨rfl, rfl, rfl⟩

/-- A SYN with options and an odd payload. -/
theorem syn_round_trip :
    ∃ s, serialize ⟨{ doff := 6, syn := true, seqno := ⟨7⟩ }, [1, 2, 3]⟩ 26 = .ok s ∧
      Verifies ((26 : UInt32).toNat + wordSum false s.concatenate) ∧
      (parse {} (Buffer.ofString s.concatenate) 26).2 = .noError ∧
      (parse {} (Buffer.ofString s.concatenate) 26).1.payload = [1, 2, 3] ∧
      (parse {} (Buffer.ofString s.concatenate) 26).1.header.setCksum 0 =
        { doff := 6, syn := true, seqno := ⟨7⟩ } :=
  segment_round_trip ⟨{ doff := 6, syn := true, seqno := ⟨7⟩ }, [1, 2, 3]⟩ {} 26
    (by decide) (by decide) (by decide) (by decide)

/-! ## Corrupted bytes -/

/-- **A single corrupted byte is detected**, wherever it is in the serialized segment. -/
theorem corrupted_byte_detected (seg seg' : TCPSegment) (c : UInt32)
    (h5 : 5 ≤ seg.header.doff.toNat) (h15 : seg.header.doff.toNat ≤ 15)
    (hlen : 4 * seg.header.doff.toNat + seg.payload.length ≤ 65535)
    (hc : c.toNat ≤ 5 * 65535 + 255) :
    ∃ s, seg.serialize c = .ok s ∧
      s.concatenate.length = 4 * seg.header.doff.toNat + seg.payload.length ∧
      ∀ (i : ℕ) (old new : UInt8), s.concatenate[i]? = some old → new ≠ old →
        (seg'.parse (Buffer.ofString (s.concatenate.set i new)) c).2 = .badChecksum := by
  obtain ⟨s, hs, hsize, hver, -⟩ := exists_parse_serialize h5 h15 hlen hc seg'
  rw [BufferList.size_eq] at hsize
  refine ⟨s, hs, hsize, ?_⟩
  intro i old new hold hne
  obtain ⟨hi, hold⟩ := List.getElem?_eq_some_iff.1 hold
  have hsplit : s.concatenate = s.concatenate.take i ++ old :: s.concatenate.drop (i + 1) := by
    rw [← hold, List.getElem_cons_drop, List.take_append_drop]
  have hset : s.concatenate.set i new =
      s.concatenate.take i ++ new :: s.concatenate.drop (i + 1) := by
    rw [List.set_eq_take_append_cons_drop, if_pos hi]
  have hsmall : c.toNat + 65280 * (s.concatenate.set i new).length < 2 ^ 32 := by
    rw [List.length_set]
    omega
  rw [hsplit] at hver
  rw [parse_eq seg' hsmall, hset, if_neg (not_verifies_of_changed hne.symm hver)]

/-- The SYN with options and an odd payload again: the first byte of its payload is lost. -/
theorem corrupted_syn_detected :
    ∃ s, serialize ⟨{ doff := 6, syn := true, seqno := ⟨7⟩ }, [1, 2, 3]⟩ 26 = .ok s ∧
      (parse {} (Buffer.ofString (s.concatenate.set 24 0)) 26).2 = .badChecksum := by
  obtain ⟨s, hs, -, hdetected⟩ := corrupted_byte_detected
    ⟨{ doff := 6, syn := true, seqno := ⟨7⟩ }, [1, 2, 3]⟩ {} 26
    (by decide) (by decide) (by decide) (by decide)
  refine ⟨s, hs, hdetected 24 1 0 ?_ (by decide)⟩
  rw [concatenate_of_serialize hs]
  decide

end TCPSegment

end Sponge
