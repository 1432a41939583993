import Sponge.IPv4Datagram

/-!
# The codec of IPv4 datagrams

`IPv4Header.parse_eq` is the specification of the header's `parse` on a string of at least 20 bytes:
it reads the header `ofBits` spells, and where the header is `Shaped` it skips the options and
verifies the checksum; otherwise it stops behind the first 20 bytes, with no error in the parser.

* `IPv4Datagram.agrees_iff`: `IPv4Datagram::parse`, which does not look at the header's result,
  agrees with it exactly if the checksum of a shaped header verifies, and the payload of any other
  does not happen to have the size the header gives it.
* `IPv4Datagram.serializable_iff_of_noError`: what it accepts can be serialized again, unless it is
  `Forged`.
* `IPv4Datagram.exists_parse_serialize`: a datagram that can be serialized is read back.
-/

namespace Sponge

open BigEndian OnesComplement

namespace IPv4Header

/-! ## The header in the bytes -/

/-- The version in the first byte. -/
def verOf (b : List UInt8) : ℕ := field b 0 1 / 16

/-- The header length in the first byte, in words of four bytes. -/
def hlenOf (b : List UInt8) : ℕ := field b 0 1 % 16

/-- The total length. -/
def lenOf (b : List UInt8) : ℕ := field b 2 2

/-- The header that the first 20 bytes spell. -/
def ofBits (b : List UInt8) : IPv4Header where
  ver := UInt8.ofNat (verOf b)
  hlen := UInt8.ofNat (hlenOf b)
  tos := UInt8.ofNat (field b 1 1)
  len := UInt16.ofNat (lenOf b)
  id := UInt16.ofNat (field b 4 2)
  df := (field b 6 2).testBit 14
  mf := (field b 6 2).testBit 13
  offset := UInt16.ofNat (field b 6 2 % 8192)
  ttl := UInt8.ofNat (field b 8 1)
  proto := UInt8.ofNat (field b 9 1)
  cksum := UInt16.ofNat (field b 10 2)
  src := UInt32.ofNat (field b 12 4)
  dst := UInt32.ofNat (field b 16 4)

/-- Version and lengths are those of a datagram that is the whole string. -/
def Shaped (b : List UInt8) : Prop :=
  verOf b = 4 ∧ 5 ≤ hlenOf b ∧ 4 * hlenOf b ≤ b.length ∧ lenOf b = b.length

instance (b : List UInt8) : Decidable (Shaped b) :=
  inferInstanceAs (Decidable (verOf b = 4 ∧ 5 ≤ hlenOf b ∧ 4 * hlenOf b ≤ b.length ∧
    lenOf b = b.length))

/-- The one's-complement sum of the header, with its options. -/
def headerSum (b : List UInt8) : ℕ := wordSum false (b.take (4 * hlenOf b))

/-- The result for a header that is not shaped. -/
def refusal (b : List UInt8) : ParseResult :=
  if b.length < 4 * hlenOf b then .packetTooShort
  else if verOf b ≠ 4 then .wrongIPVersion
  else if hlenOf b < 5 then .headerTooShort
  else .truncatedPacket

theorem refusal_ne (b : List UInt8) : refusal b ≠ .noError := by
  unfold refusal
  split
  · simp
  · split
    · simp
    · split <;> simp

theorem hlenOf_lt (b : List UInt8) : hlenOf b < 16 := Nat.mod_lt _ (by decide)

theorem verOf_lt (b : List UInt8) : verOf b < 16 := by
  have h : field b 0 1 < 256 := field_lt
  unfold verOf
  omega

theorem lenOf_lt (b : List UInt8) : lenOf b < 65536 := field_lt

@[simp] theorem toNat_hlen_ofBits (b : List UInt8) : (ofBits b).hlen.toNat = hlenOf b := by
  exact UInt8.toNat_ofNat_of_lt' (Nat.lt_trans (hlenOf_lt b) (by decide))

@[simp] theorem toNat_ver_ofBits (b : List UInt8) : (ofBits b).ver.toNat = verOf b := by
  exact UInt8.toNat_ofNat_of_lt' (Nat.lt_trans (verOf_lt b) (by decide))

@[simp] theorem toNat_len_ofBits (b : List UInt8) : (ofBits b).len.toNat = lenOf b :=
  UInt16.toNat_ofNat_of_lt' (lenOf_lt b)

/-! ## Parsing -/

theorem checksum_iff (b : List UInt8) :
    (({} : InternetChecksum).add (b.take (4 * hlenOf b))).value = 0 ↔ Verifies (headerSum b) := by
  have hlen := hlenOf_lt b
  have hsmall : (0 : UInt32).toNat + 65280 * (b.take (4 * hlenOf b)).length < 2 ^ 32 := by
    rw [List.length_take, UInt32.toNat_zero]
    omega
  have h := InternetChecksum.value_add_eq_zero_iff hsmall
  rwa [UInt32.toNat_zero, Nat.zero_add] at h

/-- The reads of `parse`. -/
def readFields (p : NetParser) : IPv4Header × NetParser :=
  let (firstByte, p) := p.u8
  let (tos, p) := p.u8
  let (len, p) := p.u16
  let (id, p) := p.u16
  let (foVal, p) := p.u16
  let (ttl, p) := p.u8
  let (proto, p) := p.u8
  let (cksum, p) := p.u16
  let (src, p) := p.u32
  let (dst, p) := p.u32
  ({ ver := firstByte >>> 4
     hlen := firstByte &&& 0x0f
     tos, len, id
     df := foVal &&& 0x4000 != 0
     mf := foVal &&& 0x2000 != 0
     offset := foVal &&& 0x1fff
     ttl, proto, cksum, src, dst }, p)

/-- The checks of `parse`, of the header `h` that was read from `b`. -/
def judge (b : List UInt8) (h : IPv4Header) (p : NetParser) :
    IPv4Header × NetParser × ParseResult :=
  if b.length < 4 * h.hlen.toNat then (h, p, .packetTooShort)
  else if h.ver ≠ 4 then (h, p, .wrongIPVersion)
  else if h.hlen < 5 then (h, p, .headerTooShort)
  else if b.length ≠ h.len.toNat then (h, p, .truncatedPacket)
  else
    let p := p.removePrefix (h.hlen.toNat * 4 - length)
    if p.hasError then (h, p, p.error)
    else
      let check := ({} : InternetChecksum).add (b.take (4 * h.hlen.toNat))
      if check.value ≠ 0 then (h, p, .badChecksum) else (h, p, .noError)

theorem parse_eq_judge (h : IPv4Header) (p : NetParser) :
    h.parse p =
      if p.buffer.length < length then (h, p, .packetTooShort)
      else judge p.buffer (readFields p).1 (readFields p).2 := by
  unfold parse readFields
  by_cases hlen : p.buffer.length < length
  · rw [if_pos hlen, if_pos hlen]
  · rw [if_neg hlen, if_neg hlen]
    obtain ⟨firstByte, p₁⟩ := p.u8
    obtain ⟨tos, p₂⟩ := p₁.u8
    obtain ⟨len, p₃⟩ := p₂.u16
    obtain ⟨id, p₄⟩ := p₃.u16
    obtain ⟨foVal, p₅⟩ := p₄.u16
    obtain ⟨ttl, p₆⟩ := p₅.u8
    obtain ⟨proto, p₇⟩ := p₆.u8
    obtain ⟨cksum, p₈⟩ := p₇.u16
    obtain ⟨src, p₉⟩ := p₈.u32
    obtain ⟨dst, p₁₀⟩ := p₉.u32
    dsimp only [judge]

theorem readFields_eq {b : List UInt8} (hb : 20 ≤ b.length) :
    readFields ⟨b, .noError⟩ = (ofBits b, ⟨b.drop 20, .noError⟩) := by
  have hstart : (⟨b, .noError⟩ : NetParser) = ⟨b.drop 0, .noError⟩ := rfl
  have hfirst : (UInt8.ofNat (field b 0 1)).toNat = field b 0 1 :=
    UInt8.toNat_ofNat_of_lt' field_lt
  have hfo : (UInt16.ofNat (field b 6 2)).toNat = field b 6 2 :=
    UInt16.toNat_ofNat_of_lt' field_lt
  have hver : UInt8.ofNat (field b 0 1) >>> 4 = (ofBits b).ver := by
    rw [← UInt8.toNat_inj, toNat_u8_shiftRight, hfirst, toNat_ver_ofBits, verOf]
  have hhlen : UInt8.ofNat (field b 0 1) &&& 0x0f = (ofBits b).hlen := by
    rw [← UInt8.toNat_inj, toNat_u8_and, hfirst, toNat_hlen_ofBits, hlenOf]
  have hdf : (UInt16.ofNat (field b 6 2) &&& 0x4000 != 0) = (ofBits b).df := by
    rw [u16_and_mask (i := 14) rfl, hfo]
    rfl
  have hmf : (UInt16.ofNat (field b 6 2) &&& 0x2000 != 0) = (ofBits b).mf := by
    rw [u16_and_mask (i := 13) rfl, hfo]
    rfl
  have hoff : UInt16.ofNat (field b 6 2) &&& 0x1fff = (ofBits b).offset := by
    have hlt : field b 6 2 % 8192 < 2 ^ 16 := by omega
    have hoffset : (ofBits b).offset.toNat = field b 6 2 % 8192 := UInt16.toNat_ofNat_of_lt' hlt
    rw [← UInt16.toNat_inj, toNat_u16_and, hfo, hoffset]
  -- the reads, each at the offset where the one before it ended
  unfold readFields
  rw [hstart, NetParser.u8_drop (by omega)]
  dsimp only
  rw [NetParser.u8_drop (by omega)]
  dsimp only
  iterate 3
    rw [NetParser.u16_drop (by omega)]
    dsimp only
  iterate 2
    rw [NetParser.u8_drop (by omega)]
    dsimp only
  rw [NetParser.u16_drop (by omega)]
  dsimp only
  iterate 2
    rw [NetParser.u32_drop (by omega)]
    dsimp only
  simp only [Nat.reduceAdd, hver, hhlen, hdf, hmf, hoff]
  rfl

theorem judge_eq {b : List UInt8} (hb : 20 ≤ b.length) :
    judge b (ofBits b) ⟨b.drop 20, .noError⟩ =
      if Shaped b then
        (ofBits b, ⟨b.drop (4 * hlenOf b), .noError⟩,
          if Verifies (headerSum b) then .noError else .badChecksum)
      else (ofBits b, ⟨b.drop 20, .noError⟩, refusal b) := by
  have hver : (ofBits b).ver = 4 ↔ verOf b = 4 := by
    rw [← UInt8.toNat_inj, toNat_ver_ofBits]
    rfl
  have hhlen : (ofBits b).hlen < 5 ↔ hlenOf b < 5 := by
    rw [UInt8.lt_iff_toNat_lt, toNat_hlen_ofBits]
    rfl
  unfold judge refusal Shaped
  simp only [toNat_hlen_ofBits, toNat_len_ofBits, ne_eq, hver, hhlen]
  by_cases h₁ : b.length < 4 * hlenOf b
  · simp [h₁]
  · by_cases h₂ : verOf b = 4
    · by_cases h₃ : hlenOf b < 5
      · simp [h₁, h₂, h₃]
      · by_cases h₄ : lenOf b = b.length
        · have hskip : NetParser.removePrefix ⟨b.drop 20, .noError⟩ (hlenOf b * 4 - length) =
              ⟨b.drop (4 * hlenOf b), .noError⟩ := by
            rw [NetParser.removePrefix_of_le (by simp [length]; omega), List.drop_drop]
            congr 2
            simp [length]
            omega
          by_cases h₅ : Verifies (headerSum b)
          · simp [h₁, h₂, h₃, h₄, h₅, hskip, NetParser.hasError, (checksum_iff b).2 h₅]
          · simp [h₁, h₂, h₃, h₄, h₅, hskip, NetParser.hasError, (checksum_iff b).not.2 h₅]
        · simp [h₁, h₂, h₃, h₄, Ne.symm h₄]
    · simp [h₁, h₂]

/-- **`parse` of at least 20 bytes.** -/
theorem parse_eq (h : IPv4Header) {b : List UInt8} (hb : 20 ≤ b.length) :
    h.parse ⟨b, .noError⟩ =
      if Shaped b then
        (ofBits b, ⟨b.drop (4 * hlenOf b), .noError⟩,
          if Verifies (headerSum b) then .noError else .badChecksum)
      else (ofBits b, ⟨b.drop 20, .noError⟩, refusal b) := by
  have hnot : ¬ b.length < length := Nat.not_lt.2 hb
  rw [parse_eq_judge, if_neg hnot, readFields_eq hb, judge_eq hb]

theorem parse_short (h : IPv4Header) {b : List UInt8} (hb : b.length < 20) :
    h.parse ⟨b, .noError⟩ = (h, ⟨b, .noError⟩, .packetTooShort) := by
  have hlt : b.length < length := hb
  rw [parse_eq_judge, if_pos hlt]

/-- What `payload_length` makes of the two lengths in a string. -/
def payloadLengthOf (b : List UInt8) : ℕ := (65536 - 4 * hlenOf b + lenOf b) % 65536

/-- The string does not start with a header of version 4 and at least 20 bytes, but has as many
bytes behind the first 20 as the lengths in it say. -/
def Forged (b : List UInt8) : Prop :=
  20 ≤ b.length ∧ ¬ (verOf b = 4 ∧ 5 ≤ hlenOf b) ∧ b.length - 20 = payloadLengthOf b

instance (b : List UInt8) : Decidable (Forged b) :=
  inferInstanceAs (Decidable (20 ≤ b.length ∧ ¬ (verOf b = 4 ∧ 5 ≤ hlenOf b) ∧
    b.length - 20 = payloadLengthOf b))

theorem toNat_payloadLength (h : IPv4Header) :
    h.payloadLength.toNat = (65536 - 4 * h.hlen.toNat + h.len.toNat) % 65536 := by
  have hlt := h.hlen.toNat_lt
  have hfour : (4 * h.hlen.toUInt16).toNat = 4 * h.hlen.toNat := by
    rw [UInt16.toNat_mul, UInt8.toNat_toUInt16]
    exact Nat.mod_eq_of_lt (by change 4 * h.hlen.toNat < 65536; omega)
  rw [payloadLength, UInt16.toNat_sub, hfour]

theorem toNat_payloadLength_ofBits (b : List UInt8) :
    (ofBits b).payloadLength.toNat = payloadLengthOf b := by
  rw [toNat_payloadLength, toNat_hlen_ofBits, toNat_len_ofBits, payloadLengthOf]

theorem Shaped.payloadLengthOf_eq {b : List UInt8} (h : Shaped b) :
    payloadLengthOf b = b.length - 4 * hlenOf b := by
  obtain ⟨-, -, hle, hlen⟩ := h
  have hlt := lenOf_lt b
  unfold payloadLengthOf
  omega

/-- A datagram that is the whole string, with a checksum that verifies. -/
def WellFormed (b : List UInt8) : Prop := 20 ≤ b.length ∧ Shaped b ∧ Verifies (headerSum b)

/-- **The header's `parse` accepts exactly the well-formed datagrams.** -/
theorem parse_noError_iff (h : IPv4Header) (b : List UInt8) :
    (h.parse ⟨b, .noError⟩).2.2 = .noError ↔ WellFormed b := by
  unfold WellFormed
  by_cases hb : 20 ≤ b.length
  · rw [parse_eq h hb]
    by_cases hs : Shaped b
    · simp [hs, hb]
    · simp [hs, refusal_ne]
  · rw [parse_short h (Nat.lt_of_not_le hb)]
    simp [hb]

theorem toNat_pseudoCksum (h : IPv4Header) :
    h.pseudoCksum.toNat = (h.src.toNat / 65536 + h.src.toNat % 65536) +
      (h.dst.toNat / 65536 + h.dst.toNat % 65536) + h.proto.toNat + h.payloadLength.toNat := by
  have hsrc := h.src.toNat_lt
  have hdst := h.dst.toNat_lt
  have hproto := h.proto.toNat_lt
  have hpay := h.payloadLength.toNat_lt
  dsimp only [pseudoCksum]
  -- the sums of the two addresses' halves are folded carries
  rw [UInt32.toNat_add, UInt32.toNat_add, UInt32.toNat_add, InternetChecksum.toNat_carry,
    InternetChecksum.toNat_carry, UInt8.toNat_toUInt32, UInt16.toNat_toUInt32]
  omega

theorem pseudoCksum_setCksum (h : IPv4Header) (cksum : UInt16) :
    (h.setCksum cksum).pseudoCksum = h.pseudoCksum := rfl

/-- No pseudo-header sum is larger than five words and a byte. -/
theorem toNat_pseudoCksum_le (h : IPv4Header) : h.pseudoCksum.toNat ≤ 5 * 65535 + 255 := by
  have hsrc := h.src.toNat_lt
  have hdst := h.dst.toNat_lt
  have hproto := h.proto.toNat_lt
  have hpay := h.payloadLength.toNat_lt
  rw [toNat_pseudoCksum]
  omega

/-! ## Serializing -/

/-- The byte of version and header length. -/
def firstByte (h : IPv4Header) : UInt8 := h.ver <<< 4 ||| h.hlen &&& 0xf

/-- The word of flags and offset. -/
def foVal (h : IPv4Header) : UInt16 :=
  (if h.df then 0x4000 else 0) ||| (if h.mf then 0x2000 else 0) ||| h.offset &&& 0x1fff

/-- The bytes in front of the checksum. -/
def front (h : IPv4Header) : List UInt8 :=
  toBytes 1 h.firstByte.toNat ++ (toBytes 1 h.tos.toNat ++ (toBytes 2 h.len.toNat ++
    (toBytes 2 h.id.toNat ++ (toBytes 2 h.foVal.toNat ++ (toBytes 1 h.ttl.toNat ++
      toBytes 1 h.proto.toNat)))))

/-- The bytes behind the checksum. -/
def back (h : IPv4Header) : List UInt8 :=
  toBytes 4 h.src.toNat ++ (toBytes 4 h.dst.toNat ++ List.replicate (4 * h.hlen.toNat - 20) 0)

@[simp] theorem length_front (h : IPv4Header) : h.front.length = 10 := by simp [front]

@[simp] theorem length_back (h : IPv4Header) :
    h.back.length = 8 + (4 * h.hlen.toNat - 20) := by
  simp [back]
  omega

theorem serialize_eq {h : IPv4Header} (hver : h.ver = 4) (hhlen : 5 ≤ h.hlen.toNat) :
    h.serialize = .ok (h.front ++ (toBytes 2 h.cksum.toNat ++ h.back)) := by
  have hlen : ¬ 4 * h.hlen.toNat < 20 := by omega
  have hfits : ∀ s : List UInt8, s.length = 20 →
      resize s (4 * h.hlen.toNat) = s ++ List.replicate (4 * h.hlen.toNat - 20) 0 := by
    intro s hs
    rw [resize, hs, List.take_of_length_le (by omega)]
  unfold serialize
  rw [if_neg (not_not.2 hver), length, if_neg hlen]
  dsimp only
  rw [hfits _ (by simp [NetUnparser.u8, NetUnparser.u16, NetUnparser.u32])]
  simp [front, back, firstByte, foVal, NetUnparser.u8, NetUnparser.u16, NetUnparser.u32]

theorem toNat_firstByte {h : IPv4Header} (hver : h.ver = 4) (hhlen : h.hlen.toNat ≤ 15) :
    h.firstByte.toNat = 64 + h.hlen.toNat := by
  have hhigh : ((4 : UInt8) <<< 4).toNat = 64 := by decide
  have hor := Nat.two_pow_add_eq_or_of_lt (i := 6) (b := h.hlen.toNat) (by omega) 1
  rw [firstByte, hver, UInt8.toNat_or, hhigh, toNat_u8_and, Nat.mod_eq_of_lt (by omega)]
  simpa using hor.symm

theorem toNat_foVal {h : IPv4Header} (hoff : h.offset.toNat < 2 ^ 13) :
    h.foVal.toNat =
      8192 * ((if h.df then 2 else 0) + (if h.mf then 1 else 0)) + h.offset.toNat := by
  have hor := Nat.two_pow_add_eq_or_of_lt (i := 13) (b := h.offset.toNat) hoff
  have hflags : ((if h.df then 0x4000 else 0) ||| (if h.mf then 0x2000 else 0) : UInt16).toNat =
      2 ^ 13 * ((if h.df then 2 else 0) + (if h.mf then 1 else 0)) := by
    cases h.df <;> cases h.mf <;> decide
  have hmod : h.offset.toNat % 8192 = h.offset.toNat := Nat.mod_eq_of_lt hoff
  rw [foVal, UInt16.toNat_or, toNat_u16_and, hmod, hflags, ← hor]

/-- **The fields are read back**, whatever follows them. -/
theorem ofBits_append {h : IPv4Header} (hver : h.ver = 4) (hhlen : h.hlen.toNat ≤ 15)
    (hoff : h.offset.toNat < 2 ^ 13) (rest : List UInt8) :
    ofBits (h.front ++ (toBytes 2 h.cksum.toNat ++ (h.back ++ rest))) = h := by
  have hfirst := toNat_firstByte hver hhlen
  have hfo := toNat_foVal hoff
  have hbytes : h.front ++ (toBytes 2 h.cksum.toNat ++ (h.back ++ rest)) =
      toBytes 1 h.firstByte.toNat ++ (toBytes 1 h.tos.toNat ++ (toBytes 2 h.len.toNat ++
        (toBytes 2 h.id.toNat ++ (toBytes 2 h.foVal.toNat ++ (toBytes 1 h.ttl.toNat ++
          (toBytes 1 h.proto.toNat ++ (toBytes 2 h.cksum.toNat ++ (toBytes 4 h.src.toNat ++
            (toBytes 4 h.dst.toNat ++
              (List.replicate (4 * h.hlen.toNat - 20) 0 ++ rest)))))))))) := by
    simp only [front, back, List.append_assoc]
  have hver' : UInt8.ofNat (h.firstByte.toNat / 16) = h.ver := by
    rw [hver, show h.firstByte.toNat / 16 = 4 by omega]
    rfl
  have hhlen' : UInt8.ofNat (h.firstByte.toNat % 16) = h.hlen := by
    rw [show h.firstByte.toNat % 16 = h.hlen.toNat by omega, UInt8.ofNat_toNat]
  have hdf : h.foVal.toNat.testBit 14 = h.df := by
    rw [hfo, Nat.testBit_eq_decide_div_mod_eq]
    cases h.df <;> cases h.mf <;> simp <;> omega
  have hmf : h.foVal.toNat.testBit 13 = h.mf := by
    rw [hfo, Nat.testBit_eq_decide_div_mod_eq]
    cases h.df <;> cases h.mf <;> simp <;> omega
  have hoff' : UInt16.ofNat (h.foVal.toNat % 8192) = h.offset := by
    rw [hfo, show (8192 * ((if h.df then 2 else 0) + (if h.mf then 1 else 0)) +
      h.offset.toNat) % 8192 = h.offset.toNat by omega, UInt16.ofNat_toNat]
  rw [hbytes]
  simp (disch := decide) only [ofBits, verOf, hlenOf, lenOf, field_skip, field_u8, field_u16,
    field_u32, Nat.reduceSub, hver', hhlen', hdf, hmf, hoff', UInt8.ofNat_toNat,
    UInt16.ofNat_toNat, UInt32.ofNat_toNat]

/-- The time to live is read back from any header. -/
theorem ttl_ofBits (h : IPv4Header) (rest : List UInt8) :
    (ofBits (h.front ++ rest)).ttl = h.ttl := by
  simp (disch := decide) only [ofBits, front, List.append_assoc, field_skip, field_u8,
    Nat.reduceSub, UInt8.ofNat_toNat]

/-- The checksum that `serialize` computes for a datagram with this header. -/
def newCksum (h : IPv4Header) : UInt16 :=
  (({} : InternetChecksum).add (h.front ++ (toBytes 2 0 ++ h.back))).value

/-- **The new checksum verifies.** -/
theorem verifies_newCksum {h : IPv4Header} (hhlen : h.hlen.toNat ≤ 15) :
    Verifies (wordSum false (h.front ++ (toBytes 2 h.newCksum.toNat ++ h.back))) := by
  have hsmall : (0 : UInt32).toNat + 65280 * (h.front ++ (toBytes 2 0 ++ h.back)).length <
      2 ^ 32 := by
    simp only [List.length_append, length_front, length_toBytes, length_back, UInt32.toNat_zero]
    omega
  have hall := verifies_insert (by simp) _ (InternetChecksum.toNat_value_add hsmall)
  rwa [UInt32.toNat_zero, Nat.zero_add] at hall

end IPv4Header

namespace IPv4Datagram

open IPv4Header

/-! ## Datagrams -/

/-- **`parse` of at least 20 bytes**: it accepts whatever has a payload of the size that the header
gives it. -/
theorem parse_eq (d : IPv4Datagram) {b : List UInt8} (hb : 20 ≤ b.length) :
    d.parse (Buffer.ofString b) =
      if Shaped b then (⟨ofBits b, BufferList.ofString (b.drop (4 * hlenOf b))⟩, .noError)
      else
        (⟨ofBits b, BufferList.ofString (b.drop 20)⟩,
          if b.length - 20 = payloadLengthOf b then .noError else .packetTooShort) := by
  have hsize : ∀ s : List UInt8, BufferList.size (BufferList.ofString s) = s.length := by
    intro s
    rw [BufferList.size_eq, BufferList.concatenate_ofString]
  unfold parse
  dsimp only
  rw [Buffer.str_ofString, IPv4Header.parse_eq d.header hb]
  by_cases hs : Shaped b
  · simp [hs, hsize, toNat_payloadLength_ofBits, hs.payloadLengthOf_eq]
  · by_cases hl : b.length - 20 = payloadLengthOf b
    · simp [hs, hsize, toNat_payloadLength_ofBits, hl]
    · simp [hs, hsize, toNat_payloadLength_ofBits, hl]

/-- A fresh datagram says that its payload has 65516 bytes, which fewer than 20 are not. -/
theorem parse_short {b : List UInt8} (hb : b.length < 20) :
    (parse {} (Buffer.ofString b)).2 = .packetTooShort := by
  have hfresh : ({} : IPv4Header).payloadLength.toNat = 65516 := by decide
  have hsize : BufferList.size (BufferList.ofString b) ≠
      ({} : IPv4Header).payloadLength.toNat := by
    rw [BufferList.size_eq, BufferList.concatenate_ofString, hfresh]
    omega
  unfold parse
  dsimp only
  rw [Buffer.str_ofString, IPv4Header.parse_short _ hb]
  dsimp only
  rw [if_pos hsize]

/-- `IPv4Datagram::parse` and `IPv4Header::parse` agree on the string, and accept it exactly if it
is well formed; the payload is then what follows the header. -/
def Agrees (b : List UInt8) : Prop :=
  let datagram := parse {} (Buffer.ofString b)
  let header := IPv4Header.parse {} { buffer := b }
  (datagram.2 = .noError ↔ header.2.2 = .noError) ∧ (header.2.2 = .noError ↔ WellFormed b) ∧
    (datagram.2 = .noError → datagram.1.payload.concatenate = b.drop (4 * hlenOf b))

/-- The condition: the checksum of a shaped header verifies, and the payload of any other does not
have the size that its header gives it. -/
def Consistent (b : List UInt8) : Prop :=
  20 ≤ b.length → if Shaped b then Verifies (headerSum b) else b.length - 20 ≠ payloadLengthOf b

/-- **When the two parsers agree.** -/
theorem agrees_iff (b : List UInt8) : Agrees b ↔ Consistent b := by
  unfold Agrees Consistent
  dsimp only
  rw [IPv4Header.parse_noError_iff]
  by_cases hb : 20 ≤ b.length
  · rw [parse_eq {} hb]
    by_cases hs : Shaped b
    · simp [hs, hb, WellFormed]
    · by_cases hl : b.length - 20 = payloadLengthOf b
      · simp [hs, hb, hl, WellFormed]
      · simp [hs, hb, hl, WellFormed]
  · rw [parse_short (Nat.lt_of_not_le hb)]
    simp [hb, WellFormed]

/-- Twenty zeros: version 0, which the header's `parse` refuses and the datagram's accepts. -/
theorem zeros_accepted :
    (parse {} (Buffer.ofString (List.replicate 20 0))).2 = .noError ∧
      (IPv4Header.parse {} { buffer := List.replicate 20 0 }).2.2 = .wrongIPVersion ∧
      ¬ Agrees (List.replicate 20 0) := by
  refine ⟨by decide, by decide, ?_⟩
  intro h
  exact absurd (h.1.1 (by decide)) (by decide)

/-! ## What is accepted and cannot be serialized again -/

theorem parse_congr (d : IPv4Datagram) (buffer : Buffer) :
    d.parse buffer = d.parse (Buffer.ofString buffer.str) := by
  unfold parse
  rw [Buffer.str_ofString]

/-- The size of the payload is all that `parse` checks. -/
theorem size_of_noError {d d' : IPv4Datagram} {buffer : Buffer}
    (h : d.parse buffer = (d', .noError)) : d'.payload.size = d'.header.payloadLength.toNat := by
  unfold parse at h
  dsimp only at h
  split at h
  · cases h
  · rename_i hsize
    obtain ⟨rfl, -⟩ := Prod.mk.inj h
    exact not_not.1 hsize

/-- An accepted datagram has the 20 bytes of its header, and unless its shape is right, the number
of bytes behind them is. -/
theorem bits_of_noError {d : IPv4Datagram} {buffer : Buffer}
    (h : parse {} buffer = (d, .noError)) :
    20 ≤ buffer.str.length ∧ d.header = ofBits buffer.str ∧
      (Shaped buffer.str ∨ buffer.str.length - 20 = payloadLengthOf buffer.str) := by
  rw [parse_congr] at h
  by_cases hlen : 20 ≤ buffer.str.length
  · rw [parse_eq _ hlen] at h
    split at h
    · rename_i hshaped
      obtain ⟨rfl, -⟩ := Prod.mk.inj h
      exact ⟨hlen, rfl, .inl hshaped⟩
    · obtain ⟨rfl, hresult⟩ := Prod.mk.inj h
      split at hresult
      · rename_i hcount
        exact ⟨hlen, rfl, .inr hcount⟩
      · cases hresult
  · have hshort := parse_short (Nat.lt_of_not_le hlen)
    rw [h] at hshort
    cases hshort

/-- **The accepted datagrams that cannot be serialized** are the forged ones. -/
theorem serializable_iff_of_noError {d : IPv4Datagram} {buffer : Buffer}
    (h : parse {} buffer = (d, .noError)) : d.Serializable ↔ ¬ Forged buffer.str := by
  obtain ⟨hlen, hheader, haccepted⟩ := bits_of_noError h
  have hver : d.header.ver = 4 ↔ verOf buffer.str = 4 := by
    rw [hheader, ← UInt8.toNat_inj, toNat_ver_ofBits]
    rfl
  have hhlen : d.header.hlen.toNat = hlenOf buffer.str := by rw [hheader, toNat_hlen_ofBits]
  unfold Serializable Forged
  rw [hver, hhlen]
  constructor
  · intro hd hforged
    exact hforged.2.1 ⟨hd.1, hd.2.1⟩
  · intro hforged
    by_contra hd
    have hbad : ¬ (verOf buffer.str = 4 ∧ 5 ≤ hlenOf buffer.str) := by
      intro hgood
      exact hd ⟨hgood.1, hgood.2, size_of_noError h⟩
    obtain hshaped | hcount := haccepted
    · exact hbad ⟨hshaped.1, hshaped.2.1⟩
    · exact hforged ⟨hlen, hbad, hcount⟩

/-- A forged string is accepted. -/
theorem noError_of_forged {buffer : Buffer} (h : Forged buffer.str) :
    ∃ d, parse {} buffer = (d, .noError) := by
  obtain ⟨hlen, hbad, hcount⟩ := h
  have hshaped : ¬ Shaped buffer.str := by
    intro hshaped
    exact hbad ⟨hshaped.1, hshaped.2.1⟩
  rw [parse_congr, parse_eq {} hlen, if_neg hshaped, if_pos hcount]
  exact ⟨_, rfl⟩

/-! ## Round trip -/

theorem serialize_eq {d : IPv4Datagram} (hd : d.Serializable) :
    d.serialize = .ok (BufferList.append (BufferList.ofString (d.header.front ++
      (toBytes 2 d.header.newCksum.toNat ++ d.header.back))) d.payload) := by
  obtain ⟨hver, hhlen, hsize⟩ := hd
  have hzero : (d.header.setCksum 0).serialize =
      .ok (d.header.front ++ (toBytes 2 0 ++ d.header.back)) :=
    IPv4Header.serialize_eq hver hhlen
  have hout : ((d.header.setCksum 0).setCksum d.header.newCksum).serialize =
      .ok (d.header.front ++ (toBytes 2 d.header.newCksum.toNat ++ d.header.back)) :=
    IPv4Header.serialize_eq hver hhlen
  unfold serialize
  rw [if_neg (not_not.2 hsize)]
  simp only [bind, Except.bind, hzero]
  unfold newCksum at hout
  rw [hout]
  rfl

/-- **Round trip**: what a datagram is serialized to is accepted by the header's `parse` and gives
back everything but the checksum. -/
theorem exists_parse_serialize (d d' : IPv4Datagram) (h : IPv4Header) (hver : d.header.ver = 4)
    (h5 : 5 ≤ d.header.hlen.toNat) (h15 : d.header.hlen.toNat ≤ 15)
    (hoff : d.header.offset.toNat < 2 ^ 13)
    (hlen : d.header.len.toNat = 4 * d.header.hlen.toNat + d.payload.size) :
    ∃ s, d.serialize = .ok s ∧ (h.parse { buffer := s.concatenate }).2.2 = .noError ∧
      d'.parse (Buffer.ofString s.concatenate) =
        (⟨d.header.setCksum d.header.newCksum, BufferList.ofString d.payload.concatenate⟩,
          .noError) := by
  have hser : d.Serializable := by
    refine ⟨hver, h5, ?_⟩
    have hlt := d.header.len.toNat_lt
    rw [toNat_payloadLength]
    omega
  refine ⟨_, serialize_eq hser, ?_⟩
  generalize hb : BufferList.concatenate (BufferList.append (BufferList.ofString
    (d.header.front ++ (toBytes 2 d.header.newCksum.toNat ++ d.header.back))) d.payload) = b
  rw [BufferList.concatenate_append, BufferList.concatenate_ofString] at hb
  -- the bytes spell the header, so that they are shaped
  have hbits : ofBits b = d.header.setCksum d.header.newCksum := by
    have happ := ofBits_append (h := d.header.setCksum d.header.newCksum) hver h15 hoff
      d.payload.concatenate
    rw [← happ, ← hb]
    simp only [List.append_assoc]
    rfl
  have hverb : verOf b = 4 := by
    rw [← toNat_ver_ofBits, hbits]
    exact congrArg UInt8.toNat hver
  have hhlenb : hlenOf b = d.header.hlen.toNat := by
    rw [← toNat_hlen_ofBits, hbits]
    rfl
  have hlenb : lenOf b = d.header.len.toNat := by
    rw [← toNat_len_ofBits, hbits]
    rfl
  have hhead : (d.header.front ++ (toBytes 2 d.header.newCksum.toNat ++ d.header.back)).length =
      4 * hlenOf b := by
    simp only [List.length_append, length_front, length_toBytes, length_back, hhlenb]
    omega
  have hlength : b.length = 4 * hlenOf b + d.payload.size := by
    have hlen := congrArg List.length hb
    rw [List.length_append, hhead] at hlen
    rw [BufferList.size_eq, ← hlen]
  have hshaped : Shaped b := ⟨hverb, by omega, by omega, by omega⟩
  have hsum : Verifies (headerSum b) := by
    rw [headerSum, ← hhead, ← hb, List.take_left]
    exact verifies_newCksum h15
  have hdrop : b.drop (4 * hlenOf b) = d.payload.concatenate := by
    rw [← hhead, ← hb, List.drop_left]
  constructor
  · exact (IPv4Header.parse_noError_iff h b).2 ⟨by omega, hshaped, hsum⟩
  · rw [parse_eq d' (by omega), if_pos hshaped, hbits, hdrop]

/-- **IPv4 datagram round trip**, as the parsers' callers see it. -/
theorem datagram_round_trip (d d' : IPv4Datagram) (h : IPv4Header) (hver : d.header.ver = 4)
    (h5 : 5 ≤ d.header.hlen.toNat) (h15 : d.header.hlen.toNat ≤ 15)
    (hoff : d.header.offset.toNat < 2 ^ 13)
    (hlen : d.header.len.toNat = 4 * d.header.hlen.toNat + d.payload.size) :
    ∃ s, d.serialize = .ok s ∧ (h.parse { buffer := s.concatenate }).2.2 = .noError ∧
      (d'.parse (Buffer.ofString s.concatenate)).2 = .noError ∧
      (d'.parse (Buffer.ofString s.concatenate)).1.payload.concatenate = d.payload.concatenate ∧
      (d'.parse (Buffer.ofString s.concatenate)).1.header.setCksum d.header.cksum = d.header := by
  obtain ⟨s, hs, hheader, hparse⟩ := exists_parse_serialize d d' h hver h5 h15 hoff hlen
  refine ⟨s, hs, hheader, ?_⟩
  rw [hparse]
  exact ⟨rfl, BufferList.concatenate_ofString _, rfl⟩

/-- A datagram with options and an odd payload. -/
theorem options_round_trip :
    ∃ s, serialize ⟨{ hlen := 6, len := 25, offset := 7 }, BufferList.ofString [1]⟩ = .ok s ∧
      (IPv4Header.parse {} { buffer := s.concatenate }).2.2 = .noError ∧
      (parse {} (Buffer.ofString s.concatenate)).2 = .noError ∧
      (parse {} (Buffer.ofString s.concatenate)).1.payload.concatenate = [1] ∧
      (parse {} (Buffer.ofString s.concatenate)).1.header.setCksum 0 =
        { hlen := 6, len := 25, offset := 7 } :=
  datagram_round_trip ⟨{ hlen := 6, len := 25, offset := 7 }, BufferList.ofString [1]⟩ {} {}
    (by decide) (by decide) (by decide) (by decide) (by decide)

end IPv4Datagram

end Sponge
