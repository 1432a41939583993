import Sponge.Util.Buffer
import Sponge.Lib.BigEndian

/-!
# Parsing and unparsing integers (`libsponge/util/parser.hh`, `parser.cc`)

A `NetParser` consumes a buffer from the front and remembers that it ran out of bytes; from then on
every read gives zero. Its `Buffer` is kept as the bytes still in it. `as_string` is left out.

What a `NetUnparser` wrote, a `NetParser` without an error reads back: `u8_append`, `u16_append`,
`u32_append` and, for an array of bytes, `u8s_append`. Of any string that is long enough, it reads
the fields at their offsets: `u8_drop`, `u16_drop`, `u32_drop`. Of one that is not, some read fails
and every later one keeps the error: `error_foldl_removePrefix`.
-/

namespace Sponge

open BigEndian

/-- The result of parsing or unparsing an IP datagram, TCP segment, Ethernet frame, or ARP
message. -/
inductive ParseResult where
  | noError
  | badChecksum
  | packetTooShort
  | wrongIPVersion
  | headerTooShort
  | truncatedPacket
  | unsupported
deriving DecidableEq, Repr

structure NetParser where
  buffer : List UInt8
  /-- Result of parsing so far. -/
  error : ParseResult := .noError
deriving DecidableEq, Repr

namespace NetParser

/-- `error()`: there has been an error. -/
def hasError (p : NetParser) : Bool := p.error != .noError

/-- `_check_size`: is there sufficient data to parse the next token? -/
def checkSize (p : NetParser) (size : Nat) : NetParser :=
  if size > p.buffer.length then { p with error := .packetTooShort } else p

/-- `_parse_int` of a type of `len` bytes. The result is a number: the shifts and additions of the
source are modulo the width of the type, which `u8`, `u16` and `u32` take at the end. -/
def parseInt (len : Nat) (p : NetParser) : Nat × NetParser :=
  let p := p.checkSize len
  if p.hasError then (0, p)
  else (ofBytes (p.buffer.take len), { p with buffer := p.buffer.drop len })

def u32 (p : NetParser) : UInt32 × NetParser :=
  let (n, p) := p.parseInt 4
  (UInt32.ofNat n, p)

def u16 (p : NetParser) : UInt16 × NetParser :=
  let (n, p) := p.parseInt 2
  (UInt16.ofNat n, p)

def u8 (p : NetParser) : UInt8 × NetParser :=
  let (n, p) := p.parseInt 1
  (UInt8.ofNat n, p)

/-- `for (auto &byte : array) byte = p.u8()`. -/
def u8s : (n : Nat) → NetParser → Vector UInt8 n × NetParser
  | 0, p => (#v[], p)
  | n + 1, p =>
    let (bytes, p) := u8s n p
    let (byte, p) := p.u8
    (bytes.push byte, p)

/-- Remove `n` bytes from the buffer. -/
def removePrefix (p : NetParser) (n : Nat) : NetParser :=
  let p := p.checkSize n
  if p.hasError then p else { p with buffer := p.buffer.drop n }

end NetParser

namespace NetUnparser

def u32 (s : List UInt8) (val : UInt32) : List UInt8 := s ++ toBytes 4 val.toNat

def u16 (s : List UInt8) (val : UInt16) : List UInt8 := s ++ toBytes 2 val.toNat

def u8 (s : List UInt8) (val : UInt8) : List UInt8 := s ++ toBytes 1 val.toNat

/-- `for (auto &byte : array) NetUnparser::u8(s, byte)`. -/
def u8s {n : Nat} (s : List UInt8) (val : Vector UInt8 n) : List UInt8 := val.toList.foldl u8 s

end NetUnparser

/-! ## Reading back -/

theorem toNat_mod_u32 (val : UInt32) : val.toNat % 256 ^ 4 = val.toNat :=
  Nat.mod_eq_of_lt val.toNat_lt

theorem toNat_mod_u16 (val : UInt16) : val.toNat % 256 ^ 2 = val.toNat :=
  Nat.mod_eq_of_lt val.toNat_lt

theorem toNat_mod_u8 (val : UInt8) : val.toNat % 256 ^ 1 = val.toNat :=
  Nat.mod_eq_of_lt val.toNat_lt

theorem field_u32 (val : UInt32) (rest : List UInt8) :
    field (toBytes 4 val.toNat ++ rest) 0 4 = val.toNat := by
  rw [field_toBytes, toNat_mod_u32]

theorem field_u16 (val : UInt16) (rest : List UInt8) :
    field (toBytes 2 val.toNat ++ rest) 0 2 = val.toNat := by
  rw [field_toBytes, toNat_mod_u16]

theorem field_u8 (val : UInt8) (rest : List UInt8) :
    field (toBytes 1 val.toNat ++ rest) 0 1 = val.toNat := by
  rw [field_toBytes, toNat_mod_u8]

namespace NetParser

theorem parseInt_append (bs rest : List UInt8) :
    parseInt bs.length ⟨bs ++ rest, .noError⟩ = (ofBytes bs, ⟨rest, .noError⟩) := by
  have hsize : checkSize ⟨bs ++ rest, .noError⟩ bs.length = ⟨bs ++ rest, .noError⟩ :=
    if_neg (by simp)
  simp [parseInt, hasError, hsize]

theorem parseInt_toBytes (len n : Nat) (rest : List UInt8) :
    parseInt len ⟨toBytes len n ++ rest, .noError⟩ = (n % 256 ^ len, ⟨rest, .noError⟩) := by
  have h := parseInt_append (toBytes len n) rest
  rwa [length_toBytes, ofBytes_toBytes] at h

@[simp] theorem u32_append (val : UInt32) (rest : List UInt8) :
    u32 ⟨toBytes 4 val.toNat ++ rest, .noError⟩ = (val, ⟨rest, .noError⟩) := by
  simp only [u32, parseInt_toBytes, toNat_mod_u32, UInt32.ofNat_toNat]

@[simp] theorem u16_append (val : UInt16) (rest : List UInt8) :
    u16 ⟨toBytes 2 val.toNat ++ rest, .noError⟩ = (val, ⟨rest, .noError⟩) := by
  simp only [u16, parseInt_toBytes, toNat_mod_u16, UInt16.ofNat_toNat]

@[simp] theorem u8_append (val : UInt8) (rest : List UInt8) :
    u8 ⟨toBytes 1 val.toNat ++ rest, .noError⟩ = (val, ⟨rest, .noError⟩) := by
  simp only [u8, parseInt_toBytes, toNat_mod_u8, UInt8.ofNat_toNat]

end NetParser

/-! ## Reading any string -/

namespace NetParser

@[simp] theorem parseInt_snd (len : Nat) (p : NetParser) :
    (p.parseInt len).2 = p.removePrefix len := by
  unfold parseInt removePrefix
  dsimp only
  split <;> rfl

@[simp] theorem u32_snd (p : NetParser) : p.u32.2 = p.removePrefix 4 := parseInt_snd 4 p

@[simp] theorem u16_snd (p : NetParser) : p.u16.2 = p.removePrefix 2 := parseInt_snd 2 p

@[simp] theorem u8_snd (p : NetParser) : p.u8.2 = p.removePrefix 1 := parseInt_snd 1 p

theorem removePrefix_of_le {b : List UInt8} {n : Nat} (h : n ≤ b.length) :
    removePrefix ⟨b, .noError⟩ n = ⟨b.drop n, .noError⟩ := by
  have hsize : checkSize ⟨b, .noError⟩ n = ⟨b, .noError⟩ := if_neg (by simpa using h)
  simp [removePrefix, hasError, hsize]

theorem removePrefix_of_lt {b : List UInt8} {n : Nat} (h : b.length < n) :
    removePrefix ⟨b, .noError⟩ n = ⟨b, .packetTooShort⟩ := by
  have hsize : checkSize ⟨b, .noError⟩ n = ⟨b, .packetTooShort⟩ := if_pos h
  simp [removePrefix, hasError, hsize]

theorem removePrefix_of_short (b : List UInt8) (n : Nat) :
    removePrefix ⟨b, .packetTooShort⟩ n = ⟨b, .packetTooShort⟩ := by
  have hsize : checkSize ⟨b, .packetTooShort⟩ n = ⟨b, .packetTooShort⟩ := by simp [checkSize]
  simp [removePrefix, hasError, hsize]

theorem foldl_removePrefix_of_short (b : List UInt8) (ns : List Nat) :
    ns.foldl removePrefix ⟨b, .packetTooShort⟩ = ⟨b, .packetTooShort⟩ := by
  induction ns with
  | nil => rfl
  | cons n ns ih => rw [List.foldl_cons, removePrefix_of_short, ih]

/-- **Reads one after the other** fail exactly if one of all their lengths together fails. -/
theorem error_foldl_removePrefix (b : List UInt8) (ns : List Nat) :
    (ns.foldl removePrefix ⟨b, .noError⟩).error = (removePrefix ⟨b, .noError⟩ ns.sum).error := by
  induction ns generalizing b with
  | nil => simp [removePrefix_of_le]
  | cons n ns ih =>
    rw [List.foldl_cons, List.sum_cons]
    by_cases hn : n ≤ b.length
    · rw [removePrefix_of_le hn, ih]
      by_cases hns : n + ns.sum ≤ b.length
      · rw [removePrefix_of_le hns, removePrefix_of_le (by rw [List.length_drop]; omega)]
      · rw [removePrefix_of_lt (Nat.lt_of_not_le hns),
          removePrefix_of_lt (by rw [List.length_drop]; omega)]
    · rw [removePrefix_of_lt (Nat.lt_of_not_le hn), foldl_removePrefix_of_short,
        removePrefix_of_lt (by omega)]

theorem parseInt_drop {b : List UInt8} {off len : Nat} (h : off + len ≤ b.length) :
    parseInt len ⟨b.drop off, .noError⟩ = (field b off len, ⟨b.drop (off + len), .noError⟩) := by
  have hsize : checkSize ⟨b.drop off, .noError⟩ len = ⟨b.drop off, .noError⟩ :=
    if_neg (by simp; omega)
  simp [parseInt, hasError, hsize, field, List.drop_drop]

theorem u32_drop {b : List UInt8} {off : Nat} (h : off + 4 ≤ b.length) :
    u32 ⟨b.drop off, .noError⟩ = (UInt32.ofNat (field b off 4), ⟨b.drop (off + 4), .noError⟩) := by
  simp [u32, parseInt_drop h]

theorem u16_drop {b : List UInt8} {off : Nat} (h : off + 2 ≤ b.length) :
    u16 ⟨b.drop off, .noError⟩ = (UInt16.ofNat (field b off 2), ⟨b.drop (off + 2), .noError⟩) := by
  simp [u16, parseInt_drop h]

theorem u8_drop {b : List UInt8} {off : Nat} (h : off + 1 ≤ b.length) :
    u8 ⟨b.drop off, .noError⟩ = (UInt8.ofNat (field b off 1), ⟨b.drop (off + 1), .noError⟩) := by
  simp [u8, parseInt_drop h]

end NetParser

/-! ## Arrays of bytes -/

theorem NetUnparser.u8s_eq {n : Nat} (s : List UInt8) (val : Vector UInt8 n) :
    u8s s val = s ++ val.toList := by
  have hbyte : ∀ (l s : List UInt8), l.foldl u8 s = s ++ l := by
    intro l
    induction l with
    | nil => simp
    | cons b l ih => simp [u8, ih, toBytes]
  exact hbyte val.toList s

@[simp] theorem NetParser.u8s_append {n : Nat} (val : Vector UInt8 n) (rest : List UInt8) :
    u8s n ⟨val.toList ++ rest, .noError⟩ = (val, ⟨rest, .noError⟩) := by
  induction n generalizing rest with
  | zero =>
    obtain rfl : val = #v[] := by simp
    simp [u8s]
  | succ n ih =>
    obtain ⟨bytes, byte, rfl⟩ : ∃ bytes byte, val = Vector.push bytes byte :=
      ⟨val.pop, val.back, by simp⟩
    have hlast : (bytes.push byte).toList = bytes.toList ++ toBytes 1 byte.toNat := by
      simp [toBytes, Vector.toList_push]
    simp only [u8s, hlast, List.append_assoc, ih, u8_append]

/-! ## Every string begins with a field -/

theorem exists_u32 {b : List UInt8} (h : 4 ≤ b.length) :
    ∃ (val : UInt32) (rest : List UInt8),
      b = toBytes 4 val.toNat ++ rest ∧ rest.length = b.length - 4 := by
  obtain ⟨n, rest, hn, hb, hrest⟩ := exists_toBytes h
  refine ⟨UInt32.ofNat n, rest, ?_, hrest⟩
  rw [UInt32.toNat_ofNat_of_lt' hn, ← hb]

theorem exists_u16 {b : List UInt8} (h : 2 ≤ b.length) :
    ∃ (val : UInt16) (rest : List UInt8),
      b = toBytes 2 val.toNat ++ rest ∧ rest.length = b.length - 2 := by
  obtain ⟨n, rest, hn, hb, hrest⟩ := exists_toBytes h
  refine ⟨UInt16.ofNat n, rest, ?_, hrest⟩
  rw [UInt16.toNat_ofNat_of_lt' hn, ← hb]

theorem exists_u8 {b : List UInt8} (h : 1 ≤ b.length) :
    ∃ (val : UInt8) (rest : List UInt8),
      b = toBytes 1 val.toNat ++ rest ∧ rest.length = b.length - 1 := by
  obtain ⟨n, rest, hn, hb, hrest⟩ := exists_toBytes h
  refine ⟨UInt8.ofNat n, rest, ?_, hrest⟩
  rw [UInt8.toNat_ofNat_of_lt' hn, ← hb]

theorem exists_u8s {n : Nat} {b : List UInt8} (h : n ≤ b.length) :
    ∃ (val : Vector UInt8 n) (rest : List UInt8),
      b = val.toList ++ rest ∧ rest.length = b.length - n :=
  ⟨⟨(b.take n).toArray, by simp [h]⟩, b.drop n, by simp, by simp⟩

end Sponge
