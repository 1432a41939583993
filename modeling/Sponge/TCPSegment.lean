import Sponge.WrappingIntegers

/-!
# TCP headers, segments and configuration

`libsponge/tcp_helpers/tcp_header.hh`, `tcp_segment.hh`, `tcp_segment.cc` and `tcp_config.hh`.
A segment's payload is its `Buffer`'s bytes.
-/

namespace Sponge

/-- TCP segment header. -/
structure TCPHeader where
  sport : UInt16 := 0
  dport : UInt16 := 0
  seqno : WrappingInt32 := ⟨0⟩
  ackno : WrappingInt32 := ⟨0⟩
  doff : UInt8 := 20 / 4
  urg : Bool := false
  ack : Bool := false
  psh : Bool := false
  rst : Bool := false
  syn : Bool := false
  fin : Bool := false
  win : UInt16 := 0
  cksum : UInt16 := 0
  uptr : UInt16 := 0
deriving DecidableEq, Repr

/-- TCP segment. -/
structure TCPSegment where
  header : TCPHeader := {}
  payload : List UInt8 := []
deriving DecidableEq, Repr

/-- The payload's length, and one for each of SYN and FIN. -/
def TCPSegment.lengthInSequenceSpace (seg : TCPSegment) : Nat :=
  seg.payload.length + (if seg.header.syn then 1 else 0) + (if seg.header.fin then 1 else 0)

/-- Config for TCP sender and receiver. -/
structure TCPConfig where
  rtTimeout : UInt16 := 1000
  recvCapacity : UInt64 := 64000
  sendCapacity : UInt64 := 64000
  fixedIsn : Option WrappingInt32 := none
deriving DecidableEq, Repr

namespace TCPConfig

/-- `MAX_PAYLOAD_SIZE`: conservative max payload size for real Internet. -/
def maxPayloadSize : Nat := 1000

/-- `MAX_RETX_ATTEMPTS`: maximum re-transmit attempts before giving up. -/
def maxRetxAttempts : Nat := 8

end TCPConfig

end Sponge
