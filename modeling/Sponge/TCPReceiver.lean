import Sponge.StreamReassembler
import Sponge.TCPSegment

/-!
# The TCP receiver (`libsponge/tcp_receiver.hh`, `tcp_receiver.cc`)

The stream index of a segment's first byte is `seq_start - 1` in 64-bit arithmetic: a segment
whose sequence number unwraps to 0 has index `2 ^ 64 - 1`. `_capacity` is only stored and is left
out.
-/

namespace Sponge

/-- Reassembles segments into a `ByteStream`, and computes the acknowledgment number and window
size to advertise. -/
structure TCPReceiver where
  reassembler : StreamReassembler
  synFlag : Bool
  finFlag : Bool
  isn : WrappingInt32
  acknoField : WrappingInt32
  checkpoint : Nat

namespace TCPReceiver

/-- `TCPReceiver(const size_t capacity)`. -/
def new (capacity : UInt64) : TCPReceiver where
  reassembler := .new capacity
  synFlag := false
  finFlag := false
  isn := ⟨0⟩
  acknoField := ⟨0⟩
  checkpoint := 0

def streamOut (r : TCPReceiver) : ByteStream := r.reassembler.output

/-- The ackno to send to the peer; empty if no SYN has been received. -/
def ackno (r : TCPReceiver) : Option WrappingInt32 :=
  if r.synFlag = false then none else some r.acknoField

def windowSize (r : TCPReceiver) : Nat := r.streamOut.remainingCapacity

def unassembledBytes (r : TCPReceiver) : Nat := r.reassembler.unassembledBytes

/-- The absolute sequence number of the segment's first byte, `seq_start`. -/
def seqStart (r : TCPReceiver) (seg : TCPSegment) : Nat :=
  unwrap (seg.header.seqno + (if seg.header.syn then (1 : UInt32) else 0)) r.isn r.checkpoint

/-- `segment_received` after the early returns and the recording of the SYN. -/
def deliver (r : TCPReceiver) (seg : TCPSegment) : TCPReceiver :=
  let hdr := seg.header
  let reassembler :=
    r.reassembler.pushSubstring seg.payload ((r.seqStart seg + (2 ^ 64 - 1)) % 2 ^ 64) hdr.fin
  let fin := r.finFlag || (hdr.fin && reassembler.isEof)
  { r with
    reassembler := reassembler
    checkpoint := reassembler.firstUnassembledByte
    finFlag := fin
    acknoField :=
      if reassembler.empty && fin then wrap (reassembler.firstUnassembledByte + 2) r.isn
      else wrap (reassembler.firstUnassembledByte + 1) r.isn }

/-- Handle an inbound segment. -/
def segmentReceived (r : TCPReceiver) (seg : TCPSegment) : TCPReceiver :=
  let hdr := seg.header
  if hdr.syn = false ∧ r.synFlag = false then r
  else if r.streamOut.eof = true ∧ r.finFlag = true then r
  else
    let r := if hdr.syn = true ∧ r.synFlag = false then { r with isn := hdr.seqno, synFlag := true }
      else r
    r.deliver seg

/-- The reader pops `n` bytes of the inbound stream. -/
def popOutput (r : TCPReceiver) (n : Nat) : TCPReceiver :=
  { r with reassembler := r.reassembler.popOutput n }

end TCPReceiver

end Sponge
