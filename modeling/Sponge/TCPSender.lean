import Sponge.ByteStream
import Sponge.TCPSegment

/-!
# The TCP sender (`libsponge/tcp_sender.hh`, `tcp_sender.cc`)

`_next_seqno` and `_bytes_in_flight` count bytes sent and are `Nat`. The room in the window is
the 64-bit difference `_receiver_window_size - _bytes_in_flight` (`remain`), which wraps when
more is in flight than the window allows. `_tick` is a `size_t`, `_rto` an `unsigned int`,
`_consecutive_retransmissions` a `uint16_t`: their updates are reduced to 64, 32 and 16 bits.
A moved-from `std::string` is taken as empty.
-/

namespace Sponge

/-- Divides a `ByteStream` up into segments, keeps track of those in flight and retransmits them
when the retransmission timer expires. -/
structure TCPSender where
  isn : WrappingInt32
  segmentsOut : List TCPSegment
  initialRetransmissionTimeout : Nat
  stream : ByteStream
  nextSeqno : Nat
  segmentsOutstanding : List TCPSegment
  bytesInFlight : Nat
  receiverWindowSize : UInt16
  consecutiveRetransmissions : Nat
  rto : Nat
  tickField : Nat
  timerRunning : Bool
  synFlag : Bool
  finFlag : Bool

namespace TCPSender

/-- `TCPSender(capacity, retx_timeout, fixed_isn)`; `random` is what `random_device` returns. -/
def new (capacity : UInt64) (retxTimeout : UInt16) (fixedIsn : Option WrappingInt32)
    (random : UInt32) : TCPSender where
  isn := fixedIsn.getD ⟨random⟩
  segmentsOut := []
  initialRetransmissionTimeout := retxTimeout.toNat
  stream := .new capacity
  nextSeqno := 0
  segmentsOutstanding := []
  bytesInFlight := 0
  receiverWindowSize := 1
  consecutiveRetransmissions := 0
  rto := 0
  tickField := 0
  timerRunning := false
  synFlag := false
  finFlag := false

/-- `if(!_timer_running) { ... }`, at the end of each of the three branches that send. -/
def startTimer (s : TCPSender) : TCPSender :=
  if s.timerRunning = false then
    { s with timerRunning := true, rto := s.initialRetransmissionTimeout, tickField := 0 }
  else s

/-- The first branch of `fill_window`: the SYN. -/
def sendSyn (s : TCPSender) : TCPSender :=
  let seg : TCPSegment := { header := { syn := true, seqno := s.isn } }
  startTimer
    { s with
      synFlag := true
      segmentsOut := s.segmentsOut ++ [seg]
      segmentsOutstanding := s.segmentsOutstanding ++ [seg]
      nextSeqno := 1
      bytesInFlight := seg.lengthInSequenceSpace }

/-- `_receiver_window_size - _bytes_in_flight` in `uint64_t`, plus one for a zero window. -/
def remain (s : TCPSender) : Nat :=
  let window : Int := s.receiverWindowSize.toNat + (if s.receiverWindowSize = 0 then 1 else 0)
  ((window - s.bytesInFlight) % 2 ^ 64).toNat

/-- The segment that a round of the loop in `fill_window` sends. -/
def dataSegment (s : TCPSender) (remain : Nat) : TCPSegment :=
  let (payload, stream) := s.stream.read (min remain TCPConfig.maxPayloadSize)
  -- `payload` has been moved into the segment when its size is added here
  let fin := stream.eof && decide (remain - payload.length ≥ 0 + 1)
  { header := { seqno := wrap s.nextSeqno s.isn, fin := fin }, payload := payload }

/-- One round of the loop in `fill_window`: the room left and the sender. -/
def sendData (s : TCPSender) (remain : Nat) : Nat × TCPSender :=
  let seg := s.dataSegment remain
  (remain - seg.payload.length,
    startTimer
      { s with
        stream := (s.stream.read (min remain TCPConfig.maxPayloadSize)).2
        nextSeqno := unwrap seg.header.seqno s.isn s.nextSeqno + seg.payload.length
          + (if seg.header.fin then 1 else 0)
        finFlag := s.finFlag || seg.header.fin
        segmentsOutstanding := s.segmentsOutstanding ++ [seg]
        segmentsOut := s.segmentsOut ++ [seg]
        bytesInFlight := s.bytesInFlight + seg.lengthInSequenceSpace })

/-- The loop of `fill_window`. Every round takes at least one byte of the stream, which bounds
the rounds (`fillLoop_exits`). -/
def fillLoop : Nat → Nat → TCPSender → Nat × TCPSender
  | 0, remain, s => (remain, s)
  | fuel + 1, remain, s =>
    if remain > 0 ∧ s.stream.bufferSize > 0 then
      let p := s.sendData remain
      fillLoop fuel p.1 p.2
    else (remain, s)

/-- The last branch of `fill_window`: a segment with only the FIN. -/
def sendFin (s : TCPSender) : TCPSender :=
  let seg : TCPSegment := { header := { seqno := wrap s.nextSeqno s.isn, fin := true } }
  startTimer
    { s with
      finFlag := true
      segmentsOutstanding := s.segmentsOutstanding ++ [seg]
      segmentsOut := s.segmentsOut ++ [seg]
      bytesInFlight := s.bytesInFlight + seg.lengthInSequenceSpace
      nextSeqno := s.nextSeqno + 1 }

/-- Create and send segments to fill as much of the window as possible. -/
def fillWindow (s : TCPSender) : TCPSender :=
  if s.synFlag = false then s.sendSyn
  else
    let p := fillLoop s.stream.bufferSize s.remain s
    if p.2.finFlag = false ∧ p.2.stream.eof = true ∧ p.1 ≠ 0 then p.2.sendFin else p.2

/-- `unwrap(seqno, _isn, _next_seqno)` of an outstanding segment. -/
def absSeqno (s : TCPSender) (seg : TCPSegment) : Nat := unwrap seg.header.seqno s.isn s.nextSeqno

/-- The test by which `ack_received` pops the segment `t`. -/
def acked (s : TCPSender) (unwrapAckno : Nat) (t : TCPSegment) : Bool :=
  decide (s.absSeqno t + t.lengthInSequenceSpace - 1 < unwrapAckno)

/-- The loop of `ack_received` over the outstanding segments. -/
def ackLoop (unwrapAckno : Nat) : List TCPSegment → TCPSender → TCPSender
  | [], s => s
  | t :: rest, s =>
    if s.acked unwrapAckno t then
      ackLoop unwrapAckno rest
        { s with
          bytesInFlight := s.bytesInFlight - t.lengthInSequenceSpace
          segmentsOutstanding := rest
          tickField := 0
          rto := s.initialRetransmissionTimeout
          consecutiveRetransmissions := 0 }
    else s

/-- `if(!_bytes_in_flight) _timer_running = false`. -/
def stopTimer (s : TCPSender) : TCPSender :=
  if s.bytesInFlight = 0 then { s with timerRunning := false } else s

/-- The early return of `ack_received` for an acknowledgment beyond what was sent, or whose
window ends before the oldest outstanding segment `t`.
`unwrap_ackno + window_size - 1 + (window_size ? 0 : 1)` is `unwrap_ackno` for a zero window. -/
def ackIgnored (s : TCPSender) (unwrapAckno : Nat) (windowSize : UInt16) (t : TCPSegment) : Bool :=
  decide (unwrapAckno > s.nextSeqno) ||
    decide (unwrapAckno + (if windowSize = 0 then 0 else windowSize.toNat - 1) <
      s.absSeqno t + t.lengthInSequenceSpace)

/-- A new acknowledgment was received. -/
def ackReceived (s : TCPSender) (ackno : WrappingInt32) (windowSize : UInt16) : TCPSender :=
  let unwrapAckno := unwrap ackno s.isn s.nextSeqno
  let s := if unwrapAckno = s.nextSeqno ∧ windowSize ≠ s.receiverWindowSize then
    { s with receiverWindowSize := windowSize } else s
  match s.segmentsOutstanding with
  | [] => s
  | t :: _ =>
    if s.ackIgnored unwrapAckno windowSize t then s
    else
      let s := { s with receiverWindowSize := windowSize }
      (ackLoop unwrapAckno s.segmentsOutstanding s).stopTimer.fillWindow

/-- Notifies the sender of the passage of time. -/
def tick (s : TCPSender) (msSinceLastTick : Nat) : TCPSender :=
  let s := { s with tickField := (s.tickField + msSinceLastTick) % 2 ^ 64 }
  match s.segmentsOutstanding with
  | [] => s
  | t :: _ =>
    if s.tickField ≥ s.rto then
      let s := { s with segmentsOut := s.segmentsOut ++ [t] }
      let s := if s.receiverWindowSize ≠ 0 ∨ t.header.syn = true then
        { s with
          consecutiveRetransmissions := (s.consecutiveRetransmissions + 1) % 2 ^ 16
          rto := (s.rto * 2) % 2 ^ 32 }
        else s
      { s with tickField := 0 }
    else s

/-- Generate an empty-payload segment. -/
def sendEmptySegment (s : TCPSender) : TCPSender :=
  let seg : TCPSegment := { header := { seqno := wrap s.nextSeqno s.isn } }
  { s with segmentsOut := s.segmentsOut ++ [seg] }

end TCPSender

end Sponge
