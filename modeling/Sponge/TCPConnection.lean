import Sponge.TCPReceiver
import Sponge.TCPSender

/-!
# A TCP endpoint (`libsponge/tcp_connection.hh`, `tcp_connection.cc`)

`ConnOp` collects the calls of the owner and of the application: the public operations, reading
from `inbound_stream()` and popping `segments_out()`. The destructor is not among them: it is
modelled with the owner that calls it (`TCPSpongeSocket`).
-/

namespace Sponge

/-- A complete endpoint of a TCP connection. -/
@[ext]
structure TCPConnection where
  cfg : TCPConfig
  receiver : TCPReceiver
  sender : TCPSender
  segmentsOut : List TCPSegment
  lingerAfterStreamsFinish : Bool
  timeSinceLastSegmentReceived : Nat
  activeFlag : Bool
  needSendRst : Bool

namespace TCPConnection

/-- A new connection from a configuration; `random` is what the sender's `random_device`
returns. -/
def new (cfg : TCPConfig) (random : UInt32) : TCPConnection where
  cfg := cfg
  receiver := .new cfg.recvCapacity
  sender := .new cfg.sendCapacity cfg.rtTimeout cfg.fixedIsn random
  segmentsOut := []
  lingerAfterStreamsFinish := true
  timeSinceLastSegmentReceived := 0
  activeFlag := true
  needSendRst := false

def active (c : TCPConnection) : Bool := c.activeFlag

def bytesInFlight (c : TCPConnection) : Nat := c.sender.bytesInFlight

def unassembledBytes (c : TCPConnection) : Nat := c.receiver.unassembledBytes

def inboundStream (c : TCPConnection) : ByteStream := c.receiver.streamOut

def remainingOutboundCapacity (c : TCPConnection) : Nat := c.sender.stream.remainingCapacity

/-- `clean_shutdown`. -/
def cleanShutdown (c : TCPConnection) : TCPConnection :=
  if c.receiver.streamOut.inputEnded then
    if c.sender.finFlag = false then { c with lingerAfterStreamsFinish := false }
    else if c.sender.bytesInFlight = 0 then
      if c.lingerAfterStreamsFinish = false ∨
          c.timeSinceLastSegmentReceived ≥ 10 * c.cfg.rtTimeout.toNat then
        { c with activeFlag := false }
      else c
    else c
  else c

/-- The fields of an outgoing segment that the connection fills in: ackno and window size once
the peer's SYN is known, and RST. -/
def fillFields (receiver : TCPReceiver) (rst : Bool) (seg : TCPSegment) : TCPSegment :=
  let seg := match receiver.ackno with
    | some ackno =>
      { seg with header := { seg.header with
          ack := true, ackno := ackno, win := UInt16.ofNat receiver.windowSize } }
    | none => seg
  if rst then { seg with header := { seg.header with rst := true } } else seg

/-- The loop of `send_sender_segments`: it moves the sender's queue to the connection's. -/
def moveSegments : List TCPSegment → TCPConnection → TCPConnection
  | [], c => c
  | seg :: rest, c =>
    moveSegments rest
      { c with
        sender := { c.sender with segmentsOut := rest }
        segmentsOut := c.segmentsOut ++ [fillFields c.receiver c.needSendRst seg]
        needSendRst := false }

/-- `send_sender_segments`. -/
def sendSenderSegments (c : TCPConnection) : TCPConnection :=
  let c := if c.sender.segmentsOut.isEmpty && c.needSendRst then
    { c with sender := c.sender.sendEmptySegment } else c
  (moveSegments c.sender.segmentsOut c).cleanShutdown

/-- `unclean_shutdown(rst)`. -/
def uncleanShutdown (c : TCPConnection) (rst : Bool) : TCPConnection :=
  sendSenderSegments
    { c with
      sender := { c.sender with stream := c.sender.stream.setError }
      receiver := { c.receiver with
        reassembler := { c.receiver.reassembler with
          output := c.receiver.reassembler.output.setError } }
      activeFlag := false
      needSendRst := rst }

/-- Initiate a connection by sending a SYN segment. -/
def connect (c : TCPConnection) : TCPConnection :=
  sendSenderSegments { c with sender := c.sender.fillWindow }

/-- Write data to the outbound byte stream, and send it over TCP if possible; the number of
bytes accepted. -/
def write (c : TCPConnection) (data : List UInt8) : Nat × TCPConnection :=
  if data.isEmpty then (0, c)
  else
    let (ret, stream) := c.sender.stream.write data
    (ret, sendSenderSegments { c with sender := { c.sender with stream := stream }.fillWindow })

/-- Shut down the outbound byte stream (still allows reading incoming data). -/
def endInputStream (c : TCPConnection) : TCPConnection :=
  sendSenderSegments
    { c with sender := { c.sender with stream := c.sender.stream.endInput }.fillWindow }

/-- `segment_received` in `LISTEN`: only a SYN opens the connection. -/
def listenReceived (c : TCPConnection) (seg : TCPSegment) : TCPConnection :=
  if seg.header.rst then c
  else if seg.header.syn = false then c
  else connect { c with receiver := c.receiver.segmentReceived seg }

/-- A SYN without ACK while our SYN is unacknowledged (simultaneous open). -/
def simultaneousOpen (c : TCPConnection) (seg : TCPSegment) : TCPConnection :=
  if seg.header.syn then
    sendSenderSegments
      { c with
        receiver := c.receiver.segmentReceived seg
        sender := c.sender.sendEmptySegment }
  else c

/-- The end of `segment_received`: the segment goes to the receiver and, with the ACK flag, its
ackno and window go to the sender. -/
def exchange (c : TCPConnection) (seg : TCPSegment) : TCPConnection :=
  let c := { c with receiver := c.receiver.segmentReceived seg }
  if seg.header.ack then
    let sender := c.sender.ackReceived seg.header.ackno seg.header.win
    let sender := if decide (seg.lengthInSequenceSpace > 0) && sender.segmentsOut.isEmpty then
      sender.sendEmptySegment else sender
    sendSenderSegments { c with sender := sender }
  else c

/-- `_sender.next_seqno_absolute() == 0 && !_receiver.ackno().has_value()`. -/
def inListen (c : TCPConnection) : Bool :=
  c.sender.nextSeqno == 0 && c.receiver.ackno.isNone

/-- `_sender.next_seqno_absolute() > 0 && _sender.bytes_in_flight() == next_seqno_absolute()`. -/
def synUnacked (c : TCPConnection) : Bool :=
  decide (c.sender.nextSeqno > 0) && c.sender.bytesInFlight == c.sender.nextSeqno

/-- Called when a new segment has been received from the network. -/
def segmentReceived (c : TCPConnection) (seg : TCPSegment) : TCPConnection :=
  if c.activeFlag = false then c
  else
    let c := { c with timeSinceLastSegmentReceived := 0 }
    if c.inListen then c.listenReceived seg
    else if seg.header.rst then c.uncleanShutdown false
    else if c.synUnacked && decide (seg.payload.length > 0) then c
    else if c.synUnacked && !seg.header.ack then c.simultaneousOpen seg
    else c.exchange seg

/-- Called periodically when time elapses. -/
def tick (c : TCPConnection) (msSinceLastTick : Nat) : TCPConnection :=
  if c.activeFlag = false then c
  else
    let c := { c with
      timeSinceLastSegmentReceived := (c.timeSinceLastSegmentReceived + msSinceLastTick) % 2 ^ 64
      sender := c.sender.tick msSinceLastTick }
    let c := if c.sender.consecutiveRetransmissions > TCPConfig.maxRetxAttempts then
      c.uncleanShutdown true else c
    c.sendSenderSegments

/-- The application pops `n` bytes of the inbound stream. -/
def read (c : TCPConnection) (n : Nat) : TCPConnection :=
  { c with receiver := c.receiver.popOutput n }

end TCPConnection

/-- The calls a connection can receive. -/
inductive ConnOp where
  | connect
  | write (data : List UInt8)
  | endInputStream
  | segmentReceived (seg : TCPSegment)
  | tick (ms : Nat)
  | read (n : Nat)
  | popSegment
deriving DecidableEq, Repr

/-- One call. -/
def TCPConnection.step (c : TCPConnection) : ConnOp → TCPConnection
  | .connect => c.connect
  | .write data => (c.write data).2
  | .endInputStream => c.endInputStream
  | .segmentReceived seg => c.segmentReceived seg
  | .tick ms => c.tick ms
  | .read n => c.read n
  | .popSegment => { c with segmentsOut := c.segmentsOut.tail }

/-- The bytes that a call adds to the outbound stream. -/
def TCPConnection.accepted (c : TCPConnection) : ConnOp → List UInt8
  | .write data => data.take (c.write data).1
  | _ => []

/-- The bytes that a call takes off the inbound stream. -/
def TCPConnection.taken (c : TCPConnection) : ConnOp → List UInt8
  | .read n => (c.inboundStream.read n).1
  | _ => []

end Sponge
