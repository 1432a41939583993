import Sponge.TCPConnection

/-!
# The official TCP states (`libsponge/tcp_helpers/tcp_state.hh`, `tcp_state.cc`)

A `TCPState` summarizes a sender and a receiver by a text each, with the connection's `active`
and `linger_after_streams_finish` bits. The texts are the enumerations `TCPSenderStateSummary`
and `TCPReceiverStateSummary`; `text_injective` shows that comparing them is comparing the texts.
-/

namespace Sponge

inductive TCPReceiverStateSummary where
  | error | listen | synRecv | finRecv
deriving DecidableEq, Repr

inductive TCPSenderStateSummary where
  | error | closed | synSent | synAcked | finSent | finAcked
deriving DecidableEq, Repr

def TCPReceiverStateSummary.text : TCPReceiverStateSummary → String
  | .error => "error (connection was reset)"
  | .listen => "waiting for SYN: ackno is empty"
  | .synRecv => "SYN received (ackno exists), and input to stream hasn't ended"
  | .finRecv => "input to stream has ended"

def TCPSenderStateSummary.text : TCPSenderStateSummary → String
  | .error => "error (connection was reset)"
  | .closed => "waiting for stream to begin (no SYN sent)"
  | .synSent => "stream started but nothing acknowledged"
  | .synAcked => "stream ongoing"
  | .finSent => "stream finished (FIN sent) but not fully acknowledged"
  | .finAcked => "stream finished and fully acknowledged"

theorem TCPReceiverStateSummary.text_injective : Function.Injective text := by
  intro a b h
  cases a <;> cases b <;> first | rfl | exact absurd h (by decide)

theorem TCPSenderStateSummary.text_injective : Function.Injective text := by
  intro a b h
  cases a <;> cases b <;> first | rfl | exact absurd h (by decide)

/-- Summary of a `TCPConnection`'s internal state. -/
structure TCPState where
  sender : TCPSenderStateSummary
  receiver : TCPReceiverStateSummary
  active : Bool := true
  lingerAfterStreamsFinish : Bool := true
deriving DecidableEq, Repr

/-- Official state names from the TCP specification. -/
inductive TCPState.State where
  | listen | synRcvd | synSent | established | closeWait | lastAck | finWait1 | finWait2
  | closing | timeWait | closed | reset
deriving DecidableEq, Repr

namespace TCPState

/-- `TCPState(const TCPState::State state)`. -/
def ofState : State → TCPState
  | .listen => { receiver := .listen, sender := .closed }
  | .synRcvd => { receiver := .synRecv, sender := .synSent }
  | .synSent => { receiver := .listen, sender := .synSent }
  | .established => { receiver := .synRecv, sender := .synAcked }
  | .closeWait => { receiver := .finRecv, sender := .synAcked, lingerAfterStreamsFinish := false }
  | .lastAck => { receiver := .finRecv, sender := .finSent, lingerAfterStreamsFinish := false }
  | .closing => { receiver := .finRecv, sender := .finSent }
  | .finWait1 => { receiver := .synRecv, sender := .finSent }
  | .finWait2 => { receiver := .synRecv, sender := .finAcked }
  | .timeWait => { receiver := .finRecv, sender := .finAcked }
  | .reset =>
    { receiver := .error, sender := .error, lingerAfterStreamsFinish := false, active := false }
  | .closed =>
    { receiver := .finRecv, sender := .finAcked, lingerAfterStreamsFinish := false,
      active := false }

/-- Summarize the state of a `TCPReceiver`. -/
def receiverSummary (receiver : TCPReceiver) : TCPReceiverStateSummary :=
  if receiver.streamOut.error then .error
  else if receiver.ackno.isNone then .listen
  else if receiver.streamOut.inputEnded then .finRecv
  else .synRecv

/-- Summarize the state of a `TCPSender`. -/
def senderSummary (sender : TCPSender) : TCPSenderStateSummary :=
  if sender.stream.error then .error
  else if sender.nextSeqno = 0 then .closed
  else if sender.nextSeqno = sender.bytesInFlight then .synSent
  else if sender.stream.eof = false then .synAcked
  else if sender.nextSeqno < sender.stream.bytesWritten + 2 then .synAcked
  else if sender.bytesInFlight ≠ 0 then .finSent
  else .finAcked

/-- `TCPState(sender, receiver, active, linger)`. -/
def ofParts (sender : TCPSender) (receiver : TCPReceiver) (active linger : Bool) : TCPState where
  sender := senderSummary sender
  receiver := receiverSummary receiver
  active := active
  lingerAfterStreamsFinish := if active then linger else false

end TCPState

/-- Summarize the state of the sender, receiver, and the connection. -/
def TCPConnection.state (c : TCPConnection) : TCPState :=
  .ofParts c.sender c.receiver c.activeFlag c.lingerAfterStreamsFinish

end Sponge
