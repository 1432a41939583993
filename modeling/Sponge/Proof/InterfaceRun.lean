import Sponge.Lib.Run
import Sponge.Proof.Interface

/-!
# Runs of a network interface with their history

An `IfaceRun` keeps beside the interface what its owner passed to it and what it emitted, with the
time. An IPv4 frame does not name its next hop: it is the address `send_datagram` was called with,
and for the frames released by an ARP message its sender.
-/

namespace Sponge

/-- A frame that was queued for transmission. -/
structure Emission where
  /-- The milliseconds ticked so far, with the call that emitted it. -/
  time : ℕ
  /-- The length of the tick that emitted it; zero for another call. -/
  tick : ℕ
  /-- The IP address of the next hop, for an IPv4 frame. -/
  nextHop : UInt32
  frame : EthernetFrame

namespace IfaceOp

/-- The time that passes in a call. -/
def ms : IfaceOp → ℕ
  | .tick ms => ms
  | _ => 0

/-- The datagram a call passes to `send_datagram`, with its next hop. -/
def passes : IfaceOp → List (UInt32 × InternetDatagram)
  | .sendDatagram dgram nextHop => [(nextHop.ip, dgram)]
  | _ => []

/-- The datagram a call passes to `send_datagram` for a next hop. -/
def passesFor (op : IfaceOp) (ip : UInt32) : List InternetDatagram :=
  (op.passes.filter fun p => p.1 == ip).map Prod.snd

end IfaceOp

namespace NetworkInterface

/-- The ARP message that is accepted in a call. -/
def hears (ni : NetworkInterface) : IfaceOp → Option ARPMessage
  | .recvFrame frame => ni.accepted frame
  | _ => none

/-- The datagrams that wait for a next hop. -/
def waitingFor (ni : NetworkInterface) (ip : UInt32) : List InternetDatagram :=
  (ni.waitingArpInternetDatagrams.filter fun w => w.1.ip == ip).map Prod.snd

/-- The next hop of the IPv4 frames of a call. -/
def nextHopOf (ni : NetworkInterface) : IfaceOp → UInt32
  | .sendDatagram _ nextHop => nextHop.ip
  | op => ((ni.hears op).map ARPMessage.senderIpAddress).getD 0

end NetworkInterface

/-- A network interface and its history. -/
structure IfaceRun where
  ni : NetworkInterface
  /-- The milliseconds ticked so far. -/
  now : ℕ
  /-- The datagrams passed to `send_datagram`, with their next hops. -/
  passed : List (UInt32 × InternetDatagram)
  /-- The ARP messages accepted, the latest first, with the time. -/
  messages : List (ℕ × ARPMessage)
  out : List Emission

namespace IfaceRun

def new (ethernetAddress : EthernetAddress) (ipAddress : Address) : IfaceRun where
  ni := .new ethernetAddress ipAddress
  now := 0
  passed := []
  messages := []
  out := []

/-- The frames of a call, with the time. -/
def emissions (r : IfaceRun) (op : IfaceOp) : List Emission :=
  (r.ni.emitted op).map fun frame => ⟨r.now + op.ms, op.ms, r.ni.nextHopOf op, frame⟩

def step (r : IfaceRun) (op : IfaceOp) : IfaceRun where
  ni := r.ni.step op
  now := r.now + op.ms
  passed := r.passed ++ op.passes
  messages := (r.ni.hears op).toList.map (fun arpMsg => (r.now, arpMsg)) ++ r.messages
  out := r.out ++ r.emissions op

/-- The datagrams passed for a next hop, in call order. -/
def passedFor (r : IfaceRun) (ip : UInt32) : List InternetDatagram :=
  (r.passed.filter fun p => p.1 == ip).map Prod.snd

/-- The IPv4 frames emitted for a next hop, in order. -/
def framesFor (r : IfaceRun) (ip : UInt32) : List EthernetFrame :=
  (r.out.filter fun e => e.nextHop == ip && e.frame.isIPv4).map Emission.frame

/-- The latest accepted ARP message from `ip`, with the time it was received. -/
def latest (r : IfaceRun) (ip : UInt32) : Option (ℕ × ARPMessage) :=
  r.messages.find? fun m => m.2.senderIpAddress == ip

end IfaceRun

end Sponge
