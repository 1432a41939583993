import Sponge.Router
import Mathlib.Logic.Function.Basic

/-!
# Hosts, routers and the links between them

A `Port` is where an interface is attached to a link: the one of a host, or one of a router's. What
an interface has put on its link may be delivered to any interface of that link, any number of times
and in any order, or never. As in `deliver` of `apps/network_simulator.cc`, the payload of a frame
is contiguous when it is received.
-/

namespace Sponge

/-- The frame as it is received: `payload() = payload().concatenate()`. -/
def EthernetFrame.contiguous (frame : EthernetFrame) : EthernetFrame :=
  { frame with payload := BufferList.ofString frame.payload.concatenate }

inductive Port (H R : Type) where
  | host (h : H)
  | router (r : R) (n : Nat)
deriving DecidableEq, Repr

/-- The hosts, each with one interface, the routers, and what every port has put on its link. -/
structure Internet (H R : Type) where
  hosts : H → AsyncNetworkInterface
  routers : R → Router
  wire : Port H R → List EthernetFrame := fun _ => []

namespace Internet

variable {H R : Type}

def interface (net : Internet H R) : Port H R → Option AsyncNetworkInterface
  | .host h => some (net.hosts h)
  | .router r n => (net.routers r).interfaces[n]?

inductive Op (H R : Type) where
  /-- A host calls `send_datagram`. -/
  | send (h : H) (dgram : InternetDatagram) (nextHop : Address)
  /-- A host takes a datagram: `datagrams_out().pop()`. -/
  | take (h : H)
  | route (r : R)
  /-- The first frame of a port leaves its queue. -/
  | transmit (p : Port H R)
  /-- The `k`-th frame of `src` gets to `dst`. -/
  | deliver (src dst : Port H R) (k : Nat)
  | tick (p : Port H R) (ms : Nat)
deriving DecidableEq, Repr

variable [DecidableEq H] [DecidableEq R]

/-- A call on the interface of a port. -/
def onPort (net : Internet H R) (p : Port H R)
    (f : AsyncNetworkInterface → AsyncNetworkInterface × Except Exn Unit) :
    Internet H R × Except Exn Unit :=
  match p with
  | .host h =>
    ({ net with hosts := Function.update net.hosts h (f (net.hosts h)).1 }, (f (net.hosts h)).2)
  | .router r n =>
    let (router, result) := (net.routers r).onInterface n f
    ({ net with routers := Function.update net.routers r router }, result)

/-- What an operation makes of the network, and whether the call throws. -/
def call (net : Internet H R) : Op H R → Internet H R × Except Exn Unit
  | .send h dgram nextHop => net.onPort (.host h) fun ni =>
    let (base, result) := ni.sendDatagram dgram nextHop
    (ni.setBase base, result)
  | .take h => net.onPort (.host h) fun ni =>
    ({ ni with datagramsOut := ni.datagramsOut.tail }, .ok ())
  | .route r =>
    let (router, result) := (net.routers r).route
    ({ net with routers := Function.update net.routers r router }, result)
  | .transmit p =>
    let (net', result) := net.onPort p fun ni => (ni.setBase (ni.step .popFrame), .ok ())
    let frames := (net.interface p).elim [] fun ni => ni.framesOut.take 1
    ({ net' with wire := Function.update net.wire p (net.wire p ++ frames) }, result)
  | .deliver src dst k =>
    match (net.wire src)[k]? with
    | none => (net, .ok ())
    | some frame => net.onPort dst fun ni => ni.recvFrame frame.contiguous
  | .tick p ms => net.onPort p fun ni => (ni.setBase (ni.step (.tick ms)), .ok ())

def step (net : Internet H R) (op : Op H R) : Internet H R := (net.call op).1

/-- The operations of a network whose ports are attached to `link`: the hosts send datagrams that
can be serialized and have their fields in range, frames stay on their link, and ticks return. -/
def Admits {L : Type} (link : Port H R → L) (net : Internet H R) : Op H R → Prop
  | .send _ dgram _ =>
    dgram.Serializable ∧ dgram.header.hlen.toNat ≤ 15 ∧ dgram.header.offset.toNat < 2 ^ 13
  | .take _ | .route _ => True
  | .transmit p => (net.interface p).isSome
  | .deliver src dst _ => link src = link dst ∧ (net.interface dst).isSome
  | .tick p ms => (net.interface p).isSome ∧ ms < NetworkInterface.arpResponseDefaultTtl

instance {L : Type} [DecidableEq L] (link : Port H R → L) (net : Internet H R) :
    (op : Op H R) → Decidable (net.Admits link op)
  | .send _ dgram _ => inferInstanceAs (Decidable (dgram.Serializable ∧ _ ∧ _))
  | .take _ | .route _ => .isTrue trivial
  | .transmit p => inferInstanceAs (Decidable ((net.interface p).isSome = true))
  | .deliver src dst _ => inferInstanceAs (Decidable (link src = link dst ∧ _))
  | .tick p ms => inferInstanceAs (Decidable ((net.interface p).isSome = true ∧ ms < _))

end Internet

end Sponge
