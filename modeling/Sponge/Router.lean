import Sponge.NetworkInterface

/-!
# The IP router (`libsponge/router.hh`, `router.cc`)

A router moves datagrams between its interfaces, by the longest prefix of its route table that
matches the destination. `RouterOp` collects the calls of its owner. As with the network interface,
the calls return the state they had reached beside the result.

A route with a prefix of more than 32 bits makes `route_one_datagram` shift by a negative number,
which is undefined: `RouteItem` carries the bound.
-/

namespace Sponge

/-- A `NetworkInterface` that keeps the received datagrams for later retrieval. -/
structure AsyncNetworkInterface extends NetworkInterface where
  datagramsOut : List InternetDatagram

namespace AsyncNetworkInterface

def new (ethernetAddress : EthernetAddress) (ipAddress : Address) : AsyncNetworkInterface where
  toNetworkInterface := NetworkInterface.new ethernetAddress ipAddress
  datagramsOut := []

/-- The interface after a call of its base class. -/
def setBase (ni : AsyncNetworkInterface) (base : NetworkInterface) : AsyncNetworkInterface where
  toNetworkInterface := base
  datagramsOut := ni.datagramsOut

/-- Receives an Ethernet frame and responds appropriately: a datagram is pushed to the queue. -/
def recvFrame (ni : AsyncNetworkInterface) (frame : EthernetFrame) :
    AsyncNetworkInterface × Except Exn Unit :=
  match ni.toNetworkInterface.recvFrame frame with
  | (base, .error e) => (ni.setBase base, .error e)
  | (base, .ok none) => (ni.setBase base, .ok ())
  | (base, .ok (some dgram)) =>
    ({ toNetworkInterface := base, datagramsOut := ni.datagramsOut ++ [dgram] }, .ok ())

end AsyncNetworkInterface

/-- `route_item`: a forwarding rule. -/
structure RouteItem where
  routePrefix : UInt32
  prefixLength : UInt8
  /-- None if the network is directly attached to the router. -/
  nextHop : Option Address
  interfaceNum : Nat
  length_le : prefixLength ≤ 32

/-- The first `prefix_length` bits of the destination are those of the prefix. -/
def RouteItem.isMatch (item : RouteItem) (dstIpAddr : UInt32) : Bool :=
  item.prefixLength == 0 ||
    (item.routePrefix ^^^ dstIpAddr) >>> (32 - item.prefixLength).toUInt32 == 0

/-- A router that has multiple network interfaces and performs longest-prefix-match routing between
them. -/
structure Router where
  interfaces : List AsyncNetworkInterface := []
  routeTable : List RouteItem := []

namespace Router

/-- Adds an interface to the router; its index. -/
def addInterface (r : Router) (interface : AsyncNetworkInterface) : Router × Nat :=
  ({ r with interfaces := r.interfaces ++ [interface] }, r.interfaces.length)

/-- Accesses an interface by index. -/
def interface (r : Router) (n : Nat) : Except Exn AsyncNetworkInterface :=
  match r.interfaces[n]? with
  | none => .error (.outOfRange ("vector::_M_range_check: __n (which is " ++ toString n ++
      ") >= this->size() (which is " ++ toString r.interfaces.length ++ ")"))
  | some interface => .ok interface

/-- The router after a call on its interface `n`. -/
def setInterface (r : Router) (n : Nat) (interface : AsyncNetworkInterface) : Router :=
  { r with interfaces := r.interfaces.set n interface }

/-- Adds a route (a forwarding rule). -/
def addRoute (r : Router) (routePrefix : UInt32) (prefixLength : UInt8) (nextHop : Option Address)
    (interfaceNum : Nat) (h : prefixLength ≤ 32) : Router :=
  { r with
    routeTable := r.routeTable ++
      [{ routePrefix, prefixLength, nextHop, interfaceNum, length_le := h }] }

/-- One round of the loop of `route_one_datagram` over the route table: a match replaces the one
before it only if its prefix is longer. -/
def betterMatch (dstIpAddr : UInt32) (matchEntry : Option RouteItem) (item : RouteItem) :
    Option RouteItem :=
  if item.isMatch dstIpAddr then
    match matchEntry with
    | none => some item
    | some entry => if entry.prefixLength < item.prefixLength then some item else some entry
  else matchEntry

def matchEntry (r : Router) (dstIpAddr : UInt32) : Option RouteItem :=
  r.routeTable.foldl (betterMatch dstIpAddr) none

/-- `dgram.header().ttl--`. -/
def decrementTtl (dgram : InternetDatagram) : InternetDatagram :=
  { dgram with header := { dgram.header with ttl := dgram.header.ttl - 1 } }

/-- Sends a single datagram from the appropriate outbound interface to the next hop, as specified by
the route with the longest prefix that matches the datagram's destination address. The datagram is a
reference: with the router it returns what became of it. -/
def routeOneDatagram (r : Router) (dgram : InternetDatagram) :
    Router × InternetDatagram × Except Exn Unit :=
  let dstIpAddr := dgram.header.dst
  match r.matchEntry dstIpAddr with
  | none => (r, dgram, .ok ())
  | some entry =>
    if dgram.header.ttl > 1 then
      let dgram := decrementTtl dgram
      match r.interface entry.interfaceNum with
      | .error e => (r, dgram, .error e)
      | .ok interface =>
        let (base, result) := interface.sendDatagram dgram (entry.nextHop.getD { ip := dstIpAddr })
        (r.setInterface entry.interfaceNum (interface.setBase base), dgram, result)
    else (r, decrementTtl dgram, .ok ())

/-- The queue of the interface `i` becomes `queue`. -/
def setQueue (r : Router) (i : Nat) (queue : List InternetDatagram) : Router :=
  { r with
    interfaces := r.interfaces.modify i fun interface => { interface with datagramsOut := queue } }

/-- The inner loop of `route`, on the queue of the interface `i`: its front is routed and popped.
Nothing is added to the queue meanwhile. -/
def routeQueue (i : Nat) : (queue : List InternetDatagram) → Router → Router × Except Exn Unit
  | [], r => (r, .ok ())
  | dgram :: queue, r =>
    match r.routeOneDatagram dgram with
    | (r, dgram, .error e) => (r.setQueue i (dgram :: queue), .error e)
    | (r, _, .ok ()) => routeQueue i queue (r.setQueue i queue)

/-- The outer loop of `route`, over the interfaces still to visit. -/
def routeInterfaces : (is : List Nat) → Router → Router × Except Exn Unit
  | [], r => (r, .ok ())
  | i :: is, r =>
    match r.interfaces[i]? with
    | none => routeInterfaces is r
    | some interface =>
      match routeQueue i interface.datagramsOut r with
      | (r, .error e) => (r, .error e)
      | (r, .ok ()) => routeInterfaces is r

/-- Routes packets between the interfaces. -/
def route (r : Router) : Router × Except Exn Unit :=
  routeInterfaces (List.range r.interfaces.length) r

end Router

/-- The calls of the owner of a router, those on its interfaces with the number of the interface. -/
inductive RouterOp where
  | recvFrame (n : Nat) (frame : EthernetFrame)
  | tick (n ms : Nat)
  /-- `frames_out().pop()`. -/
  | popFrame (n : Nat)
  | route
deriving DecidableEq, Repr

namespace Router

/-- A call on the interface `n`. -/
def onInterface (r : Router) (n : Nat)
    (f : AsyncNetworkInterface → AsyncNetworkInterface × Except Exn Unit) :
    Router × Except Exn Unit :=
  match r.interface n with
  | .error e => (r, .error e)
  | .ok interface => (r.setInterface n (f interface).1, (f interface).2)

/-- What a call makes of the router, and whether it throws. A `tick` that does not return leaves no
state: the runs below have none of them. -/
def call (r : Router) : RouterOp → Router × Except Exn Unit
  | .recvFrame n frame => r.onInterface n fun interface => interface.recvFrame frame
  | .tick n ms => r.onInterface n fun interface =>
    (interface.setBase (interface.step (.tick ms)), .ok ())
  | .popFrame n => r.onInterface n fun interface =>
    (interface.setBase (interface.step .popFrame), .ok ())
  | .route => r.route

/-- The router after a call, whether it returned or threw. -/
def step (r : Router) (op : RouterOp) : Router := (r.call op).1

end Router

end Sponge
