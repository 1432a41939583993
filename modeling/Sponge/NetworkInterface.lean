import Sponge.ARPMessage
import Sponge.IPv4Datagram
import Sponge.Lib.Table

/-!
# The network interface (`libsponge/network_interface.hh`, `network_interface.cc`)

It sends IP datagrams in Ethernet frames, looking up the Ethernet address of the next hop with ARP.
`IfaceOp` collects the calls of its owner, with popping `frames_out()`.

* An `Address` is an IPv4 address; `ipv4_numeric` throws on others, which are left out.
* The iteration order of an `unordered_map` is unspecified: here it is the order of the table's
  entries.
* A call that throws leaves the state it had reached, so the calls return the state beside the
  result. `tick` does not always return: `none`.
-/

namespace Sponge

/-- An IPv4 address and a port. -/
structure Address where
  ip : UInt32
  port : UInt16 := 0
deriving DecidableEq, Repr

/-- Numeric IP address as an integer. -/
def Address.ipv4Numeric (a : Address) : UInt32 := a.ip

/-- `ARP_Entry`. -/
structure ARPEntry where
  ethAddr : EthernetAddress
  ttl : Nat
deriving DecidableEq, Repr

/-- A "network interface" that connects IP (the internet layer) with Ethernet (the link layer). -/
structure NetworkInterface where
  ethernetAddress : EthernetAddress
  ipAddress : Address
  framesOut : List EthernetFrame
  arpTable : Table UInt32 ARPEntry
  waitingArpResponseIpAddr : Table UInt32 Nat
  waitingArpInternetDatagrams : List (Address × InternetDatagram)

namespace NetworkInterface

/-- `_arp_entry_deafult_ttl`: an ARP entry is valid for 30 s. -/
def arpEntryDefaultTtl : Nat := 30 * 1000

/-- `_arp_response_default_ttl`: an ARP request is repeated after 5 s. -/
def arpResponseDefaultTtl : Nat := 5 * 1000

/-- A network interface with the given Ethernet and IP addresses. -/
def new (ethernetAddress : EthernetAddress) (ipAddress : Address) : NetworkInterface where
  ethernetAddress := ethernetAddress
  ipAddress := ipAddress
  framesOut := []
  arpTable := ∅
  waitingArpResponseIpAddr := ∅
  waitingArpInternetDatagrams := []

/-- The message `arp_request` of `send_datagram` and of `tick`. -/
def arpRequest (ni : NetworkInterface) (ip : UInt32) : ARPMessage where
  opcode := ARPMessage.opcodeRequest
  senderEthernetAddress := ni.ethernetAddress
  senderIpAddress := ni.ipAddress.ipv4Numeric
  targetEthernetAddress := Vector.replicate 6 0
  targetIpAddress := ip

/-- The message `arp_reply` of `recv_frame`. -/
def arpReply (ni : NetworkInterface) (arpMsg : ARPMessage) : ARPMessage where
  opcode := ARPMessage.opcodeReply
  senderEthernetAddress := ni.ethernetAddress
  targetEthernetAddress := arpMsg.senderEthernetAddress
  senderIpAddress := ni.ipAddress.ipv4Numeric
  targetIpAddress := arpMsg.senderIpAddress

@[simp] theorem arpRequest_supported (ni : NetworkInterface) (ip : UInt32) :
    (ni.arpRequest ip).supported = true := rfl

@[simp] theorem arpReply_supported (ni : NetworkInterface) (arpMsg : ARPMessage) :
    (ni.arpReply arpMsg).supported = true := rfl

/-- The frame that carries an ARP message of this interface; the interface's messages are
supported, so `serialize` does not throw. -/
def arpFrame (ni : NetworkInterface) (dst : EthernetAddress) (arpMsg : ARPMessage)
    (h : arpMsg.supported = true) : EthernetFrame where
  header := { dst := dst, src := ni.ethernetAddress, type := EthernetHeader.typeARP }
  payload := BufferList.ofString (getOk arpMsg.serialize ⟨_, ARPMessage.serialize_eq h⟩)

/-- The broadcast frame that asks for the Ethernet address of `ip`. -/
def arpRequestFrame (ni : NetworkInterface) (ip : UInt32) : EthernetFrame :=
  ni.arpFrame ethernetBroadcast (ni.arpRequest ip) (ni.arpRequest_supported ip)

/-- The frame that answers the request `arpMsg`. -/
def arpReplyFrame (ni : NetworkInterface) (arpMsg : ARPMessage) : EthernetFrame :=
  ni.arpFrame arpMsg.senderEthernetAddress (ni.arpReply arpMsg) (ni.arpReply_supported arpMsg)

/-- The frame that carries a serialized datagram to the address of a table entry. -/
def ipv4Frame (ni : NetworkInterface) (entry : ARPEntry) (payload : BufferList) :
    EthernetFrame where
  header :=
    { dst := entry.ethAddr, src := ni.ethernetAddress, type := EthernetHeader.typeIPv4 }
  payload := payload

/-- `_frames_out.emplace(frame)`. -/
def push (ni : NetworkInterface) (frame : EthernetFrame) : NetworkInterface :=
  { ni with framesOut := ni.framesOut ++ [frame] }

/-- Sends an IPv4 datagram, encapsulated in an Ethernet frame, if it knows the Ethernet destination
address; else the datagram waits, and the address is asked for unless that was done already. -/
def sendDatagram (ni : NetworkInterface) (dgram : InternetDatagram) (nextHop : Address) :
    NetworkInterface × Except Exn Unit :=
  let nextHopIp := nextHop.ipv4Numeric
  match ni.arpTable.lookup nextHopIp with
  | none =>
    let ni := if nextHopIp ∈ ni.waitingArpResponseIpAddr then ni
      else
        let ni := ni.push (ni.arpRequestFrame nextHopIp)
        { ni with
          waitingArpResponseIpAddr :=
            ni.waitingArpResponseIpAddr.insert nextHopIp arpResponseDefaultTtl }
    ({ ni with
      waitingArpInternetDatagrams := ni.waitingArpInternetDatagrams ++ [(nextHop, dgram)] }, .ok ())
  | some entry =>
    match dgram.serialize with
    | .error e => (ni, .error e)
    | .ok payload => (ni.push (ni.ipv4Frame entry payload), .ok ())

/-- The loop of `recv_frame` over the waiting datagrams, from position `i`: those for `srcIpAddr`
are sent and erased. Each round passes one of them, so `fuel` above their number is never used
up. -/
def flush (srcIpAddr : UInt32) : (fuel i : Nat) → NetworkInterface →
    NetworkInterface × Except Exn Unit
  | 0, _, ni => (ni, .ok ())
  | fuel + 1, i, ni =>
    match ni.waitingArpInternetDatagrams[i]? with
    | none => (ni, .ok ())
    | some (nextHop, dgram) =>
      if nextHop.ipv4Numeric = srcIpAddr then
        match ni.sendDatagram dgram nextHop with
        | (ni, .error e) => (ni, .error e)
        | (ni, .ok ()) =>
          flush srcIpAddr fuel i { ni with
            waitingArpInternetDatagrams := ni.waitingArpInternetDatagrams.eraseIdx i }
      else flush srcIpAddr fuel (i + 1) ni

/-- The end of `recv_frame`, once `srcIpAddr` is in the table: its datagrams are released, and it is
not waited for any more. -/
def releaseWaiting (ni : NetworkInterface) (srcIpAddr : UInt32) :
    NetworkInterface × Except Exn (Option InternetDatagram) :=
  match flush srcIpAddr (ni.waitingArpInternetDatagrams.length + 1) 0 ni with
  | (ni, .error e) => (ni, .error e)
  | (ni, .ok ()) =>
    ({ ni with
      waitingArpResponseIpAddr := ni.waitingArpResponseIpAddr.erase srcIpAddr }, .ok none)

/-- `is_vaild_arp_request`: a request for this interface's IP address. -/
def isValidArpRequest (ni : NetworkInterface) (arpMsg : ARPMessage) : Bool :=
  arpMsg.opcode == ARPMessage.opcodeRequest &&
    arpMsg.targetIpAddress == ni.ipAddress.ipv4Numeric

/-- `is_vaild_arp_reply`: a reply to this interface's Ethernet address. -/
def isValidArpReply (ni : NetworkInterface) (arpMsg : ARPMessage) : Bool :=
  arpMsg.opcode == ARPMessage.opcodeReply && arpMsg.targetEthernetAddress == ni.ethernetAddress

/-- The table entry for the sender of an ARP message. -/
def newEntry (arpMsg : ARPMessage) : ARPEntry where
  ethAddr := arpMsg.senderEthernetAddress
  ttl := arpEntryDefaultTtl

/-- `recv_frame` from the parsed ARP message on: a valid request is answered, and a valid request or
reply gives a table entry for its sender and releases the datagrams that wait for it. -/
def recvArp (ni : NetworkInterface) (arpMsg : ARPMessage) :
    NetworkInterface × Except Exn (Option InternetDatagram) :=
  let srcIpAddr := arpMsg.senderIpAddress
  let isValidArpRequest := ni.isValidArpRequest arpMsg
  let isValidArpReply := ni.isValidArpReply arpMsg
  let ni := if isValidArpRequest then ni.push (ni.arpReplyFrame arpMsg) else ni
  if isValidArpReply || isValidArpRequest then
    { ni with
      arpTable := ni.arpTable.insert srcIpAddr (newEntry arpMsg) }.releaseWaiting srcIpAddr
  else (ni, .ok none)

/-- Receives an Ethernet frame and responds appropriately: an IPv4 datagram is returned, an ARP
message is learned from and answered. -/
def recvFrame (ni : NetworkInterface) (frame : EthernetFrame) :
    NetworkInterface × Except Exn (Option InternetDatagram) :=
  if frame.header.dst ≠ ni.ethernetAddress ∧ frame.header.dst ≠ ethernetBroadcast then
    (ni, .ok none)
  else if frame.header.type = EthernetHeader.typeIPv4 then
    match frame.payload.toBuffer with
    | .error e => (ni, .error e)
    | .ok buffer =>
      let (datagram, result) := IPv4Datagram.parse {} buffer
      if result ≠ .noError then (ni, .ok none) else (ni, .ok (some datagram))
  else if frame.header.type = EthernetHeader.typeARP then
    match frame.payload.toBuffer with
    | .error e => (ni, .error e)
    | .ok buffer =>
      let (arpMsg, result) := ARPMessage.parse {} buffer
      if result ≠ .noError then (ni, .ok none) else ni.recvArp arpMsg
  else (ni, .ok none)

/-- The first loop of `tick`, at one entry: erased when it has expired. -/
def expire (ms : Nat) (entry : ARPEntry) : Option ARPEntry :=
  if entry.ttl ≤ ms then none else some { entry with ttl := entry.ttl - ms }

/-- The second loop of `tick`, over the keys `ips` still to visit. The iterator does not advance
past an entry that is restarted, which is looked at again; `none` when the `fuel` is used up. -/
def retry (ms : Nat) : (fuel : Nat) → (ips : List UInt32) → NetworkInterface →
    Option NetworkInterface
  | 0, _, _ => none
  | _ + 1, [], ni => some ni
  | fuel + 1, ip :: ips, ni =>
    match ni.waitingArpResponseIpAddr.lookup ip with
    | none => retry ms fuel ips ni
    | some left =>
      if left ≤ ms then
        let ni := ni.push (ni.arpRequestFrame ip)
        retry ms fuel (ip :: ips) { ni with
          waitingArpResponseIpAddr :=
            ni.waitingArpResponseIpAddr.replace ip arpResponseDefaultTtl }
      else
        retry ms fuel ips { ni with
          waitingArpResponseIpAddr := ni.waitingArpResponseIpAddr.replace ip (left - ms) }

/-- Called periodically when time elapses; `none` when it does not return. A loop that ends visits
each key at most twice, and one that has not ended by then never does (`retry_eq_none`). -/
def tick (ni : NetworkInterface) (ms : Nat) : Option NetworkInterface :=
  let ni := { ni with arpTable := ni.arpTable.sweep (expire ms) }
  let ips := ni.waitingArpResponseIpAddr.keys
  retry ms (2 * ips.length + 1) ips ni

end NetworkInterface

/-- The calls of the owner of a network interface. -/
inductive IfaceOp where
  | sendDatagram (dgram : InternetDatagram) (nextHop : Address)
  | recvFrame (frame : EthernetFrame)
  | tick (ms : Nat)
  /-- `frames_out().pop()`. -/
  | popFrame
deriving DecidableEq, Repr

namespace NetworkInterface

/-- The state after a call, whether it returned or threw. A `tick` that does not return leaves
none: the runs below have none of them. -/
def step (ni : NetworkInterface) : IfaceOp → NetworkInterface
  | .sendDatagram dgram nextHop => (ni.sendDatagram dgram nextHop).1
  | .recvFrame frame => (ni.recvFrame frame).1
  | .tick ms => (ni.tick ms).getD ni
  | .popFrame => { ni with framesOut := ni.framesOut.tail }

/-- Every call but a `tick` returns or throws. -/
def Returns (ni : NetworkInterface) : IfaceOp → Prop
  | .tick ms => (ni.tick ms).isSome
  | _ => True

instance (ni : NetworkInterface) : (op : IfaceOp) → Decidable (ni.Returns op)
  | .sendDatagram _ _ => .isTrue trivial
  | .recvFrame _ => .isTrue trivial
  | .tick ms => inferInstanceAs (Decidable ((ni.tick ms).isSome = true))
  | .popFrame => .isTrue trivial

end NetworkInterface

end Sponge
