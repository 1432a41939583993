import Sponge.Internet
import Sponge.Proof.Carriage
import Sponge.Proof.DatagramOrder
import Sponge.Proof.LongestMatch

/-!
# Forwarding

`Launched` is what the addresses, the routes and the links of a network make of the datagrams that
its hosts send, hop by hop: no frames, no queues, no ARP. `run_forwards` is the refinement: whatever
an interface receives in a run of the network has come to it that way, and every address that an
interface has learned is that of an interface on its link.

The link between the two is `NetworkInterface.Faithful`, what an interface keeps that only hears
ARP messages that are true.
-/

namespace Sponge

open Run

/-! ## Datagrams and frames -/

namespace IPv4Datagram

variable {d d' : IPv4Datagram}

/-- `d'` is what a receiver reads of the datagram `d`. -/
def ReadAs (d d' : IPv4Datagram) : Prop :=
  ∃ payload, d.serialize = .ok payload ∧
    parse {} (Buffer.ofString payload.concatenate) = (d', .noError)

/-- The datagrams that can be sent. -/
def Sendable (d : IPv4Datagram) : Prop := d.Serializable ∧ d.Fits

theorem Sendable.decrementTtl (h : d.Sendable) : (Router.decrementTtl d).Sendable := h

theorem ReadAs.content (h : d.ReadAs d') (hd : d.Sendable) : d'.content = d.content := by
  obtain ⟨payload, hser, hparse⟩ := h
  exact content_of_serialize hd.2 hser hparse

theorem ReadAs.ttl (h : d.ReadAs d') (hd : d.Sendable) : d'.header.ttl = d.header.ttl := by
  obtain ⟨payload, hser, hparse⟩ := h
  rw [(parse_of_serialize hd.2 hser hparse).1]
  rfl

/-- What was read can be sent again. -/
theorem ReadAs.sendable (h : d.ReadAs d') (hd : d.Sendable) : d'.Sendable := by
  obtain ⟨payload, hser, hparse⟩ := h
  obtain ⟨hheader, hpayload⟩ := parse_of_serialize hd.2 hser hparse
  obtain ⟨⟨hver, hlen, hsize⟩, -⟩ := hd
  refine ⟨⟨?_, ?_, ?_⟩, fits_of_noError hparse⟩
  · rw [hheader]
    exact hver
  · rw [hheader]
    exact hlen
  · rw [BufferList.size_eq, hpayload, hheader, ← BufferList.size_eq]
    exact hsize

end IPv4Datagram

namespace EthernetFrame

variable {Resolves : UInt32 → EthernetAddress → Prop} {Leaves : Address → InternetDatagram → Prop}
  {frame : EthernetFrame}

/-- The sender of an ARP message in the frame is one of `Resolves`. -/
def Honest (Resolves : UInt32 → EthernetAddress → Prop) (frame : EthernetFrame) : Prop :=
  frame.header.type = EthernetHeader.typeARP → ∀ arpMsg,
    ARPMessage.parse {} (Buffer.ofString frame.payload.concatenate) = (arpMsg, .noError) →
      Resolves arpMsg.senderIpAddress arpMsg.senderEthernetAddress

/-- A datagram in the frame is one of `Leaves`, on its way to its next hop. -/
def Directed (Resolves : UInt32 → EthernetAddress → Prop)
    (Leaves : Address → InternetDatagram → Prop) (frame : EthernetFrame) : Prop :=
  frame.header.type = EthernetHeader.typeIPv4 → ∃ nextHop dgram payload, Leaves nextHop dgram ∧
    Resolves nextHop.ip frame.header.dst ∧ dgram.serialize = .ok payload ∧
      frame.payload.concatenate = payload.concatenate

theorem Honest.contiguous (h : frame.Honest Resolves) : frame.contiguous.Honest Resolves := by
  intro htype arpMsg hparse
  rw [EthernetFrame.contiguous, BufferList.concatenate_ofString] at hparse
  exact h htype arpMsg hparse

theorem Directed.contiguous (h : frame.Directed Resolves Leaves) :
    frame.contiguous.Directed Resolves Leaves := by
  intro htype
  rw [EthernetFrame.contiguous, BufferList.concatenate_ofString]
  exact h htype

theorem Honest.arpMessage (h : frame.Honest Resolves) {arpMsg : ARPMessage}
    (hmsg : frame.arpMessage = some arpMsg) :
    Resolves arpMsg.senderIpAddress arpMsg.senderEthernetAddress := by
  unfold EthernetFrame.arpMessage at hmsg
  split at hmsg
  · rename_i htype
    split at hmsg
    · cases hmsg
    · rename_i buffer hbuffer
      dsimp only at hmsg
      split at hmsg
      · cases hmsg
      · rename_i hok
        refine h htype arpMsg ?_
        have hparse : ARPMessage.parse {} buffer =
            ARPMessage.parse {} (Buffer.ofString frame.payload.concatenate) := by
          unfold ARPMessage.parse
          rw [Buffer.str_ofString, BufferList.str_toBuffer hbuffer]
        rw [← hparse]
        exact Prod.ext (Option.some.inj hmsg) (not_not.1 hok)
  · cases hmsg

end EthernetFrame

/-! ## Interfaces -/

namespace NetworkInterface

variable {eth : EthernetAddress} {addr : Address} {Resolves : UInt32 → EthernetAddress → Prop}
  {Leaves : Address → InternetDatagram → Prop} {ni ni' : NetworkInterface} {op : IfaceOp}

/-- The interface has its addresses, believes only what is in `Resolves`, and sends what is in
`Leaves` to the next hop. -/
structure Faithful (eth : EthernetAddress) (addr : Address)
    (Resolves : UInt32 → EthernetAddress → Prop) (Leaves : Address → InternetDatagram → Prop)
    (ni : NetworkInterface) : Prop where
  ethernet : ni.ethernetAddress = eth
  address : ni.ipAddress = addr
  table : ∀ ip entry, ni.arpTable.lookup ip = some entry → Resolves ip entry.ethAddr
  waiting : ∀ w ∈ ni.waitingArpInternetDatagrams, Leaves w.1 w.2
  frames : ∀ frame ∈ ni.framesOut, frame.Honest Resolves ∧ frame.Directed Resolves Leaves

/-- What the owner may do: it sends datagrams of `Leaves`, and brings honest frames. -/
def Feeds (Resolves : UInt32 → EthernetAddress → Prop)
    (Leaves : Address → InternetDatagram → Prop) : IfaceOp → Prop
  | .sendDatagram dgram nextHop => Leaves nextHop dgram
  | .recvFrame frame => frame.Honest Resolves
  | .tick _ | .popFrame => True

theorem honest_arpFrame {dst : EthernetAddress} {arpMsg : ARPMessage}
    (hsupported : arpMsg.supported = true)
    (h : Resolves arpMsg.senderIpAddress arpMsg.senderEthernetAddress) :
    (ni.arpFrame dst arpMsg hsupported).Honest Resolves := by
  intro _ arpMsg' hparse
  have hbytes : (Buffer.ofString (ni.arpFrame dst arpMsg hsupported).payload.concatenate).str =
      arpMsg.bytes := by
    rw [Buffer.str_ofString, arpFrame, BufferList.concatenate_ofString,
      getOk_eq (ARPMessage.serialize_eq hsupported)]
  rw [ARPMessage.parse_bytes {} hsupported hbytes] at hparse
  cases hparse
  exact h

theorem directed_arpFrame {dst : EthernetAddress} {arpMsg : ARPMessage}
    (hsupported : arpMsg.supported = true) :
    (ni.arpFrame dst arpMsg hsupported).Directed Resolves Leaves :=
  fun htype => absurd htype (show EthernetHeader.typeARP ≠ EthernetHeader.typeIPv4 by decide)

theorem honest_ipv4Frame (entry : ARPEntry) (payload : BufferList) :
    (ni.ipv4Frame entry payload).Honest Resolves :=
  fun htype => absurd htype (show EthernetHeader.typeIPv4 ≠ EthernetHeader.typeARP by decide)

theorem resolves_of_accepted {frame : EthernetFrame} {arpMsg : ARPMessage}
    (h : frame.Honest Resolves) (hmsg : ni.accepted frame = some arpMsg) :
    Resolves arpMsg.senderIpAddress arpMsg.senderEthernetAddress := by
  unfold accepted at hmsg
  split at hmsg
  · exact h.arpMessage (Option.filter_eq_some_iff.1 hmsg).1
  · cases hmsg

/-- The calls on the interface leave its addresses. -/
theorem addresses_of_call {frames : List EthernetFrame} (hc : Call ni op ni' frames) :
    ni'.ethernetAddress = ni.ethernetAddress ∧ ni'.ipAddress = ni.ipAddress := by
  cases hc <;> exact ⟨rfl, rfl⟩

/-- What is learned comes from an accepted message. -/
theorem table_of_call {frames : List EthernetFrame}
    (h : ∀ ip entry, ni.arpTable.lookup ip = some entry → Resolves ip entry.ethAddr)
    (hop : Feeds Resolves Leaves op) (hc : Call ni op ni' frames) :
    ∀ ip entry, ni'.arpTable.lookup ip = some entry → Resolves ip entry.ethAddr := by
  cases hc with
  | wait | ask | send | throw | ignore | pop => exact h
  | @learn frame arpMsg hmsg =>
    intro ip entry hlookup
    have hlookup : (ni.arpTable.insert arpMsg.senderIpAddress (newEntry arpMsg)).lookup ip =
      some entry := hlookup
    by_cases hip : ip = arpMsg.senderIpAddress
    · subst hip
      rw [AList.lookup_insert] at hlookup
      cases hlookup
      exact resolves_of_accepted hop hmsg
    · rw [AList.lookup_insert_ne hip] at hlookup
      exact h ip entry hlookup
  | tick =>
    intro ip entry hlookup
    rw [ticked, Table.lookup_sweep, Option.bind_eq_some_iff] at hlookup
    obtain ⟨entry₀, hlookup, hexpire⟩ := hlookup
    unfold expire at hexpire
    split at hexpire
    · cases hexpire
    · cases hexpire
      exact h ip entry₀ hlookup

/-- **Every call** keeps an interface faithful that hears honest frames. -/
theorem Faithful.call (h : ni.Faithful eth addr Resolves Leaves) (hown : Resolves addr.ip eth)
    (hop : Feeds Resolves Leaves op) {frames : List EthernetFrame}
    (hc : Call ni op ni' frames) : ni'.Faithful eth addr Resolves Leaves := by
  obtain ⟨hethernet, haddress⟩ := addresses_of_call hc
  have hself : Resolves ni.ipAddress.ip ni.ethernetAddress := by
    rw [h.ethernet, h.address]
    exact hown
  refine ⟨hethernet.trans h.ethernet, haddress.trans h.address, table_of_call h.table hop hc,
    waiting_of_call h.waiting (fun dgram nextHop heq => by subst heq; exact hop) hc,
    frames_of_call h.frames (fun frame hemits => ?_) hc⟩
  cases hemits with
  | request | reply => exact ⟨honest_arpFrame _ hself, directed_arpFrame _⟩
  | sent hentry hser =>
    exact ⟨honest_ipv4Frame _ _, fun _ => ⟨_, _, _, hop, h.table _ _ hentry, hser, rfl⟩⟩
  | released hmsg hw hip hser =>
    refine ⟨honest_ipv4Frame _ _, fun _ => ⟨_, _, _, h.waiting _ hw, ?_, hser, rfl⟩⟩
    rw [hip]
    exact resolves_of_accepted hop hmsg

/-- What waits and what is waited for are in step, and an address is asked for again in time. -/
structure Ready (ni : NetworkInterface) : Prop where
  synced : Synced ni
  prompt : ∀ ip left, ni.waitingArpResponseIpAddr.lookup ip = some left →
    left ≤ arpResponseDefaultTtl

theorem new_ready (ethernetAddress : EthernetAddress) (ipAddress : Address) :
    (new ethernetAddress ipAddress).Ready :=
  ⟨⟨by simp [new], by simp [new], List.forall_mem_nil _⟩, by simp [new]⟩

theorem Ready.call (h : ni.Ready) (hop : Plain op) {frames : List EthernetFrame}
    (hc : Call ni op ni' frames) : ni'.Ready := by
  refine ⟨h.synced.call hop hc, ?_⟩
  cases hc with
  | wait | send | throw | ignore | pop => exact h.prompt
  | @ask dgram nextHop =>
    intro ip left hleft
    by_cases hip : ip = nextHop.ip
    · subst hip
      rw [AList.lookup_insert] at hleft
      cases hleft
      exact Nat.le_refl _
    · rw [AList.lookup_insert_ne hip] at hleft
      exact h.prompt ip left hleft
  | @learn frame arpMsg hmsg =>
    intro ip left hleft
    simp only [NetworkInterface.learn, h.synced.released] at hleft
    by_cases hip : ip = arpMsg.senderIpAddress
    · subst hip
      rw [AList.lookup_erase] at hleft
      cases hleft
    · rw [AList.lookup_erase_ne hip] at hleft
      exact h.prompt ip left hleft
  | tick =>
    intro ip left hleft
    rw [ticked, Table.lookup_sweep, Option.bind_eq_some_iff] at hleft
    obtain ⟨before, hbefore, hrestart⟩ := hleft
    cases hrestart
    have hprompt := h.prompt ip before hbefore
    unfold restart
    split <;> omega

/-- **What is received** was addressed to the interface. -/
theorem leaves_of_recvFrame {frame : EthernetFrame} {dgram : InternetDatagram}
    (h : frame.Directed Resolves Leaves) (hunicast : ∀ ip, ¬ Resolves ip ethernetBroadcast)
    (hrecv : (ni.recvFrame frame).2 = .ok (some dgram)) :
    ∃ nextHop sent, Leaves nextHop sent ∧ Resolves nextHop.ip ni.ethernetAddress ∧
      IPv4Datagram.ReadAs sent dgram := by
  have hreceived := ni.received frame
  generalize ni.recvFrame frame = r at hreceived hrecv
  obtain ⟨ni', r⟩ := r
  dsimp only at hreceived hrecv
  cases hreceived with
  | ignored | scattered => cases hrecv
  | @datagram buffer d hears htype hbuffer hparse =>
    cases hrecv
    obtain ⟨nextHop, sent, payload, hleaves, hresolves, hser, hpayload⟩ := h htype
    have hdst : frame.header.dst = ni.ethernetAddress := by
      rcases hears with hdst | hdst
      · exact hdst
      · rw [hdst] at hresolves
        exact absurd hresolves (hunicast _)
    rw [hdst] at hresolves
    refine ⟨nextHop, sent, hleaves, hresolves, payload, hser, ?_⟩
    rw [IPv4Datagram.parse_congr, BufferList.str_toBuffer hbuffer, hpayload] at hparse
    exact hparse
  | learned =>
    generalize (ni.released _).2.2 = released at hrecv
    cases released <;> cases hrecv

end NetworkInterface

/-! ## The ports of a network -/

namespace Internet

variable {H R L : Type}

section OnPort

variable [DecidableEq H] [DecidableEq R] (net : Internet H R) (p : Port H R)
  (f : AsyncNetworkInterface → AsyncNetworkInterface × Except Exn Unit)

@[simp] theorem wire_onPort : (net.onPort p f).1.wire = net.wire := by
  cases p <;> rfl

theorem interface_onPort (q : Port H R) : (net.onPort p f).1.interface q =
    if q = p then (net.interface p).map fun ni => (f ni).1 else net.interface q := by
  cases p with
  | host h =>
    cases q with
    | host h' =>
      by_cases hh : h' = h
      · subst hh
        simp [onPort, interface]
      · simp [onPort, interface, hh]
    | router r n => simp [onPort, interface]
  | router r n =>
    cases q with
    | host h => simp [onPort, interface]
    | router r' m =>
      by_cases hr : r' = r
      · subst hr
        cases hni : (net.routers r').interfaces[n]? with
        | none =>
          by_cases hm : m = n
          · subst hm
            simp [onPort, interface, Router.onInterface, Router.interface, hni]
          · simp [onPort, interface, Router.onInterface, Router.interface, hni, hm]
        | some ni =>
          by_cases hm : m = n
          · subst hm
            simp [onPort, interface, Router.onInterface_eq hni,
              Router.getElem?_setInterface hni, hni]
          · simp [onPort, interface, Router.onInterface_eq hni, Router.setInterface, hm,
              List.getElem?_set_ne (Ne.symm hm)]
      · simp [onPort, interface, hr]

theorem shape_onPort (r : R) :
    ((net.onPort p f).1.routers r).routeTable = (net.routers r).routeTable ∧
      ((net.onPort p f).1.routers r).interfaces.length = (net.routers r).interfaces.length := by
  cases p with
  | host h => exact ⟨rfl, rfl⟩
  | router r' n =>
    by_cases hr : r = r'
    · subst hr
      cases hni : (net.routers r).interfaces[n]? with
      | none => simp [onPort, Router.onInterface, Router.interface, hni]
      | some ni => simp [onPort, Router.onInterface_eq hni, Router.setInterface]
    · simp [onPort, hr]

variable {net p}

theorem call_deliver {src dst : Port H R} {k : ℕ} {frame : EthernetFrame}
    (hframe : (net.wire src)[k]? = some frame) : net.call (.deliver src dst k) =
      net.onPort dst fun ni => ni.recvFrame frame.contiguous := by
  simp [call, hframe]

theorem call_deliver_none {src dst : Port H R} {k : ℕ} (hframe : (net.wire src)[k]? = none) :
    net.call (.deliver src dst k) = (net, .ok ()) := by
  simp [call, hframe]

theorem result_onPort {ni : AsyncNetworkInterface} (hni : net.interface p = some ni) :
    (net.onPort p f).2 = (f ni).2 := by
  cases p with
  | host h =>
    cases hni
    rfl
  | router r n =>
    rw [interface] at hni
    simp [onPort, Router.onInterface_eq hni]

end OnPort

/-! ## Forwarding without frames -/

section Forwarding

variable (link : Port H R → L) (net₀ : Internet H R) (Sent : H → InternetDatagram → Address → Prop)

/-- The link of `p` takes a datagram for the next hop to `q`. -/
def Carries (p : Port H R) (nextHop : Address) (q : Port H R) : Prop :=
  link p = link q ∧ ∃ ni, net₀.interface q = some ni ∧ ni.ipAddress.ip = nextHop.ip

/-- A datagram that a host has sent is passed, after `k` routers, to the interface of a port, for
its next hop. -/
inductive Launched : ℕ → Port H R → Address → InternetDatagram → Prop
  | sent {h : H} {dgram : InternetDatagram} {nextHop : Address} (hsent : Sent h dgram nextHop) :
      Launched 0 (.host h) nextHop dgram
  | forwarded {k : ℕ} {p : Port H R} {nextHop : Address} {sent dgram : InternetDatagram} {r : R}
      {n : ℕ} {entry : RouteItem} (h : Launched k p nextHop sent)
      (hcarries : Carries link net₀ p nextHop (.router r n)) (hread : sent.ReadAs dgram)
      (hentry : (net₀.routers r).matchEntry dgram.header.dst = some entry)
      (httl : dgram.header.ttl > 1) :
      Launched (k + 1) (.router r entry.interfaceNum)
        (entry.nextHop.getD { ip := dgram.header.dst }) (Router.decrementTtl dgram)

/-- A datagram gets to the port `q` after `k` routers. -/
def Arrives (k : ℕ) (q : Port H R) (dgram : InternetDatagram) : Prop :=
  ∃ p nextHop sent, Launched link net₀ Sent k p nextHop sent ∧ Carries link net₀ p nextHop q ∧
    IPv4Datagram.ReadAs sent dgram

variable {link net₀ Sent}

variable (hsent : ∀ h dgram nextHop, Sent h dgram nextHop → dgram.Sendable)

include hsent in
/-- **The way of a datagram**: what is passed on has the content of what a host sent, and every
router has taken one from its time to live. -/
theorem Launched.origin {k : ℕ} {p : Port H R} {nextHop : Address} {dgram : InternetDatagram}
    (h : Launched link net₀ Sent k p nextHop dgram) : dgram.Sendable ∧
      ∃ host first hop, Sent host first hop ∧ dgram.content = first.content ∧
        dgram.header.ttl.toNat + k = first.header.ttl.toNat := by
  induction h with
  | sent hs => exact ⟨hsent _ _ _ hs, _, _, _, hs, rfl, rfl⟩
  | @forwarded k _ _ sent dgram _ _ _ _ _ hread _ httl ih =>
    obtain ⟨hsendable, host, first, hop, hs, hcontent, hcount⟩ := ih
    refine ⟨(hread.sendable hsendable).decrementTtl, host, first, hop, hs, ?_, ?_⟩
    · exact (hread.content hsendable).trans hcontent
    · have hone : (Router.decrementTtl dgram).header.ttl.toNat + 1 = dgram.header.ttl.toNat :=
        Router.toNat_ttl_decrementTtl (UInt8.lt_iff_toNat_lt.1 httl)
      rw [hread.ttl hsendable] at hone
      omega

/-! ## The invariant -/

/-- On the link `l`, the interface with the IP address has the Ethernet address. -/
def Resolves (link : Port H R → L) (net₀ : Internet H R) (l : L) (ip : UInt32)
    (eth : EthernetAddress) : Prop :=
  ∃ q ni, link q = l ∧ net₀.interface q = some ni ∧ ni.ipAddress.ip = ip ∧ ni.ethernetAddress = eth

/-- A network as it is set up: nothing has happened, routes name interfaces, and on each link the
Ethernet addresses are different ones and not that of broadcasts. -/
structure SetUp (link : Port H R → L) (net₀ : Internet H R) : Prop where
  fresh : ∀ p ni, net₀.interface p = some ni → ∃ eth addr, ni = .new eth addr
  silent : ∀ p, net₀.wire p = []
  routes : ∀ r, (net₀.routers r).RoutesExist
  distinct : ∀ p q ni ni', net₀.interface p = some ni → net₀.interface q = some ni' →
    link p = link q → ni.ethernetAddress = ni'.ethernetAddress → p = q
  unicast : ∀ p ni, net₀.interface p = some ni → ni.ethernetAddress ≠ ethernetBroadcast

/-- What the port `p` has sent and will send. -/
def Leaves (link : Port H R → L) (net₀ : Internet H R)
    (Sent : H → InternetDatagram → Address → Prop)
    (p : Port H R) (nextHop : Address) (dgram : InternetDatagram) : Prop :=
  ∃ k, Launched link net₀ Sent k p nextHop dgram

/-- What has come to the port `p`. -/
def Arrived (link : Port H R → L) (net₀ : Internet H R)
    (Sent : H → InternetDatagram → Address → Prop) (p : Port H R) (dgram : InternetDatagram) :
    Prop :=
  ∃ k, Arrives link net₀ Sent k p dgram

/-- The interface of the port `p` is in order. -/
def InOrder (link : Port H R → L) (net₀ : Internet H R)
    (Sent : H → InternetDatagram → Address → Prop) (p : Port H R) (ni : NetworkInterface) : Prop :=
  ni.Ready ∧ ∃ ni₀, net₀.interface p = some ni₀ ∧ ni.Faithful ni₀.ethernetAddress ni₀.ipAddress
    (Resolves link net₀ (link p)) (Leaves link net₀ Sent p)

/-- A router has the routes and the number of interfaces of `r`. -/
def Shaped (net₀ : Internet H R) (r : R) (table : List RouteItem) (count : ℕ) : Prop :=
  table = (net₀.routers r).routeTable ∧ count = (net₀.routers r).interfaces.length

/-- The invariant: interfaces that are in order, with what has arrived in their queues. -/
structure Inv (link : Port H R → L) (net₀ : Internet H R)
    (Sent : H → InternetDatagram → Address → Prop) (net : Internet H R) : Prop where
  shape : ∀ r, Shaped net₀ r (net.routers r).routeTable (net.routers r).interfaces.length
  ports : ∀ p ni, net.interface p = some ni → InOrder link net₀ Sent p ni.toNetworkInterface ∧
    ∀ dgram ∈ ni.datagramsOut, Arrived link net₀ Sent p dgram
  wire : ∀ p, ∀ frame ∈ net.wire p, frame.Honest (Resolves link net₀ (link p)) ∧
    frame.Directed (Resolves link net₀ (link p)) (Leaves link net₀ Sent p)

end Forwarding

section Run

variable {link : Port H R → L} {net₀ net : Internet H R}
  {Sent : H → InternetDatagram → Address → Prop}

theorem SetUp.inv (h : SetUp link net₀) : Inv link net₀ Sent net₀ := by
  refine ⟨fun _ => ⟨rfl, rfl⟩, fun p ni hni => ?_, fun p => ?_⟩
  · obtain ⟨eth, addr, rfl⟩ := h.fresh p ni hni
    refine ⟨⟨NetworkInterface.new_ready eth addr, _, hni, rfl, rfl, fun ip entry hlookup => ?_,
      List.forall_mem_nil _, List.forall_mem_nil _⟩, List.forall_mem_nil _⟩
    simp [AsyncNetworkInterface.new, NetworkInterface.new] at hlookup
  · rw [h.silent p]
    exact List.forall_mem_nil _

/-- The ports stay. -/
theorem Inv.isSome_iff (h : Inv link net₀ Sent net) (p : Port H R) :
    (net.interface p).isSome ↔ (net₀.interface p).isSome := by
  cases p with
  | host => exact Iff.rfl
  | router r n =>
    simp [interface, (h.shape r).2]

/-- A call on the interface of a port in order. -/
theorem InOrder.step {p : Port H R} {ni : NetworkInterface} (h : InOrder link net₀ Sent p ni)
    {op : IfaceOp}
    (hop : NetworkInterface.Feeds (Resolves link net₀ (link p)) (Leaves link net₀ Sent p) op)
    (hplain : NetworkInterface.Plain op) : InOrder link net₀ Sent p (ni.step op) := by
  obtain ⟨hready, ni₀, hni₀, hfaithful⟩ := h
  have hown : Resolves link net₀ (link p) ni₀.ipAddress.ip ni₀.ethernetAddress :=
    ⟨p, ni₀, rfl, hni₀, rfl, rfl⟩
  have hcall := NetworkInterface.called (hplain.short.returns ni)
  exact ⟨hready.call hplain hcall, ni₀, hni₀, hfaithful.call hown hop hcall⟩

/-- The router `r`, in the terms of its own interfaces. -/
theorem Inv.keeps (h : Inv link net₀ Sent net) (r : R) :
    (net.routers r).Keeps (Shaped net₀ r) (fun n => InOrder link net₀ Sent (.router r n))
      (fun n => Arrived link net₀ Sent (.router r n)) :=
  ⟨h.shape r, fun n ni hni => (h.ports (.router r n) ni hni).1,
    fun n ni hni => (h.ports (.router r n) ni hni).2⟩

theorem Arrives.sendable (hsent : ∀ h dgram nextHop, Sent h dgram nextHop → dgram.Sendable) {k : ℕ}
    {q : Port H R} {dgram : InternetDatagram} (h : Arrives link net₀ Sent k q dgram) :
    dgram.Sendable := by
  obtain ⟨p, nextHop, sent, hlaunched, -, hread⟩ := h
  exact hread.sendable (hlaunched.origin hsent).1

/-- What arrives at a router leaves it by its route. -/
theorem SetUp.sends (hsetup : SetUp link net₀)
    (hsent : ∀ h dgram nextHop, Sent h dgram nextHop → dgram.Sendable) (r : R) :
    Router.Sends (Shaped net₀ r) (fun n => InOrder link net₀ Sent (.router r n))
      (fun n => Arrived link net₀ Sent (.router r n)) := by
  rintro r' n dgram entry ⟨htable, hcount⟩ ⟨k, harrives⟩ hentry httl
  have hmatch : (net₀.routers r).matchEntry dgram.header.dst = some entry := by
    rw [Router.matchEntry, ← htable]
    exact hentry
  have hleaves : Leaves link net₀ Sent (.router r entry.interfaceNum)
      (entry.nextHop.getD { ip := dgram.header.dst }) (Router.decrementTtl dgram) := by
    obtain ⟨p, nextHop, sent, hlaunched, hcarries, hread⟩ := harrives
    exact ⟨k + 1, .forwarded hlaunched hcarries hread hmatch httl⟩
  have hserializable : (Router.decrementTtl dgram).Serializable :=
    (harrives.sendable hsent).decrementTtl.1
  refine ⟨.inl ?_, fun ni hni => ⟨?_, .inl ?_⟩⟩
  · rw [hcount]
    exact hsetup.routes r entry (Router.mem_of_matchEntry hmatch)
  · have hstep : InOrder link net₀ Sent (.router r entry.interfaceNum)
        (ni.step (.sendDatagram _ _)) := hni.step hleaves hserializable
    exact hstep
  · exact ni.sendDatagram_returns hserializable _

variable [DecidableEq R]

/-- A router that has routed. -/
theorem Inv.setRouter (h : Inv link net₀ Sent net) {r : R} {router : Router}
    (hkeeps : router.Keeps (Shaped net₀ r) (fun n => InOrder link net₀ Sent (.router r n))
      (fun n => Arrived link net₀ Sent (.router r n))) :
    Inv link net₀ Sent { net with routers := Function.update net.routers r router } := by
  refine ⟨fun r' => ?_, fun q ni hni => ?_, h.wire⟩
  · by_cases hr : r' = r
    · subst hr
      simpa using hkeeps.shape
    · simpa [hr] using h.shape r'
  · cases q with
    | host h' => exact h.ports (.host h') ni hni
    | router r' n =>
      by_cases hr : r' = r
      · subst hr
        simp only [interface, Function.update_self] at hni
        exact ⟨hkeeps.interfaces n ni hni, hkeeps.queues n ni hni⟩
      · simp only [interface, Function.update_of_ne hr] at hni
        exact h.ports (.router r' n) ni hni

variable [DecidableEq H]

/-- A call on the interface of a port. -/
theorem Inv.onPort (h : Inv link net₀ Sent net) (p : Port H R)
    {f : AsyncNetworkInterface → AsyncNetworkInterface × Except Exn Unit}
    (hf : ∀ ni, net.interface p = some ni → InOrder link net₀ Sent p (f ni).1.toNetworkInterface ∧
      ∀ dgram ∈ (f ni).1.datagramsOut, Arrived link net₀ Sent p dgram) :
    Inv link net₀ Sent (net.onPort p f).1 := by
  refine ⟨fun r => ?_, fun q ni hni => ?_, fun q => ?_⟩
  · obtain ⟨htable, hlength⟩ := net.shape_onPort p f r
    exact ⟨htable.trans (h.shape r).1, hlength.trans (h.shape r).2⟩
  · rw [interface_onPort] at hni
    split at hni
    · rename_i hq
      subst hq
      obtain ⟨ni₀, hni₀, rfl⟩ := Option.map_eq_some_iff.1 hni
      exact hf ni₀ hni₀
    · exact h.ports q ni hni
  · rw [wire_onPort]
    exact h.wire q

/-- **Every step**: the network does what `Launched` says. -/
theorem Inv.step (hsetup : SetUp link net₀)
    (hsent : ∀ h dgram nextHop, Sent h dgram nextHop → dgram.Sendable)
    (h : Inv link net₀ Sent net) {op : Op H R} (hop : net₀.Admits link op)
    (hsend : ∀ h dgram nextHop, op = .send h dgram nextHop → Sent h dgram nextHop) :
    Inv link net₀ Sent (net.step op) := by
  cases op with
  | send host dgram nextHop =>
    refine h.onPort (.host host) fun ni hni => ?_
    obtain ⟨horder, hqueue⟩ := h.ports _ ni hni
    have hstep : InOrder link net₀ Sent (.host host) (ni.step (.sendDatagram dgram nextHop)) :=
      horder.step ⟨0, .sent (hsend _ _ _ rfl)⟩ hop.1
    exact ⟨hstep, hqueue⟩
  | take host =>
    refine h.onPort (.host host) fun ni hni => ?_
    obtain ⟨horder, hqueue⟩ := h.ports _ ni hni
    exact ⟨horder, fun dgram hdgram => hqueue dgram (List.mem_of_mem_tail hdgram)⟩
  | route r => exact h.setRouter ((h.keeps r).route (hsetup.sends hsent r))
  | transmit p =>
    have hpop : Inv link net₀ Sent
        (net.onPort p fun ni => (ni.setBase (ni.step .popFrame), .ok ())).1 := by
      refine h.onPort p fun ni hni => ?_
      obtain ⟨horder, hqueue⟩ := h.ports _ ni hni
      have hstep : InOrder link net₀ Sent p (ni.step .popFrame) := horder.step trivial trivial
      exact ⟨hstep, hqueue⟩
    refine ⟨hpop.shape, fun q ni hni => hpop.ports q ni hni, fun q frame hframe => ?_⟩
    -- the frame that leaves the queue was in it
    have hframe : frame ∈ Function.update net.wire p (net.wire p ++
      (net.interface p).elim [] fun ni => ni.framesOut.take 1) q := hframe
    by_cases hq : q = p
    · subst hq
      rw [Function.update_self] at hframe
      rcases List.mem_append.1 hframe with hframe | hframe
      · exact h.wire q frame hframe
      · cases hni : net.interface q with
        | none =>
          rw [hni] at hframe
          cases hframe
        | some ni =>
          rw [hni] at hframe
          obtain ⟨⟨-, ni₀, -, hfaithful⟩, -⟩ := h.ports q ni hni
          exact hfaithful.frames frame (List.mem_of_mem_take hframe)
    · rw [Function.update_of_ne hq] at hframe
      exact h.wire q frame hframe
  | deliver src dst k =>
    obtain ⟨hlink, -⟩ := hop
    cases hframe : (net.wire src)[k]? with
    | none =>
      rw [Internet.step, call_deliver_none hframe]
      exact h
    | some frame =>
      rw [Internet.step, call_deliver hframe]
      obtain ⟨hhonest, hdirected⟩ := h.wire src frame (List.mem_of_getElem? hframe)
      refine h.onPort dst fun ni hni => ?_
      obtain ⟨horder, hqueue⟩ := h.ports dst ni hni
      rw [hlink] at hhonest hdirected
      have hstep : InOrder link net₀ Sent dst (ni.step (.recvFrame frame.contiguous)) :=
        horder.step hhonest.contiguous trivial
      refine AsyncNetworkInterface.recvFrame_induction hstep hqueue fun dgram hrecv => ?_
      have hunicast : ∀ ip, ¬ Resolves link net₀ (link dst) ip ethernetBroadcast := by
        rintro ip ⟨q, ni', -, hni', -, heth⟩
        exact hsetup.unicast q ni' hni' heth
      obtain ⟨nextHop, sent, ⟨k, hlaunched⟩, ⟨q, ni', hq, hni', hip, heth⟩, hread⟩ :=
        NetworkInterface.leaves_of_recvFrame hdirected.contiguous hunicast hrecv
      -- the address is that of this port, and of no other one on the link
      obtain ⟨-, ni₀, hni₀, hfaithful⟩ := horder
      rw [hfaithful.ethernet] at heth
      have hdst : q = dst := hsetup.distinct q dst ni' ni₀ hni' hni₀ hq heth
      subst hdst
      exact ⟨k, src, nextHop, sent, hlaunched, ⟨hlink, ni', hni', hip⟩, hread⟩
  | tick p ms =>
    refine h.onPort p fun ni hni => ?_
    obtain ⟨horder, hqueue⟩ := h.ports _ ni hni
    have hstep : InOrder link net₀ Sent p (ni.step (.tick ms)) :=
      horder.step trivial hop.2
    exact ⟨hstep, hqueue⟩

/-- **No call throws**. -/
theorem Inv.returns (hsetup : SetUp link net₀)
    (hsent : ∀ h dgram nextHop, Sent h dgram nextHop → dgram.Sendable)
    (h : Inv link net₀ Sent net) {op : Op H R} (hop : net₀.Admits link op) :
    (net.call op).2 = .ok () := by
  have hserializable : ∀ p ni, net.interface p = some ni →
      ∀ w ∈ ni.waitingArpInternetDatagrams, w.2.Serializable :=
    fun p ni hni => (h.ports p ni hni).1.1.synced.serializable
  have hthere : ∀ p, (net₀.interface p).isSome → ∃ ni, net.interface p = some ni :=
    fun p hp => Option.isSome_iff_exists.1 ((h.isSome_iff p).2 hp)
  cases op with
  | send host dgram nextHop => exact NetworkInterface.sendDatagram_returns _ hop.1 _
  | take => rfl
  | route r =>
    have hroutes : (net.routers r).RoutesExist := by
      intro item hitem
      rw [(h.shape r).1] at hitem
      rw [(h.shape r).2]
      exact hsetup.routes r item hitem
    have hclean : (net.routers r).Clean := by
      intro ni hni
      obtain ⟨n, hn⟩ := List.mem_iff_getElem?.1 hni
      refine ⟨fun dgram hdgram _ => ?_, hserializable (.router r n) ni hn⟩
      obtain ⟨k, harrives⟩ := (h.ports (.router r n) ni hn).2 dgram hdgram
      exact (harrives.sendable hsent).1
    have hadmissible : (net.routers r).Admissible .route := trivial
    exact (hclean.call hroutes hadmissible).1
  | transmit p =>
    obtain ⟨ni, hni⟩ := hthere p hop
    exact result_onPort (fun ni => (ni.setBase (ni.step .popFrame), .ok ())) hni
  | deliver src dst k =>
    cases hframe : (net.wire src)[k]? with
    | none => rw [call_deliver_none hframe]
    | some frame =>
      obtain ⟨ni, hni⟩ := hthere dst hop.2
      rw [call_deliver hframe, result_onPort _ hni]
      have hbuffer : ∃ buffer, frame.contiguous.payload.toBuffer = .ok buffer := ⟨_, rfl⟩
      obtain ⟨received, hreceived, -⟩ :=
        NetworkInterface.recvFrame_returns hbuffer (hserializable dst ni hni)
      unfold AsyncNetworkInterface.recvFrame
      generalize ni.toNetworkInterface.recvFrame frame.contiguous = r at hreceived
      obtain ⟨base, _ | _ | dgram⟩ := r
      · cases hreceived
      · rfl
      · rfl
  | tick p ms =>
    obtain ⟨ni, hni⟩ := hthere p hop.1
    exact result_onPort _ hni

/-- **Forwarding**: in every run of a network, whatever its links lose, repeat or reorder, no call
throws, every address an interface has learned is that of an interface on its link, and every
datagram an interface has received was sent by a host and has come hop by hop, each time by the
longest matching route to the port with the address of the next hop, with its content unchanged and
one taken from its time to live by every router. -/
theorem run_forwards (link : Port H R → L) (net₀ : Internet H R) (hsetup : SetUp link net₀)
    (ops : List (Op H R)) (hops : ∀ op ∈ ops, net₀.Admits link op) :
    (∀ op, net₀.Admits link op → ((exec step net₀ ops).call op).2 = .ok ()) ∧
    ∀ p ni, (exec step net₀ ops).interface p = some ni →
      (∀ ip entry, ni.arpTable.lookup ip = some entry →
        Resolves link net₀ (link p) ip entry.ethAddr) ∧
      ∀ dgram ∈ ni.datagramsOut, ∃ k,
        Arrives link net₀ (fun h sent nextHop => .send h sent nextHop ∈ ops) k p dgram ∧
        ∃ h sent nextHop, .send h sent nextHop ∈ ops ∧ dgram.content = sent.content ∧
          dgram.header.ttl.toNat + k = sent.header.ttl.toNat := by
  have hsent : ∀ h sent nextHop, .send h sent nextHop ∈ ops → IPv4Datagram.Sendable sent :=
    fun h sent nextHop hmem => hops (.send h sent nextHop) hmem
  have hinv : Inv link net₀ (fun h sent nextHop => .send h sent nextHop ∈ ops)
      (exec step net₀ ops) := by
    refine Guarded.invariant (G := fun _ op => op ∈ ops) (fun net op hnet hop => ?_) hsetup.inv
      (guarded_of_mem (fun _ hop => hop) net₀)
    refine hnet.step hsetup hsent (hops op hop) fun h sent nextHop heq => ?_
    subst heq
    exact hop
  refine ⟨fun op hop => hinv.returns hsetup hsent hop, fun p ni hni => ?_⟩
  obtain ⟨⟨-, ni₀, -, hfaithful⟩, hqueue⟩ := hinv.ports p ni hni
  refine ⟨hfaithful.table, fun dgram hdgram => ?_⟩
  obtain ⟨k, harrives⟩ := hqueue dgram hdgram
  refine ⟨k, harrives, ?_⟩
  obtain ⟨q, nextHop, sent, hlaunched, -, hread⟩ := harrives
  obtain ⟨hsendable, h, first, hop, hs, hcontent, hcount⟩ := hlaunched.origin hsent
  refine ⟨h, first, hop, hs, (hread.content hsendable).trans hcontent, ?_⟩
  rw [hread.ttl hsendable]
  exact hcount

end Run

/-! ## A network with one router -/

/-- One link from each of the two hosts to a port of the router. -/
def twoLinks : Port Bool Unit → Bool
  | .host h => h
  | .router _ n => n == 1

/-- The hosts 10.0.0.2 and 192.168.0.2, and the router between them. -/
def twoHosts : Internet Bool Unit where
  hosts h := if h then .new (.replicate 6 8) { ip := 0xc0a80002 }
    else .new (.replicate 6 2) { ip := 0x0a000002 }
  routers _ :=
    let r := (Router.addInterface {} (.new (.replicate 6 4) { ip := 0x0a000001 })).1
    let r := (r.addInterface (.new (.replicate 6 6) { ip := 0xc0a80001 })).1
    r.addRoute 0xc0a80000 24 none 1 (by decide)

theorem setUp_twoHosts : SetUp twoLinks twoHosts := by
  have hports : ∀ p ni, twoHosts.interface p = some ni →
      (p = .host false ∧ ni = .new (.replicate 6 2) { ip := 0x0a000002 }) ∨
      (p = .host true ∧ ni = .new (.replicate 6 8) { ip := 0xc0a80002 }) ∨
      (p = .router () 0 ∧ ni = .new (.replicate 6 4) { ip := 0x0a000001 }) ∨
      (p = .router () 1 ∧ ni = .new (.replicate 6 6) { ip := 0xc0a80001 }) := by
    intro p ni hni
    match p, hni with
    | .host false, hni =>
      cases hni
      exact .inl ⟨rfl, rfl⟩
    | .host true, hni =>
      cases hni
      exact .inr (.inl ⟨rfl, rfl⟩)
    | .router () 0, hni =>
      cases hni
      exact .inr (.inr (.inl ⟨rfl, rfl⟩))
    | .router () 1, hni =>
      cases hni
      exact .inr (.inr (.inr ⟨rfl, rfl⟩))
    | .router () (n + 2), hni => cases hni
  refine ⟨fun p ni hni => ?_, fun _ => rfl, fun _ => ?_, fun p q ni ni' hni hni' => ?_,
    fun p ni hni => ?_⟩
  · rcases hports p ni hni with ⟨-, rfl⟩ | ⟨-, rfl⟩ | ⟨-, rfl⟩ | ⟨-, rfl⟩ <;> exact ⟨_, _, rfl⟩
  · simp [Router.RoutesExist, twoHosts, Router.addInterface, Router.addRoute]
  · rcases hports p ni hni with ⟨rfl, rfl⟩ | ⟨rfl, rfl⟩ | ⟨rfl, rfl⟩ | ⟨rfl, rfl⟩ <;>
    rcases hports q ni' hni' with ⟨rfl, rfl⟩ | ⟨rfl, rfl⟩ | ⟨rfl, rfl⟩ | ⟨rfl, rfl⟩ <;>
    decide
  · rcases hports p ni hni with ⟨-, rfl⟩ | ⟨-, rfl⟩ | ⟨-, rfl⟩ | ⟨-, rfl⟩ <;> decide

/-- A datagram from one host to the other one. -/
def greeting : InternetDatagram :=
  ⟨{ len := 22, ttl := 64, src := 0x0a000002, dst := 0xc0a80002 }, BufferList.ofString [104, 105]⟩

/-- On either link the address is asked for and answered, and the datagram follows. -/
def exchange : List (Op Bool Unit) :=
  [.send false greeting { ip := 0x0a000001 },
    .transmit (.host false), .deliver (.host false) (.router () 0) 0,
    .transmit (.router () 0), .deliver (.router () 0) (.host false) 0,
    .transmit (.host false), .deliver (.host false) (.router () 0) 1,
    .route (),
    .transmit (.router () 1), .deliver (.router () 1) (.host true) 0,
    .transmit (.host true), .deliver (.host true) (.router () 1) 0,
    .transmit (.router () 1), .deliver (.router () 1) (.host true) 1]

/-- The datagram arrives after one router. -/
theorem forwards_of_exchange :
    ∃ dgram, ((exec step twoHosts exchange).hosts true).datagramsOut = [dgram] ∧
      Arrives twoLinks twoHosts (fun h sent nextHop => .send h sent nextHop ∈ exchange) 1
        (.host true) dgram ∧ dgram.content = greeting.content := by
  have hrun : ((exec step twoHosts exchange).hosts true).datagramsOut.map
      (fun dgram => dgram.header.ttl) = [63] := by
    decide +kernel
  obtain ⟨dgram, hdgram⟩ : ∃ dgram,
      ((exec step twoHosts exchange).hosts true).datagramsOut = [dgram] := by
    rw [← List.length_eq_one_iff]
    simpa using congrArg List.length hrun
  rw [hdgram] at hrun
  obtain ⟨-, hports⟩ := run_forwards twoLinks twoHosts setUp_twoHosts exchange (by decide +kernel)
  obtain ⟨-, hqueue⟩ := hports (.host true) _ rfl
  obtain ⟨k, harrives, h, sent, nextHop, hsent, hcontent, hcount⟩ :=
    hqueue dgram (by rw [hdgram]; exact List.mem_singleton_self dgram)
  have hgreeting : sent = greeting := by
    simp [exchange] at hsent
    exact hsent.2.1
  subst hgreeting
  have httl : dgram.header.ttl = 63 := by simpa using hrun
  rw [httl] at hcount
  have hcount : 63 + k = 64 := hcount
  obtain rfl : k = 1 := by omega
  exact ⟨dgram, hdgram, harrives, hcontent⟩

end Internet

end Sponge
