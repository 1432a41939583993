import Sponge.Lib.Run
import Sponge.Proof.IPv4Codec
import Sponge.Proof.Router

/-!
# Which frames crash a router

The parser of datagrams accepts some that cannot be serialized again (`IPv4Header.Forged`).

`router_safety`: as long as none comes in that has a route and a time to live, no call throws
(`Clean` is the invariant), and after every one that does come in, `route` and an ARP request of the
next hop throw.
-/

namespace Sponge

open BigEndian Run

namespace Router

variable {r : Router} {dgram : InternetDatagram}

/-! ## Clean routers -/

/-- Every datagram that waits can be serialized, and so can those in the queues that are to be
forwarded. -/
def Clean (r : Router) : Prop :=
  ∀ ni ∈ r.interfaces, (∀ dgram ∈ ni.datagramsOut, r.Forwards dgram → dgram.Serializable) ∧
    ∀ w ∈ ni.waitingArpInternetDatagrams, w.2.Serializable

theorem Clean.setInterface (h : r.Clean) {n : ℕ} {ni : AsyncNetworkInterface}
    (hqueue : ∀ dgram ∈ ni.datagramsOut, r.Forwards dgram → dgram.Serializable)
    (hwaits : ∀ w ∈ ni.waitingArpInternetDatagrams, w.2.Serializable) :
    (r.setInterface n ni).Clean := by
  intro ni' hni'
  obtain hni' | rfl := List.mem_or_eq_of_mem_set hni'
  · exact h ni' hni'
  · exact ⟨hqueue, hwaits⟩

theorem Clean.setQueue (h : r.Clean) {queue : List InternetDatagram}
    (hqueue : ∀ dgram ∈ queue, r.Forwards dgram → dgram.Serializable) (i : ℕ) :
    (r.setQueue i queue).Clean := by
  intro ni hni
  obtain ⟨k, hk⟩ := List.mem_iff_getElem?.1 hni
  simp only [Router.setQueue, List.getElem?_modify, Option.map_eq_map,
    Option.map_eq_some_iff] at hk
  obtain ⟨nk, hnk, hk⟩ := hk
  have hclean := h nk (List.mem_of_getElem? hnk)
  split at hk
  · subst hk
    exact ⟨hqueue, hclean.2⟩
  · subst hk
    exact hclean

/-- **Step**: routing a datagram that can be serialized, if it is to be forwarded, returns. -/
theorem Clean.routeOneDatagram (h : r.Clean) (hroutes : r.RoutesExist)
    (hdgram : r.Forwards dgram → dgram.Serializable) :
    (r.routeOneDatagram dgram).2.2 = .ok () ∧ (r.routeOneDatagram dgram).1.Clean := by
  refine ⟨routeOneDatagram_returns hroutes hdgram, ?_⟩
  obtain ⟨-, dgram', hroute⟩ | ⟨hforwards, n, ni, nextHop, hni, hroute⟩ :=
    routeOneDatagram_cases hroutes dgram
  · rw [hroute]
    exact h
  · have hser := serializable_decrementTtl.2 (hdgram hforwards)
    have hclean := h ni (List.mem_of_getElem? hni)
    obtain ⟨ni', result, hsend, hwaits⟩ := ni.sendDatagram_cases (decrementTtl dgram) nextHop
    rw [hroute, hsend]
    refine h.setInterface hclean.1 ?_
    dsimp only [AsyncNetworkInterface.setBase]
    obtain ⟨-, hwaits⟩ | ⟨-, hwaits⟩ := hwaits
    · rw [hwaits, List.forall_mem_append]
      exact ⟨hclean.2, by simpa using hser⟩
    · rw [hwaits]
      exact hclean.2

/-- **Run**: and so does routing a queue of them. -/
theorem Clean.routeQueue (h : r.Clean) (hroutes : r.RoutesExist)
    {queue : List InternetDatagram}
    (hqueue : ∀ dgram ∈ queue, r.Forwards dgram → dgram.Serializable) (i : ℕ) :
    (routeQueue i queue r).2 = .ok () ∧ (routeQueue i queue r).1.Clean := by
  induction queue generalizing r with
  | nil => exact ⟨rfl, h⟩
  | cons dgram queue ih =>
    rw [List.forall_mem_cons] at hqueue
    have hone := h.routeOneDatagram hroutes hqueue.1
    have hext := extends_routeOneDatagram hroutes dgram
    rw [Router.routeQueue]
    generalize r.routeOneDatagram dgram = routed at hone hext ⊢
    obtain ⟨r', dgram', result⟩ := routed
    obtain ⟨hok, hclean⟩ := hone
    dsimp only at hok hclean hext
    subst hok
    have hqueue' : ∀ dgram ∈ queue, r'.Forwards dgram → dgram.Serializable := by
      intro dgram hdgram hforwards
      exact hqueue.2 dgram hdgram (hext.forwards.1 hforwards)
    exact ih (hclean.setQueue hqueue' i)
      ((extends_setQueue i queue).routesExist (hext.routesExist hroutes)) hqueue'

theorem Clean.routeInterfaces (h : r.Clean) (hroutes : r.RoutesExist) (is : List ℕ) :
    (routeInterfaces is r).2 = .ok () ∧ (routeInterfaces is r).1.Clean := by
  induction is generalizing r with
  | nil => exact ⟨rfl, h⟩
  | cons i is ih =>
    rw [Router.routeInterfaces]
    cases hi : r.interfaces[i]? with
    | none => exact ih h hroutes
    | some ni =>
      have hqueue := h.routeQueue hroutes (h ni (List.mem_of_getElem? hi)).1 i
      have hext := extends_routeQueue hroutes i ni.datagramsOut
      dsimp only
      generalize Router.routeQueue i ni.datagramsOut r = routed at hqueue hext ⊢
      obtain ⟨r', result⟩ := routed
      obtain ⟨hok, hclean⟩ := hqueue
      dsimp only at hok hclean hext
      subst hok
      exact ih hclean (hext.routesExist hroutes)

/-! ## The calls -/

/-- The call returns. -/
def Quiet (r : Router) (op : RouterOp) : Prop := (r.call op).2 = .ok ()

/-- The frame brings a forged datagram that has a route and a time to live. -/
def Forged (r : Router) (frame : EthernetFrame) : Prop :=
  let b := frame.payload.concatenate
  frame.header.type = EthernetHeader.typeIPv4 ∧ IPv4Header.Forged b ∧ 1 < field b 8 1 ∧
    ∃ item ∈ r.routeTable, item.isMatch (UInt32.ofNat (field b 16 4)) = true

/-- The payload that the interface looks at is contiguous, as `EthernetFrame::parse` makes it. -/
def Contiguous (frame : EthernetFrame) : Prop :=
  frame.header.type = EthernetHeader.typeIPv4 ∨ frame.header.type = EthernetHeader.typeARP →
    frame.payload.length ≤ 1

/-- The condition on a call: it is on one of the interfaces, a frame for the interface is contiguous
and not forged, and a `tick` returns. -/
def Admissible (r : Router) : RouterOp → Prop
  | .recvFrame n frame => ∃ ni, r.interfaces[n]? = some ni ∧
    (ni.Hears frame → Contiguous frame ∧ ¬ r.Forged frame)
  | .tick n ms => ∃ ni, r.interfaces[n]? = some ni ∧ ni.Returns (.tick ms)
  | .popFrame n => n < r.interfaces.length
  | .route => True

instance (r : Router) (frame : EthernetFrame) : Decidable (r.Forged frame) :=
  inferInstanceAs (Decidable (frame.header.type = EthernetHeader.typeIPv4 ∧
    IPv4Header.Forged frame.payload.concatenate ∧ 1 < field frame.payload.concatenate 8 1 ∧
    ∃ item ∈ r.routeTable,
      item.isMatch (UInt32.ofNat (field frame.payload.concatenate 16 4)) = true))

instance (frame : EthernetFrame) : Decidable (Contiguous frame) :=
  inferInstanceAs (Decidable (frame.header.type = EthernetHeader.typeIPv4 ∨
    frame.header.type = EthernetHeader.typeARP → frame.payload.length ≤ 1))

instance (r : Router) : (op : RouterOp) → Decidable (r.Admissible op)
  | .recvFrame n frame => inferInstanceAs (Decidable (∃ ni ∈ r.interfaces[n]?,
      (ni.Hears frame → Contiguous frame ∧ ¬ r.Forged frame)))
  | .tick n ms => inferInstanceAs (Decidable (∃ ni ∈ r.interfaces[n]?, ni.Returns (.tick ms)))
  | .popFrame n => inferInstanceAs (Decidable (n < r.interfaces.length))
  | .route => .isTrue trivial

instance (r : Router) (op : RouterOp) : Decidable (r.Quiet op) :=
  match h : (r.call op).2 with
  | .ok () => .isTrue h
  | .error e => .isFalse (by simp [Quiet, h])

theorem onInterface_eq {n : ℕ} {ni : AsyncNetworkInterface} (hni : r.interfaces[n]? = some ni)
    (f : AsyncNetworkInterface → AsyncNetworkInterface × Except Exn Unit) :
    r.onInterface n f = (r.setInterface n (f ni).1, (f ni).2) := by
  simp [onInterface, interface, hni]

/-- `recv_frame` of an interface throws exactly if that of its base class does. -/
theorem quiet_recvFrame {n : ℕ} {ni : AsyncNetworkInterface} {frame : EthernetFrame}
    (hni : r.interfaces[n]? = some ni) :
    r.Quiet (.recvFrame n frame) ↔
      ∃ dgram, (ni.toNetworkInterface.recvFrame frame).2 = .ok dgram := by
  rw [Quiet, call, onInterface_eq hni]
  unfold AsyncNetworkInterface.recvFrame
  generalize ni.toNetworkInterface.recvFrame frame = received
  obtain ⟨base, result⟩ := received
  match result with
  | .error e => simp
  | .ok none => simp
  | .ok (some dgram) => simp

/-- An accepted datagram that is to be forwarded can be serialized, unless it is forged. -/
theorem forged_iff {frame : EthernetFrame} {buffer : Buffer}
    (htype : frame.header.type = EthernetHeader.typeIPv4)
    (hbuffer : frame.payload.toBuffer = .ok buffer)
    (hparse : IPv4Datagram.parse {} buffer = (dgram, .noError)) :
    r.Forged frame ↔ r.Forwards dgram ∧ ¬ dgram.Serializable := by
  have hstr := BufferList.str_toBuffer hbuffer
  have hser := IPv4Datagram.serializable_iff_of_noError hparse
  obtain ⟨-, hheader, -⟩ := IPv4Datagram.bits_of_noError hparse
  have httl : dgram.header.ttl > 1 ↔ 1 < field buffer.str 8 1 := by
    rw [hheader, gt_iff_lt, UInt8.lt_iff_toNat_lt]
    have hlt : field buffer.str 8 1 < 256 := field_lt
    change 1 < field buffer.str 8 1 % 256 ↔ 1 < field buffer.str 8 1
    rw [Nat.mod_eq_of_lt hlt]
  unfold Forged Forwards
  dsimp only
  rw [← hstr, hser, not_not, httl, hheader]
  simp only [htype, true_and, IPv4Header.ofBits]
  tauto

/-- **A frame that is not forged**: the interface keeps all waiting datagrams serializable, and puts
only such datagrams into its queue. -/
theorem Clean.recvFrame (h : r.Clean) {n : ℕ} {ni : AsyncNetworkInterface} {frame : EthernetFrame}
    (hni : r.interfaces[n]? = some ni)
    (hframe : ni.Hears frame → Contiguous frame ∧ ¬ r.Forged frame) :
    (ni.recvFrame frame).2 = .ok () ∧ (r.setInterface n (ni.recvFrame frame).1).Clean := by
  obtain ⟨hqueue, hwaits⟩ := h ni (List.mem_of_getElem? hni)
  have hreceived := ni.received frame
  unfold AsyncNetworkInterface.recvFrame
  generalize ni.toNetworkInterface.recvFrame frame = result at hreceived ⊢
  obtain ⟨base, result⟩ := result
  dsimp only at hreceived
  cases hreceived with
  | ignored => exact ⟨rfl, h.setInterface hqueue hwaits⟩
  | scattered hears htype hbuffer =>
    obtain ⟨buffer, hok⟩ := (BufferList.toBuffer_ok_iff _).2 ((hframe hears).1 htype)
    rw [hbuffer] at hok
    cases hok
  | datagram hears htype hbuffer hparse =>
    refine ⟨rfl, h.setInterface ?_ hwaits⟩
    rw [List.forall_mem_append]
    refine ⟨hqueue, ?_⟩
    intro dgram hdgram hforwards
    rw [List.mem_singleton] at hdgram
    subst hdgram
    by_contra hser
    exact (hframe hears).2 ((forged_iff htype hbuffer hparse).2 ⟨hforwards, hser⟩)
  | @learned arpMsg haccepted =>
    have hok : (ni.released arpMsg).2.2 = .ok () :=
      NetworkInterface.flushed_ok_iff.2 fun w hw _ => hwaits w hw
    rw [hok]
    refine ⟨rfl, h.setInterface hqueue ?_⟩
    intro w hw
    exact hwaits w (NetworkInterface.mem_of_mem_flushed hw)

/-- **Step**: an admissible call on a clean router returns, and the router stays clean. -/
theorem Clean.call (h : r.Clean) (hroutes : r.RoutesExist) {op : RouterOp}
    (hop : r.Admissible op) : r.Quiet op ∧ (r.step op).Clean := by
  unfold Quiet Router.step
  cases op with
  | recvFrame n frame =>
    obtain ⟨ni, hni, hframe⟩ := hop
    rw [Router.call, onInterface_eq hni]
    exact h.recvFrame hni hframe
  | tick n ms =>
    obtain ⟨ni, hni, hreturns⟩ := hop
    obtain ⟨hqueue, hwaits⟩ := h ni (List.mem_of_getElem? hni)
    have htick : ni.step (.tick ms) = ni.ticked ms := by
      rw [NetworkInterface.step,
        NetworkInterface.tick_eq_some (NetworkInterface.tick_isSome_iff.1 hreturns)]
      rfl
    rw [Router.call, onInterface_eq hni]
    dsimp only
    rw [htick]
    exact ⟨rfl, h.setInterface hqueue hwaits⟩
  | popFrame n =>
    have hni : r.interfaces[n]? = some r.interfaces[n] := List.getElem?_eq_getElem hop
    obtain ⟨hqueue, hwaits⟩ := h r.interfaces[n] (List.mem_of_getElem? hni)
    rw [Router.call, onInterface_eq hni]
    exact ⟨rfl, h.setInterface hqueue hwaits⟩
  | route => exact h.routeInterfaces hroutes _

/-- No call changes the routes or the number of interfaces. -/
theorem routesExist_step (hroutes : r.RoutesExist) (op : RouterOp) : (r.step op).RoutesExist := by
  have hset : ∀ n ni, (r.setInterface n ni).RoutesExist := by
    intro n ni item hitem
    have hlt := hroutes item hitem
    simpa [setInterface] using hlt
  have hon : ∀ n f, (r.onInterface n f).1.RoutesExist := by
    intro n f
    unfold onInterface
    split
    · exact hroutes
    · exact hset _ _
  cases op with
  | recvFrame n frame => exact hon n _
  | tick n ms => exact hon n _
  | popFrame n => exact hon n _
  | route => exact (extends_route hroutes).routesExist hroutes

/-! ## Forged frames -/

/-- A datagram waits that cannot be serialized. -/
def Stuck (r : Router) : Prop :=
  ∃ (n : ℕ) (ni : AsyncNetworkInterface), r.interfaces[n]? = some ni ∧
    ∃ w ∈ ni.waitingArpInternetDatagrams, ¬ w.2.Serializable

theorem Extends.stuck {r' : Router} (h : Extends r r') (hstuck : r.Stuck) : r'.Stuck := by
  obtain ⟨n, ni, hni, w, hw, hser⟩ := hstuck
  obtain ⟨ni', hni', hwaits⟩ := h.waits n ni hni
  exact ⟨n, ni', hni', w, hwaits w hw, hser⟩

theorem stuck_routeOneDatagram (hroutes : r.RoutesExist) (hforwards : r.Forwards dgram)
    (hser : ¬ dgram.Serializable) (hok : (r.routeOneDatagram dgram).2.2 = .ok ()) :
    (r.routeOneDatagram dgram).1.Stuck := by
  obtain ⟨hnot, -⟩ | ⟨-, n, ni, nextHop, hni, hroute⟩ := routeOneDatagram_cases hroutes dgram
  · exact absurd hforwards hnot
  · obtain ⟨ni', result, hsend, hwaits⟩ := ni.sendDatagram_cases (decrementTtl dgram) nextHop
    rw [hroute, hsend] at hok ⊢
    obtain ⟨-, hwaits⟩ | ⟨hiff, -⟩ := hwaits
    · refine ⟨n, ni.setBase ni', getElem?_setInterface hni _, (nextHop, decrementTtl dgram), ?_,
        hser⟩
      change _ ∈ ni'.waitingArpInternetDatagrams
      rw [hwaits]
      exact List.mem_append_right _ List.mem_cons_self
    · exact absurd (hiff.1 hok) hser

theorem stuck_routeQueue (hroutes : r.RoutesExist) (hforwards : r.Forwards dgram)
    (hser : ¬ dgram.Serializable) {queue : List InternetDatagram} (hdgram : dgram ∈ queue) (i : ℕ)
    (hok : (routeQueue i queue r).2 = .ok ()) : (routeQueue i queue r).1.Stuck := by
  induction queue generalizing r with
  | nil => cases hdgram
  | cons first queue ih =>
    have hext := extends_routeOneDatagram hroutes first
    have hstuck : dgram = first → (r.routeOneDatagram first).2.2 = .ok () →
        (r.routeOneDatagram first).1.Stuck := by
      intro heq hok
      subst heq
      exact stuck_routeOneDatagram hroutes hforwards hser hok
    rw [routeQueue] at hok ⊢
    generalize r.routeOneDatagram first = routed at hext hstuck hok ⊢
    obtain ⟨r', dgram', result⟩ := routed
    cases result with
    | error e => cases hok
    | ok =>
      have hpop : Extends r (r'.setQueue i queue) := hext.trans (extends_setQueue i queue)
      have hroutes' := hpop.routesExist hroutes
      rcases List.mem_cons.1 hdgram with heq | hdgram
      · have hnow := (extends_setQueue i queue).stuck (hstuck heq rfl)
        exact (extends_routeQueue hroutes' i queue).stuck hnow
      · exact ih hroutes' (hpop.forwards.2 hforwards) hdgram hok

theorem stuck_routeInterfaces (hroutes : r.RoutesExist) (hforwards : r.Forwards dgram)
    (hser : ¬ dgram.Serializable) {n : ℕ} {ni : AsyncNetworkInterface}
    (hni : r.interfaces[n]? = some ni) (hdgram : dgram ∈ ni.datagramsOut) {is : List ℕ}
    (hn : n ∈ is) (hok : (routeInterfaces is r).2 = .ok ()) : (routeInterfaces is r).1.Stuck := by
  induction is generalizing r ni with
  | nil => cases hn
  | cons i is ih =>
    rw [routeInterfaces] at hok ⊢
    cases hi : r.interfaces[i]? with
    | none =>
      have hne : n ≠ i := by
        intro heq
        rw [heq, hi] at hni
        cases hni
      simp only [hi] at hok ⊢
      exact ih hroutes hforwards hni hdgram (List.mem_of_ne_of_mem hne hn) hok
    | some first =>
      simp only [hi] at hok ⊢
      have hext := extends_routeQueue hroutes i first.datagramsOut
      have hroutes' := hext.routesExist hroutes
      by_cases hne : n = i
      · subst hne
        rw [hi] at hni
        cases hni
        have hstuck := stuck_routeQueue hroutes hforwards hser hdgram n
        generalize routeQueue n ni.datagramsOut r = routed at hext hroutes' hstuck hok ⊢
        obtain ⟨r', result⟩ := routed
        cases result with
        | error e => cases hok
        | ok => exact (extends_routeInterfaces hroutes' is).stuck (hstuck rfl)
      · have hsame := datagramsOut_routeQueue hroutes hne first.datagramsOut
        generalize routeQueue i first.datagramsOut r = routed at hext hroutes' hsame hok ⊢
        obtain ⟨r', result⟩ := routed
        cases result with
        | error e => cases hok
        | ok =>
          rw [hni, Option.map_some, Option.map_eq_some_iff] at hsame
          obtain ⟨ni', hni', hqueue⟩ := hsame
          rw [← hqueue] at hdgram
          exact ih hroutes' (hext.forwards.2 hforwards) hni' hdgram
            (List.mem_of_ne_of_mem hne hn) hok

/-- An ARP request for the interface, sent by a host with the given address. -/
def requestFrom (ip : UInt32) (ni : NetworkInterface) : EthernetFrame :=
  (NetworkInterface.new (.replicate 6 0) { ip := ip }).arpRequestFrame ni.ipAddress.ip

theorem recvFrame_requestFrom (ip : UInt32) (ni : NetworkInterface) :
    ∃ arpMsg, arpMsg.senderIpAddress = ip ∧ ni.recvFrame (requestFrom ip ni) =
      (ni.learn arpMsg, (ni.released arpMsg).2.2.map fun _ => none) := by
  have hmsg : (requestFrom ip ni).arpMessage =
      some ((NetworkInterface.new (.replicate 6 0) { ip := ip }).arpRequest ni.ipAddress.ip) :=
    NetworkInterface.arpMessage_arpFrame (NetworkInterface.arpRequest_supported _ _)
  refine ⟨_, rfl, (NetworkInterface.recvFrame_arp (.inr rfl) hmsg).trans
    (NetworkInterface.recvArp_valid ?_)⟩
  simp [NetworkInterface.isValidArpRequest, NetworkInterface.arpRequest, Address.ipv4Numeric]

/-- **The address is told**: an ARP request makes a stuck router throw. -/
theorem crash_of_stuck (h : r.Stuck) :
    ∃ n frame, r.Admissible (.recvFrame n frame) ∧ ¬ r.Quiet (.recvFrame n frame) := by
  obtain ⟨n, ni, hni, w, hw, hser⟩ := h
  refine ⟨n, requestFrom w.1.ip ni.toNetworkInterface, ⟨ni, hni, ?_⟩, ?_⟩
  · intro _
    refine ⟨fun _ => Nat.le_refl 1, ?_⟩
    intro hforged
    exact absurd hforged.1 (show EthernetHeader.typeARP ≠ EthernetHeader.typeIPv4 by decide)
  · obtain ⟨arpMsg, hsender, hrecv⟩ := recvFrame_requestFrom w.1.ip ni.toNetworkInterface
    rw [quiet_recvFrame hni, hrecv]
    intro hquiet
    obtain ⟨dgram, hquiet⟩ := hquiet
    have hresult : (ni.released arpMsg).2.2 = .ok () := by
      cases hreleased : (ni.released arpMsg).2.2 with
      | ok => rfl
      | error e =>
        rw [hreleased] at hquiet
        cases hquiet
    exact hser (NetworkInterface.flushed_ok_iff.1 hresult w hw hsender.symm)

/-- **A forged frame** is received, and then `route` throws or leaves the router stuck. -/
theorem stuck_of_forged (hroutes : r.RoutesExist) {n : ℕ} {ni : AsyncNetworkInterface}
    {frame : EthernetFrame} (hni : r.interfaces[n]? = some ni) (hears : ni.Hears frame)
    (hcontiguous : Contiguous frame) (hforged : r.Forged frame)
    (hok : (r.step (.recvFrame n frame)).Quiet .route) :
    ((r.step (.recvFrame n frame)).step .route).Stuck := by
  obtain ⟨htype, hb, -⟩ := id hforged
  obtain ⟨buffer, hbuffer⟩ := (BufferList.toBuffer_ok_iff _).2 (hcontiguous (.inl htype))
  rw [← BufferList.str_toBuffer hbuffer] at hb
  obtain ⟨dgram, hparse⟩ := IPv4Datagram.noError_of_forged hb
  obtain ⟨hforwards, hser⟩ := (forged_iff htype hbuffer hparse).1 hforged
  -- the datagram is in the queue of the interface
  have hrecv : ni.recvFrame frame =
      (⟨ni.toNetworkInterface, ni.datagramsOut ++ [dgram]⟩, .ok ()) := by
    unfold AsyncNetworkInterface.recvFrame
    rw [NetworkInterface.recvFrame_datagram hears htype hbuffer hparse]
  have hstep : r.step (.recvFrame n frame) =
      r.setInterface n ⟨ni.toNetworkInterface, ni.datagramsOut ++ [dgram]⟩ := by
    rw [step, call, onInterface_eq hni, hrecv]
  have hroutes' := routesExist_step hroutes (.recvFrame n frame)
  rw [hstep] at hok hroutes' ⊢
  have hni' := getElem?_setInterface hni ⟨ni.toNetworkInterface, ni.datagramsOut ++ [dgram]⟩
  exact stuck_routeInterfaces hroutes' hforwards hser hni'
    (List.mem_append_right _ List.mem_cons_self)
    (List.mem_range.2 (List.getElem?_eq_some_iff.1 hni').1) hok

theorem crash_of_scattered {n : ℕ} {ni : AsyncNetworkInterface} {frame : EthernetFrame}
    (hni : r.interfaces[n]? = some ni) (hears : ni.Hears frame) (h : ¬ Contiguous frame) :
    ¬ r.Quiet (.recvFrame n frame) := by
  rw [Contiguous, Classical.not_imp, Nat.not_le] at h
  obtain ⟨htype, hlen⟩ := h
  cases hbuffer : frame.payload.toBuffer with
  | ok buffer => exact absurd ((BufferList.toBuffer_ok_iff _).1 ⟨buffer, hbuffer⟩) (by omega)
  | error e =>
    rw [quiet_recvFrame hni, NetworkInterface.recvFrame_scattered hears htype hbuffer]
    simp

/-- **When a router is safe.** In a run whose calls are all admissible, none throws. A frame for one
of the interfaces that is not admissible, at whatever point of the run, makes `recv_frame` throw, or
a call of some admissible run after it. -/
theorem router_safety (r : Router) (hroutes : r.RoutesExist) (hclean : r.Clean)
    (ops : List RouterOp) :
    (Guarded step Admissible r ops → Guarded step Quiet r ops) ∧
    ∀ (n : ℕ) (frame : EthernetFrame), n < (exec step r ops).interfaces.length →
      ¬ (exec step r ops).Admissible (.recvFrame n frame) →
      ∃ later, Guarded step Admissible ((exec step r ops).step (.recvFrame n frame)) later ∧
        ¬ Guarded step Quiet (exec step r ops) (.recvFrame n frame :: later) := by
  constructor
  · apply Guarded.implies (I := fun r => r.RoutesExist ∧ r.Clean) _ _ ⟨hroutes, hclean⟩
    · intro r op h hop
      exact ⟨routesExist_step h.1 op, (h.2.call h.1 hop).2⟩
    · intro r op h hop
      exact (h.2.call h.1 hop).1
  · intro n frame hn hframe
    have hroutes : (exec step r ops).RoutesExist :=
      exec_invariant (I := RoutesExist) (fun _ op h => routesExist_step h op) ops hroutes
    generalize exec step r ops = s at hn hframe hroutes ⊢
    have hni : s.interfaces[n]? = some s.interfaces[n] := List.getElem?_eq_getElem hn
    have hbad : s.interfaces[n].Hears frame ∧ ¬ (Contiguous frame ∧ ¬ s.Forged frame) := by
      by_contra hgood
      exact hframe ⟨_, hni, not_and_not_right.1 hgood⟩
    obtain ⟨hears, hbad⟩ := hbad
    by_cases hcontiguous : Contiguous frame
    · have hforged : s.Forged frame := by
        by_contra hnot
        exact hbad ⟨hcontiguous, hnot⟩
      by_cases hroute : (s.step (.recvFrame n frame)).Quiet .route
      · -- the forged datagram waits for the address of its next hop
        have hstuck := stuck_of_forged hroutes hni hears hcontiguous hforged hroute
        obtain ⟨k, request, hadmissible, hcrash⟩ := crash_of_stuck hstuck
        refine ⟨[.route, .recvFrame k request], ⟨trivial, hadmissible, trivial⟩, ?_⟩
        intro hquiet
        exact hcrash hquiet.2.2.1
      · exact ⟨[.route], ⟨trivial, trivial⟩, fun hquiet => hroute hquiet.2.1⟩
    · exact ⟨[], trivial, fun hquiet => crash_of_scattered hni hears hcontiguous hquiet.1⟩

/-- A router with one interface and a default route. -/
def onePort : Router :=
  (addInterface {} (.new (.replicate 6 1) { ip := 7 })).1.addRoute 0 0 (some { ip := 9 }) 0
    (by decide)

/-- Twenty bytes that give the time to live 2, and 0 for everything else. -/
def forgedFrame : EthernetFrame where
  header := { dst := .replicate 6 1, src := .replicate 6 3, type := EthernetHeader.typeIPv4 }
  payload := BufferList.ofString (List.replicate 8 0 ++ 2 :: List.replicate 11 0)

theorem routesExist_onePort : onePort.RoutesExist := by
  simp [RoutesExist, onePort, addRoute, addInterface]

theorem clean_onePort : onePort.Clean := by
  simp [Clean, onePort, addRoute, addInterface, AsyncNetworkInterface.new, NetworkInterface.new]

/-- The frame is received and routed, and then an ARP request of the next hop throws. -/
theorem forged_frame_crashes :
    onePort.RoutesExist ∧ onePort.Clean ∧
      ¬ Guarded step Quiet onePort [.recvFrame 0 forgedFrame, .route,
        .recvFrame 0 (requestFrom 9 (.new (.replicate 6 1) { ip := 7 }))] :=
  ⟨routesExist_onePort, clean_onePort, by decide +kernel⟩

/-- Without it the request does no harm, and it does harm after the request. -/
theorem router_safety_of_request :
    Guarded step Quiet onePort
      [.recvFrame 0 (requestFrom 9 (.new (.replicate 6 1) { ip := 7 })), .tick 0 1000, .route] ∧
    ∃ later, Guarded step Admissible ((exec step onePort
        [.recvFrame 0 (requestFrom 9 (.new (.replicate 6 1) { ip := 7 })), .tick 0 1000,
          .route]).step (.recvFrame 0 forgedFrame)) later ∧
      ¬ Guarded step Quiet (exec step onePort
        [.recvFrame 0 (requestFrom 9 (.new (.replicate 6 1) { ip := 7 })), .tick 0 1000, .route])
        (.recvFrame 0 forgedFrame :: later) := by
  obtain ⟨hsafe, hexact⟩ := router_safety onePort routesExist_onePort clean_onePort
    [.recvFrame 0 (requestFrom 9 (.new (.replicate 6 1) { ip := 7 })), .tick 0 1000, .route]
  exact ⟨hsafe (by decide +kernel), hexact 0 forgedFrame (by decide +kernel) (by decide +kernel)⟩

end Router

end Sponge
