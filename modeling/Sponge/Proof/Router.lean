import Sponge.Proof.Interface
import Sponge.Router

/-!
# Routing

`Received` and `sendDatagram_cases` say what the calls of an interface return: a datagram that
cannot be serialized makes `send_datagram` throw, at once or, if it has to wait, in the `recv_frame`
that brings the address (`flushed_ok_iff`).

`routeOneDatagram_cases` is the specification of `route_one_datagram`. The loops of `route` only add
to what waits (`Extends`) and leave the queues they are not at (`datagramsOut_routeQueue`).
-/

namespace Sponge

/-! ## What the calls of an interface return -/

namespace NetworkInterface

variable {ni : NetworkInterface}

/-- **Sending**: the datagram waits, or the call returns exactly if it can be serialized. -/
theorem sendDatagram_cases (ni : NetworkInterface) (dgram : InternetDatagram) (nextHop : Address) :
    ∃ ni' result, ni.sendDatagram dgram nextHop = (ni', result) ∧
      ((result = .ok () ∧ ni'.waitingArpInternetDatagrams =
          ni.waitingArpInternetDatagrams ++ [(nextHop, dgram)]) ∨
        ((result = .ok () ↔ dgram.Serializable) ∧
          ni'.waitingArpInternetDatagrams = ni.waitingArpInternetDatagrams)) := by
  cases hentry : ni.arpTable.lookup nextHop.ipv4Numeric with
  | none =>
    unfold sendDatagram
    simp only [hentry]
    by_cases hasked : nextHop.ipv4Numeric ∈ ni.waitingArpResponseIpAddr
    · rw [if_pos hasked]
      exact ⟨_, _, rfl, .inl ⟨rfl, rfl⟩⟩
    · rw [if_neg hasked]
      exact ⟨_, _, rfl, .inl ⟨rfl, rfl⟩⟩
  | some entry =>
    rw [← IPv4Datagram.serialize_ok_iff]
    cases hser : dgram.serialize with
    | error e => exact ⟨_, _, sendDatagram_error hentry hser, .inr ⟨by simp, rfl⟩⟩
    | ok payload => exact ⟨_, _, sendDatagram_ok hentry hser, .inr ⟨by simp, rfl⟩⟩

theorem sendDatagram_returns (ni : NetworkInterface) {dgram : InternetDatagram}
    (hser : dgram.Serializable) (nextHop : Address) :
    (ni.sendDatagram dgram nextHop).2 = .ok () := by
  obtain ⟨ni', result, hsend, hresult⟩ := ni.sendDatagram_cases dgram nextHop
  rw [hsend]
  obtain ⟨hok, -⟩ | ⟨hok, -⟩ := hresult
  · exact hok
  · exact hok.2 hser

/-- A call of `send_datagram` that returns leaves a trace. -/
theorem sendDatagram_ne {dgram : InternetDatagram} {nextHop : Address}
    (h : (ni.sendDatagram dgram nextHop).2 = .ok ()) : (ni.sendDatagram dgram nextHop).1 ≠ ni := by
  cases hentry : ni.arpTable.lookup nextHop.ipv4Numeric with
  | none =>
    intro hsame
    have hwaits := congrArg (fun ni => ni.waitingArpInternetDatagrams.length) hsame
    simp only [sendDatagram, hentry] at hwaits
    split at hwaits
    · simp at hwaits
    · simp [push] at hwaits
  | some entry =>
    cases hser : dgram.serialize with
    | error e =>
      rw [sendDatagram_error hentry hser] at h
      cases h
    | ok payload =>
      rw [sendDatagram_ok hentry hser]
      intro hsame
      have hframes := congrArg (fun ni => ni.framesOut.length) hsame
      simp [push] at hframes

/-- **Releasing** throws exactly if one of the datagrams for the address cannot be serialized. -/
theorem flushed_ok_iff {frame : BufferList → EthernetFrame} {srcIpAddr : UInt32}
    {waiting : List (Address × InternetDatagram)} :
    (flushed frame srcIpAddr waiting).2.2 = .ok () ↔
      ∀ w ∈ waiting, w.1.ipv4Numeric = srcIpAddr → w.2.Serializable := by
  induction waiting with
  | nil => simp [flushed]
  | cons w rest ih =>
    rw [flushed, List.forall_mem_cons, ← ih]
    by_cases hip : w.1.ipv4Numeric = srcIpAddr
    · rw [if_pos hip, ← IPv4Datagram.serialize_ok_iff]
      cases hser : w.2.serialize with
      | error e => simp [hip]
      | ok payload => simp [hip]
    · rw [if_neg hip]
      simp [hip]

theorem mem_of_mem_flushed {frame : BufferList → EthernetFrame} {srcIpAddr : UInt32}
    {waiting : List (Address × InternetDatagram)} {w : Address × InternetDatagram}
    (hw : w ∈ (flushed frame srcIpAddr waiting).2.1) : w ∈ waiting := by
  induction waiting with
  | nil => cases hw
  | cons v rest ih =>
    rw [flushed] at hw
    split at hw
    · split at hw
      · exact hw
      · exact List.mem_cons_of_mem v (ih hw)
    · rcases List.mem_cons.1 hw with rfl | hw
      · exact List.mem_cons_self
      · exact List.mem_cons_of_mem v (ih hw)

/-- The frame is addressed to the interface. -/
def Hears (ni : NetworkInterface) (frame : EthernetFrame) : Prop :=
  frame.header.dst = ni.ethernetAddress ∨ frame.header.dst = ethernetBroadcast

instance (ni : NetworkInterface) (frame : EthernetFrame) : Decidable (ni.Hears frame) :=
  inferInstanceAs (Decidable (frame.header.dst = ni.ethernetAddress ∨
    frame.header.dst = ethernetBroadcast))

theorem Hears.not_ignored {frame : EthernetFrame} (h : ni.Hears frame) :
    ¬ (frame.header.dst ≠ ni.ethernetAddress ∧ frame.header.dst ≠ ethernetBroadcast) := by
  unfold Hears at h
  tauto

/-- What `recv_frame` does and returns. -/
inductive Received (ni : NetworkInterface) (frame : EthernetFrame) :
    NetworkInterface → Except Exn (Option InternetDatagram) → Prop
  | ignored : Received ni frame ni (.ok none)
  /-- The payload is not contiguous. -/
  | scattered {e : Exn} (hears : ni.Hears frame)
      (htype : frame.header.type = EthernetHeader.typeIPv4 ∨
        frame.header.type = EthernetHeader.typeARP)
      (hbuffer : frame.payload.toBuffer = .error e) : Received ni frame ni (.error e)
  | datagram {buffer : Buffer} {dgram : InternetDatagram} (hears : ni.Hears frame)
      (htype : frame.header.type = EthernetHeader.typeIPv4)
      (hbuffer : frame.payload.toBuffer = .ok buffer)
      (hparse : IPv4Datagram.parse {} buffer = (dgram, .noError)) :
      Received ni frame ni (.ok (some dgram))
  | learned {arpMsg : ARPMessage} (haccepted : ni.accepted frame = some arpMsg) :
      Received ni frame (ni.learn arpMsg) ((ni.released arpMsg).2.2.map fun _ => none)

theorem received (ni : NetworkInterface) (frame : EthernetFrame) :
    Received ni frame (ni.recvFrame frame).1 (ni.recvFrame frame).2 := by
  unfold recvFrame
  split
  · exact .ignored
  · rename_i hdst
    have hears : ni.Hears frame := by
      unfold Hears
      tauto
    split
    · rename_i hip
      cases hbuffer : frame.payload.toBuffer with
      | error e => exact .scattered hears (.inl hip) hbuffer
      | ok buffer =>
        dsimp only
        generalize hparse : IPv4Datagram.parse {} buffer = parsed
        obtain ⟨dgram, result⟩ := parsed
        split
        · exact .ignored
        · rename_i hresult
          dsimp only at hresult
          rw [not_not.1 hresult] at hparse
          exact .datagram hears hip hbuffer hparse
    · split
      · rename_i harp
        cases hbuffer : frame.payload.toBuffer with
        | error e => exact .scattered hears (.inr harp) hbuffer
        | ok buffer =>
          dsimp only
          generalize hparse : ARPMessage.parse {} buffer = parsed
          obtain ⟨arpMsg, result⟩ := parsed
          split
          · exact .ignored
          · rename_i hresult
            dsimp only at hresult ⊢
            cases hvalid : ni.isValidArpReply arpMsg || ni.isValidArpRequest arpMsg with
            | false =>
              rw [recvArp_not_valid hvalid]
              exact .ignored
            | true =>
              rw [recvArp_valid hvalid]
              apply Received.learned
              have hmsg : frame.arpMessage = some arpMsg := by
                simp [EthernetFrame.arpMessage, harp, hbuffer, hparse, not_not.1 hresult]
              have hhears : frame.header.dst = ni.ethernetAddress ∨
                frame.header.dst = ethernetBroadcast := hears
              simp [accepted, hhears, hmsg, hvalid]
      · exact .ignored

/-- A frame with an ARP message for the interface. -/
theorem recvFrame_arp {frame : EthernetFrame} {arpMsg : ARPMessage} (hears : ni.Hears frame)
    (hmsg : frame.arpMessage = some arpMsg) : ni.recvFrame frame = ni.recvArp arpMsg := by
  unfold EthernetFrame.arpMessage at hmsg
  split at hmsg
  · rename_i harp
    have hip : frame.header.type ≠ EthernetHeader.typeIPv4 := by
      rw [harp]
      decide
    unfold recvFrame
    rw [if_neg hears.not_ignored, if_neg hip, if_pos harp]
    cases hbuffer : frame.payload.toBuffer with
    | error e => simp [hbuffer] at hmsg
    | ok buffer =>
      simp only [hbuffer] at hmsg
      dsimp only
      generalize ARPMessage.parse {} buffer = parsed at hmsg ⊢
      obtain ⟨arpMsg', result⟩ := parsed
      split at hmsg
      · cases hmsg
      · rename_i hresult
        cases hmsg
        exact if_neg hresult
  · cases hmsg

/-- A frame with a datagram for the interface. -/
theorem recvFrame_datagram {frame : EthernetFrame} {buffer : Buffer} {dgram : InternetDatagram}
    (hears : ni.Hears frame) (htype : frame.header.type = EthernetHeader.typeIPv4)
    (hbuffer : frame.payload.toBuffer = .ok buffer)
    (hparse : IPv4Datagram.parse {} buffer = (dgram, .noError)) :
    ni.recvFrame frame = (ni, .ok (some dgram)) := by
  unfold recvFrame
  rw [if_neg hears.not_ignored, if_pos htype, hbuffer]
  dsimp only
  rw [hparse]
  rfl

/-- A frame for the interface whose payload is not contiguous. -/
theorem recvFrame_scattered {frame : EthernetFrame} {e : Exn} (hears : ni.Hears frame)
    (htype : frame.header.type = EthernetHeader.typeIPv4 ∨
      frame.header.type = EthernetHeader.typeARP)
    (hbuffer : frame.payload.toBuffer = .error e) : ni.recvFrame frame = (ni, .error e) := by
  unfold recvFrame
  rw [if_neg hears.not_ignored, hbuffer]
  by_cases hip : frame.header.type = EthernetHeader.typeIPv4
  · rw [if_pos hip]
  · rw [if_neg hip, if_pos (htype.resolve_left hip)]

/-- A datagram is only returned from a frame that holds it. -/
theorem recvFrame_some {frame : EthernetFrame} {dgram : InternetDatagram}
    (h : (ni.recvFrame frame).2 = .ok (some dgram)) :
    ∃ buffer, frame.payload.toBuffer = .ok buffer ∧
      IPv4Datagram.parse {} buffer = (dgram, .noError) := by
  have hreceived := ni.received frame
  generalize ni.recvFrame frame = got at h hreceived
  obtain ⟨ni', result⟩ := got
  dsimp only at h hreceived
  cases hreceived with
  | ignored => cases h
  | scattered => cases h
  | datagram _ _ hbuffer hparse =>
    cases h
    exact ⟨_, hbuffer, hparse⟩
  | @learned arpMsg _ =>
    cases hreleased : (ni.released arpMsg).2.2 with
    | error e => simp [hreleased, Except.map] at h
    | ok => simp [hreleased, Except.map] at h

end NetworkInterface

/-! ## Routes -/

namespace Router

variable {r : Router} {dgram : InternetDatagram}

/-- Every route names an interface. -/
def RoutesExist (r : Router) : Prop :=
  ∀ item ∈ r.routeTable, item.interfaceNum < r.interfaces.length

/-- The datagram has a route and a time to live. -/
def Forwards (r : Router) (dgram : InternetDatagram) : Prop :=
  dgram.header.ttl > 1 ∧ ∃ item ∈ r.routeTable, item.isMatch dgram.header.dst = true

/-- The loop over the table keeps a match, and finds one if there is any. -/
theorem foldl_betterMatch (dst : UInt32) (items : List RouteItem) (acc : Option RouteItem) :
    (∀ entry, items.foldl (betterMatch dst) acc = some entry → acc = some entry ∨ entry ∈ items) ∧
    (items.foldl (betterMatch dst) acc = none ↔
      acc = none ∧ ∀ item ∈ items, item.isMatch dst = false) := by
  induction items generalizing acc with
  | nil => simp
  | cons item items ih =>
    obtain ⟨hmem, hnone⟩ := ih (betterMatch dst acc item)
    have hround : (∀ entry, betterMatch dst acc item = some entry →
        acc = some entry ∨ entry = item) ∧
        (betterMatch dst acc item = none ↔ acc = none ∧ item.isMatch dst = false) := by
      unfold betterMatch
      cases hmatch : item.isMatch dst with
      | false =>
        simp only [Bool.false_eq_true, ↓reduceIte, and_true, iff_self]
        exact fun _ hentry => .inl hentry
      | true =>
        cases acc with
        | none => simp
        | some entry =>
          simp only [↓reduceIte]
          split <;> simp
    rw [List.foldl_cons, hnone, hround.2, List.forall_mem_cons, and_assoc]
    refine ⟨?_, Iff.rfl⟩
    intro entry hentry
    obtain hacc | hin := hmem entry hentry
    · obtain hacc | rfl := hround.1 entry hacc
      · exact .inl hacc
      · exact .inr List.mem_cons_self
    · exact .inr (List.mem_cons_of_mem item hin)

theorem mem_of_matchEntry {dst : UInt32} {entry : RouteItem} (h : r.matchEntry dst = some entry) :
    entry ∈ r.routeTable := by
  have hmem := (foldl_betterMatch dst r.routeTable none).1 entry h
  simpa using hmem

theorem matchEntry_eq_none {dst : UInt32} :
    r.matchEntry dst = none ↔ ∀ item ∈ r.routeTable, item.isMatch dst = false := by
  rw [matchEntry, (foldl_betterMatch dst r.routeTable none).2]
  exact and_iff_right rfl

/-- **Routing one datagram**: it is sent on an interface if it is to be forwarded, and else nothing
happens. -/
theorem routeOneDatagram_cases (hroutes : r.RoutesExist) (dgram : InternetDatagram) :
    (¬ r.Forwards dgram ∧ ∃ dgram', r.routeOneDatagram dgram = (r, dgram', .ok ())) ∨
    (r.Forwards dgram ∧ ∃ n ni nextHop, r.interfaces[n]? = some ni ∧
      r.routeOneDatagram dgram =
        (r.setInterface n (ni.setBase (ni.sendDatagram (decrementTtl dgram) nextHop).1),
          decrementTtl dgram, (ni.sendDatagram (decrementTtl dgram) nextHop).2)) := by
  unfold routeOneDatagram
  dsimp only
  cases hentry : r.matchEntry dgram.header.dst with
  | none =>
    left
    refine ⟨?_, _, rfl⟩
    intro h
    obtain ⟨-, item, hitem, hmatch⟩ := h
    rw [matchEntry_eq_none.1 hentry item hitem] at hmatch
    cases hmatch
  | some entry =>
    dsimp only
    split
    · rename_i httl
      right
      have hexists : ∃ item ∈ r.routeTable, item.isMatch dgram.header.dst = true := by
        by_contra hnone
        have hnone : r.matchEntry dgram.header.dst = none := by
          rw [matchEntry_eq_none]
          simpa using hnone
        rw [hentry] at hnone
        cases hnone
      have hlt := hroutes entry (mem_of_matchEntry hentry)
      have hni : r.interfaces[entry.interfaceNum]? = some r.interfaces[entry.interfaceNum] :=
        List.getElem?_eq_getElem hlt
      refine ⟨⟨httl, hexists⟩, entry.interfaceNum, _,
        entry.nextHop.getD { ip := dgram.header.dst }, hni, ?_⟩
      simp only [interface, hni]
    · rename_i httl
      left
      refine ⟨?_, _, rfl⟩
      intro h
      exact httl h.1

theorem serializable_decrementTtl :
    (decrementTtl dgram).Serializable ↔ dgram.Serializable := Iff.rfl

theorem routeOneDatagram_returns (hroutes : r.RoutesExist)
    (hdgram : r.Forwards dgram → dgram.Serializable) :
    (r.routeOneDatagram dgram).2.2 = .ok () := by
  obtain ⟨-, dgram', hroute⟩ | ⟨hforwards, n, ni, nextHop, -, hroute⟩ :=
    routeOneDatagram_cases hroutes dgram
  · rw [hroute]
  · rw [hroute]
    exact ni.sendDatagram_returns (serializable_decrementTtl.2 (hdgram hforwards)) nextHop

/-! ## Routing keeps the waiting datagrams -/

/-- The routes are the same, and all that waited still waits. -/
structure Extends (r r' : Router) : Prop where
  routes : r'.routeTable = r.routeTable
  length : r'.interfaces.length = r.interfaces.length
  waits : ∀ (n : ℕ) (ni : AsyncNetworkInterface), r.interfaces[n]? = some ni →
    ∃ ni' : AsyncNetworkInterface, r'.interfaces[n]? = some ni' ∧
      ∀ w ∈ ni.waitingArpInternetDatagrams, w ∈ ni'.waitingArpInternetDatagrams

namespace Extends

variable {r₁ r₂ r₃ : Router}

theorem refl (r : Router) : Extends r r := ⟨rfl, rfl, fun _ ni hni => ⟨ni, hni, fun _ hw => hw⟩⟩

theorem trans (h : Extends r₁ r₂) (h' : Extends r₂ r₃) : Extends r₁ r₃ := by
  refine ⟨h'.routes.trans h.routes, h'.length.trans h.length, ?_⟩
  intro n ni hni
  obtain ⟨ni₂, hni₂, hw₂⟩ := h.waits n ni hni
  obtain ⟨ni₃, hni₃, hw₃⟩ := h'.waits n ni₂ hni₂
  exact ⟨ni₃, hni₃, fun w hw => hw₃ w (hw₂ w hw)⟩

theorem forwards (h : Extends r₁ r₂) : r₂.Forwards dgram ↔ r₁.Forwards dgram := by
  rw [Forwards, h.routes, Forwards]

theorem routesExist (h : Extends r₁ r₂) (hroutes : r₁.RoutesExist) : r₂.RoutesExist := by
  unfold RoutesExist
  rw [h.routes, h.length]
  exact hroutes

end Extends

theorem getElem?_setInterface {n : ℕ} {ni : AsyncNetworkInterface}
    (hni : r.interfaces[n]? = some ni) (ni' : AsyncNetworkInterface) :
    (r.setInterface n ni').interfaces[n]? = some ni' := by
  have hlt : n < r.interfaces.length := (List.getElem?_eq_some_iff.1 hni).1
  simp [setInterface, hlt]

theorem extends_setInterface {n : ℕ} {ni ni' : AsyncNetworkInterface}
    (hni : r.interfaces[n]? = some ni)
    (hw : ∀ w ∈ ni.waitingArpInternetDatagrams, w ∈ ni'.waitingArpInternetDatagrams) :
    Extends r (r.setInterface n ni') := by
  refine ⟨rfl, by simp [setInterface], ?_⟩
  intro k nk hk
  by_cases hkn : k = n
  · subst hkn
    rw [hni] at hk
    cases hk
    exact ⟨ni', getElem?_setInterface hni ni', hw⟩
  · refine ⟨nk, ?_, fun _ hw => hw⟩
    rw [← hk]
    exact List.getElem?_set_ne (Ne.symm hkn)

theorem extends_setQueue (i : ℕ) (queue : List InternetDatagram) :
    Extends r (r.setQueue i queue) := by
  refine ⟨rfl, by simp [setQueue], ?_⟩
  intro k nk hk
  simp only [setQueue, List.getElem?_modify, hk]
  split
  · exact ⟨_, rfl, fun _ hw => hw⟩
  · exact ⟨_, rfl, fun _ hw => hw⟩

theorem extends_routeOneDatagram (hroutes : r.RoutesExist) (dgram : InternetDatagram) :
    Extends r (r.routeOneDatagram dgram).1 := by
  obtain ⟨-, dgram', hroute⟩ | ⟨-, n, ni, nextHop, hni, hroute⟩ :=
    routeOneDatagram_cases hroutes dgram
  · rw [hroute]
    exact Extends.refl r
  · rw [hroute]
    apply extends_setInterface hni
    intro w hw
    obtain ⟨ni', result, hsend, hwaits⟩ := ni.sendDatagram_cases (decrementTtl dgram) nextHop
    rw [hsend]
    dsimp only [AsyncNetworkInterface.setBase]
    obtain ⟨-, hwaits⟩ | ⟨-, hwaits⟩ := hwaits
    · rw [hwaits]
      exact List.mem_append_left _ hw
    · rwa [hwaits]

theorem extends_routeQueue (hroutes : r.RoutesExist) (i : ℕ) (queue : List InternetDatagram) :
    Extends r (routeQueue i queue r).1 := by
  induction queue generalizing r with
  | nil => exact Extends.refl r
  | cons dgram queue ih =>
    have hone := extends_routeOneDatagram hroutes dgram
    rw [routeQueue]
    generalize r.routeOneDatagram dgram = routed at hone ⊢
    obtain ⟨r', dgram', result⟩ := routed
    cases result with
    | error e => exact hone.trans (extends_setQueue i _)
    | ok =>
      have hpop := hone.trans (extends_setQueue i queue)
      exact hpop.trans (ih (hpop.routesExist hroutes))

theorem extends_routeInterfaces (hroutes : r.RoutesExist) (is : List ℕ) :
    Extends r (routeInterfaces is r).1 := by
  induction is generalizing r with
  | nil => exact Extends.refl r
  | cons i is ih =>
    rw [routeInterfaces]
    cases hi : r.interfaces[i]? with
    | none => exact ih hroutes
    | some ni =>
      have hqueue := extends_routeQueue hroutes i ni.datagramsOut
      dsimp only
      generalize routeQueue i ni.datagramsOut r = routed at hqueue ⊢
      obtain ⟨r', result⟩ := routed
      cases result with
      | error e => exact hqueue
      | ok => exact hqueue.trans (ih (hqueue.routesExist hroutes))

theorem extends_route (hroutes : r.RoutesExist) : Extends r r.route.1 :=
  extends_routeInterfaces hroutes _

/-! ## Routing leaves the other queues -/

/-- Sending adds nothing to the queues. -/
theorem datagramsOut_routeOneDatagram (hroutes : r.RoutesExist) (dgram : InternetDatagram)
    (n : ℕ) :
    (r.routeOneDatagram dgram).1.interfaces[n]?.map AsyncNetworkInterface.datagramsOut =
      r.interfaces[n]?.map AsyncNetworkInterface.datagramsOut := by
  obtain ⟨-, dgram', hroute⟩ | ⟨-, k, ni, nextHop, hni, hroute⟩ :=
    routeOneDatagram_cases hroutes dgram
  · rw [hroute]
  · rw [hroute]
    by_cases hkn : k = n
    · subst hkn
      rw [getElem?_setInterface hni, hni]
      rfl
    · simp [setInterface, List.getElem?_set_ne hkn]

/-- Routing the queue of one interface leaves those of the others. -/
theorem datagramsOut_routeQueue (hroutes : r.RoutesExist) {n i : ℕ} (hne : n ≠ i)
    (queue : List InternetDatagram) :
    (routeQueue i queue r).1.interfaces[n]?.map AsyncNetworkInterface.datagramsOut =
      r.interfaces[n]?.map AsyncNetworkInterface.datagramsOut := by
  have hset : ∀ (r : Router) (queue : List InternetDatagram),
      (r.setQueue i queue).interfaces[n]? = r.interfaces[n]? := by
    intro r queue
    simp [setQueue, Ne.symm hne]
  induction queue generalizing r with
  | nil => rfl
  | cons dgram queue ih =>
    have hext := extends_routeOneDatagram hroutes dgram
    have hone := datagramsOut_routeOneDatagram hroutes dgram n
    rw [routeQueue]
    generalize r.routeOneDatagram dgram = routed at hext hone ⊢
    obtain ⟨r', dgram', result⟩ := routed
    cases result with
    | error e =>
      dsimp only at hone ⊢
      rw [hset, hone]
    | ok =>
      have hpop : Extends r (r'.setQueue i queue) := hext.trans (extends_setQueue i queue)
      dsimp only at hone ⊢
      rw [ih (hpop.routesExist hroutes), hset, hone]

end Router

end Sponge
