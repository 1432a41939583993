import Sponge.Proof.Encapsulation
import Sponge.Proof.LinkCodec
import Sponge.Proof.RouterSafety

/-!
# What interfaces and routers carry

On its way a datagram gets a new checksum and a smaller time to live with every router, and a new
frame on every link. Its `Content` stays: what a receiver reads of it is what its sender put in
(`content_of_serialize`). So a property of contents that every datagram put into interfaces and
routers has, every datagram that comes out of them has, whatever frames they receive
(`NetworkInterface.Holds`, `Router.Holds`).
-/

namespace Sponge

/-- What TCP reads of a datagram. -/
structure Content where
  src : UInt32
  dst : UInt32
  proto : UInt8
  /-- The pseudo-header's contribution to the checksum. -/
  sum : UInt32
  payload : List UInt8
deriving DecidableEq, Repr

namespace IPv4Datagram

open BigEndian IPv4Header

def content (d : IPv4Datagram) : Content where
  src := d.header.src
  dst := d.header.dst
  proto := d.header.proto
  sum := d.header.pseudoCksum
  payload := d.payload.concatenate

/-- The lengths and the offset fit their fields. -/
def Fits (d : IPv4Datagram) : Prop := d.header.hlen.toNat ≤ 15 ∧ d.header.offset.toNat < 2 ^ 13

/-- Whatever was parsed fits. -/
theorem fits_of_noError {d : IPv4Datagram} {buffer : Buffer}
    (h : parse {} buffer = (d, .noError)) : d.Fits := by
  obtain ⟨-, hheader, -⟩ := bits_of_noError h
  have hlt := hlenOf_lt buffer.str
  refine ⟨?_, ?_⟩
  · rw [hheader, toNat_hlen_ofBits]
    omega
  · rw [hheader]
    show (UInt16.ofNat (field buffer.str 6 2 % 8192)).toNat < 2 ^ 13
    rw [UInt16.toNat_ofNat']
    omega

/-- **The way through bytes**: if a datagram comes through at all, only its checksum is new. -/
theorem parse_of_serialize {d d' : IPv4Datagram} {s : BufferList} (hfits : d.Fits)
    (hs : d.serialize = .ok s)
    (hparse : parse {} (Buffer.ofString s.concatenate) = (d', .noError)) :
    d'.header = d.header.setCksum d.header.newCksum ∧
      d'.payload.concatenate = d.payload.concatenate := by
  have hser : d.Serializable := (serialize_ok_iff d).1 ⟨s, hs⟩
  obtain ⟨hver, h5, hsize⟩ := hser
  obtain ⟨h15, hoff⟩ := hfits
  rw [serialize_eq ⟨hver, h5, hsize⟩] at hs
  cases hs
  generalize hb : BufferList.concatenate (BufferList.append (BufferList.ofString (d.header.front ++
    (toBytes 2 d.header.newCksum.toNat ++ d.header.back))) d.payload) = b at hparse
  have hbytes : b = d.header.front ++ (toBytes 2 d.header.newCksum.toNat ++
      (d.header.back ++ d.payload.concatenate)) := by
    rw [← hb]
    simp
  have hbits : ofBits b = d.header.setCksum d.header.newCksum := by
    rw [hbytes]
    exact ofBits_append (h := d.header.setCksum d.header.newCksum) hver h15 hoff
      d.payload.concatenate
  have hhead : (d.header.front ++ (toBytes 2 d.header.newCksum.toNat ++ d.header.back)).length =
      4 * d.header.hlen.toNat := by
    simp only [List.length_append, length_front, length_toBytes, length_back]
    omega
  have hlength : b.length = 4 * d.header.hlen.toNat + d.payload.concatenate.length := by
    rw [← hhead, hbytes]
    simp only [List.length_append]
    omega
  have hdrop : b.drop (4 * d.header.hlen.toNat) = d.payload.concatenate := by
    rw [← hhead, ← hb, BufferList.concatenate_append, BufferList.concatenate_ofString,
      List.drop_left]
  have hhlen : hlenOf b = d.header.hlen.toNat := by
    rw [← toNat_hlen_ofBits, hbits]
    rfl
  rw [parse_eq {} (by omega)] at hparse
  split at hparse
  · cases hparse
    exact ⟨hbits, by rw [BufferList.concatenate_ofString, hhlen, hdrop]⟩
  · -- more than 65535 bytes: only a header without options is not taken for part of the payload
    obtain ⟨rfl, hresult⟩ := Prod.mk.inj hparse
    split at hresult
    · rename_i hcount
      have hpay : payloadLengthOf b = d.payload.concatenate.length := by
        rw [← toNat_payloadLength_ofBits, hbits, ← BufferList.size_eq, hsize]
        rfl
      have hfive : d.header.hlen.toNat = 5 := by omega
      exact ⟨hbits, by rw [BufferList.concatenate_ofString, ← hdrop, hfive]⟩
    · cases hresult

/-- So its content stays. -/
theorem content_of_serialize {d d' : IPv4Datagram} {s : BufferList} (hfits : d.Fits)
    (hs : d.serialize = .ok s)
    (hparse : parse {} (Buffer.ofString s.concatenate) = (d', .noError)) :
    d'.content = d.content := by
  obtain ⟨hheader, hpayload⟩ := parse_of_serialize hfits hs hparse
  rw [content, hheader, hpayload]
  rfl

/-- What is parsed is contiguous. -/
theorem toBuffer_of_parse {d : IPv4Datagram} {buffer : Buffer}
    (h : parse {} buffer = (d, .noError)) : ∃ contents, d.payload.toBuffer = .ok contents := by
  rw [BufferList.toBuffer_ok_iff]
  have hlen := (bits_of_noError h).1
  rw [parse_congr, parse_eq {} hlen] at h
  have hone : ∀ bytes : List UInt8, (BufferList.ofString bytes).length ≤ 1 := fun _ => Nat.le_refl 1
  split at h
  · cases h
    exact hone _
  · obtain ⟨rfl, -⟩ := Prod.mk.inj h
    exact hone _

/-- A datagram of which `P` is true, ready to be sent. -/
def Good (P : Content → Prop) (d : IPv4Datagram) : Prop := P d.content ∧ d.Fits

variable {P : Content → Prop} {d : IPv4Datagram}

theorem Good.decrementTtl (h : d.Good P) : (Router.decrementTtl d).Good P := h

theorem Good.mono {P' : Content → Prop} (h : d.Good P) (himp : ∀ c, P c → P' c) : d.Good P' :=
  ⟨himp _ h.1, h.2⟩

/-- The datagram that a receiver finds in the bytes, if any, has a content in `P`. -/
def BytesBear (P : Content → Prop) (bytes : List UInt8) : Prop :=
  ∀ d, parse {} (Buffer.ofString bytes) = (d, .noError) → P d.content

theorem BytesBear.mono {P' : Content → Prop} {bytes : List UInt8} (h : BytesBear P bytes)
    (himp : ∀ c, P c → P' c) : BytesBear P' bytes :=
  fun d hparse => himp _ (h d hparse)

/-- **A datagram on the wire** bears what it was. -/
theorem Good.serialize {packet : BufferList} (h : d.Good P) (hs : d.serialize = .ok packet) :
    BytesBear P packet.concatenate := by
  intro d' hparse
  rw [content_of_serialize h.2 hs hparse]
  exact h.1

end IPv4Datagram

namespace EthernetFrame

variable {P P' : Content → Prop} {frame : EthernetFrame}

/-- The datagram that a receiver finds in the frame, if any, has a content in `P`. -/
def Bears (P : Content → Prop) (frame : EthernetFrame) : Prop :=
  frame.header.type = EthernetHeader.typeIPv4 →
    IPv4Datagram.BytesBear P frame.payload.concatenate

/-- The same for bytes that are received as a frame. -/
def BytesBear (P : Content → Prop) (bytes : List UInt8) : Prop :=
  ∀ frame, EthernetFrame.new.parse (Buffer.ofString bytes) = (frame, .noError) → frame.Bears P

theorem Bears.mono (h : frame.Bears P) (himp : ∀ c, P c → P' c) : frame.Bears P' :=
  fun htype d hparse => himp _ (h htype d hparse)

theorem BytesBear.mono {bytes : List UInt8} (h : BytesBear P bytes) (himp : ∀ c, P c → P' c) :
    BytesBear P' bytes :=
  fun frame hparse => (h frame hparse).mono himp

/-- **A frame on the wire** bears what it bore before. -/
theorem Bears.serialize (h : frame.Bears P) : BytesBear P frame.serialize.concatenate := by
  intro frame' hparse htype d hd
  obtain ⟨-, hheader, hpayload⟩ := roundTrips frame
  rw [hparse] at hheader hpayload
  exact h (by rw [← hheader]; exact htype) d (by rw [← hpayload]; exact hd)

theorem bears_of_not_ipv4 (h : frame.header.type ≠ EthernetHeader.typeIPv4) : frame.Bears P :=
  fun htype => absurd htype h

/-- What is parsed is contiguous. -/
theorem toBuffer_of_parse {bytes : List UInt8}
    (h : EthernetFrame.new.parse (Buffer.ofString bytes) = (frame, .noError)) :
    ∃ buffer, frame.payload.toBuffer = .ok buffer := by
  rw [BufferList.toBuffer_ok_iff]
  have hpayload := congrArg (fun r : EthernetFrame × ParseResult => r.1.payload) h
  unfold EthernetFrame.parse at hpayload
  dsimp only at hpayload
  rw [← hpayload]
  simp [BufferList.ofString]

end EthernetFrame

/-! ## Interfaces -/

namespace NetworkInterface

variable {P P' : Content → Prop} {ni ni' : NetworkInterface} {op : IfaceOp}

/-- Everything that waits for an address or is to be sent has a content in `P`. -/
structure Holds (P : Content → Prop) (ni : NetworkInterface) : Prop where
  waiting : ∀ w ∈ ni.waitingArpInternetDatagrams, w.2.Good P
  frames : ∀ frame ∈ ni.framesOut, frame.Bears P

theorem Holds.mono (h : ni.Holds P) (himp : ∀ c, P c → P' c) : ni.Holds P' :=
  ⟨fun w hw => (h.waiting w hw).mono himp, fun frame hframe => (h.frames frame hframe).mono himp⟩

theorem new_holds (ethernetAddress : EthernetAddress) (ipAddress : Address) :
    (new ethernetAddress ipAddress).Holds P :=
  ⟨List.forall_mem_nil _, List.forall_mem_nil _⟩

/-- The frame of a datagram bears it. -/
theorem bears_ipv4Frame {d : InternetDatagram} {payload : BufferList} (hd : d.Good P)
    (hs : d.serialize = .ok payload) (entry : ARPEntry) : (ni.ipv4Frame entry payload).Bears P := by
  intro _
  exact hd.serialize hs

theorem bears_arpRequestFrame (ni : NetworkInterface) (ip : UInt32) :
    (ni.arpRequestFrame ip).Bears P :=
  EthernetFrame.bears_of_not_ipv4
    (show EthernetHeader.typeARP ≠ EthernetHeader.typeIPv4 by decide)

theorem bears_arpReplyFrame (ni : NetworkInterface) (arpMsg : ARPMessage) :
    (ni.arpReplyFrame arpMsg).Bears P :=
  EthernetFrame.bears_of_not_ipv4
    (show EthernetHeader.typeARP ≠ EthernetHeader.typeIPv4 by decide)

/-- The released frames carry datagrams that waited for the address. -/
theorem exists_serialize_of_mem_flushed {frame : BufferList → EthernetFrame} {srcIpAddr : UInt32}
    {waiting : List (Address × InternetDatagram)} {f : EthernetFrame}
    (hf : f ∈ (flushed frame srcIpAddr waiting).1) :
    ∃ w ∈ waiting, w.1.ip = srcIpAddr ∧ ∃ payload, w.2.serialize = .ok payload ∧
      f = frame payload := by
  induction waiting with
  | nil => cases hf
  | cons w rest ih =>
    rw [flushed] at hf
    split at hf
    · rename_i hip
      split at hf
      · cases hf
      · rename_i payload hser
        rcases List.mem_cons.1 hf with rfl | hf
        · exact ⟨w, List.mem_cons_self, hip, payload, hser, rfl⟩
        · obtain ⟨v, hv, hpayload⟩ := ih hf
          exact ⟨v, List.mem_cons_of_mem w hv, hpayload⟩
    · obtain ⟨v, hv, hpayload⟩ := ih hf
      exact ⟨v, List.mem_cons_of_mem w hv, hpayload⟩

/-- The frames that a call may emit. -/
inductive Emits (ni : NetworkInterface) : IfaceOp → EthernetFrame → Prop
  | request (op : IfaceOp) (ip : UInt32) : Emits ni op (ni.arpRequestFrame ip)
  | reply {frame : EthernetFrame} {arpMsg : ARPMessage} (hmsg : ni.accepted frame = some arpMsg) :
      Emits ni (.recvFrame frame) (ni.arpReplyFrame arpMsg)
  | sent {dgram : InternetDatagram} {nextHop : Address} {entry : ARPEntry} {payload : BufferList}
      (hentry : ni.arpTable.lookup nextHop.ip = some entry) (hser : dgram.serialize = .ok payload) :
      Emits ni (.sendDatagram dgram nextHop) (ni.ipv4Frame entry payload)
  | released {frame : EthernetFrame} {arpMsg : ARPMessage} {w : Address × InternetDatagram}
      {payload : BufferList} (hmsg : ni.accepted frame = some arpMsg)
      (hw : w ∈ ni.waitingArpInternetDatagrams) (hip : w.1.ip = arpMsg.senderIpAddress)
      (hser : w.2.serialize = .ok payload) :
      Emits ni (.recvFrame frame) (ni.ipv4Frame (newEntry arpMsg) payload)

theorem emits_of_call {frames : List EthernetFrame} (hc : Call ni op ni' frames)
    {f : EthernetFrame} (hf : f ∈ frames) : Emits ni op f := by
  cases hc with
  | wait | throw | ignore | pop => cases hf
  | ask =>
    rw [List.mem_singleton.1 hf]
    exact .request _ _
  | send hentry hser =>
    rw [List.mem_singleton.1 hf]
    exact .sent hentry hser
  | learn hmsg =>
    rcases List.mem_append.1 hf with hf | hf
    · unfold replies at hf
      split at hf
      · rw [List.mem_singleton.1 hf]
        exact .reply hmsg
      · cases hf
    · obtain ⟨w, hw, hip, payload, hser, rfl⟩ := exists_serialize_of_mem_flushed hf
      exact .released hmsg hw hip hser
  | tick =>
    obtain ⟨ip, -, rfl⟩ := List.mem_map.1 hf
    exact .request _ ip

/-- **What is to be sent** was emitted by a call. -/
theorem frames_of_call {F : EthernetFrame → Prop} {frames : List EthernetFrame}
    (h : ∀ frame ∈ ni.framesOut, F frame) (hF : ∀ frame, Emits ni op frame → F frame)
    (hc : Call ni op ni' frames) : ∀ frame ∈ ni'.framesOut, F frame := by
  have hnew : ∀ frame ∈ frames, F frame := fun frame hframe => hF frame (emits_of_call hc hframe)
  cases hc with
  | wait | throw | ignore => exact h
  | ask | send | learn | tick => exact List.forall_mem_append.2 ⟨h, hnew⟩
  | pop => exact fun frame hframe => h frame (List.mem_of_mem_tail hframe)

/-- **What waits** was passed to `send_datagram`. -/
theorem waiting_of_call {D : Address × InternetDatagram → Prop} {frames : List EthernetFrame}
    (h : ∀ w ∈ ni.waitingArpInternetDatagrams, D w)
    (hop : ∀ dgram nextHop, op = .sendDatagram dgram nextHop → D (nextHop, dgram))
    (hc : Call ni op ni' frames) : ∀ w ∈ ni'.waitingArpInternetDatagrams, D w := by
  cases hc with
  | @wait dgram nextHop | @ask dgram nextHop =>
    exact List.forall_mem_append.2 ⟨h, List.forall_mem_singleton.2 (hop dgram nextHop rfl)⟩
  | send | throw | ignore | tick | pop => exact h
  | learn => exact fun w hw => h w (mem_of_mem_flushed hw)

/-- The datagram that a call passes to `send_datagram` is in `P`. -/
def Passes (P : Content → Prop) : IfaceOp → Prop
  | .sendDatagram dgram _ => dgram.Good P
  | .recvFrame _ | .tick _ | .popFrame => True

/-- **Every call**: nothing gets in but by `send_datagram`. -/
theorem Holds.call (h : ni.Holds P) (hop : Passes P op) {frames : List EthernetFrame}
    (hc : Call ni op ni' frames) : ni'.Holds P := by
  refine ⟨waiting_of_call h.waiting (fun dgram nextHop heq => by subst heq; exact hop) hc,
    frames_of_call h.frames (fun frame hemits => ?_) hc⟩
  cases hemits with
  | request => exact bears_arpRequestFrame _ _
  | reply => exact bears_arpReplyFrame _ _
  | sent _ hser => exact bears_ipv4Frame hop hser _
  | released _ hw _ hser => exact bears_ipv4Frame (h.waiting _ hw) hser _

theorem Holds.step (h : ni.Holds P) (hop : Passes P op) (hret : ni.Returns op) :
    (ni.step op).Holds P :=
  h.call hop (called hret)

theorem Holds.recvFrame (h : ni.Holds P) (frame : EthernetFrame) :
    (ni.recvFrame frame).1.Holds P := by
  have hstep : (ni.step (.recvFrame frame)).Holds P := h.step trivial trivial
  exact hstep

theorem Holds.sendDatagram (h : ni.Holds P) {dgram : InternetDatagram} (hgood : dgram.Good P)
    (nextHop : Address) : (ni.sendDatagram dgram nextHop).1.Holds P := by
  have hstep : (ni.step (.sendDatagram dgram nextHop)).Holds P := h.step hgood trivial
  exact hstep

/-- **What is received** is what the frame bears. -/
theorem good_of_recvFrame {frame : EthernetFrame} {dgram : InternetDatagram} (h : frame.Bears P)
    (hrecv : (ni.recvFrame frame).2 = .ok (some dgram)) : dgram.Good P := by
  have hreceived := ni.received frame
  generalize ni.recvFrame frame = r at hreceived hrecv
  obtain ⟨ni', r⟩ := r
  dsimp only at hreceived hrecv
  cases hreceived with
  | ignored | scattered => cases hrecv
  | @datagram buffer d hears htype hbuffer hparse =>
    cases hrecv
    refine ⟨h htype dgram ?_, IPv4Datagram.fits_of_noError hparse⟩
    rw [IPv4Datagram.parse_congr] at hparse
    rw [← BufferList.str_toBuffer hbuffer]
    exact hparse
  | learned =>
    generalize (ni.released _).2.2 = released at hrecv
    cases released <;> cases hrecv

/-- **`recv_frame` returns** on a contiguous frame, if everything that waits can be serialized; so
does `to_buffer` on the datagram it returns. -/
theorem recvFrame_returns {frame : EthernetFrame}
    (hframe : ∃ buffer, frame.payload.toBuffer = .ok buffer)
    (hser : ∀ w ∈ ni.waitingArpInternetDatagrams, w.2.Serializable) :
    ∃ received, (ni.recvFrame frame).2 = .ok received ∧
      ∀ dgram, received = some dgram → ∃ buffer, dgram.payload.toBuffer = .ok buffer := by
  have hreceived := ni.received frame
  generalize ni.recvFrame frame = r at hreceived
  obtain ⟨ni', r⟩ := r
  dsimp only at hreceived ⊢
  cases hreceived with
  | ignored => exact ⟨none, rfl, by simp⟩
  | scattered _ _ hscattered =>
    obtain ⟨buffer, hbuffer⟩ := hframe
    rw [hscattered] at hbuffer
    cases hbuffer
  | @datagram buffer dgram _ _ _ hparse =>
    refine ⟨some dgram, rfl, fun d hd => ?_⟩
    cases hd
    exact IPv4Datagram.toBuffer_of_parse hparse
  | @learned arpMsg _ =>
    have hreleased : (ni.released arpMsg).2.2 = .ok () :=
      flushed_ok_iff.2 fun w hw _ => hser w hw
    rw [hreleased]
    exact ⟨none, rfl, by simp⟩

end NetworkInterface

/-- What `AsyncNetworkInterface::recv_frame` keeps: it is `recv_frame` of the base class, with the
datagram queued. -/
theorem AsyncNetworkInterface.recvFrame_induction {ni : AsyncNetworkInterface}
    {I : NetworkInterface → Prop} {Q : InternetDatagram → Prop} {frame : EthernetFrame}
    (hbase : I (ni.toNetworkInterface.recvFrame frame).1)
    (hqueue : ∀ dgram ∈ ni.datagramsOut, Q dgram)
    (hrecv : ∀ dgram, (ni.toNetworkInterface.recvFrame frame).2 = .ok (some dgram) → Q dgram) :
    I (ni.recvFrame frame).1.toNetworkInterface ∧
      ∀ dgram ∈ (ni.recvFrame frame).1.datagramsOut, Q dgram := by
  unfold AsyncNetworkInterface.recvFrame
  generalize ni.toNetworkInterface.recvFrame frame = received at hbase hrecv
  obtain ⟨base, _ | _ | dgram⟩ := received
  · exact ⟨hbase, hqueue⟩
  · exact ⟨hbase, hqueue⟩
  · refine ⟨hbase, fun d hd => ?_⟩
    rcases List.mem_append.1 hd with hd | hd
    · exact hqueue d hd
    · rw [List.mem_singleton.1 hd]
      exact hrecv dgram rfl

/-! ## Routers -/

namespace Router

section Keeps

variable {T : List RouteItem → ℕ → Prop} {I : ℕ → NetworkInterface → Prop}
  {Q : ℕ → InternetDatagram → Prop} {r : Router}

/-- The routes and the number of interfaces are in `T`, the interface `n` is in `I n`, and what it
has queued is in `Q n`. -/
structure Keeps (T : List RouteItem → ℕ → Prop) (I : ℕ → NetworkInterface → Prop)
    (Q : ℕ → InternetDatagram → Prop) (r : Router) : Prop where
  shape : T r.routeTable r.interfaces.length
  interfaces : ∀ (n : ℕ) (ni : AsyncNetworkInterface), r.interfaces[n]? = some ni →
    I n ni.toNetworkInterface
  queues : ∀ (n : ℕ) (ni : AsyncNetworkInterface), r.interfaces[n]? = some ni →
    ∀ dgram ∈ ni.datagramsOut, Q n dgram

theorem Keeps.setInterface (h : r.Keeps T I Q) {n : ℕ} {ni : AsyncNetworkInterface}
    (hbase : I n ni.toNetworkInterface) (hqueue : ∀ dgram ∈ ni.datagramsOut, Q n dgram) :
    (r.setInterface n ni).Keeps T I Q := by
  have hcases : ∀ (k : ℕ) (nk : AsyncNetworkInterface),
      (r.setInterface n ni).interfaces[k]? = some nk →
        k = n ∧ nk = ni ∨ r.interfaces[k]? = some nk := by
    intro k nk hk
    simp only [Router.setInterface, List.getElem?_set] at hk
    split at hk
    · split at hk
      · cases hk
        exact .inl ⟨by omega, rfl⟩
      · cases hk
    · exact .inr hk
  refine ⟨by simpa [Router.setInterface] using h.shape, fun k nk hk => ?_, fun k nk hk => ?_⟩
  · rcases hcases k nk hk with ⟨rfl, rfl⟩ | hk
    · exact hbase
    · exact h.interfaces k nk hk
  · rcases hcases k nk hk with ⟨rfl, rfl⟩ | hk
    · exact hqueue
    · exact h.queues k nk hk

theorem Keeps.setQueue (h : r.Keeps T I Q) {i : ℕ} {queue : List InternetDatagram}
    (hqueue : ∀ dgram ∈ queue, Q i dgram) : (r.setQueue i queue).Keeps T I Q := by
  have hcases : ∀ (k : ℕ) (nk : AsyncNetworkInterface),
      (r.setQueue i queue).interfaces[k]? = some nk → ∃ nk₀, r.interfaces[k]? = some nk₀ ∧
        nk.toNetworkInterface = nk₀.toNetworkInterface ∧
          (k = i ∧ nk.datagramsOut = queue ∨ nk.datagramsOut = nk₀.datagramsOut) := by
    intro k nk hk
    simp only [Router.setQueue, List.getElem?_modify] at hk
    cases hk₀ : r.interfaces[k]? with
    | none =>
      rw [hk₀] at hk
      cases hk
    | some nk₀ =>
      rw [hk₀] at hk
      simp only [Option.map_eq_map, Option.map_some, Option.some.injEq] at hk
      refine ⟨nk₀, rfl, ?_⟩
      split at hk
      · subst hk
        exact ⟨rfl, .inl ⟨by omega, rfl⟩⟩
      · subst hk
        exact ⟨rfl, .inr rfl⟩
  refine ⟨by simpa [Router.setQueue] using h.shape, fun k nk hk => ?_, fun k nk hk => ?_⟩
  · obtain ⟨nk₀, hk₀, hbase, -⟩ := hcases k nk hk
    rw [hbase]
    exact h.interfaces k nk₀ hk₀
  · obtain ⟨nk₀, hk₀, -, ⟨rfl, hq⟩ | hq⟩ := hcases k nk hk
    · rw [hq]
      exact hqueue
    · rw [hq]
      exact h.queues k nk₀ hk₀

/-- **A call on an interface**. -/
theorem Keeps.onInterface (h : r.Keeps T I Q) {n : ℕ}
    {f : AsyncNetworkInterface → AsyncNetworkInterface × Except Exn Unit}
    (hf : ∀ ni, r.interfaces[n]? = some ni → I n (f ni).1.toNetworkInterface ∧
      ∀ dgram ∈ (f ni).1.datagramsOut, Q n dgram) : (r.onInterface n f).1.Keeps T I Q := by
  cases hni : r.interfaces[n]? with
  | none =>
    simp only [Router.onInterface, interface, hni]
    exact h
  | some ni =>
    rw [onInterface_eq hni]
    obtain ⟨hbase, hqueue⟩ := hf ni hni
    exact h.setInterface hbase hqueue

/-- A datagram of `Q n` can be sent on, or it can stay in its queue with a smaller time to live. -/
def Sends (T : List RouteItem → ℕ → Prop) (I : ℕ → NetworkInterface → Prop)
    (Q : ℕ → InternetDatagram → Prop) : Prop :=
  ∀ (r : Router) (n : ℕ) (dgram : InternetDatagram) (entry : RouteItem),
    T r.routeTable r.interfaces.length → Q n dgram →
    r.matchEntry dgram.header.dst = some entry → dgram.header.ttl > 1 →
      (entry.interfaceNum < r.interfaces.length ∨ Q n (decrementTtl dgram)) ∧
      ∀ ni : NetworkInterface, I entry.interfaceNum ni →
        I entry.interfaceNum (ni.sendDatagram (decrementTtl dgram)
          (entry.nextHop.getD { ip := dgram.header.dst })).1 ∧
        ((ni.sendDatagram (decrementTtl dgram)
          (entry.nextHop.getD { ip := dgram.header.dst })).2 = .ok () ∨ Q n (decrementTtl dgram))

theorem Keeps.routeOneDatagram (h : r.Keeps T I Q) (hsends : Sends T I Q) {n : ℕ}
    {dgram : InternetDatagram} (hdgram : Q n dgram) :
    (r.routeOneDatagram dgram).1.Keeps T I Q ∧
      ((r.routeOneDatagram dgram).2.2 = .ok () ∨ Q n (r.routeOneDatagram dgram).2.1) := by
  unfold Router.routeOneDatagram
  dsimp only
  split
  · exact ⟨h, .inl rfl⟩
  · rename_i entry hentry
    split
    · rename_i httl
      obtain ⟨hthere, hsend⟩ := hsends r n dgram entry h.shape hdgram hentry httl
      cases hni : r.interfaces[entry.interfaceNum]? with
      | none =>
        simp only [interface, hni]
        exact ⟨h, .inr (hthere.resolve_left (Nat.not_lt.2 (List.getElem?_eq_none_iff.1 hni)))⟩
      | some ni =>
        simp only [interface, hni]
        obtain ⟨hbase, hresult⟩ := hsend ni.toNetworkInterface (h.interfaces _ ni hni)
        exact ⟨h.setInterface hbase (h.queues _ ni hni), hresult⟩
    · exact ⟨h, .inl rfl⟩

theorem Keeps.routeQueue (h : r.Keeps T I Q) (hsends : Sends T I Q) {i : ℕ}
    {queue : List InternetDatagram} (hqueue : ∀ dgram ∈ queue, Q i dgram) :
    (routeQueue i queue r).1.Keeps T I Q := by
  induction queue generalizing r with
  | nil => exact h
  | cons dgram queue ih =>
    obtain ⟨hdgram, hrest⟩ := List.forall_mem_cons.1 hqueue
    obtain ⟨hroute, hrouted⟩ := h.routeOneDatagram hsends hdgram
    unfold Router.routeQueue
    generalize r.routeOneDatagram dgram = routed at hroute hrouted
    obtain ⟨r', dgram', result⟩ := routed
    cases result with
    | error e =>
      have hstays : Q i dgram' := hrouted.resolve_left (by simp)
      exact hroute.setQueue (List.forall_mem_cons.2 ⟨hstays, hrest⟩)
    | ok => exact ih (hroute.setQueue hrest) hrest

theorem Keeps.routeInterfaces (h : r.Keeps T I Q) (hsends : Sends T I Q) (is : List ℕ) :
    (routeInterfaces is r).1.Keeps T I Q := by
  induction is generalizing r with
  | nil => exact h
  | cons i is ih =>
    unfold Router.routeInterfaces
    split
    · exact ih h
    · rename_i ni hni
      have hqueue := h.routeQueue hsends (h.queues i ni hni)
      generalize Router.routeQueue i ni.datagramsOut r = routed at hqueue
      obtain ⟨r', result⟩ := routed
      cases result with
      | error e => exact hqueue
      | ok => exact ih hqueue

/-- **Routing** moves datagrams and makes none up. -/
theorem Keeps.route (h : r.Keeps T I Q) (hsends : Sends T I Q) : r.route.1.Keeps T I Q :=
  h.routeInterfaces hsends _

end Keeps

variable {P P' : Content → Prop} {r : Router}

/-- Everything in the router has a content in `P`. -/
def Holds (P : Content → Prop) (r : Router) : Prop :=
  r.Keeps (fun _ _ => True) (fun _ ni => ni.Holds P) (fun _ dgram => dgram.Good P)

theorem Holds.mono (h : r.Holds P) (himp : ∀ c, P c → P' c) : r.Holds P' :=
  ⟨trivial, fun n ni hni => (h.interfaces n ni hni).mono himp,
    fun n ni hni dgram hdgram => (h.queues n ni hni dgram hdgram).mono himp⟩

theorem Holds.route (h : r.Holds P) : r.route.1.Holds P :=
  Keeps.route h fun _ _ _ _ _ hgood _ _ =>
    ⟨.inr hgood.decrementTtl, fun _ hni => ⟨hni.sendDatagram hgood.decrementTtl _,
      .inr hgood.decrementTtl⟩⟩

/-- **A frame** brings in what it bears. -/
theorem Holds.recvFrame (h : r.Holds P) {frame : EthernetFrame} (hframe : frame.Bears P) (n : ℕ) :
    (r.call (.recvFrame n frame)).1.Holds P := by
  refine Keeps.onInterface h fun ni hni => ?_
  refine AsyncNetworkInterface.recvFrame_induction ((h.interfaces n ni hni).recvFrame frame)
    (h.queues n ni hni) fun dgram hrecv => NetworkInterface.good_of_recvFrame hframe hrecv

/-- **Every call** of the owner. -/
theorem Holds.call (h : r.Holds P) {op : RouterOp}
    (hop : ∀ n frame, op = .recvFrame n frame → frame.Bears P)
    (hret : ∀ n ms, op = .tick n ms → ms < 5000) : (r.call op).1.Holds P := by
  cases op with
  | recvFrame n frame => exact h.recvFrame (hop n frame rfl) n
  | tick n ms =>
    refine Keeps.onInterface h fun ni hni => ⟨?_, h.queues n ni hni⟩
    have hreturns : ni.toNetworkInterface.Returns (.tick ms) :=
      NetworkInterface.tick_isSome_iff.2 (.inl (hret n ms rfl))
    have hstep : (ni.toNetworkInterface.step (.tick ms)).Holds P :=
      (h.interfaces n ni hni).step trivial hreturns
    exact hstep
  | popFrame n =>
    refine Keeps.onInterface h fun ni hni => ⟨?_, h.queues n ni hni⟩
    have hstep : (ni.toNetworkInterface.step .popFrame).Holds P :=
      (h.interfaces n ni hni).step trivial trivial
    exact hstep
  | route => exact h.route

end Router

end Sponge
