import Sponge.Proof.Carriage
import Sponge.Proof.SocketRules
import Sponge.TunTapAdapter

/-!
# The adapters over IPv4

The two adapters of `tuntap_adapter.hh`, and the one of `lab7`, keep the contract of a datagram
adapter, as long as the datagrams that arrive are `Safe`: those that come from the peer carry the
peer's segments, and nobody else opens a connection. What an adapter puts on the wire are its own
segments (`Sent`), in frames whatever ARP does meanwhile.

* `TCPOverIPv4OverTunFdAdapter.contract`: datagrams on a TUN device.
* `TCPOverIPv4OverEthernetAdapter.contract`: datagrams in frames.
-/

namespace Sponge

open TCPSpongeSocket

/-! ## Segments in datagrams -/

namespace Content

variable {own peer : Address} {listens : Bool} {segs L : List TCPSegment} {c : Content}
  {seg : TCPSegment}

/-- The segment that a receiver finds in a datagram. -/
def Carries (c : Content) (seg : TCPSegment) : Prop :=
  c.proto = IPv4Header.protoTCP ∧
    TCPSegment.parse {} (Buffer.ofString c.payload) c.sum = (seg, .noError)

/-- The addresses and ports of a segment in a datagram. -/
structure Between (c : Content) (seg : TCPSegment) (source destination : Address) : Prop where
  src : c.src = source.ip
  sport : seg.header.sport = source.port
  dst : c.dst = destination.ip
  dport : seg.header.dport = destination.port

/-- What may arrive at `own`, whose peer is `peer` and has emitted `segs`. -/
structure Safe (own peer : Address) (listens : Bool) (segs : List TCPSegment) (c : Content) :
    Prop where
  fromPeer : ∀ seg, c.Carries seg → c.Between seg peer own → seg.Among segs
  opens : ∀ seg, c.Carries seg → listens = true → seg.header.dport = own.port →
    seg.header.syn = true → seg.header.rst = false → c.Between seg peer own

/-- What `own` sends, having emitted `L`: to its peer, or to nowhere while it listens, when it need
not know its own IP address. -/
def Sent (own peer : Address) (listens : Bool) (L : List TCPSegment) (c : Content) : Prop :=
  ∀ seg, c.Carries seg → seg.Among L ∧
    ((listens = false ∧ c.Between seg own peer) ∨
      ∃ ip, (ip = own.ip ∨ ip = 0) ∧ c.Between seg ⟨ip, own.port⟩ ⟨0, 0⟩)

theorem Safe.mono {listens' : Bool} {segs' : List TCPSegment} (h : Safe own peer listens segs c)
    (hlistens : listens' = true → listens = true) (hsub : ∀ seg ∈ segs, seg ∈ segs') :
    Safe own peer listens' segs' c :=
  ⟨fun seg hc hb => (h.fromPeer seg hc hb).mono hsub, fun seg hc hl => h.opens seg hc (hlistens hl)⟩

theorem Sent.mono {listens' : Bool} {L' : List TCPSegment} (h : Sent own peer listens L c)
    (hlistens : listens' = true → listens = true) (hsub : ∀ seg ∈ L, seg ∈ L') :
    Sent own peer listens' L' c := by
  intro seg hc
  obtain ⟨hamong, hto⟩ := h seg hc
  refine ⟨hamong.mono hsub, hto.imp_left fun hto => ⟨?_, hto.2⟩⟩
  cases hl : listens' with
  | false => rfl
  | true =>
    rw [hlistens hl] at hto
    exact absurd hto.1 (by decide)

end Content

namespace TCPOverIPv4Adapter

variable {own peer : Address} {listens : Bool} {segs L : List TCPSegment} {a : TCPOverIPv4Adapter}
  {d : InternetDatagram} {seg : TCPSegment}

/-- The configuration of the adapter of `own`, connected to `peer` or still listening; a listener
has the IP address of `own`, or 0 as `tcp_ipv4` sets it. -/
structure Configured (own peer : Address) (listens : Bool) (a : TCPOverIPv4Adapter) : Prop where
  connected : a.listen = false → a.cfg = ⟨own, peer⟩
  waiting : a.listen = true →
    (∃ ip, (ip = own.ip ∨ ip = 0) ∧ a.cfg = ⟨⟨ip, own.port⟩, ⟨0, 0⟩⟩) ∧ listens = true

theorem Accepts.carries (h : Accepts a d seg) : d.content.Carries seg := by
  obtain ⟨buffer, hbuffer, hparse⟩ := h.parsed
  refine ⟨h.proto, ?_⟩
  rw [TCPSegment.parse_congr, BufferList.str_toBuffer hbuffer] at hparse
  exact hparse

/-- **What is accepted** comes from the peer. -/
theorem Accepts.between (h : Accepts a d seg) (ha : Configured own peer listens a)
    (hd : d.content.Safe own peer listens segs) : d.content.Between seg peer own := by
  cases hl : a.listen with
  | false =>
    have hcfg := ha.connected hl
    obtain ⟨hdst, hsrc, hsport⟩ := h.peer hl
    have hdport := h.dport
    simp only [config, hcfg] at hdst hsrc hsport hdport
    exact ⟨hsrc, hsport, hdst, hdport⟩
  | true =>
    obtain ⟨⟨ip, -, hcfg⟩, hlistens⟩ := ha.waiting hl
    obtain ⟨hsyn, hrst⟩ := h.opens hl
    have hdport := h.dport
    simp only [config, hcfg] at hdport
    exact hd.opens seg h.carries hlistens hdport hsyn hrst

/-- **A datagram** that is safe keeps the configuration. -/
theorem Configured.unwrap (ha : Configured own peer listens a)
    (hd : d.content.Safe own peer listens segs) :
    Configured own peer listens (a.unwrapTcpInIp d).1 ∧
      ((a.unwrapTcpInIp d).1.listen = true → a.listen = true) ∧
      ∀ seg, (a.unwrapTcpInIp d).2 = .ok (some seg) → seg.Among segs := by
  obtain ⟨seg, haccepts, hunwrap⟩ | ⟨result, hunwrap, hnone⟩ := a.unwrap_cases d
  · have hbetween := haccepts.between ha hd
    have hlistening := listening_connected a d seg
    rw [hunwrap]
    refine ⟨⟨fun _ => ?_, fun hl => ?_⟩, fun hl => ?_, fun seg' hseg => ?_⟩
    · cases hl : a.listen with
      | false =>
        rw [connected_of_not_listening hl]
        exact ha.connected hl
      | true =>
        have hl' : a.listening = true := hl
        obtain ⟨⟨ip, -, hcfg⟩, -⟩ := ha.waiting hl
        simp only [TCPOverIPv4Adapter.connected, hl', ↓reduceIte, config, hcfg]
        obtain ⟨hsrc, hsport, hdst, hdport⟩ := hbetween
        have hsrc : d.header.src = peer.ip := hsrc
        have hdst : d.header.dst = own.ip := hdst
        rw [hsrc, hdst, hsport]
    · exact absurd (hlistening.symm.trans hl) (by decide)
    · exact absurd (hlistening.symm.trans hl) (by decide)
    · cases hseg
      exact hd.fromPeer seg haccepts.carries hbetween
  · rw [hunwrap]
    exact ⟨ha, id, fun seg hseg => absurd hseg (hnone seg)⟩

/-- It does not throw on a contiguous datagram. -/
theorem unwrap_returns (a : TCPOverIPv4Adapter) (hd : ∃ buffer, d.payload.toBuffer = .ok buffer) :
    ∃ seg, (a.unwrapTcpInIp d).2 = .ok seg := by
  obtain ⟨buffer, hbuffer⟩ := hd
  unfold unwrapTcpInIp fromPeer
  simp only [hbuffer]
  repeat' split
  all_goals exact ⟨_, rfl⟩

/-- **What is wrapped** carries the segment to where the configuration says. -/
theorem exists_sent (ha : Configured own peer listens a) (hplain : seg.Plain) (hmem : seg ∈ L) :
    ∃ dgram, (a.wrapTcpInIp seg).2 = .ok dgram ∧ dgram.Serializable ∧
      dgram.Good (Content.Sent own peer a.listen L) := by
  obtain ⟨hdoff, hlen⟩ := hplain
  have hdoff : seg.header.doff.toNat = 5 := by
    rw [hdoff]
    rfl
  have hlen : seg.payload.length ≤ 1000 := hlen
  have h5 : 5 ≤ seg.header.doff.toNat := by omega
  obtain ⟨dgram, s, payload, k, cksum, hwrap, hs, hparse, hsegment⟩ :=
    a.exists_wrapped {} h5 (by omega) (by omega)
  have hheader : dgram.header = a.ipHeader (a.setPorts seg) := by
    unfold wrapTcpInIp at hwrap
    dsimp only at hwrap
    split at hwrap
    · cases hwrap
    · cases hwrap
      rfl
  have hfits : dgram.Fits := by
    unfold IPv4Datagram.Fits
    rw [hheader]
    exact ⟨show ({} : IPv4Header).hlen.toNat ≤ 15 by decide,
      show ({} : IPv4Header).offset.toNat < 2 ^ 13 by decide⟩
  have hcontent := IPv4Datagram.content_of_serialize hfits hs hparse
  refine ⟨dgram, hwrap, (IPv4Datagram.serialize_ok_iff dgram).1 ⟨s, hs⟩, fun seg' hc => ?_, hfits⟩
  rw [← hcontent] at hc ⊢
  obtain ⟨-, hseg'⟩ := hc
  have hpayload : (BufferList.ofString payload).concatenate = payload :=
    BufferList.concatenate_ofString payload
  simp only [IPv4Datagram.content, hpayload] at hseg'
  rw [hsegment] at hseg'
  cases hseg'
  refine ⟨⟨seg, hmem, rfl⟩, ?_⟩
  cases hl : a.listen with
  | false =>
    have hcfg := ha.connected hl
    refine .inl ⟨rfl, ?_⟩
    constructor <;> simp [IPv4Datagram.content, ipHeader, setPorts, config, hcfg,
      IPv4Header.setCksum, TCPHeader.setCksum, Address.ipv4Numeric]
  | true =>
    obtain ⟨⟨ip, hip, hcfg⟩, -⟩ := ha.waiting hl
    refine .inr ⟨ip, hip, ?_⟩
    constructor <;> simp [IPv4Datagram.content, ipHeader, setPorts, config, hcfg,
      IPv4Header.setCksum, TCPHeader.setCksum, Address.ipv4Numeric]

end TCPOverIPv4Adapter

/-! ## Packet devices -/

namespace PacketFD

/-- A read throws and changes nothing, or it returns what the kernel answers. -/
theorem read_cases (d : PacketFD) (answer : Except Exn (List UInt8)) :
    (∃ e, (answer = .error e ∨ FileDescriptor.Fault e) ∧ d.read answer = (d, .error e)) ∨
      ∃ bytes fd, answer = .ok bytes ∧ fd.readCount = d.fd.readCount + 1 ∧ Uses d.fd fd ∧
        d.read answer = ({ d with fd := fd }, .ok bytes) := by
  unfold read
  rcases d.fd.read_cases (2 ^ 64 - 1) answer with ⟨e, he, hread⟩ | ⟨bytes, hanswer, -, hread⟩
  · rw [hread]
    exact .inl ⟨e, he, rfl⟩
  · rw [hread]
    refine .inr ⟨bytes, _, hanswer, ?_, ?_, rfl⟩
    · rfl
    · exact ⟨rfl, fun heof => by simp [heof]⟩

/-- A packet is written as a whole, or not at all. -/
theorem write_cases (d : PacketFD) (packet : BufferList) (answer : Except Exn Unit) :
    (∃ e, answer = .error e ∧ d.write packet answer = (d, .error e)) ∨
      d.write packet answer =
        ({ fd := d.fd.registerWrite, packets := d.packets ++ [packet.concatenate] }, .ok ()) := by
  unfold write FileDescriptor.write
  cases answer with
  | error e => exact .inl ⟨e, rfl, rfl⟩
  | ok =>
    obtain ⟨rest, hrest, hflat⟩ :=
      BufferViewList.removePrefix_ok (Nat.le_refl (BufferViewList.ofBufferList packet).size)
    have hdone : rest.size = 0 := by
      rw [BufferViewList.size_eq, hflat, List.length_drop, ← BufferViewList.size_eq, Nat.sub_self]
    refine .inr ?_
    simp [FileDescriptor.writeLoop, Except.map, hrest, hdone]

/-- What the `read` of an adapter on a packet device leaves and returns: `K` is its invariant. -/
structure Reads {α : Type} (K : α → Prop) (device : α → PacketFD) (segs : List TCPSegment)
    (sys : Exn → Prop) (a : α) (r : α × Except Exn (Option TCPSegment)) : Prop where
  keeps : K r.1
  uses : Uses (device a).fd (device r.1).fd
  returns : ∀ seg, r.2 = .ok (some seg) → seg.Among segs
  counts : ∀ seg, r.2 = .ok seg → (device r.1).fd.readCount = (device a).fd.readCount + 1
  throws : ∀ e, r.2 = .error e → sys e

theorem Reads.readCount_ne {α : Type} {K : α → Prop} {device : α → PacketFD}
    {segs : List TCPSegment} {sys : Exn → Prop} {a : α} {r : α × Except Exn (Option TCPSegment)}
    {seg : Option TCPSegment} (h : Reads K device segs sys a r) (hok : r.2 = .ok seg) :
    (device a).fd.readCount ≠ (device r.1).fd.readCount := by
  rw [h.counts seg hok]
  simp

end PacketFD

/-! ## The adapter on datagrams -/

namespace TCPOverIPv4OverTunFdAdapter

variable {own peer : Address} {listens : Bool} {segs L : List TCPSegment} {sys : Exn → Prop}
  {a : TCPOverIPv4OverTunFdAdapter} {answer : PacketAnswer} {seg : TCPSegment}

/-- The invariant of the adapter: what it sent are the segments `L`. -/
structure Keeps (own peer : Address) (listens : Bool) (L : List TCPSegment)
    (a : TCPOverIPv4OverTunFdAdapter) : Prop where
  configured : a.base.Configured own peer listens
  packets : ∀ bytes ∈ a.tun.packets,
    IPv4Datagram.BytesBear (Content.Sent own peer a.base.listen L) bytes

/-- What the kernel answers: the datagrams are such as may arrive. -/
structure Arrives (own peer : Address) (listens : Bool) (segs : List TCPSegment) (sys : Exn → Prop)
    (answer : PacketAnswer) : Prop where
  bears : ∀ bytes, answer.read = .ok bytes →
    IPv4Datagram.BytesBear (Content.Safe own peer listens segs) bytes
  errors : ∀ e, (answer.read = .error e ∨ answer.writes 0 = .error e) → sys e

theorem Keeps.mono {L' : List TCPSegment} {base : TCPOverIPv4Adapter} {fd : FileDescriptor}
    (h : Keeps own peer listens L a) (hbase : base.Configured own peer listens)
    (hlisten : base.listen = true → a.base.listen = true) (hsub : ∀ seg ∈ L, seg ∈ L') :
    Keeps own peer listens L' { base := base, tun := { a.tun with fd := fd } } where
  configured := hbase
  packets bytes hbytes := (h.packets bytes hbytes).mono fun _ hc => hc.mono hlisten hsub

theorem Keeps.read (h : Keeps own peer listens L a) (hB : Arrives own peer listens segs sys answer)
    (hsys : ∀ e, FileDescriptor.Fault e → sys e) :
    PacketFD.Reads (Keeps own peer listens L) tun segs sys a (a.read answer) := by
  unfold TCPOverIPv4OverTunFdAdapter.read
  obtain ⟨e, he, hread⟩ | ⟨bytes, fd, hanswer, hcount, huses, hread⟩ :=
    a.tun.read_cases answer.read
  · rw [hread]
    refine ⟨h, .refl _, by simp, by simp, fun e' he' => ?_⟩
    cases he'
    exact he.elim (fun he => hB.errors e (.inl he)) (hsys e)
  · rw [hread]
    dsimp only
    generalize hparse : IPv4Datagram.parse {} (Buffer.ofString bytes) = parsed
    obtain ⟨dgram, result⟩ := parsed
    dsimp only
    split
    · exact ⟨h.mono h.configured id fun _ => id, huses, by simp, fun _ _ => hcount, by simp⟩
    · rename_i hresult
      obtain rfl : result = .noError := not_not.1 hresult
      obtain ⟨hconf, hlisten, hseg⟩ := h.configured.unwrap (hB.bears bytes hanswer dgram hparse)
      refine ⟨h.mono hconf hlisten fun _ => id, huses, hseg, fun _ _ => hcount, fun e he => ?_⟩
      obtain ⟨seg, hok⟩ := a.base.unwrap_returns (IPv4Datagram.toBuffer_of_parse hparse)
      dsimp only at he
      rw [hok] at he
      cases he

/-- **A segment** is written in one datagram, or the kernel refuses it. -/
theorem Keeps.write (h : Keeps own peer listens L a) (hplain : seg.Plain) (hmem : seg ∈ L) :
    Keeps own peer listens L (a.write seg answer).1 ∧
      Uses a.tun.fd (a.write seg answer).1.tun.fd ∧
      ∀ e, (a.write seg answer).2 = .error e → answer.writes 0 = .error e := by
  obtain ⟨dgram, hwrap, hser, hgood⟩ := TCPOverIPv4Adapter.exists_sent h.configured hplain hmem
  obtain ⟨packet, hpacket⟩ := (IPv4Datagram.serialize_ok_iff dgram).2 hser
  unfold TCPOverIPv4OverTunFdAdapter.write
  rw [hwrap]
  dsimp only
  rw [hpacket]
  dsimp only
  rcases a.tun.write_cases packet (answer.writes 0) with ⟨e, he, hwrite⟩ | hwrite
  · rw [hwrite]
    refine ⟨h, .refl _, fun e' he' => ?_⟩
    cases he'
    exact he
  · rw [hwrite]
    refine ⟨⟨h.configured, fun bytes hbytes => ?_⟩, ⟨rfl, id⟩, by simp⟩
    rcases List.mem_append.1 hbytes with hbytes | hbytes
    · exact h.packets bytes hbytes
    · rw [List.mem_singleton.1 hbytes]
      exact hgood.serialize hpacket

/-- **The adapter keeps its contract**, and throws only what the kernel makes it throw. -/
theorem contract (own peer : Address) (listens : Bool) (segs : List TCPSegment)
    (hsys : ∀ e, FileDescriptor.Fault e → sys e) : AdapterContract (Keeps own peer listens)
      (Arrives own peer listens segs sys) (TCPSegment.Among segs) sys where
  mono h hsub := h.mono h.configured id hsub
  read h hB := ⟨(h.read hB hsys).keeps, (h.read hB hsys).uses⟩
  returns h hB hseg := (h.read hB hsys).returns _ hseg
  counts h hB hok := (h.read hB hsys).readCount_ne hok
  readThrows h hB he := (h.read hB hsys).throws _ he
  write h hmem hplain _ := ⟨(h.write hplain hmem).1, (h.write hplain hmem).2.1⟩
  writeThrows h hmem hplain hB he := hB.errors _ (.inr ((h.write hplain hmem).2.2 _ he))
  tick h _ ht := by
    cases ht
    exact ⟨h, .refl _, by simp⟩

end TCPOverIPv4OverTunFdAdapter

/-! ## The adapter on frames -/

namespace TCPOverIPv4OverEthernetAdapter

variable {own peer : Address} {listens : Bool} {segs L : List TCPSegment} {sys : Exn → Prop}
  {a : TCPOverIPv4OverEthernetAdapter} {answer : PacketAnswer} {seg : TCPSegment}

/-- The invariant of the adapter: what it holds and what it sent are the segments `L`. -/
structure Keeps (own peer : Address) (listens : Bool) (L : List TCPSegment)
    (a : TCPOverIPv4OverEthernetAdapter) : Prop where
  configured : a.base.Configured own peer listens
  interface : a.interface.Holds (Content.Sent own peer a.base.listen L)
  packets : ∀ bytes ∈ a.tap.packets,
    EthernetFrame.BytesBear (Content.Sent own peer a.base.listen L) bytes
  serializable : ∀ w ∈ a.interface.waitingArpInternetDatagrams, w.2.Serializable

/-- What the kernel answers: the frames bear what may arrive. -/
structure Arrives (own peer : Address) (listens : Bool) (segs : List TCPSegment) (sys : Exn → Prop)
    (answer : PacketAnswer) : Prop where
  bears : ∀ bytes, answer.read = .ok bytes →
    EthernetFrame.BytesBear (Content.Safe own peer listens segs) bytes
  errors : ∀ e, (answer.read = .error e ∨ ∃ n, answer.writes n = .error e) → sys e

theorem Keeps.mono {L' : List TCPSegment} {base : TCPOverIPv4Adapter}
    (h : Keeps own peer listens L a)
    (hbase : base.Configured own peer listens) (hlisten : base.listen = true → a.base.listen = true)
    (hsub : ∀ seg ∈ L, seg ∈ L') : Keeps own peer listens L' { a with base := base } where
  configured := hbase
  interface := h.interface.mono fun _ hc => hc.mono hlisten hsub
  packets bytes hbytes := (h.packets bytes hbytes).mono fun _ hc => hc.mono hlisten hsub
  serializable := h.serializable

theorem Keeps.reconfigured {listens' : Bool} (h : Keeps own peer listens L a)
    (hbase : a.base.Configured own peer listens') : Keeps own peer listens' L a :=
  ⟨hbase, h.interface, h.packets, h.serializable⟩

/-- **A call on the interface**, with a datagram of this adapter if any. -/
theorem Keeps.step (h : Keeps own peer listens L a) {op : IfaceOp}
    (hop : NetworkInterface.Passes (Content.Sent own peer a.base.listen L) op)
    (hser : ∀ dgram nextHop, op = .sendDatagram dgram nextHop → dgram.Serializable)
    (hret : a.interface.Returns op) :
    Keeps own peer listens L { a with interface := a.interface.step op } :=
  ⟨h.configured, h.interface.step hop hret, h.packets, NetworkInterface.waiting_of_call
    h.serializable hser (NetworkInterface.called hret)⟩

/-- What sending frames leaves. -/
structure Sends (own peer : Address) (listens : Bool) (L : List TCPSegment)
    (answers : ℕ → Except Exn Unit) (a : TCPOverIPv4OverEthernetAdapter)
    (r : TCPOverIPv4OverEthernetAdapter × Except Exn Unit) : Prop where
  keeps : Keeps own peer listens L r.1
  base : r.1.base = a.base
  device : Uses a.tap.fd r.1.tap.fd
  reads : r.1.tap.fd.readCount = a.tap.fd.readCount
  throws : ∀ e, r.2 = .error e → ∃ n, answers n = .error e

theorem Keeps.sendFrames (h : Keeps own peer listens L a) {frames : List EthernetFrame}
    (hframes : ∀ frame ∈ frames, frame.Bears (Content.Sent own peer a.base.listen L))
    (answers : ℕ → Except Exn Unit) :
    Sends own peer listens L answers a (sendFrames frames answers a) := by
  induction frames generalizing a answers with
  | nil => exact ⟨h, rfl, .refl _, rfl, by simp [TCPOverIPv4OverEthernetAdapter.sendFrames]⟩
  | cons frame rest ih =>
    obtain ⟨hframe, hrest⟩ := List.forall_mem_cons.1 hframes
    rw [TCPOverIPv4OverEthernetAdapter.sendFrames]
    rcases a.tap.write_cases frame.serialize (answers 0) with ⟨e, he, hwrite⟩ | hwrite
    · rw [hwrite]
      refine ⟨h, rfl, .refl _, rfl, fun e' he' => ⟨0, ?_⟩⟩
      cases he'
      exact he
    · rw [hwrite]
      have hpop : Keeps own peer listens L { a with interface := a.interface.step .popFrame } :=
        h.step trivial (by simp) trivial
      have hnext : Keeps own peer listens L
          { a with
            tap := ⟨a.tap.fd.registerWrite, a.tap.packets ++ [frame.serialize.concatenate]⟩
            interface := a.interface.step .popFrame } := by
        refine ⟨h.configured, hpop.interface, fun bytes hbytes => ?_, hpop.serializable⟩
        rcases List.mem_append.1 hbytes with hbytes | hbytes
        · exact h.packets bytes hbytes
        · rw [List.mem_singleton.1 hbytes]
          exact hframe.serialize
      obtain ⟨hkeeps, hbase, hdevice, hreads, hthrows⟩ := ih hnext hrest fun i => answers (i + 1)
      refine ⟨hkeeps, hbase, ⟨hdevice.closed, hdevice.eof⟩, hreads, fun e he => ?_⟩
      obtain ⟨n, hn⟩ := hthrows e he
      exact ⟨n + 1, hn⟩

theorem Keeps.sendPending (h : Keeps own peer listens L a) (answers : ℕ → Except Exn Unit) :
    Sends own peer listens L answers a (a.sendPending answers) :=
  h.sendFrames h.interface.frames answers

theorem Keeps.read (h : Keeps own peer listens L a) (hB : Arrives own peer listens segs sys answer)
    (hsys : ∀ e, FileDescriptor.Fault e → sys e) :
    PacketFD.Reads (Keeps own peer listens L) tap segs sys a (a.read answer) := by
  unfold TCPOverIPv4OverEthernetAdapter.read
  obtain ⟨e, he, hread⟩ | ⟨bytes, fd, hanswer, hcount, huses, hread⟩ :=
    a.tap.read_cases answer.read
  · rw [hread]
    refine ⟨h, .refl _, by simp, by simp, fun e' he' => ?_⟩
    cases he'
    exact he.elim (fun he => hB.errors e (.inl he)) (hsys e)
  · rw [hread]
    dsimp only
    have hread : Keeps own peer listens L { a with tap := { a.tap with fd := fd } } :=
      ⟨h.configured, h.interface, h.packets, h.serializable⟩
    generalize hparse : EthernetFrame.new.parse (Buffer.ofString bytes) = parsed
    obtain ⟨frame, result⟩ := parsed
    dsimp only
    split
    · exact ⟨hread, huses, by simp, fun _ _ => hcount, by simp⟩
    · rename_i hresult
      obtain rfl : result = .noError := not_not.1 hresult
      have hbears := hB.bears bytes hanswer frame hparse
      -- the interface returns, and its datagram is one that may arrive
      obtain ⟨received, hreceived, hcontiguous⟩ := NetworkInterface.recvFrame_returns
        (EthernetFrame.toBuffer_of_parse hparse) h.serializable
      have hrecv : Keeps own peer listens L
          { a with
            tap := { a.tap with fd := fd }
            interface := a.interface.step (.recvFrame frame) } :=
        hread.step trivial (by simp) trivial
      have hgood : ∀ dgram, received = some dgram →
          dgram.Good (Content.Safe own peer listens segs) := by
        intro dgram hdgram
        rw [hdgram] at hreceived
        exact NetworkInterface.good_of_recvFrame hbears hreceived
      have hstep : a.interface.step (.recvFrame frame) = (a.interface.recvFrame frame).1 := rfl
      rw [hstep] at hrecv
      generalize a.interface.recvFrame frame = r at hreceived hrecv
      obtain ⟨interface, r⟩ := r
      dsimp only at hreceived hrecv
      subst hreceived
      dsimp only
      -- then the frames it has caused are sent
      have hsends := hrecv.sendPending answer.writes
      generalize TCPOverIPv4OverEthernetAdapter.sendPending _ answer.writes = sent at hsends
      obtain ⟨a', result⟩ := sent
      obtain ⟨hkeeps, hbase, hdevice, hreads, hthrows⟩ := hsends
      dsimp only at hkeeps hbase hdevice hreads hthrows
      have huses' := huses.trans hdevice
      have hcount' := hreads.trans hcount
      cases result with
      | error e =>
        refine ⟨hkeeps, huses', by simp, by simp, fun e' he' => ?_⟩
        cases he'
        exact hB.errors e (.inr (hthrows e rfl))
      | ok =>
        cases received with
        | none => exact ⟨hkeeps, huses', by simp, fun _ _ => hcount', by simp⟩
        | some dgram =>
          obtain ⟨hconf, hlisten, hseg⟩ := hkeeps.configured.unwrap (hgood dgram rfl).1
          refine ⟨hkeeps.mono hconf hlisten fun _ hmem => hmem, huses', hseg, fun _ _ => hcount',
            fun e he => ?_⟩
          obtain ⟨seg, hok⟩ := a'.base.unwrap_returns (hcontiguous dgram rfl)
          dsimp only at he
          rw [hok] at he
          cases he

theorem Keeps.write (h : Keeps own peer listens L a) (hplain : seg.Plain) (hmem : seg ∈ L) :
    Sends own peer listens L answer.writes a (a.write seg answer) := by
  obtain ⟨dgram, hwrap, hser, hgood⟩ := TCPOverIPv4Adapter.exists_sent h.configured hplain hmem
  have hret := a.interface.sendDatagram_returns hser a.nextHop
  have hstep : Keeps own peer listens L
      { a with interface := a.interface.step (.sendDatagram dgram a.nextHop) } :=
    h.step hgood (fun _ _ heq => by cases heq; exact hser) trivial
  have hcall : a.interface.step (.sendDatagram dgram a.nextHop) =
      (a.interface.sendDatagram dgram a.nextHop).1 := rfl
  rw [hcall] at hstep
  unfold TCPOverIPv4OverEthernetAdapter.write
  rw [hwrap]
  dsimp only
  generalize a.interface.sendDatagram dgram a.nextHop = r at hret hstep
  obtain ⟨interface, r⟩ := r
  dsimp only at hret hstep
  subst hret
  obtain ⟨hkeeps, hbase, hdevice, hreads, hthrows⟩ := hstep.sendPending answer.writes
  exact ⟨hkeeps, hbase, hdevice, hreads, hthrows⟩

theorem Keeps.tick (h : Keeps own peer listens L a) {ms : ℕ}
    {r : TCPOverIPv4OverEthernetAdapter × Except Exn Unit} (ht : a.tick ms answer = some r) :
    Sends own peer listens L answer.writes a r := by
  obtain ⟨interface, htick, rfl⟩ := Option.map_eq_some_iff.1 ht
  have hstep : Keeps own peer listens L { a with interface := a.interface.step (.tick ms) } :=
    h.step trivial (by simp) (by simp [NetworkInterface.Returns, htick])
  have hcall : a.interface.step (.tick ms) = interface := by
    simp [NetworkInterface.step, htick]
  rw [hcall] at hstep
  obtain ⟨hkeeps, hbase, hdevice, hreads, hthrows⟩ := hstep.sendPending answer.writes
  exact ⟨hkeeps, hbase, hdevice, hreads, hthrows⟩

/-- **The adapter keeps its contract**, and throws only what the kernel makes it throw. -/
theorem contract (own peer : Address) (listens : Bool) (segs : List TCPSegment)
    (hsys : ∀ e, FileDescriptor.Fault e → sys e) : AdapterContract (Keeps own peer listens)
      (Arrives own peer listens segs sys) (TCPSegment.Among segs) sys where
  mono h hsub := h.mono h.configured (fun hl => hl) hsub
  read h hB := ⟨(h.read hB hsys).keeps, (h.read hB hsys).uses⟩
  returns h hB hseg := (h.read hB hsys).returns _ hseg
  counts h hB hok := (h.read hB hsys).readCount_ne hok
  readThrows h hB he := (h.read hB hsys).throws _ he
  write {L a seg i} h hmem hplain _ := by
    have hsends : Sends own peer listens L i.writes a (a.write seg i) := h.write hplain hmem
    exact ⟨hsends.keeps, hsends.device⟩
  writeThrows {L a seg i e} h hmem hplain hB he := by
    have hsends : Sends own peer listens L i.writes a (a.write seg i) := h.write hplain hmem
    exact hB.errors e (.inr (hsends.throws e he))
  tick {L a a' ms i r} h hB ht := by
    have hsends : Sends own peer listens L i.writes a (a', r) := h.tick ht
    exact ⟨hsends.keeps, hsends.device, fun e he => hB.errors e (.inr (hsends.throws e he))⟩

end TCPOverIPv4OverEthernetAdapter

end Sponge
