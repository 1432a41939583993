import Sponge.Proof.EthernetAdapter
import Sponge.Proof.SocketPair

/-!
# Sockets over IPv4

Two sockets with adapters that are derived from `TCPOverIPv4Adapter`, each of them on a TUN device
(`CS144TCPSocket`, and with losses `tcp_ipv4`) or on a TAP device (`FullStackSocket`), and networks
between them that lose, duplicate, reorder and route their datagrams and bring datagrams of others.

`run_transfers`: what the owner of one reads, the owner of the other wrote. What the two kinds of
adapters have in common for it is an `IPv4Device`: packets, of which some hold a datagram, and a
contract. Routers change a datagram, and a kernel between a TUN and a TAP device puts it into a
frame or takes it out; what counts is its `Content`.
-/

namespace Sponge

open Run TCPSpongeSocket

/-! ## Datagrams between two hosts -/

namespace Content

variable {addr : Side → Address} {listens : Side → Bool} {emitted : Side → List TCPSegment}
  {x : Side} {c : Content}

/-- A datagram of others: it does not pretend to be from one of the two to the other one, and opens
no connection to one that listens. -/
def Foreign (addr : Side → Address) (listens : Side → Bool) (c : Content) : Prop :=
  ∀ x seg, c.Carries seg → ¬ c.Between seg (addr x.other) (addr x) ∧
    ¬ (listens x = true ∧ seg.header.dport = (addr x).port ∧ seg.header.syn = true ∧
      seg.header.rst = false)

/-- What may arrive at both hosts. -/
def Harmless (addr : Side → Address) (listens : Side → Bool) (emitted : Side → List TCPSegment)
    (c : Content) : Prop :=
  ∀ x, c.Safe (addr x) (addr x.other) (listens x) (emitted x.other)

theorem Foreign.harmless (h : c.Foreign addr listens) : c.Harmless addr listens emitted := fun x =>
  ⟨fun seg hc hb => absurd hb (h x seg hc).1,
    fun seg hc hl hport hsyn hrst => absurd ⟨hl, hport, hsyn, hrst⟩ (h x seg hc).2⟩

/-- The conditions only get weaker. -/
theorem Harmless.mono {listens' : Side → Bool} {emitted' : Side → List TCPSegment}
    (h : c.Harmless addr listens emitted) (hlistens : ∀ x, listens' x = true → listens x = true)
    (hemitted : ∀ x, ∀ seg ∈ emitted x, seg ∈ emitted' x) : c.Harmless addr listens' emitted' :=
  fun x => (h x).mono (hlistens x) (hemitted x.other)

/-- What a host sends is not from the other one to it. -/
theorem Sent.not_between {own peer : Address} {l : Bool} {L : List TCPSegment} {seg : TCPSegment}
    (h : c.Sent own peer l L) (hc : c.Carries seg) (hne : own ≠ peer) :
    ¬ c.Between seg peer own := by
  intro hb
  apply hne
  have hport : own.port = peer.port ∧ own.ip = peer.ip := by
    rcases (h seg hc).2 with ⟨-, hto⟩ | ⟨ip, hip, hto⟩
    · exact ⟨hto.sport.symm.trans hb.sport, hto.src.symm.trans hb.src⟩
    · -- it was sent to nowhere, and a host without an address listens there itself
      have hown : own.ip = 0 := hb.dst.symm.trans hto.dst
      have hip : ip = 0 := hip.elim (fun h => h.trans hown) id
      refine ⟨hto.sport.symm.trans hb.sport, ?_⟩
      rw [hown, ← hip]
      exact hto.src.symm.trans hb.src
  cases own
  cases peer
  simp_all

/-- While it listens, it sends to nowhere. -/
theorem Sent.dport {own peer : Address} {L : List TCPSegment} {seg : TCPSegment}
    (h : c.Sent own peer true L) (hc : c.Carries seg) : seg.header.dport = 0 := by
  rcases (h seg hc).2 with ⟨hl, -⟩ | ⟨ip, -, hto⟩
  · cases hl
  · exact hto.dport

/-- **What a host sends** may arrive at both of them. -/
theorem Sent.harmless (hne : addr .a ≠ addr .b) (hports : ∀ x, listens x = true → (addr x).port ≠ 0)
    (h : c.Sent (addr x) (addr x.other) (listens x) (emitted x)) :
    c.Harmless addr listens emitted := by
  have hne : addr x ≠ addr x.other := by
    cases x with
    | a => exact hne
    | b => exact hne.symm
  have hself : c.Safe (addr x) (addr x.other) (listens x) (emitted x.other) := by
    refine ⟨fun seg hc hb => absurd hb (h.not_between hc hne), fun seg hc hl hport _ _ => ?_⟩
    rw [hl] at h
    exact absurd (hport.symm.trans (h.dport hc)) (hports x hl)
  have hother : c.Safe (addr x.other) (addr x) (listens x.other) (emitted x) := by
    refine ⟨fun seg hc _ => (h seg hc).1, fun seg hc hl hport _ _ => ?_⟩
    rcases (h seg hc).2 with ⟨-, hto⟩ | ⟨ip, -, hto⟩
    · exact hto
    · exact absurd (hport.symm.trans hto.dport) (hports x.other hl)
  intro y
  cases x <;> cases y <;> assumption

end Content

/-! ## Devices -/

/-- The content of the datagram in the bytes, if there is one. -/
def IPv4Datagram.contentOf (bytes : List UInt8) : Option Content :=
  let parsed := parse {} (Buffer.ofString bytes)
  if parsed.2 = .noError then some parsed.1.content else none

theorem IPv4Datagram.bytesBear_iff {P : Content → Prop} {bytes : List UInt8} :
    BytesBear P bytes ↔ ∀ c, contentOf bytes = some c → P c := by
  unfold BytesBear contentOf
  generalize parse {} (Buffer.ofString bytes) = parsed
  obtain ⟨d, result⟩ := parsed
  by_cases hresult : result = .noError
  · subst hresult
    simp
  · simp [hresult]

/-- The content of the datagram in the frame, if there is one. -/
def EthernetFrame.contentOf (bytes : List UInt8) : Option Content :=
  let parsed := EthernetFrame.new.parse (Buffer.ofString bytes)
  if parsed.2 = .noError ∧ parsed.1.header.type = EthernetHeader.typeIPv4 then
    IPv4Datagram.contentOf parsed.1.payload.concatenate
  else none

theorem EthernetFrame.bytesBear_iff {P : Content → Prop} {bytes : List UInt8} :
    BytesBear P bytes ↔ ∀ c, contentOf bytes = some c → P c := by
  unfold BytesBear Bears contentOf
  generalize EthernetFrame.new.parse (Buffer.ofString bytes) = parsed
  obtain ⟨frame, result⟩ := parsed
  by_cases hresult : result = .noError
  · subst hresult
    by_cases htype : frame.header.type = EthernetHeader.typeIPv4
    · simp [htype, IPv4Datagram.bytesBear_iff]
    · simp [htype]
  · simp [hresult]

/-- An adapter that is derived from `TCPOverIPv4Adapter`. -/
class IPv4Device (α : Type) (ι κ : outParam Type) [DatagramAdapter α ι κ] where
  /-- The parameters of the constructor. -/
  Parameters : Type
  new : Parameters → α
  base : α → TCPOverIPv4Adapter
  /-- The packets that were written to the device. -/
  packets : α → List (List UInt8)
  /-- The packet that the kernel answers with to a read. -/
  packet : ι → Except Exn (List UInt8)
  /-- The content of the datagram in a packet, if there is one. -/
  content : List UInt8 → Option Content
  /-- The addresses in a configuration. -/
  addresses : κ → FdAdapterConfig
  /-- The invariant of the adapter of a host with a peer. -/
  Keeps : Address → Address → Bool → List TCPSegment → α → Prop
  configured : ∀ {own peer : Address} {listens : Bool} {L : List TCPSegment} {a : α},
    Keeps own peer listens L a → (base a).Configured own peer listens
  reconfigured : ∀ {own peer : Address} {listens listens' : Bool} {L : List TCPSegment} {a : α},
    Keeps own peer listens L a → (base a).Configured own peer listens' → Keeps own peer listens' L a
  sent : ∀ {own peer : Address} {listens : Bool} {L : List TCPSegment} {a : α},
    Keeps own peer listens L a → ∀ bytes ∈ packets a, ∀ c, content bytes = some c →
      c.Sent own peer (base a).listen L
  base_adapter : ∀ (mode : Start) (p : Parameters) (cfg : κ),
    base (mode.adapter (new p) cfg) = ⟨addresses cfg, decide (mode = .listen)⟩
  started : ∀ {own peer : Address} {mode : Start} {p : Parameters} {cfg : κ},
    (base (mode.adapter (new p) cfg)).Configured own peer true →
      Keeps own peer true [] (mode.adapter (new p) cfg)
  contract : ∀ (own peer : Address) (listens : Bool) (segs : List TCPSegment),
    AdapterContract (Keeps own peer listens)
      (fun answer => ∀ bytes, packet answer = .ok bytes → ∀ c, content bytes = some c →
        c.Safe own peer listens segs) (TCPSegment.Among segs) (fun _ => True)

instance : IPv4Device TCPOverIPv4OverTunFdAdapter PacketAnswer FdAdapterConfig where
  Parameters := Unit
  new _ := {}
  base a := a.base
  packets a := a.tun.packets
  packet answer := answer.read
  content := IPv4Datagram.contentOf
  addresses cfg := cfg
  Keeps := TCPOverIPv4OverTunFdAdapter.Keeps
  configured h := h.configured
  reconfigured h hbase := ⟨hbase, h.packets⟩
  sent h bytes hbytes := IPv4Datagram.bytesBear_iff.1 (h.packets bytes hbytes)
  base_adapter mode _ cfg := by cases mode <;> rfl
  started {own peer mode p cfg} hbase := by
    refine ⟨hbase, ?_⟩
    cases mode <;> exact List.forall_mem_nil _
  contract own peer listens segs :=
    (TCPOverIPv4OverTunFdAdapter.contract own peer listens segs fun _ _ => trivial).imp
      fun answer h => ⟨fun bytes hread => IPv4Datagram.bytesBear_iff.2 (h bytes hread),
        fun _ _ => trivial⟩

/-- The frame that primes a TAP device bears no datagram. -/
theorem TCPOverIPv4OverEthernetAdapter.bytesBear_new {P : Content → Prop}
    (ethAddress : EthernetAddress) (ipAddress nextHop : Address) :
    ∀ bytes ∈ (new ethAddress ipAddress nextHop).tap.packets, EthernetFrame.BytesBear P bytes := by
  have hdummy : dummyFrame.Bears P :=
    EthernetFrame.bears_of_not_ipv4 (show EthernetFrame.new.header.type ≠ _ by decide)
  exact List.forall_mem_singleton.2 hdummy.serialize

instance : IPv4Device TCPOverIPv4OverEthernetAdapter PacketAnswer FdAdapterConfig where
  Parameters := EthernetAddress × Address × Address
  new p := .new p.1 p.2.1 p.2.2
  base a := a.base
  packets a := a.tap.packets
  packet answer := answer.read
  content := EthernetFrame.contentOf
  addresses cfg := cfg
  Keeps := TCPOverIPv4OverEthernetAdapter.Keeps
  configured h := h.configured
  reconfigured h hbase := h.reconfigured hbase
  sent h bytes hbytes := EthernetFrame.bytesBear_iff.1 (h.packets bytes hbytes)
  base_adapter mode _ cfg := by cases mode <;> rfl
  started {own peer mode p cfg} hbase := by
    refine ⟨hbase, ?_, ?_, ?_⟩
    · cases mode <;> exact NetworkInterface.new_holds p.1 p.2.1
    · cases mode <;> exact TCPOverIPv4OverEthernetAdapter.bytesBear_new p.1 p.2.1 p.2.2
    · cases mode <;> exact List.forall_mem_nil _
  contract own peer listens segs :=
    (TCPOverIPv4OverEthernetAdapter.contract own peer listens segs fun _ _ => trivial).imp
      fun answer h => ⟨fun bytes hread => EthernetFrame.bytesBear_iff.2 (h bytes hread),
        fun _ _ => trivial⟩

instance {α ι κ : Type} [DatagramAdapter α ι κ] [d : IPv4Device α ι κ] :
    IPv4Device (LossyFdAdapter α) (ι × UInt16) (LossyConfig κ) where
  Parameters := d.Parameters
  new p := { adapter := d.new p }
  base a := d.base a.adapter
  packets a := d.packets a.adapter
  packet answer := d.packet answer.1
  content := d.content
  addresses cfg := d.addresses cfg.cfg
  Keeps own peer listens L a := d.Keeps own peer listens L a.adapter
  configured h := d.configured h
  reconfigured h hbase := d.reconfigured h hbase
  sent h := d.sent h
  base_adapter mode p cfg := by
    have hbase := d.base_adapter mode p cfg.cfg
    cases mode <;> exact hbase
  started {own peer mode p cfg} hbase := by
    have hstarted : (d.base (mode.adapter (d.new p) cfg.cfg)).Configured own peer true →
        d.Keeps own peer true [] (mode.adapter (d.new p) cfg.cfg) := d.started
    cases mode <;> exact hstarted hbase
  contract own peer listens segs := LossyFdAdapter.contract (d.contract own peer listens segs)

/-! ## Two sockets -/

namespace IPv4Device

variable {α ι κ : Type} [DatagramAdapter α ι κ] [IPv4Device α ι κ]

/-- How the owner of a socket starts it. -/
structure Setting (α ι κ : Type) [DatagramAdapter α ι κ] [IPv4Device α ι κ] where
  mode : Start
  parameters : Parameters α
  config : TCPConfig := {}
  adapterConfig : κ
  random : UInt32 := 0
  now : ℕ := 0

/-- The socket is for the address `own`: one that connects is configured with it and with the
address of its peer, one that listens with its port, with or without its IP address, and no
destination. -/
structure Setting.Fits (s : Setting α ι κ) (own peer : Address) : Prop where
  connects : s.mode = .connect → addresses α s.adapterConfig = ⟨own, peer⟩
  listens : s.mode = .listen → own.port ≠ 0 ∧
    ∃ ip, (ip = own.ip ∨ ip = 0) ∧ addresses α s.adapterConfig = ⟨⟨ip, own.port⟩, ⟨0, 0⟩⟩

def Setting.adapter (s : Setting α ι κ) : α := s.mode.adapter (new s.parameters) s.adapterConfig

def Setting.start (s : Setting α ι κ) : Process α ι :=
  TCPSpongeSocket.start s.mode (new s.parameters) s.config s.adapterConfig s.random s.now

theorem Setting.adapter_start (s : Setting α ι κ) : s.start.socket.datagramAdapter = s.adapter := by
  unfold start TCPSpongeSocket.start adapter Start.adapter
  cases s.mode <;> rfl

theorem Setting.Fits.keeps {s : Setting α ι κ} {own peer : Address} (h : s.Fits own peer) :
    Keeps own peer true [] s.adapter := by
  refine started ⟨fun hl => ?_, fun hl => ?_⟩
  · rw [base_adapter] at hl ⊢
    cases hmode : s.mode with
    | connect => exact h.connects hmode
    | listen => simp [hmode] at hl
  · rw [base_adapter] at hl ⊢
    exact ⟨(h.listens (of_decide_eq_true hl)).2, rfl⟩

theorem Setting.Fits.port {s : Setting α ι κ} {own peer : Address} (h : s.Fits own peer)
    (hl : (base s.adapter).listen = true) : own.port ≠ 0 := by
  unfold Setting.adapter at hl
  rw [base_adapter] at hl
  exact (h.listens (of_decide_eq_true hl)).1

end IPv4Device

namespace SocketPair

variable {α ι κ : Side → Type} [∀ x, DatagramAdapter (α x) (ι x) (κ x)]
  [∀ x, IPv4Device (α x) (ι x) (κ x)] {addr : Side → Address} {w : SocketPair α ι}

/-- The sockets as their owners start them. -/
def new (setting : ∀ x, IPv4Device.Setting (α x) (ι x) (κ x)) : SocketPair α ι :=
  fun x => (setting x).start

/-- Does `x` still wait for a connection? -/
def listens (w : SocketPair α ι) (x : Side) : Bool :=
  (IPv4Device.base (w x).socket.datagramAdapter).listen

/-- What arrives at `x`: datagrams with the content of one that one of the two has sent, at some
time, and datagrams of others. -/
def Arrives (addr : Side → Address) (w : SocketPair α ι) (x : Side) (answer : ι x) : Prop :=
  ∀ bytes, IPv4Device.packet (α x) answer = .ok bytes →
    ∀ c, IPv4Device.content (α x) bytes = some c →
      (∃ y, ∃ sent ∈ IPv4Device.packets (w y).socket.datagramAdapter,
        IPv4Device.content (α y) sent = some c) ∨ c.Foreign addr w.listens

/-- Datagrams are delivered in any order, any number of times or not at all; anything may be thrown,
and descriptors may hang up. -/
def Delivers (addr : Side → Address) (w : SocketPair α ι) (op : (x : Side) × Op (ι x)) : Prop :=
  op.2.Met (Arrives addr w op.1) (fun _ => True) True

/-- The invariant of two sockets over IPv4. -/
structure Connected (addr : Side → Address) (net₀ : Network) (w : SocketPair α ι) : Prop where
  inv : Inv (fun x => IPv4Device.Keeps (addr x) (addr x.other) true) net₀ w
  ports : ∀ x, w.listens x = true → (addr x).port ≠ 0

theorem new_connected {setting : ∀ x, IPv4Device.Setting (α x) (ι x) (κ x)}
    (hfits : ∀ x, (setting x).Fits (addr x) (addr x.other)) :
    Connected addr (.new (fun x => (setting x).config) fun x => (setting x).random)
      (new setting) := by
  refine ⟨start_inv (fun x => IPv4Device.contract _ _ _ _) _ _ _ _ _ _ fun x => (hfits x).keeps,
    fun x hl => (hfits x).port ?_⟩
  rw [← IPv4Device.Setting.adapter_start]
  exact hl

/-- **What arrives** is harmless. -/
theorem Connected.harmless {net₀ : Network} {x : Side} {answer : ι x} (h : Connected addr net₀ w)
    (hne : addr .a ≠ addr .b) (hA : Arrives addr w x answer) {bytes : List UInt8}
    (hread : IPv4Device.packet (α x) answer = .ok bytes) {c : Content}
    (hc : IPv4Device.content (α x) bytes = some c) :
    c.Harmless addr w.listens fun y => (w.net y).emitted := by
  rcases hA bytes hread c hc with ⟨y, sent, hsent, hcontent⟩ | hforeign
  · exact (IPv4Device.sent (h.inv.adapter y) sent hsent c hcontent).harmless hne h.ports
  · exact hforeign.harmless

/-- **One step.** -/
theorem Connected.step {net₀ : Network} {op : (x : Side) × Op (ι x)} (h : Connected addr net₀ w)
    (hne : addr .a ≠ addr .b) (hop : Delivers addr w op) : Connected addr net₀ (w.step op) := by
  obtain ⟨x, op⟩ := op
  have hconf := IPv4Device.configured (h.inv.adapter x)
  have hmet : op.Met (fun answer => ∀ bytes, IPv4Device.packet (α x) answer = .ok bytes →
      ∀ c, IPv4Device.content (α x) bytes = some c →
        c.Safe (addr x) (addr x.other) (w.listens x) (w.net x.other).emitted)
      (fun _ => True) True :=
    Op.Met.imp (fun answer hA bytes hread c hc => h.harmless hne hA hread hc x) hop
  -- from here on it listens only if it does now
  have hnow := IPv4Device.reconfigured (h.inv.adapter x)
    ⟨hconf.connected, fun hl => ⟨(hconf.waiting hl).1, hl⟩⟩
  have hstep := h.inv.step hnow (IPv4Device.contract (addr x) (addr x.other) _ _)
    (fun L a hk => IPv4Device.reconfigured hk ⟨(IPv4Device.configured hk).connected,
      fun hl => ⟨((IPv4Device.configured hk).waiting hl).1, rfl⟩⟩) hmet
  refine ⟨hstep.inv, fun z hl => h.ports z ?_⟩
  by_cases hz : z = x
  · subst hz
    unfold listens SocketPair.step at hl
    rw [Function.update_self] at hl
    exact ((IPv4Device.configured hstep.adapter).waiting hl).2
  · unfold listens SocketPair.step at hl
    rw [Function.update_of_ne hz] at hl
    exact hl

/-- **The bytes arrive**: two sockets over IPv4 with different addresses, each on a TUN or a TAP
device and configured for its address (`Setting.Fits`). Their datagrams are lost, duplicated,
reordered and routed, among datagrams of others that do not pretend to be from one of the two to the
other one and open no connection to one that listens (`Arrives`). Whatever the owners, the clocks
and the kernels do, what the owner of one of them was given, with what waits for them, is the
beginning of what was read from the owner of the other one. -/
theorem run_transfers (addr : Side → Address) (hne : addr .a ≠ addr .b)
    (setting : ∀ x, IPv4Device.Setting (α x) (ι x) (κ x))
    (hfits : ∀ x, (setting x).Fits (addr x) (addr x.other)) (ops : List ((x : Side) × Op (ι x)))
    (hops : Guarded step (Delivers addr) (new setting) ops)
    (hsmall : ∀ x, (exec step (new setting) ops x).socket.fromOwner.length < 2 ^ 31 - 2)
    (x : Side) :
    let w := exec step (new setting) ops
    (w x).socket.toOwner ++ (w x).socket.tcp.inboundStream.contents <+:
      (w x.other).socket.fromOwner := by
  have hinv := hops.invariant
    (I := Connected addr (.new (fun x => (setting x).config) fun x => (setting x).random))
    (fun _ _ h hop => h.step hne hop) (new_connected hfits)
  exact hinv.inv.delivered hsmall x

end SocketPair

/-! ## A byte from a TAP device to a TUN device -/

-- a `CS144TCPSocket` is started as one of these
example (address : Address) (port : UInt16) (random : UInt32) (now : ℕ) :
    CS144TCPSocket.connect address port random now =
      IPv4Device.Setting.start
        { mode := .connect, parameters := (), config := { rtTimeout := 100 },
          adapterConfig := { source := dotted 169 254 144 9 port, destination := address },
          random := random, now := now } := rfl

/-- What the owner of a `FullStackSocket` chooses. -/
def FullStackSocket.setting (rd : EthernetAddress) (address : Address) (port : UInt16)
    (random : UInt32) (now : ℕ) :
    IPv4Device.Setting TCPOverIPv4OverEthernetAdapter PacketAnswer FdAdapterConfig where
  mode := .connect
  parameters := (randomPrivateEthernetAddress rd, dotted 169 254 10 9, dotted 169 254 10 1)
  config := { rtTimeout := 100 }
  adapterConfig := { source := dotted 169 254 10 9 port, destination := address }
  random := random
  now := now

example (rd : EthernetAddress) (address : Address) (port : UInt16) (random : UInt32) (now : ℕ) :
    (FullStackSocket.setting rd address port random now).start =
      FullStackSocket.connect rd address port random now := rfl

namespace TapTun

/-- A `FullStackSocket` and a server of `tcp_ipv4`. -/
abbrev Adapters : Side → Type
  | .a => TCPOverIPv4OverEthernetAdapter
  | .b => LossyTCPOverIPv4OverTunFdAdapter

abbrev Answers : Side → Type
  | .a => PacketAnswer
  | .b => PacketAnswer × UInt16

abbrev Configs : Side → Type
  | .a => FdAdapterConfig
  | .b => LossyConfig FdAdapterConfig

instance : ∀ x, DatagramAdapter (Adapters x) (Answers x) (Configs x)
  | .a => inferInstanceAs (DatagramAdapter TCPOverIPv4OverEthernetAdapter PacketAnswer
    FdAdapterConfig)
  | .b => inferInstanceAs (DatagramAdapter LossyTCPOverIPv4OverTunFdAdapter (PacketAnswer × UInt16)
    (LossyConfig FdAdapterConfig))

instance : ∀ x, IPv4Device (Adapters x) (Answers x) (Configs x)
  | .a => inferInstanceAs (IPv4Device TCPOverIPv4OverEthernetAdapter PacketAnswer FdAdapterConfig)
  | .b => inferInstanceAs (IPv4Device LossyTCPOverIPv4OverTunFdAdapter (PacketAnswer × UInt16)
    (LossyConfig FdAdapterConfig))

def addresses : Side → Address
  | .a => dotted 169 254 10 9 50000
  | .b => dotted 169 254 144 9 9090

def settings : ∀ x, IPv4Device.Setting (Adapters x) (Answers x) (Configs x)
  | .a => FullStackSocket.setting (.replicate 6 1) (addresses .b) 50000 0 0
  | .b =>
    { mode := .listen, parameters := (), adapterConfig := { cfg := { source := ⟨0, 9090⟩ } } }

theorem settings_fit (x : Side) : (settings x).Fits (addresses x) (addresses x.other) := by
  cases x with
  | a => exact ⟨fun _ => rfl, fun hmode => by cases hmode⟩
  | b => exact ⟨fun hmode => (by cases hmode), fun _ => ⟨by decide, 0, .inr rfl, rfl⟩⟩

/-- The kernel of the host with the two devices: its interface on the TAP device, and the datagram
in a packet with its time to live decremented. -/
def gateway : NetworkInterface := .new (.replicate 6 9) (dotted 169 254 10 1)

def forwarded (bytes : List UInt8) : BufferList :=
  match (Router.decrementTtl (IPv4Datagram.parse {} (Buffer.ofString bytes)).1).serialize with
  | .ok packet => packet
  | .error _ => .ofString []

/-- What happens at one of the sockets in a session; packets are told by their numbers. -/
inductive Cue where
  /-- The gateway answers the request of `a`. -/
  | arpReply
  /-- `a` reads a datagram of `b`, in a frame. -/
  | fromTun (i : ℕ)
  /-- `b` reads the datagram in a frame of `a`. -/
  | fromTap (i : ℕ)
  | writeDatagrams
  | readPipe (data : List UInt8)
  | writePipe (n : ℕ)
  | nothing

abbrev World := SocketPair Adapters Answers

def frame (w : World) (i : ℕ) : EthernetFrame :=
  let bytes := ((IPv4Device.packets (w .a).socket.datagramAdapter)[i]?).getD []
  (EthernetFrame.new.parse (Buffer.ofString bytes)).1

def mac : EthernetAddress := randomPrivateEthernetAddress (.replicate 6 1)

/-- The packet that is read. -/
def Cue.packet (w : World) : Cue → Except Exn (List UInt8)
  | .arpReply => .ok (gateway.arpReplyFrame
    { senderEthernetAddress := mac, senderIpAddress := (addresses .a).ip,
      targetIpAddress := gateway.ipAddress.ip }).serialize.concatenate
  | .fromTun i =>
    let bytes := ((IPv4Device.packets (w .b).socket.datagramAdapter)[i]?).getD []
    .ok (gateway.ipv4Frame ⟨mac, 0⟩ (forwarded bytes)).serialize.concatenate
  | .fromTap i => .ok (forwarded (frame w i).payload.concatenate).concatenate
  | .writeDatagrams | .readPipe _ | .writePipe _ | .nothing =>
    .error (.runtimeError "read: Resource temporarily unavailable")

/-- The answer to a read of a packet; every write succeeds, and nothing is lost. -/
def answer : (x : Side) → Except Exn (List UInt8) → Answers x
  | .a, read => { read := read }
  | .b, read => ({ read := read }, 0)

theorem packet_answer (x : Side) (read : Except Exn (List UInt8)) :
    IPv4Device.packet (Adapters x) (answer x read) = read := by
  cases x <;> rfl

/-- No packet comes. -/
def silence (x : Side) : SocketAnswers (Answers x) where
  datagram := answer x (.error (.runtimeError "read: Resource temporarily unavailable"))
  datagrams _ := answer x (.error (.runtimeError "read: Resource temporarily unavailable"))

/-- A round of `_tcp_loop` in which the rule after `before` others is served. -/
def round (x : Side) (before : ℕ) (revents : Revents) (answers : SocketAnswers (Answers x)) :
    (x : Side) × Op (Answers x) :=
  ⟨x, .round (.ready (List.replicate before (({} : Revents), silence x) ++ [(revents, answers)])) 0
    (silence x).datagram (.ok ())⟩

def Cue.op (w : World) (x : Side) (cue : Cue) : (x : Side) × Op (Answers x) :=
  match cue with
  | .arpReply | .fromTun _ | .fromTap _ =>
    round x 0 { pollin := true } { silence x with datagram := answer x (cue.packet w) }
  | .readPipe data => round x 1 { pollin := true } { silence x with read := .ok data }
  | .writePipe n => round x 2 { pollout := true } { silence x with writev := fun _ => .ok n }
  | .writeDatagrams => round x 3 { pollout := true } (silence x)
  | .nothing => round x 0 {} (silence x)

/-- One of the two has sent the datagram in the packet that `x` reads, if there is one. -/
def Cue.known (w : World) (x : Side) (cue : Cue) : Bool :=
  match cue.packet w with
  | .error _ => true
  | .ok bytes => (IPv4Device.content (Adapters x) bytes).all fun c => [Side.a, .b].any fun y =>
    (IPv4Device.packets (w y).socket.datagramAdapter).any fun sent =>
      IPv4Device.content (Adapters y) sent = some c

theorem Cue.arrives {w : World} {x : Side} {cue : Cue} (h : cue.known w x = true) :
    SocketPair.Arrives addresses w x (answer x (cue.packet w)) := by
  intro bytes hread c hc
  rw [packet_answer] at hread
  unfold known at h
  rw [hread] at h
  dsimp only at h
  rw [hc] at h
  simp only [Option.all_some, List.any_eq_true, decide_eq_true_eq] at h
  obtain ⟨y, -, sent, hsent, hcontent⟩ := h
  exact .inl ⟨y, sent, hsent, hcontent⟩

theorem arrives_silence (w : World) (x : Side) (e : Exn) :
    SocketPair.Arrives addresses w x (answer x (.error e)) := by
  intro bytes hread
  rw [packet_answer] at hread
  cases hread

theorem delivers_round {w : World} {x : Side} (before : ℕ) (revents : Revents)
    {answers : SocketAnswers (Answers x)} (hd : SocketPair.Arrives addresses w x answers.datagram)
    (hds : answers.datagrams = (silence x).datagrams) :
    SocketPair.Delivers addresses w (round x before revents answers) := by
  refine Op.met_round before revents 0
    ⟨arrives_silence w x _, fun _ => arrives_silence w x _, fun _ _ => trivial⟩
    ⟨hd, fun n => ?_, fun _ _ => trivial⟩ fun _ => trivial
  rw [hds]
  exact arrives_silence w x _

theorem Cue.delivers {w : World} {x : Side} {cue : Cue} (h : cue.known w x = true) :
    SocketPair.Delivers addresses w (cue.op w x) := by
  cases cue with
  | arpReply | fromTun | fromTap => exact delivers_round _ _ (Cue.arrives h) rfl
  | readPipe | writePipe | writeDatagrams | nothing =>
    exact delivers_round _ _ (arrives_silence w x _) rfl

/-- The steps of a session. -/
def play (w : World) : List (Side × Cue) → List ((x : Side) × Op (Answers x))
  | [] => []
  | (x, cue) :: cues => cue.op w x :: play (w.step (cue.op w x)) cues

/-- Every packet in it is known. -/
def plays (w : World) : List (Side × Cue) → Bool
  | [] => true
  | (x, cue) :: cues => cue.known w x && plays (w.step (cue.op w x)) cues

theorem guarded_play {w : World} {cues : List (Side × Cue)} (h : plays w cues = true) :
    Guarded SocketPair.step (SocketPair.Delivers addresses) w (play w cues) := by
  induction cues generalizing w with
  | nil => trivial
  | cons p cues ih =>
    obtain ⟨x, cue⟩ := p
    obtain ⟨hknown, hrest⟩ := Bool.and_eq_true_iff.1 h
    exact ⟨Cue.delivers hknown, ih hrest⟩

/-- The client asks for the gateway, connects, and sends a byte. -/
def session : List (Side × Cue) :=
  [(.a, .writeDatagrams), (.a, .arpReply), (.b, .fromTap 2), (.b, .writeDatagrams),
    (.a, .fromTun 0), (.a, .nothing), (.a, .readPipe [97]), (.a, .writeDatagrams),
    (.b, .fromTap 3), (.b, .nothing), (.b, .fromTap 4), (.b, .writePipe 1)]

theorem plays_session : plays (SocketPair.new settings) session = true := by decide +kernel

/-- The byte arrives. -/
theorem transfers_of_session :
    let w := exec SocketPair.step (SocketPair.new settings) (play (SocketPair.new settings) session)
    (w .b).socket.toOwner = [97] ∧
      (w .b).socket.toOwner ++ (w .b).socket.tcp.inboundStream.contents <+:
        (w .a).socket.fromOwner := by
  have hsmall : ∀ x, (exec SocketPair.step (SocketPair.new settings)
      (play (SocketPair.new settings) session) x).socket.fromOwner.length < 2 ^ 31 - 2 := by
    intro x
    cases x <;> decide +kernel
  have htransfers := SocketPair.run_transfers addresses (by decide +kernel) settings settings_fit _
    (guarded_play plays_session) hsmall .b
  have hother : Side.b.other = .a := rfl
  rw [hother] at htransfers
  exact ⟨by decide +kernel, htransfers⟩

end TapTun

end Sponge
