import Sponge.Proof.SocketPair

/-!
# Sockets over UDP

Two sockets of `tcp_udp`, with datagrams between them that are lost, duplicated and reordered, and
datagrams of others, none of which opens a connection to a socket that listens: what the owner of
one reads, the owner of the other wrote (`run_delivers`).
-/

namespace Sponge

open Run TCPSpongeSocket

/-- The two sockets of `tcp_udp`. -/
abbrev UdpPair := Side → Process LossyTCPOverUDPSocketAdapter (UDPAnswer × UInt16)

namespace UdpPair

variable {addr : Side → Address} {w : UdpPair}

/-- The adapter of `x`. -/
def adapter (w : UdpPair) (x : Side) : TCPOverUDPSocketAdapter :=
  (w x).socket.datagramAdapter.adapter

/-- A step of one of the sockets. -/
def step (w : UdpPair) (op : Side × Op (UDPAnswer × UInt16)) : UdpPair :=
  Function.update w op.1 ((w op.1).step op.2)

/-- The sockets on UDP sockets that are bound to `addr`, as their owners start them. -/
def new (addr : Side → Address) (mode : Side → Start) (config : Side → TCPConfig)
    (adapterConfig : Side → LossyConfig FdAdapterConfig) (random : Side → UInt32) (now : Side → ℕ) :
    UdpPair :=
  fun x => start (mode x) { adapter := { sock := { address := addr x } } } (config x)
    (adapterConfig x) (random x) (now x)

/-- What arrives at `x`: from the address of the other side only what it sent, at some time, and a
SYN from nobody else while the adapter listens. -/
structure Arrives (addr : Side → Address) (w : UdpPair) (x : Side) (answer : UDPAnswer × UInt16) :
    Prop where
  fromPeer : ∀ datagram, answer.1.recv = .ok datagram → datagram.sourceAddress = addr x.other →
    ∃ d ∈ (w.adapter x.other).sock.sent, d.payload = datagram.payload
  opens : ∀ datagram, answer.1.recv = .ok datagram → (w.adapter x).listen = true →
    TCPOverUDPSocketAdapter.Opens datagram.payload → datagram.sourceAddress = addr x.other

/-- The datagrams are delivered in any order, any number of times or not at all; anything may be
thrown, and descriptors may hang up. -/
def Delivers (addr : Side → Address) (w : UdpPair) (op : Side × Op (UDPAnswer × UInt16)) : Prop :=
  op.2.Met (Arrives addr w op.1) (fun _ => True) True

/-- The invariant of an adapter, whose peer is `peer`. -/
def Keeps (peer : Address) (L : List TCPSegment) (a : LossyTCPOverUDPSocketAdapter) : Prop :=
  TCPOverUDPSocketAdapter.Keeps peer true L a.adapter

/-- The invariant of the two sockets. -/
abbrev Inv (addr : Side → Address) : Network → UdpPair → Prop :=
  SocketPair.Inv fun x => Keeps (addr x.other)

theorem new_inv {mode : Side → Start} {config : Side → TCPConfig}
    {adapterConfig : Side → LossyConfig FdAdapterConfig} {random : Side → UInt32} {now : Side → ℕ}
    (hpeer : ∀ x, mode x = .connect → (adapterConfig x).cfg.destination = addr x.other) :
    Inv addr (.new config random) (new addr mode config adapterConfig random now) := by
  refine SocketPair.start_inv (fun x => LossyFdAdapter.contract
    (TCPOverUDPSocketAdapter.contract (addr x.other) true [] fun _ _ => trivial)) mode _ config
    adapterConfig random now fun x => ?_
  cases hmode : mode x with
  | connect => exact ⟨List.forall_mem_nil _, fun _ => hpeer x hmode, fun _ => rfl⟩
  | listen => exact ⟨List.forall_mem_nil _, nofun, fun _ => rfl⟩

/-- **One step.** -/
theorem Inv.step {net₀ : Network} {op : Side × Op (UDPAnswer × UInt16)} (h : Inv addr net₀ w)
    (hop : Delivers addr w op) : Inv addr net₀ (w.step op) := by
  obtain ⟨x, op⟩ := op
  have hkeeps : ∀ y, TCPOverUDPSocketAdapter.Keeps (addr y.other) true
      (SocketPair.net w y).emitted (w.adapter y) := h.adapter
  have hmet : op.Met (fun answer => TCPOverUDPSocketAdapter.Arrives (addr x.other)
      (w.adapter x).listen (SocketPair.net w x.other).emitted (fun _ => True) answer.1)
      (fun _ => True) True := by
    refine Op.Met.imp (fun answer hA => ?_) hop
    refine ⟨fun datagram hrecv hsource => ?_, hA.opens, fun _ _ => trivial⟩
    obtain ⟨d, hd, hpayload⟩ := hA.fromPeer datagram hrecv hsource
    rw [← hpayload]
    exact (hkeeps x.other).sent d hd
  have hnow : TCPOverUDPSocketAdapter.Keeps (addr x.other) (w.adapter x).listen
      (SocketPair.net w x).emitted (w.adapter x) :=
    ⟨(hkeeps x).sent, (hkeeps x).peer, id⟩
  have hstep := SocketPair.Inv.step h hnow (LossyFdAdapter.contract
    (TCPOverUDPSocketAdapter.contract (addr x.other) _ _ fun _ _ => trivial))
    (fun L a hk => ⟨hk.sent, hk.peer, fun _ => rfl⟩) hmet
  exact hstep.inv

/-- **The bytes arrive**: two sockets over UDP, whose datagrams are lost, duplicated and reordered,
each adapter losing some of its own. A socket that connects is configured with the address of the
other one (`hpeer`); from that address comes only what the other one sent, and nobody else's SYN
reaches a socket while it listens (`Delivers`). Whatever the owners, the clocks and the kernels do,
what the owner of one of them was given, with what waits for them, is the beginning of what was read
from the owner of the other one. -/
theorem run_delivers (addr : Side → Address) (mode : Side → Start) (config : Side → TCPConfig)
    (adapterConfig : Side → LossyConfig FdAdapterConfig) (random : Side → UInt32) (now : Side → ℕ)
    (hpeer : ∀ x, mode x = .connect → (adapterConfig x).cfg.destination = addr x.other)
    (ops : List (Side × Op (UDPAnswer × UInt16)))
    (hops : Guarded step (Delivers addr) (new addr mode config adapterConfig random now) ops)
    (hsmall : ∀ x, (exec step (new addr mode config adapterConfig random now)
      ops x).socket.fromOwner.length < 2 ^ 31 - 2) (x : Side) :
    let w := exec step (new addr mode config adapterConfig random now) ops
    (w x).socket.toOwner ++ (w x).socket.tcp.inboundStream.contents <+:
      (w x.other).socket.fromOwner := by
  have hinv := hops.invariant (I := Inv addr (.new config random)) (fun _ _ h hop => h.step hop)
    (new_inv hpeer)
  exact hinv.delivered hsmall x

/-! ## A byte through two sockets -/

/-- The two addresses. -/
def addresses : Side → Address
  | .a => ⟨1, 10⟩
  | .b => ⟨2, 20⟩

/-- One side connects to the other one, which listens; both lose nothing. -/
def pair : UdpPair :=
  new addresses (fun | .a => .connect | .b => .listen) (fun _ => {})
    (fun | .a => ⟨⟨addresses .a, addresses .b⟩, 0, 0⟩ | .b => ⟨⟨addresses .b, ⟨0, 0⟩⟩, 0, 0⟩)
    (fun _ => 0) (fun _ => 0)

/-- The kernel's answers while an empty datagram arrives from nowhere; the `n`-th of the datagrams
sent has `20 + n` bytes. -/
def stillness : SocketAnswers (UDPAnswer × UInt16) where
  datagram := (⟨.ok ⟨⟨0, 0⟩, []⟩, .ok 0⟩, 0)
  datagrams n := (⟨.ok ⟨⟨0, 0⟩, []⟩, .ok (20 + n)⟩, 0)

/-- A round in which one descriptor of `x` is ready: `before` rules come before its rule. -/
def turn (x : Side) (before : ℕ) (revents : Revents)
    (answers : SocketAnswers (UDPAnswer × UInt16)) : Side × Op (UDPAnswer × UInt16) :=
  (x, .round (.ready (List.replicate before (({} : Revents), stillness) ++ [(revents, answers)])) 0
    stillness.datagram (.ok ()))

/-- A datagram of the other side arrives at `x`. -/
def receive (x : Side) (payload : List UInt8) : Side × Op (UDPAnswer × UInt16) :=
  turn x 0 { pollin := true }
    { stillness with datagram := (⟨.ok ⟨addresses x.other, payload⟩, .ok 0⟩, 0) }

/-- What is queued at `x` is sent. -/
def sendAll (x : Side) : Side × Op (UDPAnswer × UInt16) := turn x 3 { pollout := true } stillness

/-- The handshake, and a byte from one owner to the other one. -/
def session : List (Side × Op (UDPAnswer × UInt16)) :=
  [sendAll .a,
    receive .b [0, 10, 0, 20, 0, 0, 0, 0, 0, 0, 0, 0, 80, 2, 0, 0, 175, 223, 0, 0],
    sendAll .b,
    receive .a [0, 20, 0, 10, 0, 0, 0, 0, 0, 0, 0, 1, 80, 18, 250, 0, 181, 205, 0, 0],
    turn .a 0 {} stillness,
    turn .a 1 { pollin := true } { stillness with read := .ok [97] },
    sendAll .a,
    receive .b [0, 10, 0, 20, 0, 0, 0, 1, 0, 0, 0, 1, 80, 16, 250, 0, 181, 206, 0, 0],
    turn .b 0 {} stillness,
    receive .b [0, 10, 0, 20, 0, 0, 0, 1, 0, 0, 0, 1, 80, 16, 250, 0, 84, 206, 0, 0, 97],
    turn .b 2 { pollout := true } { stillness with writev := fun _ => .ok 1 }]

theorem arrives_still {w : UdpPair} (x : Side) (n : ℕ) :
    Arrives addresses w x (⟨.ok ⟨⟨0, 0⟩, []⟩, .ok n⟩, 0) := by
  refine ⟨fun datagram hrecv hsource => ?_, fun datagram hrecv _ hopens => ?_⟩
  · cases hrecv
    cases x <;> cases hsource
  · cases hrecv
    obtain ⟨seg, hparse, -⟩ := hopens
    cases hparse

/-- A turn is as it should be if what arrives is. -/
theorem delivers_turn {w : UdpPair} {x : Side} (before : ℕ) (revents : Revents)
    {answers : SocketAnswers (UDPAnswer × UInt16)} (hd : Arrives addresses w x answers.datagram)
    (hds : answers.datagrams = stillness.datagrams) :
    Delivers addresses w (turn x before revents answers) := by
  refine Op.met_round before revents 0
    ⟨arrives_still x 0, fun n => arrives_still x (20 + n), fun _ _ => trivial⟩
    ⟨hd, fun n => ?_, fun _ _ => trivial⟩ fun _ => trivial
  rw [hds]
  exact arrives_still x (20 + n)

theorem delivers_receive {w : UdpPair} {x : Side} {payload : List UInt8}
    (h : payload ∈ (w.adapter x.other).sock.sent.map UDPDatagram.payload) :
    Delivers addresses w (receive x payload) := by
  refine delivers_turn 0 _ ⟨fun datagram hrecv _ => ?_, fun datagram hrecv _ _ => ?_⟩ rfl
  · cases hrecv
    exact List.mem_map.1 h
  · cases hrecv
    rfl

theorem delivers_session : Guarded step (Delivers addresses) pair session := by
  have hstill : ∀ (w : UdpPair) (x : Side) (before : ℕ) (revents : Revents)
      (answers : SocketAnswers (UDPAnswer × UInt16)), answers.datagram = stillness.datagram →
      answers.datagrams = stillness.datagrams →
      Delivers addresses w (turn x before revents answers) := by
    intro w x before revents answers hd hds
    refine delivers_turn before revents ?_ hds
    rw [hd]
    exact arrives_still x 0
  exact ⟨hstill _ _ _ _ _ rfl rfl, delivers_receive (by decide +kernel), hstill _ _ _ _ _ rfl rfl,
    delivers_receive (by decide +kernel), hstill _ _ _ _ _ rfl rfl, hstill _ _ _ _ _ rfl rfl,
    hstill _ _ _ _ _ rfl rfl, delivers_receive (by decide +kernel), hstill _ _ _ _ _ rfl rfl,
    delivers_receive (by decide +kernel), hstill _ _ _ _ _ rfl rfl, trivial⟩

/-- The byte arrives. -/
theorem delivers_of_session :
    let w := exec step pair session
    (w .b).socket.toOwner = [97] ∧
      (w .b).socket.toOwner ++ (w .b).socket.tcp.inboundStream.contents <+:
        (w .a).socket.fromOwner := by
  refine ⟨by decide +kernel, run_delivers addresses _ _ _ _ _ (fun x hmode => ?_) session
    delivers_session (fun x => ?_) .b⟩
  · cases x with
    | a => rfl
    | b => cases hmode
  · cases x <;> decide +kernel

end UdpPair

end Sponge
