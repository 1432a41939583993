import Sponge.Proof.IPv4Sockets
import Sponge.Proof.NetworkThread
import Sponge.Proof.StreamCopy

/-!
# Two hosts behind two routers

The client and the server of `lab7`, each with its three threads, and an Internet between their
routers that loses, duplicates, reorders and misdirects frames and brings frames of others, which
hold no SYN for a server that listens and nothing that pretends to be from one of the hosts to the
other one.

`run_shows`: what the one has shown on its standard output is the beginning of what was typed at the
other one, over all the layers: the standard streams, the socket pairs, the two connections,
segments, datagrams and frames, through ARP, two routers and UDP.
-/

namespace Sponge

open Run TCPSpongeSocket

namespace Lab7

/-- The client and the server. -/
abbrev World := Side → Program

namespace World

variable {addr : Side → Address} {w : World} {x : Side} {c : Content}

def new (setting : Side → Setting) : World
  | .a => programBody true (setting .a)
  | .b => programBody false (setting .b)

/-- A step of one of the programs. -/
def step (w : World) (op : Side × Op) : World := Function.update w op.1 ((w op.1).step op.2)

/-- The two sockets. -/
def sockets (w : World) :
    SocketPair (fun _ => TCPOverIPv4OverEthernetAdapter) fun _ => PacketAnswer :=
  fun x => (w x).socket

/-- The two connections. -/
def net (w : World) : Network := w.sockets.net

def adapter (w : World) (x : Side) : TCPOverIPv4OverEthernetAdapter :=
  (w x).socket.socket.datagramAdapter

/-- Does `x` still wait for a connection? -/
def listens (w : World) (x : Side) : Bool := (w.adapter x).base.listen

/-- The addresses of the two sockets. -/
def address (setting : Side → Setting) : Side → Address
  | .a => { dotted 192 168 0 50 with port := (setting .a).port }
  | .b => serverAddress

/-! ## What others may do -/

/-- What the network thread of `x` reads: a frame of its host, a frame that one of the two routers
has sent to the Internet at some time, or a frame of others. -/
def Receives (addr : Side → Address) (w : World) (x : Side) (answers : NetworkAnswers) : Prop :=
  ∀ bytes, answers.read = .ok bytes → bytes ∈ (w.adapter x).tap.packets ∨
    (∃ y, bytes ∈ Line.internet.packets (w y).network.locals) ∨
    EthernetFrame.BytesBear (Content.Foreign addr w.listens) bytes

/-- What may happen: a host reads the frames that its router has written to it, and what comes out
of the socket pair between the two threads went into it. -/
def Permits (addr : Side → Address) (w : World) : Side × Op → Prop
  | (x, .socket poll now answer shutdown) =>
    TCPSpongeSocket.Op.Met (fun answer : PacketAnswer => ∀ bytes, answer.read = .ok bytes →
        bytes ∈ Line.host.packets (w x).network.locals) (fun _ => True) True
        (.round poll now answer shutdown) ∧
      ((w x).step (.socket poll now answer shutdown)).socket.socket.fromOwner <+:
        (w x).copy.state.sent
  | (x, .main poll shutdown) =>
    ((w x).step (.main poll shutdown)).copy.state.received <+: (w x).socket.socket.toOwner
  | (x, .network poll) => EventLoop.Answers (Receives addr w x) True poll

/-! ## The invariant -/

/-- What may arrive at both hosts. -/
abbrev Harmless (addr : Side → Address) (w : World) : Content → Prop :=
  Content.Harmless addr w.listens fun x => (w.net x).emitted

structure Inv (addr : Side → Address) (net₀ : Network) (w : World) : Prop where
  sockets : SocketPair.Inv
    (fun x => TCPOverIPv4OverEthernetAdapter.Keeps (addr x) (addr x.other) true) net₀ w.sockets
  threads : ∀ x, (w x).network.Holds (Harmless addr w)
  ports : ∀ x, w.listens x = true → (addr x).port ≠ 0
  copies : ∀ x, StreamCopy.Loop.Inv (fun _ => True) True (w x).copy
  written : ∀ x, (w x).socket.socket.fromOwner <+: (w x).copy.state.sent
  read : ∀ x, (w x).copy.state.received <+: (w x).socket.socket.toOwner

theorem Inv.adapter {net₀ : Network} (h : Inv addr net₀ w) (x : Side) :
    (w.adapter x).Keeps (addr x) (addr x.other) true (w.net x).emitted :=
  h.sockets.adapter x

theorem port_ne_zero_new (setting : Side → Setting) (x : Side) :
    (new setting).listens x = true → (address setting x).port ≠ 0 := by
  cases x with
  | a =>
    intro hl
    cases hl
  | b =>
    intro _
    show serverAddress.port ≠ 0
    decide

theorem address_ne (setting : Side → Setting) : address setting .a ≠ address setting .b := by
  intro heq
  have hip : (address setting .a).ip = (address setting .b).ip := congrArg Address.ip heq
  have hip : (dotted 192 168 0 50).ip = serverAddress.ip := hip
  exact absurd hip (by decide)

/-- The router of a program holds nothing at first, and the three datagrams sent hold nothing. -/
theorem holds_new (isClient : Bool) (setting : Setting) (P : Content → Prop) :
    (programBody isClient setting).network.Holds P := by
  have hempty : EthernetFrame.BytesBear P [] := by
    -- an empty packet is parsed as a frame without a type
    intro frame hparse
    cases hparse
    exact EthernetFrame.bears_of_not_ipv4 (show EthernetFrame.new.header.type ≠ _ by decide)
  have hsent : (internetSocket setting).sent.map UDPDatagram.payload = [[], [], []] := rfl
  have hinternet : ∀ bytes ∈ (internetSocket setting).sent.map UDPDatagram.payload,
      EthernetFrame.BytesBear P bytes := by
    rw [hsent]
    simpa using hempty
  have hinterfaces : ∀ {ni₁ ni₂ : AsyncNetworkInterface} {e₁ e₂ : EthernetAddress}
    {a₁ a₂ : Address},
      ni₁ = .new e₁ a₁ → ni₂ = .new e₂ a₂ → ∀ {table : List RouteItem},
      Router.Holds P ⟨[ni₁, ni₂], table⟩ := by
    rintro _ _ e₁ e₂ a₁ a₂ rfl rfl table
    have hmem : ∀ {n : ℕ} {ni : AsyncNetworkInterface},
        [AsyncNetworkInterface.new e₁ a₁, AsyncNetworkInterface.new e₂ a₂][n]? = some ni →
          ni = .new e₁ a₁ ∨ ni = .new e₂ a₂ :=
      fun hni => by simpa using List.mem_of_getElem? hni
    refine ⟨trivial, fun n ni hni => ?_, fun n ni hni => ?_⟩
    · rcases hmem hni with rfl | rfl
      · exact NetworkInterface.new_holds e₁ a₁
      · exact NetworkInterface.new_holds e₂ a₂
    · rcases hmem hni with rfl | rfl
      · exact List.forall_mem_nil _
      · exact List.forall_mem_nil _
  cases isClient with
  | true =>
    refine ⟨⟨names, .refl names, rfl⟩, ⟨hinterfaces rfl rfl, fun l => ?_⟩⟩
    cases l with
    | host => exact List.forall_mem_nil _
    | internet => exact hinternet
  | false =>
    refine ⟨⟨names, .refl names, rfl⟩, ⟨hinterfaces rfl rfl, fun l => ?_⟩⟩
    cases l with
    | host => exact List.forall_mem_nil _
    | internet => exact hinternet

/-- The random numbers of the two programs. -/
def randoms (setting : Side → Setting) (x : Side) : UInt32 := (setting x).random

/-- The client connects, and the server listens. -/
def mode : Side → Start
  | .a => .connect
  | .b => .listen

def socket (setting : Side → Setting) : Side → TCPSocketLab7
  | .a => clientSocket (setting .a)
  | .b => serverSocket (setting .b)

def adapterConfig (setting : Side → Setting) : Side → FdAdapterConfig
  | .a => ⟨address setting .a, serverAddress⟩
  | .b => ⟨address setting .b, { ip := 0 }⟩

theorem new_inv (setting : Side → Setting) :
    Inv (address setting) (.new (fun _ => {}) (randoms setting)) (new setting) := by
  have hsockets : (new setting).sockets = fun x => start (mode x) (socket setting x).adapter {}
      (adapterConfig setting x) (randoms setting x) (setting x).now := by
    funext x
    cases x <;> rfl
  refine ⟨?_, fun x => ?_, port_ne_zero_new setting, fun x => ?_, fun x => ?_, fun x => ?_⟩
  · rw [hsockets]
    refine SocketPair.start_inv (fun x => TCPOverIPv4OverEthernetAdapter.contract _ _ true []
      fun _ _ => trivial) mode _ _ _ _ _ fun x => ?_
    cases x with
    | a => exact ⟨⟨fun _ => rfl, fun hl => by cases hl⟩, NetworkInterface.new_holds _ _,
        List.forall_mem_nil _, List.forall_mem_nil _⟩
    | b => exact ⟨⟨fun hl => (by cases hl), fun _ => ⟨⟨_, .inl rfl, rfl⟩, rfl⟩⟩,
        NetworkInterface.new_holds _ _, List.forall_mem_nil _, List.forall_mem_nil _⟩
  · cases x with
    | a => exact holds_new true _ _
    | b => exact holds_new false _ _
  · cases x <;> exact StreamCopy.Loop.inv_start _ _
  · cases x <;> exact List.nil_prefix
  · cases x <;> exact List.nil_prefix

/-! ## The steps -/

theorem sockets_update (w : World) (x : Side) (p : Program) :
    sockets (Function.update w x p) = Function.update w.sockets x p.socket := by
  funext z
  by_cases hz : z = x
  · subst hz
    simp [sockets]
  · simp [sockets, hz]

theorem net_update (w : World) (x : Side) (p : Program) :
    net (Function.update w x p) = Function.update w.net x p.socket.socket.endpoint := by
  rw [net, sockets_update]
  exact SocketPair.net_update w.sockets x p.socket

theorem listens_update (w : World) (x : Side) (p : Program) :
    listens (Function.update w x p) =
      Function.update w.listens x p.socket.socket.datagramAdapter.base.listen := by
  funext z
  by_cases hz : z = x
  · subst hz
    simp [listens, adapter]
  · simp [listens, adapter, hz]

/-- What is harmless stays so, if the sockets emit more and listen no longer. -/
theorem Inv.update {net₀ : Network} (h : Inv addr net₀ w) {p : Program}
    (hsockets : SocketPair.Inv (fun x => TCPOverIPv4OverEthernetAdapter.Keeps (addr x)
      (addr x.other) true) net₀ (Function.update w.sockets x p.socket))
    (hlisten : p.socket.socket.datagramAdapter.base.listen = true → w.listens x = true)
    (hemitted : ∀ seg ∈ (w.net x).emitted, seg ∈ p.socket.socket.endpoint.emitted)
    (hthread : p.network.Holds (Harmless addr w))
    (hcopy : StreamCopy.Loop.Inv (fun _ => True) True p.copy)
    (hwritten : p.socket.socket.fromOwner <+: p.copy.state.sent)
    (hread : p.copy.state.received <+: p.socket.socket.toOwner) :
    Inv addr net₀ (Function.update w x p) := by
  have hlistens : ∀ z, listens (Function.update w x p) z = true → w.listens z = true := by
    intro z hl
    rw [listens_update] at hl
    by_cases hz : z = x
    · subst hz
      rw [Function.update_self] at hl
      exact hlisten hl
    · rwa [Function.update_of_ne hz] at hl
  have hharmless : ∀ c, Harmless addr w c → Harmless addr (Function.update w x p) c := by
    refine fun c hc => hc.mono hlistens fun z => ?_
    rw [net_update]
    by_cases hz : z = x
    · subst hz
      rw [Function.update_self]
      exact hemitted
    · rw [Function.update_of_ne hz]
      exact fun _ hseg => hseg
  refine ⟨?_, fun z => ?_, fun z hl => h.ports z (hlistens z hl), fun z => ?_, fun z => ?_,
    fun z => ?_⟩
  · rw [sockets_update]
    exact hsockets
  · by_cases hz : z = x
    · subst hz
      rw [Function.update_self]
      exact hthread.mono hharmless
    · rw [Function.update_of_ne hz]
      exact (h.threads z).mono hharmless
  all_goals
    by_cases hz : z = x
    · subst hz
      rw [Function.update_self]
      assumption
    · rw [Function.update_of_ne hz]
      first
        | exact h.copies z
        | exact h.written z
        | exact h.read z

/-- A step that leaves the socket as it is, up to its flags. -/
theorem Inv.quiet {net₀ : Network} (h : Inv addr net₀ w) {p : Program}
    (hsame : p.socket.socket = (w x).socket.socket)
    (hsocket : p.socket = (w x).socket ∨ p.socket = (w x).socket.step .abort)
    (hthread : p.network.Holds (Harmless addr w))
    (hcopy : StreamCopy.Loop.Inv (fun _ => True) True p.copy)
    (hwritten : p.socket.socket.fromOwner <+: p.copy.state.sent)
    (hread : p.copy.state.received <+: p.socket.socket.toOwner) :
    Inv addr net₀ (Function.update w x p) := by
  refine h.update ?_ (fun hl => ?_) (fun seg hseg => ?_) hthread hcopy hwritten hread
  · rcases hsocket with heq | heq
    · have hsockets : Function.update w.sockets x p.socket = w.sockets := by
        rw [heq]
        exact Function.update_eq_self x w.sockets
      rw [hsockets]
      exact h.sockets
    · rw [heq]
      exact h.sockets.abort x
  · rw [hsame] at hl
    exact hl
  · rw [hsame]
    exact hseg

/-- **A round of `_tcp_loop`.** -/
theorem Inv.socket {net₀ : Network} (h : Inv addr net₀ w) {p : Program}
    {op : TCPSpongeSocket.Op PacketAnswer}
    (hmet : op.Met (fun answer : PacketAnswer => ∀ bytes, answer.read = .ok bytes →
      bytes ∈ Line.host.packets (w x).network.locals) (fun _ => True) True)
    (hsocket : p.socket = (w x).socket.step op) (hnetwork : p.network = (w x).network)
    (hcopy : p.copy = (w x).copy)
    (hwritten : p.socket.socket.fromOwner <+: (w x).copy.state.sent) :
    Inv addr net₀ (Function.update w x p) := by
  have hkeeps := h.adapter x
  -- what arrives is harmless, and the configuration is the one of now
  have hmet : op.Met (TCPOverIPv4OverEthernetAdapter.Arrives (addr x) (addr x.other)
      (w.listens x) (w.net x.other).emitted (fun _ => True)) (fun _ => True) True := by
    refine Op.Met.imp (fun answer hA => ⟨fun bytes hbytes => ?_, fun _ _ => trivial⟩) hmet
    exact ((h.threads x).locals.packets .host bytes (hA bytes hbytes)).mono fun c hc => hc x
  have hnow : (w.adapter x).Keeps (addr x) (addr x.other) (w.listens x) (w.net x).emitted :=
    hkeeps.reconfigured ⟨hkeeps.configured.connected,
      fun hl => ⟨(hkeeps.configured.waiting hl).1, hl⟩⟩
  have hstep := h.sockets.step hnow
    (TCPOverIPv4OverEthernetAdapter.contract _ _ _ _ fun _ _ => trivial)
    (fun L a hk => hk.reconfigured ⟨hk.configured.connected,
      fun hl => ⟨(hk.configured.waiting hl).1, rfl⟩⟩) hmet
  have heq : (w.sockets x).step op = p.socket := hsocket.symm
  rw [heq] at hstep
  refine h.update hstep.inv (fun hl => (hstep.adapter.configured.waiting hl).2) hstep.emitted ?_ ?_
    ?_ ?_
  · rw [hnetwork]
    exact h.threads x
  · rw [hcopy]
    exact h.copies x
  · rw [hcopy]
    exact hwritten
  · rw [hcopy]
    exact (h.read x).trans hstep.popped

/-- The main thread does nothing to the socket but to shut its thread down, and it only copies. -/
theorem main_cases (p : Program) (poll : Poll CopyAnswers) (shutdown : Except Exn Unit) :
    (p.main poll shutdown).network = p.network ∧
      ((p.main poll shutdown).socket = p.socket ∨
        (p.main poll shutdown).socket = p.socket.step .abort) ∧
      ((p.main poll shutdown).copy = p.copy ∨ (p.main poll shutdown).copy = p.copy.step poll) := by
  unfold Program.main
  split
  · exact ⟨rfl, .inl rfl, .inl rfl⟩
  · exact ⟨rfl, .inl rfl, .inl rfl⟩
  · exact ⟨rfl, .inl rfl, .inr rfl⟩
  · split
    · exact ⟨rfl, .inl rfl, .inl rfl⟩
    · exact ⟨rfl, .inl rfl, .inl rfl⟩
  · split
    · exact ⟨rfl, .inr rfl, .inl rfl⟩
    · exact ⟨rfl, .inl rfl, .inl rfl⟩

/-- **A round of the main thread.** -/
theorem Inv.main {net₀ : Network} (h : Inv addr net₀ w) {poll : Poll CopyAnswers}
    {shutdown : Except Exn Unit}
    (hread : ((w x).main poll shutdown).copy.state.received <+: (w x).socket.socket.toOwner) :
    Inv addr net₀ (Function.update w x ((w x).main poll shutdown)) := by
  obtain ⟨hnetwork, hsocket, hcopy⟩ := main_cases (w x) poll shutdown
  have hsame : ((w x).main poll shutdown).socket.socket = (w x).socket.socket := by
    rcases hsocket with heq | heq
    · rw [heq]
    · rw [heq]
      rfl
  have hanswers : EventLoop.Answers (StreamCopy.CopyAnswers.Errors fun _ => True) True poll := by
    cases poll with
    | ready results => exact fun _ _ => ⟨fun _ _ => trivial, fun _ => trivial⟩
    | timeout | interrupted | failed => trivial
  have hcopied : StreamCopy.Loop.Inv (fun _ => True) True ((w x).main poll shutdown).copy ∧
      (w x).copy.state.sent <+: ((w x).main poll shutdown).copy.state.sent := by
    rcases hcopy with heq | heq
    · rw [heq]
      exact ⟨h.copies x, List.prefix_rfl⟩
    · rw [heq]
      exact ⟨(h.copies x).step hanswers, StreamCopy.Loop.sent_step (h.copies x) hanswers⟩
  refine h.quiet hsame hsocket ?_ hcopied.1 ?_ ?_
  · rw [hnetwork]
    exact h.threads x
  · rw [hsame]
    exact (h.written x).trans hcopied.2
  · rw [hsame]
    exact hread

/-- **A round of the network thread.** -/
theorem Inv.network {net₀ : Network} (h : Inv addr net₀ w) (hne : addr .a ≠ addr .b)
    {poll : Poll NetworkAnswers} (hpoll : EventLoop.Answers (Receives addr w x) True poll)
    (exitFlag : Bool) :
    Inv addr net₀ (Function.update w x
      { w x with network := (w x).network.step poll exitFlag }) := by
  have hbears : ∀ answers, Receives addr w x answers → answers.Bears (Harmless addr w) := by
    intro answers hreceives bytes hbytes
    rcases hreceives bytes hbytes with hhost | ⟨y, hy⟩ | hforeign
    · exact ((h.adapter x).packets bytes hhost).mono fun c hc => hc.harmless hne h.ports
    · exact (h.threads y).locals.packets .internet bytes hy
    · exact hforeign.mono fun c hc => hc.harmless
  have hpoll : EventLoop.Answers (NetworkAnswers.Bears (Harmless addr w)) True poll := by
    cases poll with
    | ready results => exact fun p hp => ⟨hbears p.2 (hpoll p hp).1, fun _ => trivial⟩
    | timeout | interrupted | failed => trivial
  exact h.quiet rfl (.inl rfl) ((h.threads x).step hpoll exitFlag) (h.copies x) (h.written x)
    (h.read x)

/-- **One step.** -/
theorem Inv.step {net₀ : Network} (h : Inv addr net₀ w) (hne : addr .a ≠ addr .b) {op : Side × Op}
    (hop : Permits addr w op) : Inv addr net₀ (w.step op) := by
  obtain ⟨x, op⟩ := op
  have hstill : Inv addr net₀ (Function.update w x (w x)) := by
    rw [Function.update_eq_self]
    exact h
  unfold World.step
  cases op with
  | socket poll now answer shutdown =>
    obtain ⟨hmet, hwritten⟩ := hop
    dsimp only [Program.step] at hwritten ⊢
    split
    · exact hstill
    · rename_i hrunning
      rw [if_neg hrunning] at hwritten
      exact h.socket hmet rfl rfl rfl hwritten
  | main poll shutdown => exact h.main hop
  | network poll =>
    dsimp only [Program.step]
    split
    · exact hstill
    · exact h.network hne hop _

/-- **The bytes arrive**: the two programs of `lab7`, with any interleaving of their six threads,
any answers of the two kernels, and an Internet that delivers the frames of the two routers in any
order, any number of times, to either of them or not at all, among frames of others: these do not
pretend to be from one of the two hosts to the other one, and open no connection to the server while
it listens (`Content.Foreign`). What one of them has shown is the beginning of what was typed at the
other one. -/
theorem run_shows (setting : Side → Setting) (ops : List (Side × Op))
    (hops : Guarded step (Permits (address setting)) (new setting) ops)
    (hsmall : ∀ x, (exec step (new setting) ops x).copy.state.typed.length < 2 ^ 31 - 2)
    (x : Side) :
    (exec step (new setting) ops x).copy.state.shown <+:
      (exec step (new setting) ops x.other).copy.state.typed := by
  have hinv := hops.invariant
    (I := Inv (address setting) (.new (fun _ => {}) (randoms setting)))
    (fun _ _ h hop => h.step (address_ne setting) hop) (new_inv setting)
  generalize exec step (new setting) ops = w at hinv hsmall ⊢
  have hsent : ∀ y, (w y).copy.state.sent <+: (w y).copy.state.typed := by
    intro y
    obtain ⟨C, hout, -⟩ := (hinv.copies y).lanes
    exact ⟨_, hout.conserved.symm⟩
  have hshown : ∀ y, (w y).copy.state.shown <+: (w y).copy.state.received := by
    intro y
    obtain ⟨C, -, hin⟩ := (hinv.copies y).lanes
    exact ⟨_, hin.conserved.symm⟩
  have hwritten : ∀ y, (w y).socket.socket.fromOwner.length < 2 ^ 31 - 2 := fun y =>
    Nat.lt_of_le_of_lt ((hinv.written y).trans (hsent y)).length_le (hsmall y)
  have hdelivered := hinv.sockets.delivered hwritten x
  calc (w x).copy.state.shown
      <+: (w x).copy.state.received := hshown x
    _ <+: (w x).socket.socket.toOwner := hinv.read x
    _ <+: (w x).socket.socket.toOwner ++ (w x).socket.socket.tcp.inboundStream.contents :=
      List.prefix_append _ _
    _ <+: (w x.other).socket.socket.fromOwner := hdelivered
    _ <+: (w x.other).copy.state.sent := hinv.written x.other
    _ <+: (w x.other).copy.state.typed := hsent x.other

/-! ## A byte through all layers -/

/-- What happens at one of the programs in a session; packets are told by their numbers. -/
inductive Cue where
  /-- The network thread reads a packet of its host. -/
  | fromHost (i : ℕ)
  /-- It reads a packet that `y` has sent to the Internet. -/
  | fromInternet (y : Side) (i : ℕ)
  | toHost
  /-- It sends a packet of this size. -/
  | toInternet (size : ℕ)
  /-- The socket reads a packet of its router. -/
  | readDatagram (i : ℕ)
  | writeDatagrams
  | readPipe (data : List UInt8)
  | writePipe (n : ℕ)
  /-- A round of `_tcp_loop` in which nothing is ready. -/
  | nothing
  | readInput (data : List UInt8)
  | writeSocket (n : ℕ)
  | readSocket (data : List UInt8)
  | writeOutput (n : ℕ)

/-- The answer to a read of a packet. -/
def fetch (packets : List (List UInt8)) (i : ℕ) : Except Exn (List UInt8) :=
  match packets[i]? with
  | some bytes => .ok bytes
  | none => .error (.runtimeError "read: Resource temporarily unavailable")

theorem mem_of_fetch {packets : List (List UInt8)} {i : ℕ} {bytes : List UInt8}
    (h : fetch packets i = .ok bytes) : bytes ∈ packets := by
  unfold fetch at h
  split at h
  · rename_i hi
    cases h
    exact List.mem_of_getElem? hi
  · cases h

/-- No packet comes. -/
def silence : SocketAnswers PacketAnswer where
  datagram := { read := fetch [] 0 }
  datagrams _ := { read := fetch [] 0 }

/-- A round of `_tcp_loop` in which the rule after `before` others is served. -/
def socketRound (before : ℕ) (revents : Revents) (answers : SocketAnswers PacketAnswer) : Op :=
  .socket (.ready (List.replicate before (({} : Revents), silence) ++ [(revents, answers)])) 0
    silence.datagram (.ok ())

def networkRound (before : ℕ) (revents : Revents) (answers : NetworkAnswers) : Op :=
  .network (.ready (List.replicate before
    (({} : Revents), ({ read := fetch [] 0 } : NetworkAnswers)) ++ [(revents, answers)]))

def mainRound (before : ℕ) (revents : Revents) (answers : CopyAnswers) : Op :=
  .main (.ready (List.replicate before (({} : Revents), ({} : CopyAnswers)) ++
    [(revents, answers)]))
    (.ok ())

def Cue.op (w : World) (x : Side) : Cue → Op
  | .fromHost i =>
    networkRound 0 { pollin := true } { read := fetch (w.adapter x).tap.packets i }
  | .toHost => networkRound 1 { pollout := true } { read := fetch [] 0 }
  | .toInternet size =>
    networkRound 2 { pollout := true } { read := fetch [] 0, sendmsg := .ok size }
  | .fromInternet y i => networkRound 3 { pollin := true }
    { read := fetch (Line.internet.packets (w y).network.locals) i }
  | .readDatagram i => socketRound 0 { pollin := true } { silence with
    datagram := { read := fetch (Line.host.packets (w x).network.locals) i } }
  | .readPipe data => socketRound 1 { pollin := true } { silence with read := .ok data }
  | .writePipe n => socketRound 2 { pollout := true } { silence with writev := fun _ => .ok n }
  | .writeDatagrams => socketRound 3 { pollout := true } silence
  | .nothing => socketRound 0 {} silence
  | .readInput data => mainRound 0 { pollin := true } { read := .ok data }
  | .writeSocket n => mainRound 1 { pollout := true } { writev := fun _ => .ok n }
  | .readSocket data => mainRound 2 { pollin := true } { read := .ok data }
  | .writeOutput n => mainRound 3 { pollout := true } { writev := fun _ => .ok n }

/-- What comes out of the socket pair of `x` went into it. -/
def Piped (w : World) (x : Side) : Op → Bool
  | .socket poll now answer shutdown => decide
    (((w x).step (.socket poll now answer shutdown)).socket.socket.fromOwner <+:
      (w x).copy.state.sent)
  | .main poll shutdown => decide
    (((w x).step (.main poll shutdown)).copy.state.received <+: (w x).socket.socket.toOwner)
  | .network _ => true

/-- The steps of a session. -/
def play (w : World) : List (Side × Cue) → List (Side × Op)
  | [] => []
  | (x, cue) :: cues => (x, cue.op w x) :: play (w.step (x, cue.op w x)) cues

/-- Every step of the session is `Piped`. -/
def plays (w : World) : List (Side × Cue) → Bool
  | [] => true
  | (x, cue) :: cues => Piped w x (cue.op w x) && plays (w.step (x, cue.op w x)) cues

theorem permits_socketRound (before : ℕ) (revents : Revents) {answers : SocketAnswers PacketAnswer}
    (hpiped : Piped w x (socketRound before revents answers) = true)
    (hdatagram : ∀ bytes, answers.datagram.read = .ok bytes →
      bytes ∈ Line.host.packets (w x).network.locals)
    (hdatagrams : answers.datagrams = silence.datagrams) :
    Permits addr w (x, socketRound before revents answers) := by
  have hsilent : ∀ bytes, silence.datagram.read = .ok bytes →
      bytes ∈ Line.host.packets (w x).network.locals := fun bytes hread => by cases hread
  refine ⟨Op.met_round before revents 0 ⟨hsilent, fun _ => hsilent, fun _ _ => trivial⟩
    ⟨hdatagram, fun n => ?_, fun _ _ => trivial⟩ fun _ => trivial, of_decide_eq_true hpiped⟩
  rw [hdatagrams]
  exact hsilent

theorem permits_networkRound (before : ℕ) (revents : Revents) {answers : NetworkAnswers}
    (h : Receives addr w x answers) : Permits addr w (x, networkRound before revents answers) := by
  intro p hp
  refine ⟨?_, fun _ => trivial⟩
  rcases List.mem_append.1 hp with hp | hp
  · rw [List.eq_of_mem_replicate hp]
    intro bytes hread
    cases hread
  · rw [List.mem_singleton.1 hp]
    exact h

theorem permits_mainRound (before : ℕ) (revents : Revents) {answers : CopyAnswers}
    (hpiped : Piped w x (mainRound before revents answers) = true) :
    Permits addr w (x, mainRound before revents answers) := by
  have hread : ((w x).step (mainRound before revents answers)).copy.state.received <+:
    (w x).socket.socket.toOwner := of_decide_eq_true hpiped
  exact hread

/-- **A cue** is permitted, if only the socket pair gives out what went into it. -/
theorem permits_cue {cue : Cue} (h : Piped w x (cue.op w x) = true) :
    Permits addr w (x, cue.op w x) := by
  have hsilent : ∀ (P : List UInt8 → Prop) bytes, fetch [] 0 = .ok bytes → P bytes :=
    fun P bytes hread => by cases hread
  cases cue with
  | fromHost i => exact permits_networkRound _ _ fun bytes hread => .inl (mem_of_fetch hread)
  | fromInternet y i =>
    exact permits_networkRound _ _ fun bytes hread => .inr (.inl ⟨y, mem_of_fetch hread⟩)
  | toHost | toInternet => exact permits_networkRound _ _ (hsilent _)
  | readDatagram i => exact permits_socketRound _ _ h (fun bytes hread => mem_of_fetch hread) rfl
  | writeDatagrams | readPipe | writePipe | nothing =>
    exact permits_socketRound _ _ h (hsilent _) rfl
  | readInput | writeSocket | readSocket | writeOutput => exact permits_mainRound _ _ h

theorem guarded_play {cues : List (Side × Cue)} (h : plays w cues = true) :
    Guarded step (Permits addr) w (play w cues) := by
  induction cues generalizing w with
  | nil => trivial
  | cons p cues ih =>
    obtain ⟨x, cue⟩ := p
    obtain ⟨hpiped, hrest⟩ := Bool.and_eq_true_iff.1 h
    exact ⟨permits_cue hpiped, ih hrest⟩

/-- The client connects to the server, through ARP on three links, and a byte that is typed at the
client is shown at the server. -/
def session : List (Side × Cue) :=
  -- the SYN waits until the host knows its router, and the router the other one
  [(.a, .writeDatagrams), (.a, .fromHost 0), (.a, .toHost), (.a, .readDatagram 0),
    (.a, .fromHost 1), (.a, .toInternet 42), (.b, .fromInternet .a 3), (.b, .toInternet 42),
    (.a, .fromInternet .b 3), (.a, .toInternet 54),
    -- and the other router the server
    (.b, .fromInternet .a 4), (.b, .toHost), (.b, .readDatagram 0), (.b, .fromHost 0),
    (.b, .toHost), (.b, .readDatagram 1),
    -- the server answers
    (.b, .writeDatagrams), (.b, .fromHost 1), (.b, .toInternet 54), (.a, .fromInternet .b 4),
    (.a, .toHost), (.a, .readDatagram 1), (.a, .nothing),
    -- the byte follows the acknowledgment
    (.a, .readInput [97]), (.a, .writeSocket 1), (.a, .readPipe [97]), (.a, .writeDatagrams),
    (.a, .fromHost 2), (.a, .fromHost 3), (.a, .toInternet 54), (.a, .toInternet 55),
    (.b, .fromInternet .a 5), (.b, .fromInternet .a 6), (.b, .toHost), (.b, .toHost),
    (.b, .readDatagram 2), (.b, .nothing), (.b, .readDatagram 3), (.b, .writePipe 1),
    (.b, .readSocket [97]), (.b, .writeOutput 1)]

/-- The settings of the two programs. -/
def settings : Side → Setting
  | .a => sample 1
  | .b => sample 2

theorem plays_session : plays (new settings) session = true := by decide +kernel

theorem shows_of_session :
    let w := exec step (new settings) (play (new settings) session)
    (w .b).copy.state.shown = [97] ∧
      (w .b).copy.state.shown <+: (w .a).copy.state.typed := by
  have hguarded : Guarded step (Permits (address settings)) (new settings)
      (play (new settings) session) := guarded_play plays_session
  have hsmall : ∀ x, (exec step (new settings) (play (new settings) session)
      x).copy.state.typed.length < 2 ^ 31 - 2 := by
    intro x
    cases x <;> decide +kernel
  have hshows := run_shows settings _ hguarded hsmall .b
  have hother : Side.b.other = .a := rfl
  rw [hother] at hshows
  exact ⟨by decide +kernel, hshows⟩

end World

end Lab7

end Sponge
