import Sponge.Apps.BidirectionalStreamCopy
import Sponge.FdAdapter
import Sponge.Router
import Sponge.TunTapAdapter

/-!
# A host behind a router (`apps/lab7.cc`)

`program_body` has three threads: the main thread opens a socket and copies between it and the
standard streams, the socket has its own (`TCPSpongeSocket`), and the network thread moves frames
between the socket's adapter, a router and an Internet that is a UDP socket. A `Program` is where
the three of them are.

* The two ends of a socket pair are two descriptors; what one end wrote comes to the other one
  in the kernel's answers.
* `front()` of an empty queue is undefined: here the callback throws, and it is never called then.
* The output for debugging is left out.
-/

namespace Sponge

/-- Human-readable string. -/
def Address.toString (a : Address) : String :=
  let octet (shift : UInt32) : String := ToString.toString (a.ip >>> shift &&& 0xff)
  octet 24 ++ "." ++ octet 16 ++ "." ++ octet 8 ++ "." ++ octet 0 ++ ":" ++ ToString.toString a.port

namespace Lab7

open TCPSpongeSocket

/-- A random local Ethernet address. -/
def randomHostEthernetAddress (rd : EthernetAddress) : EthernetAddress :=
  rd.set 0 ((rd[0] ||| 0x02) &&& 0xfe)

def randomRouterEthernetAddress (rd : EthernetAddress) : EthernetAddress :=
  ((rd.set 0 0x02).set 1 0).set 2 0

/-! ## The socket -/

/-- `TCPSocketLab7`, before its connection is initialized. -/
structure TCPSocketLab7 where
  adapter : TCPOverIPv4OverEthernetAdapter
  localAddress : Address

namespace TCPSocketLab7

def new (rd : EthernetAddress) (ipAddress nextHop : Address) : TCPSocketLab7 where
  adapter := networkInterfaceAdapter (randomHostEthernetAddress rd) ipAddress nextHop
  localAddress := ipAddress

/-- `connect`, from a random port. -/
def connect (sock : TCPSocketLab7) (address : Address) (port : UInt16) (random : UInt32)
    (now : Nat) :
    Process TCPOverIPv4OverEthernetAdapter PacketAnswer :=
  TCPSpongeSocket.connect sock.adapter {}
    { source := { sock.localAddress with port := port }, destination := address } random now

def bind (sock : TCPSocketLab7) (address : Address) : Except Exn TCPSocketLab7 :=
  if address.ip ≠ sock.localAddress.ip then
    .error (.runtimeError ("Cannot bind to " ++ address.toString))
  else .ok { sock with localAddress := { sock.localAddress with port := address.port } }

def listenAndAccept (sock : TCPSocketLab7) (random : UInt32) (now : Nat) :
    Process TCPOverIPv4OverEthernetAdapter PacketAnswer :=
  TCPSpongeSocket.listenAndAccept sock.adapter {} { source := sock.localAddress } random now

end TCPSocketLab7

/-! ## The network thread -/

/-- The variables of `program_body` that the network thread works on. -/
structure Locals where
  internetSocket : UDPSocket
  bounceAddress : Address
  router : Router
  hostSide : Nat
  internetSide : Nat
  /-- `sock.adapter().frame_fd()`. -/
  frameFd : PacketFD := {}

/-- The answers of the kernel to the system call of a callback. -/
structure NetworkAnswers where
  read : Except Exn (List UInt8) := .ok []
  write : Except Exn Unit := .ok ()
  sendmsg : Except Exn Nat := .ok 0

namespace Locals

/-- The rules for incoming frames: what was read goes to the interface `side`, and is routed. -/
def receive (side : Nat) : Locals × Except Exn (List UInt8) → Locals × Except Exn Unit
  | (s, .error e) => (s, .error e)
  | (s, .ok bytes) =>
    let (frame, result) := EthernetFrame.new.parse (Buffer.ofString bytes)
    if result ≠ .noError then (s, .ok ())
    else
      match s.router.call (.recvFrame side frame) with
      | (router, .error e) => ({ s with router := router }, .error e)
      | (router, .ok ()) => ({ s with router := router.route.1 }, router.route.2)

/-- The rules for outgoing frames: the first frame of the interface `side` is written, and popped.
-/
def forward (side : Nat) (write : BufferList → Locals × Except Exn Unit) (s : Locals) :
    Locals × Except Exn Unit :=
  match s.router.interface side with
  | .error e => (s, .error e)
  | .ok interface =>
    match interface.framesOut with
    | [] => (s, .error (.runtimeError "front() of an empty queue"))
    | frame :: _ =>
      match write frame.serialize with
      | (s, .error e) => (s, .error e)
      | (s, .ok ()) => ({ s with router := s.router.step (.popFrame side) }, .ok ())

def readFrameFd (answers : NetworkAnswers) (s : Locals) : Locals × Except Exn (List UInt8) :=
  let (frameFd, result) := s.frameFd.read answers.read
  ({ s with frameFd := frameFd }, result)

/-- `internet_socket.read()`, which is that of a `FileDescriptor`. -/
def readInternet (answers : NetworkAnswers) (s : Locals) : Locals × Except Exn (List UInt8) :=
  let (fd, result) := s.internetSocket.fd.read (2 ^ 64 - 1) answers.read
  ({ s with internetSocket := { s.internetSocket with fd := fd } }, result)

def writeFrameFd (answers : NetworkAnswers) (s : Locals) (packet : BufferList) :
    Locals × Except Exn Unit :=
  let (frameFd, result) := s.frameFd.write packet answers.write
  ({ s with frameFd := frameFd }, result)

def sendInternet (answers : NetworkAnswers) (s : Locals) (packet : BufferList) :
    Locals × Except Exn Unit :=
  let (internetSocket, result) := s.internetSocket.sendto s.bounceAddress packet answers.sendmsg
  ({ s with internetSocket := internetSocket }, result)

/-- Frames from host to router. -/
def hostToRouter (answers : NetworkAnswers) (s : Locals) : Locals × Except Exn Unit :=
  receive s.hostSide (s.readFrameFd answers)

/-- Frames from router to host. -/
def routerToHost (answers : NetworkAnswers) (s : Locals) : Locals × Except Exn Unit :=
  forward s.hostSide (s.writeFrameFd answers) s

/-- Frames from router to Internet. -/
def routerToInternet (answers : NetworkAnswers) (s : Locals) : Locals × Except Exn Unit :=
  forward s.internetSide (s.sendInternet answers) s

/-- Frames from Internet to router. -/
def internetToRouter (answers : NetworkAnswers) (s : Locals) : Locals × Except Exn Unit :=
  receive s.internetSide (s.readInternet answers)

/-- `not router.interface(side).frames_out().empty()`. -/
def pending (side : Nat) (s : Locals) : Bool :=
  match s.router.interface side with
  | .error _ => false
  | .ok interface => !interface.framesOut.isEmpty

/-- The end of a round: 50 ms pass for both interfaces. -/
def tick (s : Locals) : Locals × Except Exn Unit :=
  match s.router.call (.tick s.hostSide 50) with
  | (router, .error e) => ({ s with router := router }, .error e)
  | (router, .ok ()) =>
    let (router, result) := router.call (.tick s.internetSide 50)
    ({ s with router := router }, result)

end Locals

/-- The four rules, in their order. -/
inductive Name where
  | hostToRouter | routerToHost | routerToInternet | internetToRouter
deriving DecidableEq, Repr

def rule : Name → Rule NetworkAnswers Locals
  | .hostToRouter =>
    { fd := fun s => s.frameFd.fd
      direction := .In
      callback := Locals.hostToRouter }
  | .routerToHost =>
    { fd := fun s => s.frameFd.fd
      direction := .Out
      callback := Locals.routerToHost
      interest := fun s => s.pending s.hostSide }
  | .routerToInternet =>
    { fd := fun s => s.internetSocket.fd
      direction := .Out
      callback := Locals.routerToInternet
      interest := fun s => s.pending s.internetSide }
  | .internetToRouter =>
    { fd := fun s => s.internetSocket.fd
      direction := .In
      callback := Locals.internetToRouter }

/-- The rules as the thread adds them. -/
def names : List Name := [.hostToRouter, .routerToHost, .routerToInternet, .internetToRouter]

def eventLoop : EventLoop NetworkAnswers Locals :=
  ((({} : EventLoop NetworkAnswers Locals).addRule (rule .hostToRouter)).addRule
    (rule .routerToHost)).addRule (rule .routerToInternet) |>.addRule (rule .internetToRouter)

/-- How far the network thread has come. -/
inductive Progress where
  | running
  | returned
  /-- It has caught an exception. -/
  | threw (e : Exn)
deriving DecidableEq, Repr

/-- The network thread. -/
structure NetworkThread where
  eventLoop : EventLoop NetworkAnswers Locals := Lab7.eventLoop
  locals : Locals
  progress : Progress := .running

/-- One round of its loop. -/
def NetworkThread.step (t : NetworkThread) (poll : Poll NetworkAnswers) (exitFlag : Bool) :
    NetworkThread :=
  if t.progress = .running then
    match t.eventLoop.waitNextEvent poll t.locals with
    | (eventLoop, s, .error e) => ⟨eventLoop, s, .threw e⟩
    | (eventLoop, s, .ok result) =>
      if result = .exit then ⟨eventLoop, s, .returned⟩
      else
        match s.tick with
        | (s, .error e) => ⟨eventLoop, s, .threw e⟩
        | (s, .ok ()) => ⟨eventLoop, s, if exitFlag then .returned else .running⟩
  else t

/-! ## The program -/

/-- Where the main thread is in `program_body`. -/
inductive Stage where
  /-- In `connect` or `listen_and_accept`. -/
  | opening
  /-- In `bidirectional_stream_copy`. -/
  | copying
  /-- In `wait_until_closed`, once it has shut the socket down. -/
  | closing
  /-- `exit_flag` is set. -/
  | exiting
  /-- An exception has left the thread of the socket: the program is terminated. -/
  | terminated
deriving DecidableEq, Repr

structure Program where
  stage : Stage := .opening
  socket : Process TCPOverIPv4OverEthernetAdapter PacketAnswer
  network : NetworkThread
  copy : StreamCopy.Loop := {}

/-- What happens: a round of `_tcp_loop`, a round of the main thread past it, or one of the network
thread. -/
inductive Op where
  | socket (poll : Poll (SocketAnswers PacketAnswer)) (now : Nat) (answer : PacketAnswer)
      (shutdown : Except Exn Unit)
  /-- `shutdown` is the answer to that of `wait_until_closed`. -/
  | main (poll : Poll CopyAnswers) (shutdown : Except Exn Unit)
  | network (poll : Poll NetworkAnswers)

/-- After a round of `_tcp_loop`, which the main thread runs at first. -/
def Stage.next : Stage → TCPSpongeSocket.Stage → Stage
  | .opening, .running => .copying
  | .opening, .threw _ => .exiting
  | .copying, .threw _ | .closing, .threw _ | .exiting, .threw _ => .terminated
  | stage, _ => stage

namespace Program

/-- A round of the main thread, once the socket is open. -/
def main (p : Program) (poll : Poll CopyAnswers) (shutdown : Except Exn Unit) : Program :=
  match p.stage with
  | .opening | .terminated => p
  | .copying =>
    let copy := p.copy.step poll
    { p with
      copy := copy
      stage :=
        match copy.progress, shutdown with
        | .running, _ => .copying
        | .returned, .ok () => .closing
        | .returned, .error _ | .threw _, _ => .exiting }
  | .closing => if p.socket.stage = .closed then { p with stage := .exiting } else p
  | .exiting =>
    -- the network thread is joined, and the socket destructed with its thread
    if p.network.progress ≠ .running ∧ p.socket.stage = .running then
      { p with socket := p.socket.step .abort }
    else p

def step (p : Program) : Op → Program
  | .socket poll now answer shutdown =>
    if p.stage = .terminated then p
    else
      let socket := p.socket.step (.round poll now answer shutdown)
      { p with socket := socket, stage := p.stage.next socket.stage }
  | .main poll shutdown => p.main poll shutdown
  | .network poll =>
    if p.stage = .terminated then p
    else { p with network := p.network.step poll (p.stage == .exiting) }

end Program

/-! ## The two programs -/

/-- What the random devices, the clock and the arguments give to a program. -/
structure Setting where
  hostEthernet : EthernetAddress
  hostSideEthernet : EthernetAddress
  internetSideEthernet : EthernetAddress
  /-- The address of the UDP socket. -/
  internetAddress : Address
  bounceAddress : Address
  port : UInt16
  random : UInt32
  now : Nat

/-- `internet_socket`, with three empty datagrams sent to the bouncer. -/
def internetSocket (setting : Setting) : UDPSocket :=
  let hello (s : UDPSocket) : UDPSocket :=
    (s.sendto setting.bounceAddress (BufferList.ofString []) (.ok 0)).1
  hello (hello (hello { address := setting.internetAddress }))

theorem eight_le : (8 : UInt8) ≤ 32 := by decide

theorem twelve_le : (12 : UInt8) ≤ 32 := by decide

theorem sixteen_le : (16 : UInt8) ≤ 32 := by decide

def clientLocals (setting : Setting) : Locals :=
  let (router, hostSide) := ({} : Router).addInterface
    (.new (randomRouterEthernetAddress setting.hostSideEthernet) (dotted 192 168 0 1))
  let (router, internetSide) := router.addInterface
    (.new (randomRouterEthernetAddress setting.internetSideEthernet) (dotted 10 0 0 192))
  let router := router.addRoute (dotted 192 168 0 0).ipv4Numeric 16 none hostSide sixteen_le
  let router := router.addRoute (dotted 10 0 0 0).ipv4Numeric 8 none internetSide eight_le
  let router := router.addRoute (dotted 172 16 0 0).ipv4Numeric 12 (some (dotted 10 0 0 172))
    internetSide twelve_le
  { internetSocket := internetSocket setting
    bounceAddress := setting.bounceAddress
    router := router
    hostSide := hostSide
    internetSide := internetSide }

def serverLocals (setting : Setting) : Locals :=
  let (router, hostSide) := ({} : Router).addInterface
    (.new (randomRouterEthernetAddress setting.hostSideEthernet) (dotted 172 16 0 1))
  let (router, internetSide) := router.addInterface
    (.new (randomRouterEthernetAddress setting.internetSideEthernet) (dotted 10 0 0 172))
  let router := router.addRoute (dotted 172 16 0 0).ipv4Numeric 12 none hostSide twelve_le
  let router := router.addRoute (dotted 10 0 0 0).ipv4Numeric 8 none internetSide eight_le
  let router := router.addRoute (dotted 192 168 0 0).ipv4Numeric 16 (some (dotted 10 0 0 192))
    internetSide sixteen_le
  { internetSocket := internetSocket setting
    bounceAddress := setting.bounceAddress
    router := router
    hostSide := hostSide
    internetSide := internetSide }

/-- The address that the server binds. -/
def serverAddress : Address := dotted 172 16 0 100 1234

def clientSocket (setting : Setting) : TCPSocketLab7 :=
  .new setting.hostEthernet (dotted 192 168 0 50) (dotted 192 168 0 1)

def serverSocket (setting : Setting) : TCPSocketLab7 :=
  .new setting.hostEthernet (dotted 172 16 0 100) (dotted 172 16 0 1)

theorem bind_serverSocket (setting : Setting) :
    ∃ sock, (serverSocket setting).bind serverAddress = .ok sock := ⟨_, rfl⟩

/-- `program_body`, up to the loops of its threads. -/
def programBody (isClient : Bool) (setting : Setting) : Program :=
  if isClient then
    { socket := (clientSocket setting).connect serverAddress setting.port setting.random setting.now
      network := { locals := clientLocals setting } }
  else
    { socket := (getOk ((serverSocket setting).bind serverAddress)
        (bind_serverSocket setting)).listenAndAccept setting.random setting.now
      network := { locals := serverLocals setting } }

end Lab7

end Sponge
