import Sponge.Apps.Lab7
import Sponge.Proof.EthernetAdapter
import Sponge.Proof.EventLoop
import Sponge.Proof.UdpAdapter

/-!
# The network thread

The thread has two lines, to the host and to the Internet, each with a rule that reads frames and
one that writes them (`Line`, `Reads`, `Writes`).

* `NetworkThread.Holds.step`: what comes out of the thread went into it.
* `NetworkThread.run_survives`: while no frame is forged, the thread throws only what the kernel
  makes it throw, and it returns only when it is told to, interrupted, or has read an empty datagram
  on both lines and has nothing to send.
-/

namespace Sponge

open Run

namespace Lab7

/-! ## The two lines -/

/-- The line to the host and the line to the Internet. -/
inductive Line where
  | host | internet
deriving DecidableEq, Repr

namespace Line

/-- The number of its interface. -/
def side : Line → Locals → ℕ
  | .host, s => s.hostSide
  | .internet, s => s.internetSide

def fd : Line → Locals → FileDescriptor
  | .host, s => s.frameFd.fd
  | .internet, s => s.internetSocket.fd

/-- What was written. -/
def packets : Line → Locals → List (List UInt8)
  | .host, s => s.frameFd.packets
  | .internet, s => s.internetSocket.sent.map UDPDatagram.payload

def setFd : Line → Locals → FileDescriptor → Locals
  | .host, s, fd => { s with frameFd := { s.frameFd with fd := fd } }
  | .internet, s, fd => { s with internetSocket := { s.internetSocket with fd := fd } }

/-- A packet is written. -/
def put : Line → Locals → List UInt8 → Locals
  | .host, s, packet =>
    { s with frameFd := ⟨s.frameFd.fd.registerWrite, s.frameFd.packets ++ [packet]⟩ }
  | .internet, s, packet =>
    { s with internetSocket := { s.internetSocket with
        fd := s.internetSocket.fd.registerWrite
        sent := s.internetSocket.sent ++ [⟨s.internetSocket.address, s.bounceAddress, packet⟩] } }

def reader : Line → Name
  | .host => .hostToRouter
  | .internet => .internetToRouter

def writer : Line → Name
  | .host => .routerToHost
  | .internet => .routerToInternet

end Line

theorem exists_line (k : Name) : ∃ l : Line, k = l.reader ∨ k = l.writer := by
  cases k with
  | hostToRouter => exact ⟨.host, .inl rfl⟩
  | routerToHost => exact ⟨.host, .inr rfl⟩
  | routerToInternet => exact ⟨.internet, .inr rfl⟩
  | internetToRouter => exact ⟨.internet, .inl rfl⟩

section

variable (l : Line) (s : Locals)

@[simp] theorem fd_reader : (rule l.reader).fd s = l.fd s := by cases l <;> rfl

@[simp] theorem fd_writer : (rule l.writer).fd s = l.fd s := by cases l <;> rfl

@[simp] theorem direction_reader : (rule l.reader).direction = .In := by cases l <;> rfl

@[simp] theorem direction_writer : (rule l.writer).direction = .Out := by cases l <;> rfl

@[simp] theorem interest_reader : (rule l.reader).interest s = true := by cases l <;> rfl

@[simp] theorem interest_writer : (rule l.writer).interest s = s.pending (l.side s) := by
  cases l <;> rfl

@[simp] theorem cancel_rule (k : Name) : (rule k).cancel s = (s, .ok ()) := by cases k <;> rfl

end

/-! ## What the callbacks do -/

/-- What becomes of a packet that was read for the interface `side`. -/
inductive Routed (side : ℕ) (r : Router) (bytes : List UInt8) : Router × Except Exn Unit → Prop
  | ignored : Routed side r bytes (r, .ok ())
  | refused {frame : EthernetFrame} {r' : Router} {e : Exn}
      (hparse : EthernetFrame.new.parse (Buffer.ofString bytes) = (frame, .noError))
      (hcall : r.call (.recvFrame side frame) = (r', .error e)) :
      Routed side r bytes (r', .error e)
  | routed {frame : EthernetFrame} {r' : Router}
      (hparse : EthernetFrame.new.parse (Buffer.ofString bytes) = (frame, .noError))
      (hcall : r.call (.recvFrame side frame) = (r', .ok ())) :
      Routed side r bytes (r'.route.1, r'.route.2)

/-- What the rule for incoming frames does. -/
inductive Reads (l : Line) (answers : NetworkAnswers) (s : Locals) :
    Locals × Except Exn Unit → Prop
  | threw {e : Exn} (he : answers.read = .error e ∨ FileDescriptor.Fault e) :
      Reads l answers s (s, .error e)
  | took {bytes : List UInt8} {fd : FileDescriptor} {r : Router} {result : Except Exn Unit}
      (hread : answers.read = .ok bytes) (hcount : fd.readCount = (l.fd s).readCount + 1)
      (huses : TCPSpongeSocket.Uses (l.fd s) fd)
      (hrouted : Routed (l.side s) s.router bytes (r, result)) :
      Reads l answers s ({ l.setFd s fd with router := r }, result)

/-- What the rule for outgoing frames does. -/
inductive Writes (l : Line) (answers : NetworkAnswers) (s : Locals) :
    Locals × Except Exn Unit → Prop
  | absent {e : Exn} (habsent : s.router.interfaces[l.side s]? = none) :
      Writes l answers s (s, .error e)
  | empty {ni : AsyncNetworkInterface} {e : Exn}
      (hni : s.router.interfaces[l.side s]? = some ni) (hempty : ni.framesOut = []) :
      Writes l answers s (s, .error e)
  | refused {e : Exn} (he : answers.write = .error e ∨ answers.sendmsg = .error e ∨
        TCPOverUDPSocketAdapter.Oversize e) : Writes l answers s (s, .error e)
  | sent {ni : AsyncNetworkInterface} {frame : EthernetFrame} {rest : List EthernetFrame}
      (hni : s.router.interfaces[l.side s]? = some ni) (hframes : ni.framesOut = frame :: rest) :
      Writes l answers s
        ({ l.put s frame.serialize.concatenate with
            router := s.router.step (.popFrame (l.side s)) }, .ok ())

theorem receive_routed (side : ℕ) (s : Locals) (bytes : List UInt8) :
    ∃ r result, Locals.receive side (s, .ok bytes) = ({ s with router := r }, result) ∧
      Routed side s.router bytes (r, result) := by
  unfold Locals.receive
  dsimp only
  generalize hparse : EthernetFrame.new.parse (Buffer.ofString bytes) = parsed
  obtain ⟨frame, result⟩ := parsed
  dsimp only
  split
  · exact ⟨_, _, rfl, .ignored⟩
  · rename_i hresult
    obtain rfl : result = .noError := not_not.1 hresult
    generalize hcall : s.router.call (.recvFrame side frame) = called
    obtain ⟨r, _ | _⟩ := called
    · exact ⟨_, _, rfl, .refused hparse hcall⟩
    · exact ⟨_, _, rfl, .routed hparse hcall⟩

theorem reads (l : Line) (answers : NetworkAnswers) (s : Locals) :
    Reads l answers s ((rule l.reader).callback answers s) := by
  cases l with
  | host =>
    show Reads .host answers s (Locals.receive s.hostSide (s.readFrameFd answers))
    unfold Locals.readFrameFd
    rcases s.frameFd.read_cases answers.read with
      ⟨e, he, hread⟩ | ⟨bytes, fd, hok, hcount, huses, hread⟩
    · rw [hread]
      exact .threw he
    · rw [hread]
      dsimp only
      obtain ⟨r, result, heq, hrouted⟩ := receive_routed s.hostSide (Line.host.setFd s fd) bytes
      have heq : Locals.receive s.hostSide
          ({ s with frameFd := { s.frameFd with fd := fd } }, .ok bytes) =
          ({ Line.host.setFd s fd with router := r }, result) := heq
      rw [heq]
      exact .took hok hcount huses hrouted
  | internet =>
    show Reads .internet answers s (Locals.receive s.internetSide (s.readInternet answers))
    unfold Locals.readInternet
    rcases s.internetSocket.fd.read_cases (2 ^ 64 - 1) answers.read with
      ⟨e, he, hread⟩ | ⟨bytes, hok, -, hread⟩
    · rw [hread]
      exact .threw he
    · rw [hread]
      dsimp only
      generalize hfd : ({ s.internetSocket.fd with
          eof := s.internetSocket.fd.eof || decide (2 ^ 64 - 1 > 0 ∧ bytes.length = 0)
          readCount := s.internetSocket.fd.readCount + 1 } : FileDescriptor) = fd
      obtain ⟨r, result, heq, hrouted⟩ :=
        receive_routed s.internetSide (Line.internet.setFd s fd) bytes
      have heq : Locals.receive s.internetSide
          ({ s with internetSocket := { s.internetSocket with fd := fd } }, .ok bytes) =
          ({ Line.internet.setFd s fd with router := r }, result) := heq
      rw [heq]
      have hcount : fd.readCount = s.internetSocket.fd.readCount + 1 := by rw [← hfd]
      have huses : TCPSpongeSocket.Uses s.internetSocket.fd fd := by
        rw [← hfd]
        exact ⟨rfl, fun heof => by simp [heof]⟩
      exact .took hok hcount huses hrouted

/-- `forward`, for a line that writes a packet or throws. -/
theorem forward_writes {l : Line} {answers : NetworkAnswers} {s : Locals}
    {f : BufferList → Locals × Except Exn Unit}
    (hwrite : ∀ packet, (∃ e, (answers.write = .error e ∨ answers.sendmsg = .error e ∨
        TCPOverUDPSocketAdapter.Oversize e) ∧ f packet = (s, .error e)) ∨
      f packet = (l.put s packet.concatenate, .ok ())) :
    Writes l answers s (Locals.forward (l.side s) f s) := by
  unfold Locals.forward Router.interface
  cases hni : s.router.interfaces[l.side s]? with
  | none => exact .absent hni
  | some ni =>
    dsimp only
    cases hframes : ni.framesOut with
    | nil => exact .empty hni hframes
    | cons frame rest =>
      dsimp only
      rcases hwrite frame.serialize with ⟨e, he, hwrite⟩ | hwrite
      · rw [hwrite]
        exact .refused he
      · rw [hwrite]
        have hput : (l.put s frame.serialize.concatenate).router = s.router := by cases l <;> rfl
        dsimp only
        rw [hput]
        exact .sent hni hframes

theorem writes (l : Line) (answers : NetworkAnswers) (s : Locals) :
    Writes l answers s ((rule l.writer).callback answers s) := by
  cases l with
  | host =>
    refine forward_writes (l := .host) (f := s.writeFrameFd answers) fun packet => ?_
    unfold Locals.writeFrameFd
    rcases s.frameFd.write_cases packet answers.write with ⟨e, he, hwrite⟩ | hwrite
    · rw [hwrite]
      exact .inl ⟨e, .inl he, rfl⟩
    · rw [hwrite]
      exact .inr rfl
  | internet =>
    refine forward_writes (l := .internet) (f := s.sendInternet answers) fun packet => ?_
    unfold Locals.sendInternet
    rcases TCPOverUDPSocketAdapter.sendto_cases s.internetSocket s.bounceAddress packet
      answers.sendmsg with ⟨e, he, hsend⟩ | hsend
    · rw [hsend]
      exact .inl ⟨e, .inr (he.imp_right .inr), rfl⟩
    · rw [hsend]
      exact .inr rfl

section

variable (l l' : Line) (s : Locals) (fd : FileDescriptor) (r : Router) (packet : List UInt8)

@[simp] theorem side_took : l'.side { l.setFd s fd with router := r } = l'.side s := by
  cases l <;> cases l' <;> rfl

@[simp] theorem packets_took : l'.packets { l.setFd s fd with router := r } = l'.packets s := by
  cases l <;> cases l' <;> rfl

@[simp] theorem fd_took :
    l'.fd { l.setFd s fd with router := r } = if l' = l then fd else l'.fd s := by
  cases l <;> cases l' <;> rfl

@[simp] theorem side_sent : l'.side { l.put s packet with router := r } = l'.side s := by
  cases l <;> cases l' <;> rfl

@[simp] theorem packets_sent : l'.packets { l.put s packet with router := r } =
    if l' = l then l'.packets s ++ [packet] else l'.packets s := by
  cases l <;> cases l' <;> simp [Line.packets, Line.put]

@[simp] theorem fd_sent : l'.fd { l.put s packet with router := r } =
    if l' = l then (l'.fd s).registerWrite else l'.fd s := by
  cases l <;> cases l' <;> rfl

end

/-- **A callback that returns** has used its descriptor. -/
theorem callback_serves (k : Name) (answers : NetworkAnswers) (s : Locals)
    (hok : ((rule k).callback answers s).2 = .ok ()) :
    (rule k).serviceCount s ≠ (rule k).serviceCount ((rule k).callback answers s).1 := by
  obtain ⟨l, rfl | rfl⟩ := exists_line k
  · have hreads := reads l answers s
    generalize (rule l.reader).callback answers s = out at hreads hok
    cases hreads with
    | threw => cases hok
    | took _ hcount => simp [Rule.serviceCount, hcount]
  · have hwrites := writes l answers s
    generalize (rule l.writer).callback answers s = out at hwrites hok
    cases hwrites with
    | absent | empty | refused => cases hok
    | sent => simp [Rule.serviceCount, FileDescriptor.registerWrite]

/-! ## What goes through the thread -/

/-- What was read bears contents in `P`. -/
def NetworkAnswers.Bears (P : Content → Prop) (answers : NetworkAnswers) : Prop :=
  ∀ bytes, answers.read = .ok bytes → EthernetFrame.BytesBear P bytes

/-- Everything in the router, and everything that was written, has a content in `P`. -/
structure Locals.Holds (P : Content → Prop) (s : Locals) : Prop where
  router : s.router.Holds P
  packets : ∀ l : Line, ∀ bytes ∈ l.packets s, EthernetFrame.BytesBear P bytes

variable {P P' : Content → Prop} {s : Locals} {answers : NetworkAnswers}

theorem Locals.Holds.mono (h : s.Holds P) (himp : ∀ c, P c → P' c) : s.Holds P' :=
  ⟨h.router.mono himp, fun l bytes hbytes => (h.packets l bytes hbytes).mono himp⟩

theorem Routed.holds {side : ℕ} {r : Router} {bytes : List UInt8} {out : Router × Except Exn Unit}
    (h : Routed side r bytes out) (hr : r.Holds P) (hbytes : EthernetFrame.BytesBear P bytes) :
    out.1.Holds P := by
  cases h with
  | ignored => exact hr
  | refused hparse hcall =>
    have hrecv := hr.recvFrame (hbytes _ hparse) side
    rw [hcall] at hrecv
    exact hrecv
  | routed hparse hcall =>
    have hrecv := hr.recvFrame (hbytes _ hparse) side
    rw [hcall] at hrecv
    exact hrecv.route

/-- **Every callback** writes only what the router holds. -/
theorem Locals.Holds.callback (h : s.Holds P) (hA : answers.Bears P) (k : Name) :
    ((rule k).callback answers s).1.Holds P := by
  obtain ⟨l, rfl | rfl⟩ := exists_line k
  · have hreads := reads l answers s
    generalize (rule l.reader).callback answers s = out at hreads
    cases hreads with
    | threw => exact h
    | took hread _ _ hrouted =>
      refine ⟨hrouted.holds h.router (hA _ hread), fun l' bytes hbytes => ?_⟩
      rw [packets_took] at hbytes
      exact h.packets l' bytes hbytes
  · have hwrites := writes l answers s
    generalize (rule l.writer).callback answers s = out at hwrites
    cases hwrites with
    | absent | empty | refused => exact h
    | @sent ni frame rest hni hframes =>
      refine ⟨h.router.call (by simp) (by simp), fun l' bytes hbytes => ?_⟩
      rw [packets_sent] at hbytes
      split at hbytes
      · rcases List.mem_append.1 hbytes with hbytes | hbytes
        · exact h.packets l' bytes hbytes
        · rw [List.mem_singleton.1 hbytes]
          have hframe : frame ∈ ni.framesOut := by
            rw [hframes]
            exact List.mem_cons_self
          exact ((h.router.interfaces _ ni hni).frames frame hframe).serialize
      · exact h.packets l' bytes hbytes

theorem Locals.Holds.setRouter (h : s.Holds P) {r : Router} (hr : r.Holds P) :
    Locals.Holds P { s with router := r } := by
  refine ⟨hr, fun l => ?_⟩
  cases l with
  | host => exact h.packets .host
  | internet => exact h.packets .internet

theorem Locals.Holds.tick (h : s.Holds P) : s.tick.1.Holds P := by
  unfold Locals.tick
  have htick : ∀ {r : Router} (n : ℕ), r.Holds P → (r.call (.tick n 50)).1.Holds P := by
    intro r n hr
    exact hr.call (by simp) fun _ _ heq => by cases heq; decide
  have hhost := htick s.hostSide h.router
  generalize s.router.call (.tick s.hostSide 50) = ticked at hhost
  obtain ⟨r, _ | _⟩ := ticked
  · exact h.setRouter hhost
  · exact h.setRouter (htick s.internetSide hhost)

namespace NetworkThread

/-- The invariant of the thread. -/
structure Holds (P : Content → Prop) (t : NetworkThread) : Prop where
  rules : ∃ keys : List Name, keys.Sublist names ∧ t.eventLoop = ⟨keys.map rule⟩
  locals : t.locals.Holds P

variable {t : NetworkThread}

theorem Holds.mono (h : t.Holds P) (himp : ∀ c, P c → P' c) : t.Holds P' :=
  ⟨h.rules, h.locals.mono himp⟩

/-- **One round**: what comes out went in. -/
theorem Holds.step (h : t.Holds P) {poll : Poll NetworkAnswers}
    (hA : EventLoop.Answers (NetworkAnswers.Bears P) True poll) (exitFlag : Bool) :
    (t.step poll exitFlag).Holds P := by
  unfold NetworkThread.step
  split
  · obtain ⟨loop, s, progress⟩ := t
    obtain ⟨⟨keys, hsub, hloop⟩, hs⟩ := h
    have hloop : loop = ⟨keys.map rule⟩ := hloop
    subst hloop
    obtain ⟨keys', heq, hw⟩ := EventLoop.waitNextEvent_waits rule keys hA s
    have hI := hw.invariant (fun k i s hA (hs : s.Holds P) => hs.callback hA k)
      (fun k s hs => by rw [cancel_rule]; exact hs) hs
    dsimp only
    generalize EventLoop.waitNextEvent ⟨keys.map rule⟩ poll s = out at heq hw hI
    obtain ⟨loop', s', r⟩ := out
    have hrules := hw.sublist.trans hsub
    cases r with
    | error e => exact ⟨⟨keys', hrules, heq⟩, hI⟩
    | ok result =>
      dsimp only
      split
      · exact ⟨⟨keys', hrules, heq⟩, hI⟩
      · have htick := Locals.Holds.tick hI
        dsimp only at htick
        generalize s'.tick = ticked at htick
        obtain ⟨s'', _ | _⟩ := ticked
        · exact ⟨⟨keys', hrules, heq⟩, htick⟩
        · exact ⟨⟨keys', hrules, heq⟩, htick⟩
  · exact h

end NetworkThread

/-! ## Frames to send -/

end Lab7

namespace NetworkInterface

/-- Frames leave only by `frames_out().pop()`. -/
theorem framesOut_of_call {ni ni' : NetworkInterface} {op : IfaceOp} {frames : List EthernetFrame}
    (hop : op ≠ .popFrame) (hc : Call ni op ni' frames) : ni.framesOut <+: ni'.framesOut := by
  cases hc with
  | wait | throw | ignore => exact List.prefix_rfl
  | ask | send | learn | tick => exact List.prefix_append _ _
  | pop => exact absurd rfl hop

end NetworkInterface

namespace Router

variable {r r₁ r₂ r₃ : Router}

/-- **What `route` does** is to send datagrams and to change queues, one after the other. -/
theorem route_induction {R : Router → Router → Prop} (hrefl : ∀ r, R r r)
    (htrans : ∀ {r₁ r₂ r₃}, R r₁ r₂ → R r₂ r₃ → R r₁ r₃)
    (hsend : ∀ (r : Router) (n : ℕ) (ni : AsyncNetworkInterface) (dgram : InternetDatagram)
      (nextHop : Address), r.interfaces[n]? = some ni →
      R r (r.setInterface n (ni.setBase (ni.sendDatagram dgram nextHop).1)))
    (hqueue : ∀ (r : Router) (i : ℕ) (queue : List InternetDatagram), R r (r.setQueue i queue))
    (r : Router) : R r r.route.1 := by
  have hone : ∀ (r : Router) (dgram : InternetDatagram), R r (r.routeOneDatagram dgram).1 := by
    intro r dgram
    unfold Router.routeOneDatagram
    dsimp only
    split
    · exact hrefl r
    · rename_i entry _
      split
      · cases hni : r.interfaces[entry.interfaceNum]? with
        | none =>
          simp only [interface, hni]
          exact hrefl r
        | some ni =>
          simp only [interface, hni]
          exact hsend r _ ni _ _ hni
      · exact hrefl r
  have hloop : ∀ (i : ℕ) (queue : List InternetDatagram) (r : Router),
      R r (routeQueue i queue r).1 := by
    intro i queue
    induction queue with
    | nil => exact hrefl
    | cons dgram queue ih =>
      intro r
      have hr := hone r dgram
      rw [routeQueue]
      generalize r.routeOneDatagram dgram = routed at hr
      obtain ⟨r', dgram', _ | _⟩ := routed
      · exact htrans hr (hqueue r' i _)
      · exact htrans hr (htrans (hqueue r' i queue) (ih _))
  have hloops : ∀ (is : List ℕ) (r : Router), R r (routeInterfaces is r).1 := by
    intro is
    induction is with
    | nil => exact hrefl
    | cons i is ih =>
      intro r
      rw [routeInterfaces]
      cases hi : r.interfaces[i]? with
      | none => exact ih r
      | some ni =>
        have hr := hloop i ni.datagramsOut r
        dsimp only
        generalize routeQueue i ni.datagramsOut r = routed at hr
        obtain ⟨r', _ | _⟩ := routed
        · exact hr
        · exact htrans hr (ih r')
  exact hloops _ r

/-- The routes are the same, and no frame has left. -/
structure Adds (r r' : Router) : Prop where
  routes : r'.routeTable = r.routeTable
  length : r'.interfaces.length = r.interfaces.length
  frames : ∀ (n : ℕ) (ni : AsyncNetworkInterface), r.interfaces[n]? = some ni →
    ∃ ni' : AsyncNetworkInterface, r'.interfaces[n]? = some ni' ∧ ni.framesOut <+: ni'.framesOut

theorem Adds.refl (r : Router) : Adds r r := ⟨rfl, rfl, fun _ ni hni => ⟨ni, hni, List.prefix_rfl⟩⟩

theorem Adds.trans (h : Adds r₁ r₂) (h' : Adds r₂ r₃) : Adds r₁ r₃ := by
  refine ⟨h'.routes.trans h.routes, h'.length.trans h.length, fun n ni hni => ?_⟩
  obtain ⟨ni₂, hni₂, hle₂⟩ := h.frames n ni hni
  obtain ⟨ni₃, hni₃, hle₃⟩ := h'.frames n ni₂ hni₂
  exact ⟨ni₃, hni₃, hle₂.trans hle₃⟩

theorem adds_setInterface {n : ℕ} {ni ni' : AsyncNetworkInterface}
    (hni : r.interfaces[n]? = some ni) (hle : ni.framesOut <+: ni'.framesOut) :
    Adds r (r.setInterface n ni') := by
  refine ⟨rfl, by simp [setInterface], fun k nk hk => ?_⟩
  by_cases hkn : k = n
  · subst hkn
    rw [hni] at hk
    cases hk
    exact ⟨ni', getElem?_setInterface hni ni', hle⟩
  · refine ⟨nk, ?_, List.prefix_rfl⟩
    rw [← hk]
    exact List.getElem?_set_ne (Ne.symm hkn)

theorem adds_route (r : Router) : Adds r r.route.1 := by
  refine route_induction Adds.refl Adds.trans (fun r n ni dgram nextHop hni => ?_)
    (fun r i queue => ?_) r
  · refine adds_setInterface hni ?_
    have hreturns : ni.toNetworkInterface.Returns (.sendDatagram dgram nextHop) := trivial
    exact NetworkInterface.framesOut_of_call (by simp) (NetworkInterface.called hreturns)
  · refine ⟨rfl, by simp [setQueue], fun k nk hk => ?_⟩
    simp only [setQueue, List.getElem?_modify, hk]
    split
    · exact ⟨_, rfl, List.prefix_rfl⟩
    · exact ⟨_, rfl, List.prefix_rfl⟩

/-- A call on an interface that is there. -/
theorem adds_recvFrame (r : Router) (n : ℕ) (frame : EthernetFrame) :
    Adds r (r.call (.recvFrame n frame)).1 := by
  cases hni : r.interfaces[n]? with
  | none =>
    simp only [call, onInterface, interface, hni]
    exact .refl r
  | some ni =>
    rw [call, onInterface_eq hni]
    refine adds_setInterface hni ?_
    have hreturns : ni.toNetworkInterface.Returns (.recvFrame frame) := trivial
    have hle := NetworkInterface.framesOut_of_call (by simp) (NetworkInterface.called hreturns)
    have hstep : ni.toNetworkInterface.step (.recvFrame frame) =
      (ni.toNetworkInterface.recvFrame frame).1 := rfl
    rw [hstep] at hle
    unfold AsyncNetworkInterface.recvFrame
    generalize ni.toNetworkInterface.recvFrame frame = received at hle
    obtain ⟨base, _ | _ | dgram⟩ := received
    · exact hle
    · exact hle
    · exact hle

theorem adds_tick (r : Router) (n : ℕ) {ms : ℕ} (hms : ms < 5000) :
    Adds r (r.call (.tick n ms)).1 := by
  cases hni : r.interfaces[n]? with
  | none =>
    simp only [call, onInterface, interface, hni]
    exact .refl r
  | some ni =>
    rw [call, onInterface_eq hni]
    have hret : ni.toNetworkInterface.Returns (.tick ms) :=
      NetworkInterface.tick_isSome_iff.2 (.inl hms)
    exact adds_setInterface hni
      (NetworkInterface.framesOut_of_call (by simp) (NetworkInterface.called hret))

theorem step_popFrame (r : Router) (n : ℕ) :
    r.step (.popFrame n) = r ∨ ∃ ni, r.step (.popFrame n) = r.setInterface n ni := by
  cases hni : r.interfaces[n]? with
  | none => exact .inl (by simp [step, call, onInterface, interface, hni])
  | some ni => exact .inr ⟨_, by rw [step, call, onInterface_eq hni]⟩

/-- Popping a frame of one interface leaves the others. -/
theorem interfaces_popFrame {n m : ℕ} (hne : m ≠ n) :
    (r.step (.popFrame n)).interfaces[m]? = r.interfaces[m]? := by
  rcases r.step_popFrame n with heq | ⟨ni, heq⟩
  · rw [heq]
  · rw [heq]
    exact List.getElem?_set_ne hne.symm

theorem length_popFrame (r : Router) (n : ℕ) :
    (r.step (.popFrame n)).interfaces.length = r.interfaces.length := by
  rcases r.step_popFrame n with heq | ⟨ni, heq⟩ <;> simp [heq, setInterface]

theorem routes_popFrame (r : Router) (n : ℕ) :
    (r.step (.popFrame n)).routeTable = r.routeTable := by
  rcases r.step_popFrame n with heq | ⟨ni, heq⟩ <;> simp [heq, setInterface]

theorem forged_congr {r' : Router} (h : r'.routeTable = r.routeTable) (frame : EthernetFrame) :
    r'.Forged frame ↔ r.Forged frame := by
  unfold Forged
  rw [h]

end Router

namespace Lab7

theorem pending_iff {s : Locals} {side : ℕ} : s.pending side = true ↔
    ∃ ni, s.router.interfaces[side]? = some ni ∧ ni.framesOut ≠ [] := by
  unfold Locals.pending Router.interface
  cases hni : s.router.interfaces[side]? with
  | none => simp
  | some ni => simp

theorem pending_of_adds {s s' : Locals} {side : ℕ} (h : s.pending side = true)
    (hadds : s.router.Adds s'.router) : s'.pending side = true := by
  rw [pending_iff] at h ⊢
  obtain ⟨ni, hni, hframes⟩ := h
  obtain ⟨ni', hni', hle⟩ := hadds.frames side ni hni
  refine ⟨ni', hni', fun hnil => hframes ?_⟩
  rw [hnil] at hle
  exact List.prefix_nil.1 hle

/-! ## The thread survives -/

/-- What the kernel answers: its exceptions are in `sys`, and it gives no frame that is forged for
the router. -/
structure NetworkAnswers.Genuine (sys : Exn → Prop) (r : Router) (answers : NetworkAnswers) :
    Prop where
  frames : ∀ bytes frame, answers.read = .ok bytes →
    EthernetFrame.new.parse (Buffer.ofString bytes) = (frame, .noError) → ¬ r.Forged frame
  errors : ∀ e, answers.read = .error e ∨ answers.write = .error e ∨ answers.sendmsg = .error e →
    sys e

/-- What the thread can throw. -/
def Throws (sys : Exn → Prop) (e : Exn) : Prop :=
  sys e ∨ FileDescriptor.Fault e ∨ TCPOverUDPSocketAdapter.Oversize e ∨
    e = .runtimeError "EventLoop: error on polled file descriptor"

/-- The invariant, once the rules `C` have been cancelled: a reader only at the end of its input,
and a writer never, unless `H` allows hangups. -/
structure Sound (r₀ : Router) (H : Prop) (C : Set Name) (s : Locals) : Prop where
  clean : s.router.Clean
  routes : s.router.RoutesExist
  table : s.router.routeTable = r₀.routeTable
  there : ∀ l : Line, l.side s < s.router.interfaces.length
  apart : ∀ l l' : Line, l ≠ l' → l.side s ≠ l'.side s
  isOpen : ∀ l : Line, (l.fd s).closed = false
  readers : ∀ l : Line, l.reader ∈ C → (l.fd s).eof = true ∨ H
  writers : ∀ l : Line, l.writer ∈ C → H

/-- What a rule relies on: there is something to send. -/
def Ready (k : Name) (s : Locals) : Prop := ∀ l : Line, k = l.writer → s.pending (l.side s) = true

section

variable {sys : Exn → Prop} {r₀ : Router} {H : Prop} {C : Set Name} {s : Locals}
  {answers : NetworkAnswers} {l : Line}

/-- The other fields, after the router and a descriptor have changed. -/
theorem Sound.update {s' : Locals} (h : Sound r₀ H C s) (hclean : s'.router.Clean)
    (hroutes : s'.router.RoutesExist) (htable : s'.router.routeTable = s.router.routeTable)
    (hlength : s'.router.interfaces.length = s.router.interfaces.length)
    (hside : ∀ l : Line, l.side s' = l.side s)
    (hfd : ∀ l : Line, TCPSpongeSocket.Uses (l.fd s) (l.fd s')) : Sound r₀ H C s' where
  clean := hclean
  routes := hroutes
  table := htable.trans h.table
  there l := by
    rw [hside, hlength]
    exact h.there l
  apart l l' hne := by
    rw [hside, hside]
    exact h.apart l l' hne
  isOpen l := (hfd l).closed.trans (h.isOpen l)
  readers l hl := (h.readers l hl).imp_left (hfd l).eof
  writers := h.writers

/-- **A packet that is not forged** is routed without an exception. -/
theorem Routed.sound {side : ℕ} {r : Router} {bytes : List UInt8} {out : Router × Except Exn Unit}
    (h : Routed side r bytes out) (hclean : r.Clean) (hroutes : r.RoutesExist)
    (hside : side < r.interfaces.length)
    (hforged : ∀ frame, EthernetFrame.new.parse (Buffer.ofString bytes) = (frame, .noError) →
      ¬ r.Forged frame) :
    out.2 = .ok () ∧ out.1.Clean ∧ out.1.RoutesExist ∧ r.Adds out.1 := by
  have hrecv : ∀ {frame : EthernetFrame},
      EthernetFrame.new.parse (Buffer.ofString bytes) = (frame, .noError) →
      r.Quiet (.recvFrame side frame) ∧ (r.step (.recvFrame side frame)).Clean := by
    intro frame hparse
    refine hclean.call hroutes ⟨_, List.getElem?_eq_getElem hside, fun _ =>
      ⟨fun _ => ?_, hforged frame hparse⟩⟩
    exact (BufferList.toBuffer_ok_iff _).1 (EthernetFrame.toBuffer_of_parse hparse)
  have hroutes' : ∀ frame, (r.step (.recvFrame side frame)).RoutesExist :=
    fun frame => Router.routesExist_step hroutes (.recvFrame side frame)
  have hadds : ∀ frame, r.Adds (r.call (.recvFrame side frame)).1 := r.adds_recvFrame side
  cases h with
  | ignored => exact ⟨rfl, hclean, hroutes, .refl r⟩
  | refused hparse hcall =>
    have hquiet := (hrecv hparse).1
    rw [Router.Quiet, hcall] at hquiet
    cases hquiet
  | @routed frame r' hparse hcall =>
    have hclean' := (hrecv hparse).2
    have hroutes' := hroutes' frame
    have hadds := hadds frame
    rw [Router.step, hcall] at hclean' hroutes'
    rw [hcall] at hadds
    have hroute : r'.Admissible .route := trivial
    obtain ⟨hquiet, hdone⟩ := hclean'.call hroutes' hroute
    exact ⟨hquiet, hdone, Router.routesExist_step hroutes' .route, hadds.trans r'.adds_route⟩

/-- **Incoming frames.** -/
theorem Sound.read (h : Sound r₀ H C s) (hA : answers.Genuine sys r₀) (l : Line) :
    Sound r₀ H C ((rule l.reader).callback answers s).1 ∧
      s.router.Adds ((rule l.reader).callback answers s).1.router ∧
      (∀ l' : Line, l'.side ((rule l.reader).callback answers s).1 = l'.side s) ∧
      ∀ e, ((rule l.reader).callback answers s).2 = .error e → Throws sys e := by
  have hreads := reads l answers s
  generalize (rule l.reader).callback answers s = out at hreads
  cases hreads with
  | threw he =>
    refine ⟨h, .refl _, fun _ => rfl, fun e' he' => ?_⟩
    cases he'
    exact he.elim (fun he => .inl (hA.errors _ (.inl he))) fun he => .inr (.inl he)
  | took hread _ huses hrouted =>
    obtain ⟨hok, hclean, hroutes, hadds⟩ := hrouted.sound h.clean h.routes (h.there l)
      fun frame hparse => by
        rw [Router.forged_congr h.table]
        exact hA.frames _ frame hread hparse
    dsimp only at hok hclean hroutes hadds
    refine ⟨h.update hclean hroutes hadds.routes hadds.length (by simp) fun l' => ?_, hadds,
      by simp,
      fun e he => ?_⟩
    · rw [fd_took]
      split
      · rename_i heq
        rw [heq]
        exact huses
      · exact .refl _
    · dsimp only at he
      rw [hok] at he
      cases he

/-- **Outgoing frames**, when there is one. -/
theorem Sound.write (h : Sound r₀ H C s) (hA : answers.Genuine sys r₀)
    (hready : s.pending (l.side s) = true) :
    Sound r₀ H C ((rule l.writer).callback answers s).1 ∧
      (∀ l' : Line, l' ≠ l → s.pending (l'.side s) = true →
        ((rule l.writer).callback answers s).1.pending
          (l'.side ((rule l.writer).callback answers s).1) = true) ∧
      ∀ e, ((rule l.writer).callback answers s).2 = .error e → Throws sys e := by
  have hwrites := writes l answers s
  generalize (rule l.writer).callback answers s = out at hwrites
  obtain ⟨ni, hni, hframes⟩ := pending_iff.1 hready
  cases hwrites with
  | absent habsent =>
    rw [hni] at habsent
    cases habsent
  | empty hni' hempty =>
    rw [hni] at hni'
    cases hni'
    exact absurd hempty hframes
  | refused he =>
    refine ⟨h, fun _ _ hp => hp, fun e' he' => ?_⟩
    cases he'
    rcases he with he | he | he
    · exact .inl (hA.errors _ (.inr (.inl he)))
    · exact .inl (hA.errors _ (.inr (.inr he)))
    · exact .inr (.inr (.inl he))
  | sent _ _ =>
    have hpop : s.router.Admissible (.popFrame (l.side s)) := h.there l
    obtain ⟨-, hclean⟩ := h.clean.call h.routes hpop
    refine ⟨h.update hclean (Router.routesExist_step h.routes _) (s.router.routes_popFrame _)
      (s.router.length_popFrame _) (by simp) fun l' => ?_, fun l' hne hp => ?_, by simp⟩
    · rw [fd_sent]
      split
      · exact ⟨rfl, id⟩
      · exact .refl _
    · rw [pending_iff] at hp ⊢
      rw [side_sent, Router.interfaces_popFrame (h.apart l' l hne)]
      exact hp

/-- **The rules cooperate**: frames leave only by the rule that writes them. -/
theorem cooperate (sys : Exn → Prop) (r₀ : Router) (H : Prop) :
    EventLoop.Cooperate rule (NetworkAnswers.Genuine sys r₀) H (Sound r₀ H) Ready (Throws sys) where
  asks C k s _ _ _ hint l hk := by
    subst hk
    rwa [interest_writer] at hint
  callback C k i s hA hI _ hready := by
    obtain ⟨l, rfl | rfl⟩ := exists_line k
    · exact (hI.read hA l).1
    · exact (hI.write hA (hready l rfl)).1
  cancel C k s hI _ hwhy := by
    rw [cancel_rule]
    refine ⟨hI.clean, hI.routes, hI.table, hI.there, hI.apart, hI.isOpen, fun l hl => ?_,
      fun l hl => ?_⟩
    · rcases hl with rfl | hl
      · refine hwhy.imp_left fun hdead => ?_
        have heof := hdead.eof (by rw [fd_reader]; exact hI.isOpen l)
        rwa [fd_reader] at heof
      · exact hI.readers l hl
    · rcases hl with rfl | hl
      · refine hwhy.resolve_left fun hdead => ?_
        have hclosed := hdead.closed (direction_writer l)
        rw [fd_writer, hI.isOpen l] at hclosed
        cases hclosed
      · exact hI.writers l hl
  others C k k' i s hA hne hI hready hready' := by
    intro l hk'
    subst hk'
    obtain ⟨l', rfl | rfl⟩ := exists_line k
    · obtain ⟨-, hadds, hside, -⟩ := hI.read hA l'
      rw [hside]
      exact pending_of_adds (hready' l rfl) hadds
    · exact (hI.write hA (hready l' rfl)).2.1 l (fun heq => hne (by rw [heq])) (hready' l rfl)
  othersCancel C k k' s _ _ hready := by
    rw [cancel_rule]
    exact hready
  serves C k i s _ _ _ hok := .inl (callback_serves k i s hok)
  throws C k i s e hA hI hready he := by
    obtain ⟨l, rfl | rfl⟩ := exists_line k
    · exact (hI.read hA l).2.2.2 e he
    · exact (hI.write hA (hready l rfl)).2.2 e he
  throwsCancel C k s e _ he := by
    rw [cancel_rule] at he
    cases he
  polled := .inr (.inr (.inr rfl))

theorem Sound.tick (h : Sound r₀ H C s) : s.tick.2 = .ok () ∧ Sound r₀ H C s.tick.1 := by
  have htick : ∀ {r : Router} {n : ℕ}, r.Clean → r.RoutesExist → n < r.interfaces.length →
      (r.call (.tick n 50)).2 = .ok () ∧ (r.call (.tick n 50)).1.Clean ∧
        (r.call (.tick n 50)).1.RoutesExist ∧ r.Adds (r.call (.tick n 50)).1 := by
    intro r n hclean hroutes hn
    have hni := List.getElem?_eq_getElem hn
    have htick : r.Admissible (.tick n 50) :=
      ⟨_, hni, NetworkInterface.tick_isSome_iff.2 (.inl (by decide))⟩
    obtain ⟨hquiet, hclean'⟩ := hclean.call hroutes htick
    exact ⟨hquiet, hclean', Router.routesExist_step hroutes _, r.adds_tick n (by decide)⟩
  have hhost : s.hostSide < s.router.interfaces.length := h.there .host
  obtain ⟨hok, hclean, hroutes, hadds⟩ := htick h.clean h.routes hhost
  have hinternet : s.internetSide <
      (s.router.call (.tick s.hostSide 50)).1.interfaces.length := by
    rw [hadds.length]
    exact h.there .internet
  obtain ⟨hok', hclean', hroutes', hadds'⟩ := htick hclean hroutes hinternet
  have hboth := hadds.trans hadds'
  unfold Locals.tick
  generalize s.router.call (.tick s.hostSide 50) = ticked at hok hok' hclean' hroutes' hboth
  obtain ⟨r, result⟩ := ticked
  dsimp only at hok
  subst hok
  refine ⟨hok', h.update hclean' hroutes' hboth.routes hboth.length (fun l => ?_) fun l => ?_⟩
  · cases l <;> rfl
  · cases l <;> exact .refl _

end

namespace NetworkThread

/-- A round, with whether `exit_flag` is set by then. -/
def round (t : NetworkThread) (op : Poll NetworkAnswers × Bool) : NetworkThread := t.step op.1 op.2

/-- Both lines are at their end, and there is nothing to send. -/
def Idle (s : Locals) : Prop :=
  ∀ l : Line, (l.fd s).eof = true ∧ s.pending (l.side s) = false

/-- The invariant of the thread: `told` says that it may have been told to end, or interrupted. -/
structure Inv (sys : Exn → Prop) (r₀ : Router) (told : Prop) (t : NetworkThread) : Prop where
  rules : t.progress = .running → ∃ keys : List Name, keys.Sublist names ∧
    t.eventLoop = ⟨keys.map rule⟩ ∧ Sound r₀ False (EventLoop.gone keys) t.locals
  throws : ∀ e, t.progress = .threw e → Throws sys e
  returned : t.progress = .returned → told ∨ Idle t.locals

/-- A loop with no interested rule has read everything and has nothing to send. -/
theorem idle_of_asks {r₀ : Router} {keys : List Name} {s s' : Locals} {ks : List (Name × Bool)}
    (hasks : EventLoop.Asks rule keys s ks s' (.ok ())) (hidle : ∀ p ∈ ks, p.2 = false)
    (hsound : Sound r₀ False (EventLoop.gone (ks.map Prod.fst)) s') : Idle s' := by
  have hnone : ∀ k ∈ ks.map Prod.fst, (rule k).interest s' = false := by
    intro k hk
    obtain ⟨⟨k', b⟩, hmem, rfl⟩ := List.mem_map.1 hk
    obtain rfl : b = false := hidle _ hmem
    refine hasks.uninterested (List.pairwise_of_forall fun k k' => ?_) k' hmem
    intro s hs
    rw [cancel_rule]
    exact hs
  intro l
  refine ⟨?_, ?_⟩
  · refine (hsound.readers l fun hmem => ?_).resolve_right id
    have := hnone _ hmem
    rw [interest_reader] at this
    cases this
  · have hmem : l.writer ∈ ks.map Prod.fst := by
      by_contra hgone
      exact hsound.writers l hgone
    have := hnone _ hmem
    rwa [interest_writer] at this

/-- **One round.** -/
theorem Inv.step {sys : Exn → Prop} {r₀ : Router} {told : Prop} {t : NetworkThread}
    (h : Inv sys r₀ told t) {op : Poll NetworkAnswers × Bool}
    (hA : EventLoop.Answers (NetworkAnswers.Genuine sys r₀) False op.1)
    (htold : op.2 = true ∨ op.1 = .interrupted → told) : Inv sys r₀ told (t.round op) := by
  obtain ⟨poll, exitFlag⟩ := op
  show Inv sys r₀ told (t.step poll exitFlag)
  unfold NetworkThread.step
  split
  · rename_i hrun
    obtain ⟨loop, s, progress⟩ := t
    obtain ⟨keys, hsub, hloop, hsound⟩ := h.rules hrun
    have hloop : loop = ⟨keys.map rule⟩ := hloop
    subst hloop
    obtain ⟨keys', heq, hw⟩ := EventLoop.waitNextEvent_waits rule keys hA s
    obtain ⟨hafter, hthrows⟩ := (cooperate sys r₀ False).waited hw
      (EventLoop.apart_gone (hsub.nodup (by decide))) hsound
    dsimp only
    generalize EventLoop.waitNextEvent ⟨keys.map rule⟩ poll s = out at heq hw hafter hthrows
    obtain ⟨loop', s', r⟩ := out
    dsimp only at heq hw hafter hthrows
    cases r with
    | error e =>
      refine ⟨by simp, fun e' he' => ?_, by simp⟩
      cases he'
      exact hthrows e rfl
    | ok result =>
      have hsound' := hafter.gone hw.sublist
      dsimp only
      split
      · rename_i hexit
        subst hexit
        refine ⟨by simp, by simp, fun _ => ?_⟩
        generalize hr : (.ok .exit : Except Exn EventLoop.Result) = r at hw
        cases hw with
        | idle hasks hidle => exact .inr (idle_of_asks hasks hidle hsound')
        | interrupted hp => exact .inl (htold (.inr hp))
        | threw | timeout => cases hr
        | @served _ _ _ _ _ r =>
          cases r with
          | error => cases hr
          | ok => cases hr
      · obtain ⟨hok, hticked⟩ := hsound'.tick
        generalize s'.tick = ticked at hok hticked
        obtain ⟨s'', result'⟩ := ticked
        dsimp only at hok hticked
        subst hok
        refine ⟨fun _ => ⟨keys', hw.sublist.trans hsub, heq, hticked⟩, fun e he => ?_,
          fun hret => ?_⟩
        · dsimp only at he
          split at he <;> cases he
        · dsimp only at hret
          split at hret
          · rename_i hflag
            exact .inl (htold (.inl hflag))
          · cases hret
  · exact h

/-- The routers of the two programs are in order. -/
theorem sound_new (isClient : Bool) (setting : Setting) :
    Sound (programBody isClient setting).network.locals.router False (EventLoop.gone names)
      (programBody isClient setting).network.locals := by
  have hnone : ∀ k : Name, ¬ k ∈ EventLoop.gone names := by
    intro k hk
    cases k <;> exact hk (by decide)
  cases isClient <;>
  · refine ⟨?_, ?_, rfl, fun l => ?_, fun l l' hne => ?_, fun l => ?_,
      fun l hl => absurd hl (hnone _), fun l hl => absurd hl (hnone _)⟩
    · simp [Router.Clean, programBody, clientLocals, serverLocals, Router.addInterface,
        Router.addRoute, AsyncNetworkInterface.new, NetworkInterface.new]
    · simp [Router.RoutesExist, programBody, clientLocals, serverLocals, Router.addInterface,
        Router.addRoute]
    · cases l <;> simp [programBody, clientLocals, serverLocals, Router.addInterface,
        Router.addRoute, Line.side]
    · cases l <;> cases l' <;> first
        | exact absurd rfl hne
        | simp [programBody, clientLocals, serverLocals, Router.addInterface, Router.addRoute,
            Line.side]
    · cases l <;> rfl

/-- **The network thread survives**: whatever frames come, unless they are forged for its router,
and whatever the kernel answers without hanging up, it throws only what the kernel makes it throw,
and never waits busily or takes a frame from an empty queue; it returns only when `exit_flag` is
set, when it is interrupted, or when it has come to the end of both lines with nothing left to send.
-/
theorem run_survives (isClient : Bool) (setting : Setting) (sys : Exn → Prop)
    (ops : List (Poll NetworkAnswers × Bool))
    (hops : ∀ op ∈ ops, EventLoop.Answers
      (NetworkAnswers.Genuine sys (programBody isClient setting).network.locals.router)
      False op.1) :
    let t := exec round (programBody isClient setting).network ops
    (∀ e, t.progress = .threw e → Throws sys e) ∧
      (t.progress = .returned →
        (∃ op ∈ ops, op.2 = true ∨ op.1 = .interrupted) ∨ Idle t.locals) := by
  have hstart : Inv sys (programBody isClient setting).network.locals.router
      (∃ op ∈ ops, op.2 = true ∨ op.1 = .interrupted) (programBody isClient setting).network := by
    have hrun : (programBody isClient setting).network.progress = .running := by
      cases isClient <;> rfl
    refine ⟨fun _ => ⟨names, .refl names, ?_, sound_new isClient setting⟩, fun e he => ?_,
      fun hret => ?_⟩
    · cases isClient <;> rfl
    · rw [hrun] at he
      cases he
    · rw [hrun] at hret
      cases hret
  have hinv := Guarded.invariant (I := Inv sys (programBody isClient setting).network.locals.router
      (∃ op ∈ ops, op.2 = true ∨ op.1 = .interrupted))
    (fun _ op h (hop : op ∈ ops) => h.step (hops op hop) fun htold => ⟨op, hop, htold⟩) hstart
    (guarded_of_mem (fun _ hop => hop) _)
  exact ⟨hinv.throws, hinv.returned⟩

end NetworkThread

/-! ## A request of the host -/

/-- Settings of a program, told apart by a number. -/
def sample (n : UInt8) : Setting where
  hostEthernet := .replicate 6 n
  hostSideEthernet := .replicate 6 n
  internetSideEthernet := .replicate 6 n
  internetAddress := dotted 10 144 0 n 9090
  bounceAddress := dotted 10 144 0 0 9090
  port := 50000
  random := 0
  now := 0

namespace NetworkThread

/-- The client's host asks for the address of its router. -/
def request : List UInt8 :=
  ((clientSocket (sample 1)).adapter.interface.arpRequestFrame
    (dotted 192 168 0 1).ip).serialize.concatenate

/-- It is answered; then the thread is told to exit. -/
def answered : List (Poll NetworkAnswers × Bool) :=
  [(.ready [({ pollin := true }, { read := .ok request })], false),
    (.ready [({}, {}), ({ pollout := true }, {})], false), (.timeout, true)]

theorem genuine_of_read {sys : Exn → Prop} {r : Router} {bytes : List UInt8}
    (h : ¬ r.Forged (EthernetFrame.new.parse (Buffer.ofString bytes)).1) :
    NetworkAnswers.Genuine sys r { read := .ok bytes } := by
  refine ⟨fun bytes' frame hread hparse => ?_, by simp⟩
  cases hread
  rw [hparse] at h
  exact h

theorem survives_of_request :
    let t := exec round (programBody true (sample 1)).network answered
    (t.progress = .returned ∧ t.locals.frameFd.packets.length = 1) ∧
      (∀ e, t.progress = .threw e → Throws (fun _ => False) e) ∧
      (t.progress = .returned →
        (∃ op ∈ answered, op.2 = true ∨ op.1 = .interrupted) ∨ Idle t.locals) := by
  refine ⟨by decide +kernel, run_survives true (sample 1) (fun _ => False) answered
    fun op hop => ?_⟩
  have hrequest : NetworkAnswers.Genuine (fun _ => False)
      (programBody true (sample 1)).network.locals.router { read := .ok request } :=
    genuine_of_read (by decide +kernel)
  have hnothing : NetworkAnswers.Genuine (fun _ => False)
      (programBody true (sample 1)).network.locals.router {} :=
    genuine_of_read (by decide +kernel)
  simp only [answered, List.mem_cons, List.not_mem_nil, or_false] at hop
  rcases hop with rfl | rfl | rfl
  · simpa [EventLoop.Answers] using hrequest
  · simpa [EventLoop.Answers] using hnothing
  · trivial

end NetworkThread

end Lab7

end Sponge
