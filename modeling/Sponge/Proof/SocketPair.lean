import Sponge.Proof.SocketRefinement
import Sponge.Proof.StreamIntegrity

/-!
# Two sockets are two endpoints

A step of one of two sockets, to which only segments like those that the other one has emitted
arrive, is a path of the network of `Sponge.Network`: `SocketPair.Inv.step`, for adapters of any two
kinds that keep their contracts. A pair of sockets that got where it is on such paths delivers what
was written: `SocketPair.Inv.delivered`.
-/

namespace Sponge

open Run

namespace Network

variable {net net' : Network} {x : Side}

/-- No application writes after `end_input_stream`. -/
def Proper (net : Network) (op : NetOp) : Prop := net.writable op = true

/-- **A call** on the side `x` is a step of the network. -/
theorem exists_step {e : Endpoint} {op : ConnOp}
    (hop : Endpoint.Permitted (TCPSegment.Among (net x.other).emitted) e op) :
    ∃ nop, Proper (Function.update net x e) nop ∧
      step (Function.update net x e) nop = Function.update net x (e.call op) := by
  obtain ⟨hpop, hwritable, hQ⟩ := hop
  have happ : ∀ aop : AppOp, step (Function.update net x e) (.app x aop) =
      Function.update net x (e.call aop.toConnOp) := by
    intro aop
    simp [step, callOf]
  cases op with
  | connect => exact ⟨.app x .connect, rfl, happ .connect⟩
  | write data =>
    refine ⟨.app x (.write data), ?_, happ (.write data)⟩
    simpa [Proper, writable, TCPConnection.writable] using hwritable
  | endInputStream => exact ⟨.app x .endInputStream, rfl, happ .endInputStream⟩
  | tick ms => exact ⟨.app x (.tick ms), rfl, happ (.tick ms)⟩
  | read n => exact ⟨.app x (.read n), rfl, happ (.read n)⟩
  | popSegment => exact absurd rfl hpop
  | segmentReceived seg =>
    obtain ⟨seg', hmem, halike⟩ := hQ seg rfl
    obtain ⟨i, hi⟩ := List.getElem?_of_mem hmem
    refine ⟨.deliver x i, rfl, ?_⟩
    simp [step, callOf, hi, e.call_alike halike]

/-- **What happens at one side**, while the other one stands still, is a path of the network. -/
theorem path_of_side {e : Endpoint}
    (h : Path Endpoint.call (Endpoint.Permitted (TCPSegment.Among (net x.other).emitted))
      (net x) e) :
    Path step Proper net (Function.update net x e) := by
  obtain ⟨ops, hg, rfl⟩ := h
  have hstep : ∀ (e : Endpoint) (t : Network) (op : ConnOp), t = Function.update net x e →
      Endpoint.Permitted (TCPSegment.Among (net x.other).emitted) e op →
      ∃ t', Path step Proper t t' ∧ t' = Function.update net x (e.call op) := by
    intro e t op hr hop
    obtain ⟨nop, hnop, hstep⟩ := exists_step hop
    subst hr
    exact ⟨_, .single hnop, hstep⟩
  obtain ⟨_, hpath, rfl⟩ := hg.refines hstep (Function.update_eq_self x net).symm
  exact hpath

/-- What happens at both sides, without anything arriving. -/
theorem path_of_sides
    (h : ∀ x, Path Endpoint.call (Endpoint.Permitted (TCPSegment.Among [])) (net x) (net' x)) :
    Path step Proper net net' := by
  have hquiet : ∀ {e e' : Endpoint} (segs : List TCPSegment),
      Path Endpoint.call (Endpoint.Permitted (TCPSegment.Among [])) e e' →
      Path Endpoint.call (Endpoint.Permitted (TCPSegment.Among segs)) e e' :=
    fun segs hpath => hpath.weaken (I := fun _ => True) (fun _ _ _ _ => trivial)
      (fun _ _ _ hop => ⟨hop.1, hop.2.1, fun seg hseg => (hop.2.2 seg hseg).mono (by simp)⟩) trivial
  have ha : Path step Proper net (Function.update net .a (net' .a)) :=
    path_of_side (hquiet _ (h .a))
  have hb : Path step Proper (Function.update net .a (net' .a))
      (Function.update (Function.update net .a (net' .a)) .b (net' .b)) :=
    path_of_side (hquiet _ (h .b))
  have hboth : Function.update (Function.update net .a (net' .a)) .b (net' .b) = net' := by
    funext x
    cases x <;> simp
  rw [← hboth]
  exact ha.trans hb

theorem written_step (net : Network) (op : NetOp) (x : Side) :
    (net x).written.length ≤ (net.step op x).written.length := by
  obtain he | ⟨y, cop, he, -, -⟩ := net.step_cases op
  · rw [he]
  · rw [he]
    by_cases hxy : x = y
    · subst hxy
      simp [Endpoint.call]
    · simp [hxy]

/-- **What was read and what is buffered** at one side was written at the other one. -/
theorem delivered_of_path {cfg : Side → TCPConfig} {random : Side → UInt32}
    (h : Path step Proper (new cfg random) net)
    (hsmall : ∀ x, (net x).written.length < 2 ^ 31 - 2) (x : Side) :
    (net x).popped ++ (net x).conn.inboundStream.contents <+: (net x.other).written := by
  have hpath := h.backward (P := fun net : Network => ∀ x, (net x).written.length < 2 ^ 31 - 2)
    (fun net op hP x => Nat.lt_of_le_of_lt (written_step net op x) (hP x)) hsmall
  have hinv := hpath.invariant (I := Inv (isns cfg random))
    (fun _ _ hI hop => hI.step ⟨hop.1, hop.2 .a, hop.2 .b⟩) (new_inv cfg random)
  exact (hinv.inbound x).delivered

end Network

namespace TCPSpongeSocket

variable {α ι κ : Type} [DatagramAdapter α ι κ] {s₀ : TCPSpongeSocket α} {p : Process α ι}
  {J J' : List TCPSegment → α → Prop} {B : ι → Prop} {Q Q' : TCPSegment → Prop} {sys : Exn → Prop}
  {H : Prop}

/-- The invariant, with what has happened so far forgotten. -/
theorem Process.Inv.rebase (h : Process.Inv J Q sys H s₀ p)
    (hJ : J' p.socket.endpoint.emitted p.socket.datagramAdapter) :
    Process.Inv J' Q' sys H p.socket p := by
  have hinv : ∀ {C : Set Name}, TCPSpongeSocket.Inv J Q H s₀ C p.socket →
      TCPSpongeSocket.Inv J' Q' H p.socket C p.socket :=
    fun hI => ⟨⟨hI.sound.regular, hJ, hI.sound.ended⟩, .refl _, hI.pipeOpen, hI.noDatagrams,
      hI.noPipe, hI.noDevice⟩
  obtain ⟨keys, hsub, hloop, hI⟩ := h.rules
  obtain ⟨C, hC⟩ := h.socket
  exact ⟨⟨keys, hsub, hloop, fun hl => hinv (hI hl)⟩, ⟨C, hinv hC⟩, h.throws⟩

theorem Process.Inv.adapter (h : Process.Inv J Q sys H s₀ p) :
    J p.socket.endpoint.emitted p.socket.datagramAdapter := by
  obtain ⟨C, hC⟩ := h.socket
  exact hC.sound.adapter

/-- What was emitted and what was read stays. -/
theorem grows_of_path {e e' : Endpoint} (h : Path Endpoint.call (Endpoint.Permitted Q) e e') :
    (∀ seg ∈ e.emitted, seg ∈ e'.emitted) ∧ e.popped <+: e'.popped :=
  h.invariant (I := fun e' => (∀ seg ∈ e.emitted, seg ∈ e'.emitted) ∧ e.popped <+: e'.popped)
    (fun _ _ hI _ => ⟨fun seg hseg => List.mem_append_left _ (hI.1 seg hseg),
      hI.2.trans (List.prefix_append _ _)⟩) ⟨fun _ hseg => hseg, List.prefix_rfl⟩

end TCPSpongeSocket

open TCPSpongeSocket

/-- Two sockets, each with an adapter of its own kind. -/
abbrev SocketPair (α ι : Side → Type) := (x : Side) → Process (α x) (ι x)

namespace SocketPair

variable {α ι κ : Side → Type} [∀ x, DatagramAdapter (α x) (ι x) (κ x)] {w : SocketPair α ι}
  {J : ∀ x, List TCPSegment → α x → Prop} {net₀ : Network} {x : Side}

/-- The two connections. -/
def net (w : SocketPair α ι) : Network := fun x => (w x).socket.endpoint

/-- A step of one of the sockets. -/
def step (w : SocketPair α ι) (op : (x : Side) × Op (ι x)) : SocketPair α ι :=
  Function.update w op.1 ((w op.1).step op.2)

theorem net_update (w : SocketPair α ι) (x : Side) (p : Process (α x) (ι x)) :
    net (Function.update w x p) = Function.update w.net x p.socket.endpoint := by
  funext z
  by_cases hz : z = x
  · subst hz
    simp [net]
  · simp [net, hz]

/-- The invariant: each of the adapters is in `J`, and the connections got where they are on a path
of the network. -/
structure Inv (J : ∀ x, List TCPSegment → α x → Prop) (net₀ : Network) (w : SocketPair α ι) :
    Prop where
  sockets : ∀ x, ∃ Q s₀, Process.Inv (J x) Q (fun _ => True) True s₀ (w x)
  path : Path Network.step Network.Proper net₀ w.net

theorem Inv.adapter (h : Inv J net₀ w) (x : Side) :
    J x (w.net x).emitted (w x).socket.datagramAdapter := by
  obtain ⟨Q, s₀, hx⟩ := h.sockets x
  exact hx.adapter

/-- The sockets as their owners start them. -/
theorem start_inv {B : ∀ x, ι x → Prop}
    (hc : ∀ x, AdapterContract (J x) (B x) (TCPSegment.Among []) (fun _ => True))
    (mode : Side → Start) (adapter : ∀ x, α x) (config : Side → TCPConfig)
    (adapterConfig : ∀ x, κ x) (random : Side → UInt32) (now : Side → ℕ)
    (hJ : ∀ x, J x [] ((mode x).adapter (adapter x) (adapterConfig x))) :
    Inv J (.new config random) fun x =>
      start (mode x) (adapter x) (config x) (adapterConfig x) (random x) (now x) := by
  have hstart := fun x => TCPSpongeSocket.start_inv (hc x) True (mode x) (adapter x) (config x)
    (adapterConfig x) (random x) (now x) (hJ x)
  refine ⟨fun x => ⟨_, _, hstart x⟩, Network.path_of_sides fun x => ?_⟩
  -- a socket of `connect` has made a call already
  obtain ⟨C, hC⟩ := (hstart x).socket
  exact hC.moved.mimics

/-- What a step of the socket of `x` has done. -/
structure Stepped (J : ∀ x, List TCPSegment → α x → Prop) (J' : List TCPSegment → α x → Prop)
    (net₀ : Network) (w : SocketPair α ι) (p : Process (α x) (ι x)) : Prop where
  inv : Inv J net₀ (Function.update w x p)
  adapter : J' p.socket.endpoint.emitted p.socket.datagramAdapter
  emitted : ∀ seg ∈ (w.net x).emitted, seg ∈ p.socket.endpoint.emitted
  popped : (w.net x).popped <+: p.socket.endpoint.popped

/-- **A step of one socket**, with what is known of its adapter at the moment (`J'`): it is a path
of the network, if only segments like those of the other one arrive. -/
theorem Inv.step {J' : List TCPSegment → α x → Prop} {B : ι x → Prop} {op : Op (ι x)}
    (h : Inv J net₀ w) (hJ : J' (w.net x).emitted (w x).socket.datagramAdapter)
    (hc : AdapterContract J' B (TCPSegment.Among (w.net x.other).emitted) (fun _ => True))
    (hback : ∀ L a, J' L a → J x L a) (hop : op.Met B (fun _ => True) True) :
    Stepped J J' net₀ w ((w x).step op) := by
  obtain ⟨Q, s₀, hx⟩ := h.sockets x
  have hbase : Process.Inv J' (TCPSegment.Among (w.net x.other).emitted) (fun _ => True) True
      (w x).socket (w x) := hx.rebase hJ
  have hstep := hbase.step hc hop
  obtain ⟨C, hC⟩ := hstep.socket
  obtain ⟨hemitted, hpopped⟩ := grows_of_path hC.moved.mimics
  refine ⟨⟨fun z => ?_, ?_⟩, hstep.adapter, hemitted, hpopped⟩
  · by_cases hz : z = x
    · subst hz
      rw [Function.update_self]
      exact ⟨TCPSegment.Among [], _, hstep.rebase (hback _ _ hstep.adapter)⟩
    · rw [Function.update_of_ne hz]
      exact h.sockets z
  · rw [net_update]
    exact h.path.trans (Network.path_of_side hC.moved.mimics)

/-- The owner's `abort` of one socket changes only its flag. -/
theorem Inv.abort (h : Inv J net₀ w) (x : Side) :
    Inv J net₀ (Function.update w x ((w x).step .abort)) := by
  refine ⟨fun z => ?_, ?_⟩
  · by_cases hz : z = x
    · subst hz
      obtain ⟨Q, s₀, hQ⟩ := h.sockets z
      rw [Function.update_self]
      exact ⟨Q, s₀, hQ.staged rfl rfl id hQ.throws⟩
    · rw [Function.update_of_ne hz]
      exact h.sockets z
  · rw [net_update]
    exact (Function.update_eq_self x w.net).symm ▸ h.path

/-- **What the owner of one socket was given**, with what waits for them, was written by the owner
of the other one. -/
theorem Inv.delivered {config : Side → TCPConfig} {random : Side → UInt32}
    (h : Inv J (.new config random) w)
    (hsmall : ∀ x, (w x).socket.fromOwner.length < 2 ^ 31 - 2) (x : Side) :
    (w x).socket.toOwner ++ (w x).socket.tcp.inboundStream.contents <+:
      (w x.other).socket.fromOwner :=
  Network.delivered_of_path h.path hsmall x

end SocketPair

end Sponge
