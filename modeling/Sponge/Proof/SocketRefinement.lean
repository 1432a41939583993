import Sponge.Proof.UdpAdapter

/-!
# A socket is an endpoint

Runs of a socket with its threads, from `connect` or `listen_and_accept` on, for any adapter that
keeps its contract. `run_refines`: the connection sees what that of an endpoint sees. `run_flushed`:
when the thread returns by itself, nothing is left to do. `run_destructed`: when it returns because
the owner destructs the socket, the RST of the connection's destructor goes nowhere.
-/

namespace Sponge

open Run

namespace TCPSpongeSocket

open DatagramAdapter (fd)

variable {α ι κ : Type} [DatagramAdapter α ι κ] {s s₀ : TCPSpongeSocket α}
  {J : List TCPSegment → α → Prop} {B : ι → Prop} {Q : TCPSegment → Prop} {sys : Exn → Prop}
  {H : Prop}

/-- The socket is in a loop. -/
def Stage.Live (stage : Stage) : Prop :=
  stage = .connecting ∨ stage = .accepting ∨ stage = .running

theorem Stage.live_of_condition {stage : Stage} {c : TCPConnection}
    (h : stage.condition c = true) : stage.Live := by
  cases stage with
  | connecting => exact .inl rfl
  | accepting => exact .inr (.inl rfl)
  | running => exact .inr (.inr rfl)
  | closed | threw | stuck => cases h

/-- The answers of the outside to what happens in a step. -/
def Op.Met (B : ι → Prop) (sys : Exn → Prop) (H : Prop) : Op ι → Prop
  | .round poll _ answer shutdown =>
    EventLoop.Answers (TCPSpongeSocket.Met B sys) H poll ∧ B answer ∧
      ∀ e, shutdown = .error e → sys e
  | .abort => True

theorem Op.Met.imp {B' : ι → Prop} (himp : ∀ answer, B answer → B' answer) {op : Op ι}
    (h : op.Met B sys H) : op.Met B' sys H := by
  cases op with
  | abort => trivial
  | round poll now answer shutdown =>
    obtain ⟨hpoll, hanswer, hshutdown⟩ := h
    refine ⟨?_, himp _ hanswer, hshutdown⟩
    cases poll with
    | ready results =>
      intro p hp
      obtain ⟨hmet, hup⟩ := hpoll p hp
      exact ⟨⟨himp _ hmet.datagram, fun n => himp _ (hmet.datagrams n), hmet.errors⟩, hup⟩
    | timeout | interrupted | failed => trivial

/-- A round in which one rule is served, after others for which there is nothing to do. -/
theorem Op.met_round {silent answers : SocketAnswers ι} (before : ℕ) (revents : Revents) (now : ℕ)
    (hsilent : TCPSpongeSocket.Met B sys silent) (hanswers : TCPSpongeSocket.Met B sys answers)
    (hhup : revents.pollhup = true → H) :
    (Op.round (.ready (List.replicate before (({} : Revents), silent) ++ [(revents, answers)])) now
      silent.datagram (.ok ())).Met B sys H := by
  refine ⟨fun p hp => ?_, hsilent.datagram, fun e he => by cases he⟩
  rcases List.mem_append.1 hp with hp | hp
  · rw [List.eq_of_mem_replicate hp]
    exact ⟨hsilent, fun hup => by cases hup⟩
  · rw [List.mem_singleton.1 hp]
    exact ⟨hanswers, hhup⟩

/-- The outside answers as it should, no descriptor hangs up and `poll` is not interrupted. -/
def Op.Calm (B : ι → Prop) (sys : Exn → Prop) : Op ι → Prop
  | .round poll now answer shutdown =>
    (Op.round poll now answer shutdown).Met B sys False ∧ poll ≠ .interrupted
  | .abort => True

theorem Op.Calm.met {op : Op ι} (h : op.Calm B sys) : op.Met B sys True := by
  cases op with
  | abort => trivial
  | round poll now answer shutdown =>
    obtain ⟨⟨hpoll, hanswer, hshutdown⟩, -⟩ := h
    refine ⟨?_, hanswer, hshutdown⟩
    cases poll with
    | ready results => exact fun p hp => ⟨(hpoll p hp).1, fun _ => trivial⟩
    | timeout | interrupted | failed => trivial

/-- The invariant of a socket with its threads. -/
structure Process.Inv (J : List TCPSegment → α → Prop) (Q : TCPSegment → Prop) (sys : Exn → Prop)
    (H : Prop) (s₀ : TCPSpongeSocket α) (p : Process α ι) : Prop where
  rules : ∃ keys : List Name, keys.Sublist names ∧ p.eventloop = ⟨keys.map rule⟩ ∧
    (p.stage.Live → TCPSpongeSocket.Inv J Q H s₀ (EventLoop.gone keys) p.socket)
  socket : ∃ C, TCPSpongeSocket.Inv J Q H s₀ C p.socket
  throws : ∀ e, p.stage = .threw e → Throws sys e

variable {p : Process α ι}

/-- Nothing happened to the socket. -/
theorem Process.Inv.staged (h : Process.Inv J Q sys H s₀ p) {p' : Process α ι}
    (hloop : p'.eventloop = p.eventloop) (hsocket : p'.socket = p.socket)
    (hlive : p'.stage.Live → p.stage.Live) (hthrows : ∀ e, p'.stage = .threw e → Throws sys e) :
    Process.Inv J Q sys H s₀ p' := by
  obtain ⟨keys, hsub, heq, hI⟩ := h.rules
  refine ⟨⟨keys, hsub, hloop.trans heq, fun hl => ?_⟩, ?_, hthrows⟩
  · rw [hsocket]
    exact hI (hlive hl)
  · rw [hsocket]
    exact h.socket

/-- **The end of a loop.** -/
theorem Process.Inv.leave (h : Process.Inv J Q sys H s₀ p) (now : ℕ) {shutdown : Except Exn Unit}
    (hs : ∀ e, shutdown = .error e → sys e) : Process.Inv J Q sys H s₀ (p.leave now shutdown) := by
  unfold Process.leave
  split
  · rename_i hstage
    exact h.staged rfl rfl (fun _ => .inl hstage) nofun
  · rename_i hstage
    exact h.staged rfl rfl (fun _ => .inr (.inl hstage)) nofun
  · rename_i hstage
    split
    · rename_i e
      refine h.staged rfl rfl (fun _ => .inr (.inr hstage)) fun e' he => ?_
      cases he
      exact .inl (hs e rfl)
    · exact h.staged rfl rfl (fun _ => .inr (.inr hstage)) nofun
  · exact h
  · exact h
  · exact h

/-- Time passes for the connection. -/
theorem Sound.tick (hc : AdapterContract J B Q sys) (h : Sound J s) (ms : ℕ) :
    Sound J { s with tcp := s.tcp.tick ms } ∧ Moves Q s { s with tcp := s.tcp.tick ms } := by
  have hcall : endpoint { s with tcp := s.tcp.tick ms } = s.endpoint.call (.tick ms) :=
    endpoint_call (by simp) rfl (by simp [TCPConnection.accepted]) (by simp [TCPConnection.taken])
      rfl
  refine ⟨h.call hc hcall rfl (by simp), ⟨?_, .refl _, .refl _⟩⟩
  rw [hcall]
  exact .single ⟨by simp, rfl, by simp⟩

/-- **Time passes.** -/
theorem Process.Inv.passTime (hc : AdapterContract J B Q sys) (h : Process.Inv J Q sys H s₀ p)
    (now : ℕ) {answer : ι} (hB : B answer) :
    Process.Inv J Q sys H s₀ (p.passTime now answer) := by
  unfold Process.passTime
  split
  · -- both ticks are made, whatever becomes of the second
    have hmoved : ∀ {C : Set Name} {adapter : α} {r : Except Exn Unit},
        TCPSpongeSocket.Inv J Q H s₀ C p.socket →
        DatagramAdapter.tick p.socket.datagramAdapter (now - p.baseTime) answer =
          some (adapter, r) →
        TCPSpongeSocket.Inv J Q H s₀ C
          { p.socket with
            tcp := p.socket.tcp.tick (now - p.baseTime), datagramAdapter := adapter } ∧
          ∀ e, r = .error e → sys e := by
      intro C adapter r hI htick
      obtain ⟨hsound, hmoves⟩ := hI.sound.tick (Q := Q) hc (now - p.baseTime)
      obtain ⟨hJ, hfd, hthrows⟩ := hc.tick hsound.adapter hB htick
      obtain ⟨hsound', hmoves'⟩ := hsound.adapted (Q := Q) hJ hfd
      exact ⟨hI.moves hsound' (hmoves.trans hmoves'), hthrows⟩
    obtain ⟨keys, hsub, heq, hI⟩ := h.rules
    obtain ⟨C, hC⟩ := h.socket
    dsimp only
    split
    · obtain ⟨hsound, hmoves⟩ := hC.sound.tick (Q := Q) hc (now - p.baseTime)
      refine ⟨⟨keys, hsub, heq, fun hl => ?_⟩, ⟨C, hC.moves hsound hmoves⟩, nofun⟩
      rcases hl with hl | hl | hl <;> cases hl
    · rename_i adapter e htick
      obtain ⟨hC', hthrows⟩ := hmoved hC htick
      refine ⟨⟨keys, hsub, heq, fun hl => ?_⟩, ⟨C, hC'⟩, fun e' he => ?_⟩
      · rcases hl with hl | hl | hl <;> cases hl
      · cases he
        exact .inl (hthrows e rfl)
    · rename_i adapter htick
      exact ⟨⟨keys, hsub, heq, fun hl => (hmoved (hI hl) htick).1⟩, ⟨C, (hmoved hC htick).1⟩,
        h.throws⟩
  · exact h

/-- **A round** keeps the invariant. -/
theorem Process.Inv.round (hc : AdapterContract J B Q sys) (h : Process.Inv J Q sys H s₀ p)
    {poll : Poll (SocketAnswers ι)} (now : ℕ) {answer : ι} {shutdown : Except Exn Unit}
    (hA : EventLoop.Answers (Met B sys) H poll) (hB : B answer)
    (hs : ∀ e, shutdown = .error e → sys e) :
    Process.Inv J Q sys H s₀ (p.round poll now answer shutdown) := by
  unfold Process.round
  split
  · rename_i hcond
    have hlive := Stage.live_of_condition hcond
    obtain ⟨keys, hsub, hloop, hI⟩ := h.rules
    have hnd : keys.Nodup := hsub.nodup (by decide)
    obtain ⟨keys', heq, hw⟩ := EventLoop.waitNextEvent_waits rule keys hA p.socket
    obtain ⟨hafter, hthrows⟩ :=
      (cooperate hc H s₀).waited hw (EventLoop.apart_gone hnd) (hI hlive)
    rw [hloop]
    generalize EventLoop.waitNextEvent ⟨keys.map rule⟩ poll p.socket = out at heq hw hafter hthrows
    obtain ⟨loop', s', r⟩ := out
    have hsocket : ∃ C, TCPSpongeSocket.Inv J Q H s₀ C s' := by
      obtain ⟨C', -, -, hI', -⟩ := hafter
      exact ⟨C', hI'⟩
    cases r with
    | error e =>
      refine ⟨⟨keys', hw.sublist.trans hsub, heq, fun hl => ?_⟩, hsocket, fun e' he => ?_⟩
      · rcases hl with hl | hl | hl <;> cases hl
      · cases he
        exact hthrows e rfl
    | ok result =>
      have hinv : Process.Inv J Q sys H s₀ { p with eventloop := loop', socket := s' } :=
        ⟨⟨keys', hw.sublist.trans hsub, heq, fun _ => hafter.gone hw.sublist⟩, hsocket, h.throws⟩
      dsimp only
      split
      · exact hinv.leave now hs
      · exact hinv.passTime hc now hB
  · exact h.leave now hs

theorem Process.Inv.step (hc : AdapterContract J B Q sys) (h : Process.Inv J Q sys H s₀ p)
    {op : Op ι} (hop : op.Met B sys H) : Process.Inv J Q sys H s₀ (p.step op) := by
  cases op with
  | round poll now answer shutdown => exact h.round hc now hop.1 hop.2.1 hop.2.2
  | abort => exact h.staged rfl rfl id h.throws

/-- How the owner starts the socket. -/
inductive Start where
  | connect | listen
deriving DecidableEq, Repr

/-- The adapter as the owner configures it. -/
def Start.adapter (mode : Start) (adapter : α) (adapterConfig : κ) : α :=
  match mode with
  | .connect => DatagramAdapter.setConfig adapter adapterConfig
  | .listen => DatagramAdapter.setListening (DatagramAdapter.setConfig adapter adapterConfig) true

/-- The socket with its threads, once the owner has started it. -/
def start (mode : Start) (adapter : α) (config : TCPConfig) (adapterConfig : κ) (random : UInt32)
    (now : ℕ) : Process α ι :=
  match mode with
  | .connect => connect adapter config adapterConfig random now
  | .listen => listenAndAccept adapter config adapterConfig random now

theorem eventloop_eq : (eventloop : EventLoop (SocketAnswers ι) (TCPSpongeSocket α)) =
    ⟨names.map rule⟩ := rfl

theorem start_inv (hc : AdapterContract J B Q sys) (H : Prop) (mode : Start) (adapter : α)
    (config : TCPConfig) (adapterConfig : κ) (random : UInt32) (now : ℕ)
    (hJ : J [] (mode.adapter adapter adapterConfig)) :
    Process.Inv J Q sys H (initializeTCP (mode.adapter adapter adapterConfig) config random)
      (start mode adapter config adapterConfig random now) := by
  have hnone : ∀ k : Name, k ∉ EventLoop.gone names := by
    intro k hk
    cases k <;> exact hk (by decide)
  -- the socket before the connection has done anything
  have hfresh : TCPSpongeSocket.Inv J Q H
      (initializeTCP (mode.adapter adapter adapterConfig) config random) (EventLoop.gone names)
      (initializeTCP (mode.adapter adapter adapterConfig) config random) :=
    ⟨⟨Endpoint.new_regular config random, hJ, rfl⟩, .refl _, rfl, fun h => absurd h (hnone _),
      fun h => absurd h (hnone _), fun h => absurd h (hnone _)⟩
  cases mode with
  | listen =>
    exact ⟨⟨names, .refl names, eventloop_eq, fun _ => hfresh⟩, ⟨_, hfresh⟩,
      fun _ he => by cases he⟩
  | connect =>
    generalize hs : initializeTCP (Start.connect.adapter adapter adapterConfig) config random = s₀
      at hfresh ⊢
    have hcall : endpoint { s₀ with tcp := s₀.tcp.connect } = s₀.endpoint.call .connect :=
      endpoint_call (by simp) rfl (by simp [TCPConnection.accepted])
        (by simp [TCPConnection.taken]) rfl
    have hopened : TCPSpongeSocket.Inv J Q H s₀ (EventLoop.gone names)
        { s₀ with tcp := s₀.tcp.connect } := by
      refine hfresh.moves (hfresh.sound.call hc hcall rfl (by simp)) ⟨?_, .refl _, .refl _⟩
      rw [hcall]
      exact .single ⟨by simp, rfl, by simp⟩
    have hsocket : (start Start.connect adapter config adapterConfig random now).socket =
        { s₀ with tcp := s₀.tcp.connect } := by
      rw [← hs]
      rfl
    refine ⟨⟨names, .refl names, eventloop_eq, fun _ => ?_⟩, ⟨EventLoop.gone names, ?_⟩,
      fun _ he => by cases he⟩
    · rw [hsocket]
      exact hopened
    · rw [hsocket]
      exact hopened

/-! ## A socket on UDP, to run -/

/-- The kernel's answers to a callback that sends datagrams of `n` bytes, while an empty datagram
arrives from nowhere. -/
def quietly (n : ℕ) : SocketAnswers UDPAnswer where
  datagram := ⟨.ok ⟨⟨0, 0⟩, []⟩, .ok n⟩
  datagrams _ := ⟨.ok ⟨⟨0, 0⟩, []⟩, .ok n⟩

/-- An RST that acknowledges the SYN of `client`. -/
def refusal : List UInt8 := [0, 20, 0, 10, 0, 0, 0, 0, 0, 0, 0, 1, 80, 20, 0, 0, 175, 204, 0, 0]

/-- What the kernel answers to `client`: nothing comes from the peer but the refusal. -/
def Refuses : UDPAnswer → Prop :=
  TCPOverUDPSocketAdapter.Arrives ⟨2, 20⟩ false [(TCPSegment.parse {} (Buffer.ofString refusal)).1]
    TCPOverUDPSocketAdapter.Oversize

/-- A socket that connects to port 20 of the host 2. -/
def client : Process TCPOverUDPSocketAdapter UDPAnswer :=
  start .connect ({ sock := { address := ⟨1, 10⟩ } } : TCPOverUDPSocketAdapter) {}
    ⟨⟨1, 10⟩, ⟨2, 20⟩⟩ 0 0

def oneRound (pollfds : List (Revents × SocketAnswers UDPAnswer)) : Op UDPAnswer :=
  .round (.ready pollfds) 0 (quietly 0).datagram (.ok ())

/-- The SYN is sent. -/
def sendSyn : Op UDPAnswer :=
  oneRound [({}, quietly 0), ({}, quietly 0), ({}, quietly 0), ({ pollout := true }, quietly 20)]

/-- The refusal arrives. -/
def receiveRst : Op UDPAnswer :=
  oneRound [({ pollin := true }, { quietly 0 with datagram := ⟨.ok ⟨⟨2, 20⟩, refusal⟩, .ok 0⟩ })]

/-- The owner's side is shut down. -/
def shutOwner : Op UDPAnswer :=
  oneRound [({}, quietly 0), ({}, quietly 0), ({ pollout := true }, quietly 0)]

/-- The connection is refused: `connect` returns, and the thread comes to its end. -/
def refused : List (Op UDPAnswer) := [sendSyn, receiveRst, oneRound [], shutOwner, oneRound []]

theorem refuses_quietly (n : ℕ) : Refuses ⟨.ok ⟨⟨0, 0⟩, []⟩, .ok n⟩ := by
  refine ⟨fun datagram hrecv hsource => ?_, nofun, fun e he => ?_⟩
  · cases hrecv
    cases hsource
  · rcases he with he | he <;> cases he

theorem refuses_refusal : Refuses ⟨.ok ⟨⟨2, 20⟩, refusal⟩, .ok 0⟩ := by
  refine ⟨fun datagram hrecv _ seg hparse => ?_, nofun, fun e he => ?_⟩
  · cases hrecv
    refine ⟨seg, ?_, rfl⟩
    rw [List.mem_singleton]
    exact (congrArg Prod.fst hparse).symm
  · rcases he with he | he <;> cases he

theorem met_quietly (n : ℕ) : Met Refuses TCPOverUDPSocketAdapter.Oversize (quietly n) := by
  refine ⟨refuses_quietly n, fun _ => refuses_quietly n, fun e he => ?_⟩
  rcases he with he | he | he <;> cases he

theorem calm_oneRound {pollfds : List (Revents × SocketAnswers UDPAnswer)}
    (h : ∀ p ∈ pollfds, Met Refuses TCPOverUDPSocketAdapter.Oversize p.2 ∧ p.1.pollhup = false) :
    (oneRound pollfds).Calm Refuses TCPOverUDPSocketAdapter.Oversize := by
  refine ⟨⟨fun p hp => ?_, refuses_quietly 0, nofun⟩, nofun⟩
  obtain ⟨hmet, hup⟩ := h p hp
  exact ⟨hmet, by simp [hup]⟩

theorem calm_sendSyn : sendSyn.Calm Refuses TCPOverUDPSocketAdapter.Oversize :=
  calm_oneRound (by simp [met_quietly])

theorem calm_refused : ∀ op ∈ refused, op.Calm Refuses TCPOverUDPSocketAdapter.Oversize := by
  have hrst : Met Refuses TCPOverUDPSocketAdapter.Oversize
      { quietly 0 with datagram := ⟨.ok ⟨⟨2, 20⟩, refusal⟩, .ok 0⟩ } :=
    ⟨refuses_refusal, (met_quietly 0).datagrams, (met_quietly 0).errors⟩
  simp only [refused, List.forall_mem_cons, List.not_mem_nil, false_imp_iff, implies_true, and_true]
  exact ⟨calm_sendSyn, calm_oneRound (by simp [hrst]), calm_oneRound (by simp),
    calm_oneRound (by simp [met_quietly]), calm_oneRound (by simp)⟩

/-- The adapter of `client`. -/
theorem client_keeps : TCPOverUDPSocketAdapter.Keeps ⟨2, 20⟩ false []
    (Start.adapter .connect ({ sock := { address := ⟨1, 10⟩ } } : TCPOverUDPSocketAdapter)
      (⟨⟨1, 10⟩, ⟨2, 20⟩⟩ : FdAdapterConfig)) :=
  ⟨List.forall_mem_nil _, fun _ => rfl, nofun⟩

theorem client_contract : AdapterContract (TCPOverUDPSocketAdapter.Keeps ⟨2, 20⟩ false) Refuses
    (TCPSegment.Among [(TCPSegment.parse {} (Buffer.ofString refusal)).1])
    TCPOverUDPSocketAdapter.Oversize :=
  TCPOverUDPSocketAdapter.contract _ _ _ fun _ h => h

/-! ## The refinement -/

/-- **A socket is an endpoint.** Whatever the owner, the clock and the outside do, what happens to
the connection of a socket is what happens to an endpoint whose owner takes all segments off the
queue right away: it is never written to after `end_input_stream`, it receives only what the adapter
may return, and it takes all that the owner wrote. Nothing is thrown but what the outside answers, a
descriptor in error, or an answer that breaks the contract of `read` and `write`. -/
theorem run_refines (hc : AdapterContract J B Q sys) (mode : Start) (adapter : α)
    (config : TCPConfig) (adapterConfig : κ) (random : UInt32) (now : ℕ)
    (hJ : J [] (mode.adapter adapter adapterConfig)) (ops : List (Op ι))
    (hops : ∀ op ∈ ops, op.Met B sys True) :
    let p := exec Process.step (start mode adapter config adapterConfig random now) ops
    Path Endpoint.call (Endpoint.Permitted Q) (Endpoint.new config random) p.socket.endpoint ∧
      ∀ e, p.stage = .threw e → Throws sys e := by
  have hinv := Guarded.invariant
    (I := Process.Inv J Q sys True
      (initializeTCP (mode.adapter adapter adapterConfig) config random))
    (fun _ _ h hop => h.step hc hop)
    (start_inv hc True mode adapter config adapterConfig random now hJ) (guarded_of_mem hops _)
  obtain ⟨C, hC⟩ := hinv.socket
  exact ⟨hC.moved.mimics, hinv.throws⟩

theorem refines_of_refusal :
    (exec Process.step client refused).socket.tcp.active = false ∧
    Path Endpoint.call (Endpoint.Permitted
        (TCPSegment.Among [(TCPSegment.parse {} (Buffer.ofString refusal)).1]))
      (Endpoint.new {} 0) (exec Process.step client refused).socket.endpoint ∧
    ∀ e, (exec Process.step client refused).stage = .threw e →
      Throws TCPOverUDPSocketAdapter.Oversize e :=
  ⟨by decide +kernel, run_refines client_contract .connect _ _ _ _ _ client_keeps refused
    fun op hop => (calm_refused op hop).met⟩

/-! ## The end of the thread -/

/-- Nothing is left to do: the connection is over, every segment was sent, and every byte that
arrived was given to the owner, with the end of the stream. -/
structure Flushed (s : TCPSpongeSocket α) : Prop where
  inactive : s.tcp.active = false
  sent : s.tcp.segmentsOut = []
  given : s.tcp.inboundStream.contents = []
  shutdown : s.inboundShutdown = true

/-- A cancellation does not make an earlier rule interested. -/
theorem quiet_names : names.Pairwise fun k k' => ∀ s : TCPSpongeSocket α,
    (rule (ι := ι) k).interest s = false →
    (rule (ι := ι) k).interest ((rule (ι := ι) k').cancel s).1 = false := by
  simp only [names, List.pairwise_cons, List.mem_cons, List.not_mem_nil, or_false, forall_eq_or_imp,
    forall_eq, false_imp_iff, implies_true, List.Pairwise.nil, and_true]
  refine ⟨⟨fun s h => ?_, fun _ h => h, fun _ h => h⟩, ⟨fun _ h => h, fun _ h => h⟩, fun _ h => h⟩
  -- ending the outbound stream may make the connection inactive, but not active
  have h : s.tcp.activeFlag = false := h
  show s.tcp.endInputStream.activeFlag = false
  unfold TCPConnection.endInputStream
  rw [TCPConnection.sendSenderSegments_active]
  simp [h]

/-- **No rule is interested** any more, and no descriptor has hung up. -/
theorem Inv.flushed {keys : List Name} (h : Inv J Q False s₀ (EventLoop.gone keys) s)
    (hidle : ∀ k ∈ keys, (rule (ι := ι) k).interest s = false) :
    (fd s.datagramAdapter).eof = true ∨ (fd s.datagramAdapter).closed = true ∨ Flushed s := by
  have hthere : ∀ {k : Name}, k ∉ EventLoop.gone keys → (rule (ι := ι) k).interest s = false :=
    fun hk => hidle _ (not_not.1 hk)
  by_cases heof : (fd s.datagramAdapter).eof = true
  · exact .inl heof
  by_cases hclosed : (fd s.datagramAdapter).closed = true
  · exact .inr (.inl hclosed)
  have h1 : (rule (ι := ι) .readDatagram).interest s = false :=
    hthere fun hk => (h.noDatagrams hk).elim heof fun hk => hk.elim hclosed id
  have h3 : (rule (ι := ι) .writePipe).interest s = false := hthere h.noPipe
  have h4 : (rule (ι := ι) .writeDatagrams).interest s = false :=
    hthere fun hk => (h.noDevice hk).elim hclosed id
  have h3 : (!s.tcp.inboundStream.bufferEmpty || ((s.tcp.inboundStream.eof ||
    s.tcp.inboundStream.error) && !s.inboundShutdown)) = false := h3
  simp only [Bool.or_eq_false_iff, Bool.not_eq_false', Bool.and_eq_false_iff] at h3
  have hnil := s.tcp.inboundStream.bufferEmpty_iff.1 h3.1
  have hover : s.tcp.inboundStream.inputEnded = true ∨ s.tcp.inboundStream.error = true :=
    h.sound.regular.over h1
  refine .inr (.inr ⟨h1, ?_, hnil, ?_⟩)
  · have h4 : (!s.tcp.segmentsOut.isEmpty) = false := h4
    simpa using h4
  · rcases h3.2 with ⟨hno, herr⟩ | hdone
    · rcases hover with hend | hend
      · rw [s.tcp.inboundStream.eof_iff.2 ⟨hnil, hend⟩] at hno
        cases hno
      · rw [herr] at hend
        cases hend
    · exact hdone

/-- The thread ended by itself with nothing left to do, unless the device did. -/
def Process.Finished (p : Process α ι) : Prop :=
  p.stage = .closed → p.abort = true ∨ (fd p.socket.datagramAdapter).eof = true ∨
    (fd p.socket.datagramAdapter).closed = true ∨ Flushed p.socket

theorem Process.leave_stage (p : Process α ι) (now : ℕ) (shutdown : Except Exn Unit)
    (h : (p.leave now shutdown).stage = .closed) : p.stage = .running ∨ p.stage = .closed := by
  unfold Process.leave at h
  split at h
  · cases h
  · cases h
  · rename_i hstage
    exact .inl hstage
  · rename_i hstage
    exact .inr hstage
  · rename_i hstage
    rw [hstage] at h
    cases h
  · rename_i hstage
    rw [hstage] at h
    cases h

theorem Process.leave_socket (p : Process α ι) (now : ℕ) (shutdown : Except Exn Unit) :
    (p.leave now shutdown).socket = p.socket ∧ (p.leave now shutdown).abort = p.abort := by
  unfold Process.leave
  split
  · exact ⟨rfl, rfl⟩
  · exact ⟨rfl, rfl⟩
  · split <;> exact ⟨rfl, rfl⟩
  · exact ⟨rfl, rfl⟩
  · exact ⟨rfl, rfl⟩
  · exact ⟨rfl, rfl⟩

theorem Process.passTime_stage (p : Process α ι) (now : ℕ) (answer : ι)
    (h : (p.passTime now answer).stage = .closed) : p.stage = .closed := by
  unfold Process.passTime at h
  split at h
  · dsimp only at h
    split at h
    · cases h
    · cases h
    · exact h
  · exact h

/-- **A round** that ends the thread leaves nothing to do. -/
theorem Process.Inv.round_finished (hc : AdapterContract J B Q sys)
    (h : Process.Inv J Q sys False s₀ p) (hf : p.Finished) {poll : Poll (SocketAnswers ι)} (now : ℕ)
    (answer : ι) (shutdown : Except Exn Unit) (hA : EventLoop.Answers (Met B sys) False poll)
    (hint : poll ≠ .interrupted) : (p.round poll now answer shutdown).Finished := by
  unfold Process.round
  split
  · rename_i hcond
    have hlive := Stage.live_of_condition hcond
    have hnotclosed : p.stage ≠ .closed := by
      intro hstage
      rw [hstage] at hcond
      cases hcond
    obtain ⟨keys, hsub, hloop, hI⟩ := h.rules
    have hnd : keys.Nodup := hsub.nodup (by decide)
    obtain ⟨keys', heq, hw⟩ := EventLoop.waitNextEvent_waits rule keys hA p.socket
    obtain ⟨hafter, -⟩ := (cooperate hc False s₀).waited hw (EventLoop.apart_gone hnd) (hI hlive)
    rw [hloop]
    generalize EventLoop.waitNextEvent ⟨keys.map rule⟩ poll p.socket = out at heq hw hafter
    obtain ⟨loop', s', r⟩ := out
    cases r with
    | error e => exact nofun
    | ok result =>
      dsimp only at hw hafter ⊢
      split
      · rename_i hexit
        intro hclosed
        obtain ⟨hsocket, habort⟩ :=
          Process.leave_socket { p with eventloop := loop', socket := s' } now shutdown
        rw [hsocket, habort]
        by_cases ha : p.abort = true
        · exact .inl ha
        · obtain rfl : result = .exit := hexit.resolve_right ha
          have hI' := hafter.gone hw.sublist
          refine .inr (hI'.flushed (ι := ι) ?_)
          generalize hr : (.ok .exit : Except Exn EventLoop.Result) = r at hw
          cases hw with
          | threw | timeout => cases hr
          | interrupted hp => exact absurd hp hint
          | @served _ _ _ _ _ r => cases r <;> cases hr
          | @idle _ _ ks asks hidle =>
            intro k hk
            obtain ⟨⟨k, b⟩, hmem, rfl⟩ := List.mem_map.1 hk
            obtain rfl : b = false := hidle _ hmem
            exact asks.uninterested (quiet_names.sublist hsub) k hmem
      · intro hclosed
        exact absurd (Process.passTime_stage _ now answer hclosed) hnotclosed
  · rename_i hcond
    intro hclosed
    obtain ⟨hsocket, habort⟩ := Process.leave_socket p now shutdown
    rw [hsocket, habort]
    rcases Process.leave_stage p now shutdown hclosed with hstage | hstage
    · rw [hstage] at hcond
      exact absurd rfl hcond
    · exact hf hstage

/-- **The thread leaves nothing behind.** When nothing hangs up and `poll` is not interrupted,
`_tcp_main` returns only if the owner has destructed the socket, or the device came to its end, or
the connection is over, all its segments were sent and all that arrived was given to the owner. -/
theorem run_flushed (hc : AdapterContract J B Q sys) (mode : Start) (adapter : α)
    (config : TCPConfig) (adapterConfig : κ) (random : UInt32) (now : ℕ)
    (hJ : J [] (mode.adapter adapter adapterConfig)) (ops : List (Op ι))
    (hops : ∀ op ∈ ops, op.Calm B sys)
    (hclosed : (exec Process.step (start mode adapter config adapterConfig random now) ops).stage =
      .closed) :
    let p := exec Process.step (start mode adapter config adapterConfig random now) ops
    p.abort = true ∨ (fd p.socket.datagramAdapter).eof = true ∨
      (fd p.socket.datagramAdapter).closed = true ∨ Flushed p.socket := by
  have hstep : ∀ (p : Process α ι) (op : Op ι),
      Process.Inv J Q sys False
        (initializeTCP (mode.adapter adapter adapterConfig) config random) p ∧
        p.Finished → op.Calm B sys →
      Process.Inv J Q sys False (initializeTCP (mode.adapter adapter adapterConfig) config random)
        (p.step op) ∧ (p.step op).Finished := by
    intro p op h hop
    cases op with
    | round poll now answer shutdown =>
      exact ⟨h.1.step hc hop.1, h.1.round_finished hc h.2 now answer shutdown hop.1.1 hop.2⟩
    | abort => exact ⟨h.1.step hc trivial, fun _ => .inl rfl⟩
  have hinv := Guarded.invariant hstep
    ⟨start_inv hc False mode adapter config adapterConfig random now hJ, by
      cases mode <;> exact nofun⟩ (guarded_of_mem hops _)
  exact hinv.2 hclosed

theorem flushed_of_refusal :
    (exec Process.step client refused).stage = .closed ∧
    ((exec Process.step client refused).abort = true ∨
      (exec Process.step client refused).socket.datagramAdapter.sock.fd.eof = true ∨
      (exec Process.step client refused).socket.datagramAdapter.sock.fd.closed = true ∨
      Flushed (exec Process.step client refused).socket) := by
  have hclosed : (exec Process.step client refused).stage = .closed := by decide +kernel
  exact ⟨hclosed, run_flushed client_contract .connect _ _ _ _ _ client_keeps refused calm_refused
    hclosed⟩

/-- What the destructor of an active connection puts on its queue ends with an RST. -/
theorem destroy_rst {c : TCPConnection} (ha : c.active = true) :
    ∃ seg ∈ c.destroy.segmentsOut, seg.header.rst = true := by
  have hne : (c.aborted true).outgoing ≠ [] := by
    unfold TCPConnection.outgoing
    split
    · simp
    · rename_i h
      intro hnil
      simp [TCPConnection.aborted] at h
      exact h hnil
  obtain ⟨seg, rest, hout⟩ := List.exists_cons_of_ne_nil hne
  have hdestroy : c.destroy = (c.aborted true).sendSenderSegments := by
    unfold TCPConnection.destroy
    rw [if_pos ha]
    rfl
  refine ⟨TCPConnection.fillFields (c.aborted true).receiver true seg, ?_, ?_⟩
  · rw [hdestroy, TCPConnection.sendSenderSegments_segmentsOut, hout]
    exact List.mem_append_right _ (List.mem_cons_self ..)
  · rfl

/-- What is lost with the connection is what its destructor leaves on the queue. -/
def Process.Destroyed (p : Process α ι) : Prop :=
  p.stage = .closed → p.lost = p.socket.tcp.destroy.segmentsOut

theorem Process.Destroyed.leave {p : Process α ι} (h : p.Destroyed) (now : ℕ)
    (shutdown : Except Exn Unit) : (p.leave now shutdown).Destroyed := by
  unfold Process.leave
  split
  · exact nofun
  · exact nofun
  · split
    · exact nofun
    · exact fun _ => rfl
  · exact h
  · exact h
  · exact h

theorem Process.Destroyed.step {p : Process α ι} (h : p.Destroyed) (op : Op ι) :
    (p.step op).Destroyed := by
  cases op with
  | abort => exact h
  | round poll now answer shutdown =>
    show (p.round poll now answer shutdown).Destroyed
    unfold Process.round
    split
    · rename_i hcond
      have hnotclosed : p.stage ≠ .closed := by
        intro hstage
        rw [hstage] at hcond
        cases hcond
      split
      · exact nofun
      · rename_i loop s' result hwait
        have hstill : ({ p with eventloop := loop, socket := s' } : Process α ι).Destroyed :=
          fun hclosed => absurd hclosed hnotclosed
        split
        · exact hstill.leave now shutdown
        · intro hclosed
          exact absurd (Process.passTime_stage _ now answer hclosed) hnotclosed
    · exact h.leave now shutdown

/-- **A destructed socket sends no RST.** When the thread returns with the connection still active,
which only the owner, the device or an interruption of `poll` makes it do, no segment that was ever
given to the adapter has RST: the one that the destructor of the connection makes is on its queue,
which is destroyed with it. -/
theorem run_destructed (hc : AdapterContract J B Q sys) (mode : Start) (adapter : α)
    (config : TCPConfig) (adapterConfig : κ) (random : UInt32) (now : ℕ)
    (hJ : J [] (mode.adapter adapter adapterConfig)) (ops : List (Op ι))
    (hops : ∀ op ∈ ops, op.Met B sys True)
    (hclosed : (exec Process.step (start mode adapter config adapterConfig random now) ops).stage =
      .closed)
    (hactive : (exec Process.step (start mode adapter config adapterConfig random now)
      ops).socket.tcp.active = true) :
    let p := exec Process.step (start mode adapter config adapterConfig random now) ops
    (∀ seg ∈ p.socket.sent, seg.header.rst = false) ∧ ∃ seg ∈ p.lost, seg.header.rst = true := by
  have hinv := Guarded.invariant
    (I := fun p => Process.Inv J Q sys True
      (initializeTCP (mode.adapter adapter adapterConfig) config random) p ∧ p.Destroyed)
    (fun _ op h hop => ⟨h.1.step hc hop, h.2.step op⟩)
    ⟨start_inv hc True mode adapter config adapterConfig random now hJ, by
      cases mode <;> exact nofun⟩ (guarded_of_mem hops _)
  obtain ⟨C, hC⟩ := hinv.1.socket
  refine ⟨fun seg hseg => ?_, ?_⟩
  · exact hC.sound.regular.clean hactive seg (List.mem_append_left _ hseg)
  · rw [hinv.2 hclosed]
    exact destroy_rst hactive

/-- The SYN is sent, and the owner destructs the socket. -/
theorem destructed_of_connect :
    let p := exec Process.step client [sendSyn, .abort, oneRound [], oneRound []]
    p.socket.sent ≠ [] ∧ (∀ seg ∈ p.socket.sent, seg.header.rst = false) ∧
      ∃ seg ∈ p.lost, seg.header.rst = true := by
  refine ⟨by decide +kernel, run_destructed client_contract .connect _ _ _ _ _ client_keeps
    [sendSyn, .abort, oneRound [], oneRound []] ?_ (by decide +kernel) (by decide +kernel)⟩
  simp only [List.forall_mem_cons, List.not_mem_nil, false_imp_iff, implies_true, and_true]
  exact ⟨calm_sendSyn.met, trivial, (calm_oneRound (by simp)).met, (calm_oneRound (by simp)).met⟩

end TCPSpongeSocket

end Sponge
