import Sponge.Lib.Refine
import Sponge.Proof.EventLoop
import Sponge.Proof.PlainSegments
import Sponge.TCPSpongeSocket

/-!
# The rules of a socket

The connection never looks at its queue of segments (`step_queued`), so that a socket, whose loop
takes them off when it comes to it, can be compared with an endpoint that hands every segment over
at once: `endpoint`. What the socket relies on of its adapter is an `AdapterContract`. Under it
every callback is a few calls on the endpoint (`Did`), and the four rules work together:
`cooperate`.
-/

namespace Sponge

open Run

/-! ## The connection does not look at its queue -/

namespace TCPConnection

variable {c : TCPConnection} {q : List TCPSegment}

/-- The connection with `q` in front of its queue. -/
def queued (c : TCPConnection) (q : List TCPSegment) : TCPConnection :=
  { c with segmentsOut := q ++ c.segmentsOut }

/-- The connection whose owner has taken everything off the queue. -/
def drained (c : TCPConnection) : TCPConnection := { c with segmentsOut := [] }

theorem queued_drained (c : TCPConnection) : c.drained.queued c.segmentsOut = c := by
  simp [queued, drained]

theorem sendSenderSegments_queued (c : TCPConnection) (q : List TCPSegment) :
    (c.queued q).sendSenderSegments = c.sendSenderSegments.queued q := by
  rw [sendSenderSegments_eq, sendSenderSegments_eq, cleanShutdown_eq, cleanShutdown_eq]
  simp only [queued, List.append_assoc]
  rfl

theorem connect_queued (c : TCPConnection) (q : List TCPSegment) :
    (c.queued q).connect = c.connect.queued q :=
  sendSenderSegments_queued { c with sender := c.sender.fillWindow } q

theorem uncleanShutdown_queued (c : TCPConnection) (q : List TCPSegment) (rst : Bool) :
    (c.queued q).uncleanShutdown rst = (c.uncleanShutdown rst).queued q := by
  unfold uncleanShutdown
  rw [← sendSenderSegments_queued]
  rfl

theorem write_queued (c : TCPConnection) (q : List TCPSegment) (data : List UInt8) :
    (c.queued q).write data = ((c.write data).1, (c.write data).2.queued q) := by
  unfold write
  split
  · rfl
  · dsimp only
    rw [← sendSenderSegments_queued]
    rfl

theorem endInputStream_queued (c : TCPConnection) (q : List TCPSegment) :
    (c.queued q).endInputStream = c.endInputStream.queued q := by
  unfold endInputStream
  rw [← sendSenderSegments_queued]
  rfl

theorem queued_ite {p : Prop} [Decidable p] {c d : TCPConnection} {q : List TCPSegment} :
    (if p then c else d).queued q = if p then c.queued q else d.queued q :=
  apply_ite (queued · q) p c d

theorem listenReceived_queued (c : TCPConnection) (q : List TCPSegment) (seg : TCPSegment) :
    (c.queued q).listenReceived seg = (c.listenReceived seg).queued q := by
  unfold listenReceived
  rw [queued_ite, queued_ite, ← connect_queued]
  rfl

theorem simultaneousOpen_queued (c : TCPConnection) (q : List TCPSegment) (seg : TCPSegment) :
    (c.queued q).simultaneousOpen seg = (c.simultaneousOpen seg).queued q := by
  unfold simultaneousOpen
  rw [queued_ite, ← sendSenderSegments_queued]
  rfl

theorem exchange_queued (c : TCPConnection) (q : List TCPSegment) (seg : TCPSegment) :
    (c.queued q).exchange seg = (c.exchange seg).queued q := by
  unfold exchange
  dsimp only
  rw [queued_ite, ← sendSenderSegments_queued]
  rfl

theorem segmentReceived_queued (c : TCPConnection) (q : List TCPSegment) (seg : TCPSegment) :
    (c.queued q).segmentReceived seg = (c.segmentReceived seg).queued q := by
  unfold segmentReceived
  dsimp only
  simp only [queued_ite, ← listenReceived_queued, ← simultaneousOpen_queued, ← exchange_queued,
    ← uncleanShutdown_queued]
  rfl

theorem tick_queued (c : TCPConnection) (q : List TCPSegment) (ms : ℕ) :
    (c.queued q).tick ms = (c.tick ms).queued q := by
  unfold tick
  dsimp only
  rw [queued_ite, ← sendSenderSegments_queued, queued_ite, ← uncleanShutdown_queued]
  rfl

/-- **Every call** leaves what was on the queue in front of what it adds. -/
theorem step_queued (c : TCPConnection) (q : List TCPSegment) {op : ConnOp}
    (hop : op ≠ .popSegment) :
    (c.queued q).step op = (c.step op).queued q := by
  cases op with
  | connect => exact connect_queued c q
  | write data => exact congrArg Prod.snd (write_queued c q data)
  | endInputStream => exact endInputStream_queued c q
  | segmentReceived seg => exact segmentReceived_queued c q seg
  | tick ms => exact tick_queued c q ms
  | read n => rfl
  | popSegment => exact absurd rfl hop

end TCPConnection

/-! ## The endpoint of a socket -/

/-- The call leaves the queue to the endpoint, it does not write to a stream that has ended, and a
segment that it receives is in `Q`. -/
def Endpoint.Permitted (Q : TCPSegment → Prop) (e : Endpoint) (op : ConnOp) : Prop :=
  op ≠ .popSegment ∧ e.conn.writable op = true ∧ ∀ seg, op = .segmentReceived seg → Q seg

namespace TCPSpongeSocket

variable {α ι κ : Type} {s s' : TCPSpongeSocket α}

/-- What the socket is an implementation of: the segments on the queue count as emitted. -/
def endpoint (s : TCPSpongeSocket α) : Endpoint where
  conn := s.tcp.drained
  written := s.fromOwner
  popped := s.toOwner
  emitted := s.sent ++ s.tcp.segmentsOut

/-- A call on the connection is a call on the endpoint. -/
theorem endpoint_call {op : ConnOp} (hop : op ≠ .popSegment) (htcp : s'.tcp = s.tcp.step op)
    (hfrom : s'.fromOwner = s.fromOwner ++ s.tcp.accepted op)
    (hto : s'.toOwner = s.toOwner ++ s.tcp.taken op) (hsent : s'.sent = s.sent) :
    s'.endpoint = s.endpoint.call op := by
  have hstep : s'.tcp = (s.tcp.drained.step op).queued s.tcp.segmentsOut := by
    rw [htcp, ← TCPConnection.step_queued _ _ hop, TCPConnection.queued_drained]
  have haccepted : s.tcp.drained.accepted op = s.tcp.accepted op := by
    cases op with
    | write data => rw [TCPConnection.accepted_write, TCPConnection.accepted_write]; rfl
    | connect | endInputStream | segmentReceived | tick | read | popSegment => rfl
  have htaken : s.tcp.drained.taken op = s.tcp.taken op := by cases op <;> rfl
  simp only [endpoint, Endpoint.call, hfrom, hto, hsent, hstep, haccepted, htaken]
  simp [TCPConnection.drained, TCPConnection.queued]

/-! ## The contract of a datagram adapter -/

/-- The descriptor was used, and not closed. -/
structure Uses (fd fd' : FileDescriptor) : Prop where
  closed : fd'.closed = fd.closed
  eof : fd.eof = true → fd'.eof = true

theorem Uses.refl (fd : FileDescriptor) : Uses fd fd := ⟨rfl, id⟩

theorem Uses.trans {fd fd' fd'' : FileDescriptor} (h : Uses fd fd') (h' : Uses fd' fd'') :
    Uses fd fd'' :=
  ⟨h'.closed.trans h.closed, fun he => h'.eof (h.eof he)⟩

variable [DatagramAdapter α ι κ]

open DatagramAdapter (fd)

/-- What is relied on of a datagram adapter. `J L` is its invariant, `L` being the segments that the
connection has emitted; `B` are the answers of the outside, `Q` the segments that the adapter may
return, and `sys` the exceptions it may throw. -/
structure AdapterContract (J : List TCPSegment → α → Prop) (B : ι → Prop) (Q : TCPSegment → Prop)
    (sys : Exn → Prop) : Prop where
  mono : ∀ {L L' : List TCPSegment} {a : α}, J L a → (∀ seg ∈ L, seg ∈ L') → J L' a
  read : ∀ {L : List TCPSegment} {a : α} {i : ι}, J L a → B i →
    J L (DatagramAdapter.read a i).1 ∧ Uses (fd a) (fd (DatagramAdapter.read a i).1)
  returns : ∀ {L : List TCPSegment} {a : α} {i : ι} {seg : TCPSegment}, J L a → B i →
    (DatagramAdapter.read a i).2 = .ok (some seg) → Q seg
  counts : ∀ {L : List TCPSegment} {a : α} {i : ι} {seg : Option TCPSegment}, J L a → B i →
    (DatagramAdapter.read a i).2 = .ok seg →
      (fd a).readCount ≠ (fd (DatagramAdapter.read a i).1).readCount
  readThrows : ∀ {L : List TCPSegment} {a : α} {i : ι} {e : Exn}, J L a → B i →
    (DatagramAdapter.read a i).2 = .error e → sys e
  write : ∀ {L : List TCPSegment} {a : α} {seg : TCPSegment} {i : ι}, J L a → seg ∈ L → seg.Plain →
    B i → J L (DatagramAdapter.write a seg i).1 ∧ Uses (fd a) (fd (DatagramAdapter.write a seg i).1)
  writeThrows : ∀ {L : List TCPSegment} {a : α} {seg : TCPSegment} {i : ι} {e : Exn}, J L a →
    seg ∈ L → seg.Plain → B i → (DatagramAdapter.write a seg i).2 = .error e → sys e
  tick : ∀ {L : List TCPSegment} {a a' : α} {ms : ℕ} {i : ι} {r : Except Exn Unit}, J L a → B i →
    DatagramAdapter.tick a ms i = some (a', r) →
      J L a' ∧ Uses (fd a) (fd a') ∧ ∀ e, r = .error e → sys e

theorem AdapterContract.imp {J : List TCPSegment → α → Prop} {B B' : ι → Prop}
    {Q : TCPSegment → Prop} {sys : Exn → Prop} (hc : AdapterContract J B Q sys)
    (hB : ∀ i, B' i → B i) : AdapterContract J B' Q sys where
  mono := hc.mono
  read h hi := hc.read h (hB _ hi)
  returns h hi := hc.returns h (hB _ hi)
  counts h hi := hc.counts h (hB _ hi)
  readThrows h hi := hc.readThrows h (hB _ hi)
  write h hmem hplain hi := hc.write h hmem hplain (hB _ hi)
  writeThrows h hmem hplain hi := hc.writeThrows h hmem hplain (hB _ hi)
  tick h hi := hc.tick h (hB _ hi)

/-- The answers to a callback are as the contract expects them. -/
structure Met (B : ι → Prop) (sys : Exn → Prop) (answers : SocketAnswers ι) : Prop where
  datagram : B answers.datagram
  datagrams : ∀ n, B (answers.datagrams n)
  errors : ∀ e, answers.read = .error e ∨ answers.writev 0 = .error e ∨
    answers.shutdown = .error e → sys e

/-- What a callback can throw. -/
def Throws (sys : Exn → Prop) (e : Exn) : Prop :=
  sys e ∨ FileDescriptor.Fault e ∨ e = .runtimeError "EventLoop: error on polled file descriptor"

/-! ## What the callbacks do -/

/-- What every callback keeps: the outbound stream has ended exactly if `_outbound_shutdown` says
so. -/
structure Sound (J : List TCPSegment → α → Prop) (s : TCPSpongeSocket α) : Prop where
  regular : s.endpoint.Regular
  adapter : J s.endpoint.emitted s.datagramAdapter
  ended : s.outboundShutdown = s.tcp.sender.stream.inputEnded

/-- What every callback does. -/
structure Moves (Q : TCPSegment → Prop) (s s' : TCPSpongeSocket α) : Prop where
  mimics : Path Endpoint.call (Endpoint.Permitted Q) s.endpoint s'.endpoint
  device : Uses (fd s.datagramAdapter) (fd s'.datagramAdapter)
  pipe : Uses s.threadData s'.threadData

variable {J : List TCPSegment → α → Prop} {B : ι → Prop} {Q : TCPSegment → Prop} {sys : Exn → Prop}
  {answers : SocketAnswers ι} {op : ConnOp}

theorem Moves.refl (s : TCPSpongeSocket α) : Moves Q s s := ⟨.refl _, .refl _, .refl _⟩

theorem Moves.trans {s'' : TCPSpongeSocket α} (h : Moves Q s s') (h' : Moves Q s' s'') :
    Moves Q s s'' :=
  ⟨h.mimics.trans h'.mimics, h.device.trans h'.device, h.pipe.trans h'.pipe⟩

/-- A call on the connection, and nothing else. -/
theorem Sound.call (hc : AdapterContract J B Q sys) (h : Sound J s)
    (hcall : s'.endpoint = s.endpoint.call op) (hadapter : s'.datagramAdapter = s.datagramAdapter)
    (hout : s'.outboundShutdown = (s.outboundShutdown || decide (op = .endInputStream))) :
    Sound J s' := by
  refine ⟨by rw [hcall]; exact h.regular.call op, ?_, ?_⟩
  · rw [hadapter, hcall]
    exact hc.mono h.adapter fun seg hseg => List.mem_append_left _ hseg
  · have hconn := congrArg (fun e : Endpoint => e.conn.sender.stream.inputEnded) hcall
    have hended : s'.tcp.sender.stream.inputEnded =
        (s.tcp.drained.step op).sender.stream.inputEnded := hconn
    rw [hended, TCPConnection.step_outboundEnded, hout, h.ended]
    rfl

/-- The specification of a callback. -/
structure Did (J : List TCPSegment → α → Prop) (Q : TCPSegment → Prop) (sys : Exn → Prop)
    (s : TCPSpongeSocket α) (out : TCPSpongeSocket α × Except Exn Unit) : Prop where
  sound : Sound J out.1
  moves : Moves Q s out.1
  throws : ∀ e, out.2 = .error e → Throws sys e

theorem error_cases {E : Exn → Prop} {e : Exn} (he : E e) :
    ∀ e', (.error e : Except Exn Unit) = .error e' → E e' := by
  intro e' heq
  cases heq
  exact he

theorem ok_cases {E : Exn → Prop} : ∀ e, (.ok () : Except Exn Unit) = .error e → E e := by
  intro e heq
  cases heq

/-- Nothing happened but that the adapter was used. -/
theorem Sound.adapted {adapter : α} (h : Sound J s) (hJ : J s.endpoint.emitted adapter)
    (hfd : Uses (fd s.datagramAdapter) (fd adapter)) :
    Sound J { s with datagramAdapter := adapter } ∧
      Moves Q s { s with datagramAdapter := adapter } :=
  ⟨⟨h.regular, hJ, h.ended⟩, ⟨.refl _, hfd, .refl _⟩⟩

/-- **Rule 1.** -/
theorem readDatagram_did (hc : AdapterContract J B Q sys) (hA : Met B sys answers)
    (h : Sound J s) : Did J Q sys s (readDatagram answers s) := by
  obtain ⟨hJ, hfd⟩ := hc.read h.adapter hA.datagram
  have hQ : ∀ seg, (DatagramAdapter.read s.datagramAdapter answers.datagram).2 = .ok (some seg) →
      Q seg := fun _ hseg => hc.returns h.adapter hA.datagram hseg
  have hthrows : ∀ e, (DatagramAdapter.read s.datagramAdapter answers.datagram).2 = .error e →
      sys e := fun _ he => hc.readThrows h.adapter hA.datagram he
  unfold readDatagram
  generalize DatagramAdapter.read s.datagramAdapter answers.datagram = r at hJ hfd hQ hthrows
  obtain ⟨adapter, r⟩ := r
  obtain ⟨hsound, hmoves⟩ := h.adapted (Q := Q) hJ hfd
  cases r with
  | error e => exact ⟨hsound, hmoves, error_cases (.inl (hthrows e rfl))⟩
  | ok seg =>
    cases seg with
    | none =>
      exact ⟨⟨hsound.regular, hsound.adapter, hsound.ended⟩, ⟨hmoves.mimics, hfd, .refl _⟩,
        ok_cases⟩
    | some seg =>
      have hcall : endpoint { s with
          datagramAdapter := adapter
          tcp := s.tcp.segmentReceived seg
          fullyAcked := s.fullyAcked || (s.threadData.eof &&
            (s.tcp.segmentReceived seg).bytesInFlight == 0) } =
          s.endpoint.call (.segmentReceived seg) :=
        endpoint_call (by simp) rfl (by simp [TCPConnection.accepted])
          (by simp [TCPConnection.taken]) rfl
      refine ⟨⟨?_, ?_, ?_⟩, ⟨?_, hfd, .refl _⟩, ok_cases⟩
      · dsimp only
        rw [hcall]
        exact h.regular.call _
      · dsimp only
        rw [hcall]
        exact hc.mono hJ fun seg hseg => List.mem_append_left _ hseg
      · show s.outboundShutdown = (s.tcp.step (.segmentReceived seg)).sender.stream.inputEnded
        rw [TCPConnection.step_outboundEnded, h.ended]
        simp
      · dsimp only
        rw [hcall]
        refine .single ⟨by simp, rfl, ?_⟩
        intro seg' heq
        cases heq
        exact hQ seg rfl

/-- It reads a datagram. -/
theorem readDatagram_counts (hc : AdapterContract J B Q sys) (hA : Met B sys answers)
    (h : Sound J s) (hok : (readDatagram answers s).2 = .ok ()) :
    (fd s.datagramAdapter).readCount ≠
      (fd (readDatagram answers s).1.datagramAdapter).readCount := by
  have hcounts : ∀ seg, (DatagramAdapter.read s.datagramAdapter answers.datagram).2 = .ok seg →
      (fd s.datagramAdapter).readCount ≠
        (fd (DatagramAdapter.read s.datagramAdapter answers.datagram).1).readCount :=
    fun _ hseg => hc.counts h.adapter hA.datagram hseg
  unfold readDatagram at hok ⊢
  generalize DatagramAdapter.read s.datagramAdapter answers.datagram = r at hcounts hok
  obtain ⟨adapter, r⟩ := r
  cases r with
  | error e => cases hok
  | ok seg =>
    cases seg with
    | none => exact hcounts none rfl
    | some seg => exact hcounts (some seg) rfl

/-- `write` takes all that there is room for. -/
theorem write_fits (c : TCPConnection) {data : List UInt8}
    (hlen : data.length ≤ c.remainingOutboundCapacity) : (c.write data).1 = data.length := by
  unfold TCPConnection.write
  split
  · rename_i hnil
    rw [List.isEmpty_iff.1 hnil]
    rfl
  · show (c.sender.stream.write data).1 = data.length
    rw [ByteStream.write_fst]
    exact Nat.min_eq_left hlen

/-- The end of the outbound stream. -/
theorem Sound.endInputStream (hc : AdapterContract J B Q sys) (h : Sound J s) :
    Sound J { s with tcp := s.tcp.endInputStream, outboundShutdown := true } ∧
      Moves Q s { s with tcp := s.tcp.endInputStream, outboundShutdown := true } := by
  have hcall : endpoint { s with tcp := s.tcp.endInputStream, outboundShutdown := true } =
      s.endpoint.call .endInputStream :=
    endpoint_call (by simp) rfl (by simp [TCPConnection.accepted]) (by simp [TCPConnection.taken])
      rfl
  refine ⟨h.call hc hcall rfl (by simp), ⟨?_, .refl _, .refl _⟩⟩
  rw [hcall]
  exact .single ⟨by simp, rfl, by simp⟩

/-- **Rule 2**: what was read is written as a whole. -/
theorem readPipe_did (hc : AdapterContract J B Q sys) (hA : Met B sys answers) (h : Sound J s)
    (hopen : s.outboundShutdown = false) : Did J Q sys s (readPipe answers s) := by
  unfold readPipe
  rcases s.threadData.read_cases s.tcp.remainingOutboundCapacity answers.read with
    ⟨e, he, hread⟩ | ⟨data, -, hlen, hread⟩
  · rw [hread]
    exact ⟨⟨h.regular, h.adapter, h.ended⟩, .refl s,
      error_cases (he.elim (fun he => .inl (hA.errors e (.inl he))) fun he => .inr (.inl he))⟩
  · rw [hread]
    have hfits := write_fits s.tcp hlen
    generalize hfd : ({ s.threadData with
      eof := s.threadData.eof || decide (s.tcp.remainingOutboundCapacity > 0 ∧ data.length = 0)
      readCount := s.threadData.readCount + 1 } : FileDescriptor) = threadData
    have huses : Uses s.threadData threadData := by
      rw [← hfd]
      exact ⟨rfl, fun he => by simp [he]⟩
    have hcall : endpoint { s with
        threadData := threadData, fromOwner := s.fromOwner ++ data, tcp := (s.tcp.write data).2 } =
        s.endpoint.call (.write data) :=
      endpoint_call (by simp) rfl (by
        rw [TCPConnection.accepted_write]
        exact congrArg _ (List.take_of_length_le hlen).symm) (by simp [TCPConnection.taken]) rfl
    have hsound : Sound J { s with
        threadData := threadData, fromOwner := s.fromOwner ++ data, tcp := (s.tcp.write data).2 } :=
      h.call hc hcall rfl (by simp)
    have hmoves : Moves Q s { s with
        threadData := threadData, fromOwner := s.fromOwner ++ data,
        tcp := (s.tcp.write data).2 } := by
      refine ⟨?_, .refl _, huses⟩
      rw [hcall]
      refine .single ⟨by simp, ?_, by simp⟩
      have hended : s.tcp.sender.stream.inputEnded = false := h.ended.symm.trans hopen
      simp [TCPConnection.writable, endpoint, TCPConnection.drained, hended]
    dsimp only
    rw [if_neg (not_not.2 hfits)]
    split
    · obtain ⟨hsound', hmoves'⟩ := hsound.endInputStream (Q := Q) hc
      exact ⟨hsound', hmoves.trans hmoves', ok_cases⟩
    · exact ⟨hsound, hmoves, ok_cases⟩

/-- **Rule 3**: what was written is taken off the inbound stream. -/
theorem writePipe_did (hc : AdapterContract J B Q sys) (hA : Met B sys answers) (h : Sound J s) :
    Did J Q sys s (writePipe answers s) := by
  unfold writePipe
  dsimp only
  generalize hbuffer : s.tcp.inboundStream.peekOutput (min 65536 s.tcp.inboundStream.bufferSize) =
    buffer
  rcases s.threadData.write_once (.ofString buffer) answers.writev with
    ⟨e, he, hwrite⟩ | ⟨n, rest, hn, -, hwrite⟩
  · rw [hwrite]
    exact ⟨⟨h.regular, h.adapter, h.ended⟩, .refl s,
      error_cases (he.elim (fun he => .inl (hA.errors e (.inr (.inl he))))
        fun he => .inr (.inl he))⟩
  · rw [hwrite]
    have htaken : buffer.take n = s.tcp.taken (.read n) := by
      rw [BufferViewList.size_eq] at hn
      simp only [BufferViewList.ofString, List.flatten_cons, List.flatten_nil, List.append_nil,
        ← hbuffer, ByteStream.peekOutput_eq, List.length_take] at hn
      rw [← hbuffer, ByteStream.peekOutput_eq, List.take_take, Nat.min_eq_left (by omega)]
      exact (ByteStream.peekOutput_eq _ n).symm
    have hcall : endpoint { s with
        threadData := s.threadData.registerWrite, tcp := s.tcp.read n
        toOwner := s.toOwner ++ buffer.take n } = s.endpoint.call (.read n) :=
      endpoint_call (by simp) rfl (by simp [TCPConnection.accepted]) (congrArg _ htaken) rfl
    have hsound : Sound J { s with
        threadData := s.threadData.registerWrite, tcp := s.tcp.read n
        toOwner := s.toOwner ++ buffer.take n } := h.call hc hcall rfl (by simp)
    have hmoves : Moves Q s { s with
        threadData := s.threadData.registerWrite, tcp := s.tcp.read n
        toOwner := s.toOwner ++ buffer.take n } := by
      refine ⟨?_, .refl _, ⟨rfl, id⟩⟩
      rw [hcall]
      exact .single ⟨by simp, rfl, by simp⟩
    dsimp only
    split
    · unfold FileDescriptor.shutdownWrite
      cases hs : answers.shutdown with
      | error e =>
        exact ⟨⟨hsound.regular, hsound.adapter, hsound.ended⟩,
          ⟨hmoves.mimics, hmoves.device, hmoves.pipe⟩,
          error_cases (.inl (hA.errors e (.inr (.inr hs))))⟩
      | ok =>
        exact ⟨⟨hsound.regular, hsound.adapter, hsound.ended⟩,
          ⟨hmoves.mimics, hmoves.device, ⟨rfl, id⟩⟩, ok_cases⟩
    · exact ⟨hsound, hmoves, ok_cases⟩

/-- It uses the pipe. -/
theorem writePipe_counts (answers : SocketAnswers ι) (s : TCPSpongeSocket α)
    (hok : (writePipe answers s).2 = .ok ()) :
    s.threadData.writeCount ≠ (writePipe answers s).1.threadData.writeCount := by
  unfold writePipe at hok ⊢
  dsimp only at hok ⊢
  rcases s.threadData.write_once (.ofString (s.tcp.inboundStream.peekOutput
    (min 65536 s.tcp.inboundStream.bufferSize))) answers.writev with
    ⟨e, he, hwrite⟩ | ⟨n, rest, hn, -, hwrite⟩
  · rw [hwrite] at hok
    cases hok
  · rw [hwrite] at hok ⊢
    dsimp only at hok ⊢
    split
    · rename_i heof
      rw [if_pos heof] at hok
      unfold FileDescriptor.shutdownWrite at hok ⊢
      cases hs : answers.shutdown with
      | error e =>
        rw [hs] at hok
        cases hok
      | ok => exact (FileDescriptor.writeCount_twice _).symm
    · exact (FileDescriptor.writeCount_once _).symm

/-- The loop of rule 4: the segments go from the queue to the adapter. -/
theorem sendSegments_did (hc : AdapterContract J B Q sys) (segs : List TCPSegment)
    (datagrams : ℕ → ι) (hB : ∀ n, B (datagrams n)) (h : Sound J s)
    (hq : s.tcp.segmentsOut = segs) :
    Did J Q sys s (sendSegments segs datagrams s) ∧
      (sendSegments segs datagrams s).1.outboundShutdown = s.outboundShutdown ∧
      (sendSegments segs datagrams s).1.threadData = s.threadData ∧
      ((sendSegments segs datagrams s).2 = .ok () →
        (sendSegments segs datagrams s).1.tcp.segmentsOut = []) := by
  induction segs generalizing s datagrams with
  | nil => exact ⟨⟨h, .refl s, ok_cases⟩, rfl, rfl, fun _ => hq⟩
  | cons seg rest ih =>
    have hmem : seg ∈ s.endpoint.emitted := by simp [endpoint, hq]
    have hplain := h.regular.plain seg hmem
    obtain ⟨hJ, hfd⟩ := hc.write h.adapter hmem hplain (hB 0)
    have hthrows : ∀ e, (DatagramAdapter.write s.datagramAdapter seg (datagrams 0)).2 = .error e →
        sys e := fun _ he => hc.writeThrows h.adapter hmem hplain (hB 0) he
    unfold sendSegments
    generalize DatagramAdapter.write s.datagramAdapter seg (datagrams 0) = r at hJ hfd hthrows
    obtain ⟨adapter, r⟩ := r
    cases r with
    | error e =>
      obtain ⟨hsound, hmoves⟩ := h.adapted (Q := Q) hJ hfd
      exact ⟨⟨hsound, hmoves, error_cases (.inl (hthrows e rfl))⟩, rfl, rfl, nofun⟩
    | ok =>
      -- popping a segment that was written does not change what was emitted
      have hsame : endpoint { s with
          datagramAdapter := adapter, tcp := s.tcp.step .popSegment, sent := s.sent ++ [seg] } =
          s.endpoint := by
        simp [endpoint, TCPConnection.step, TCPConnection.drained, hq]
      have hsound : Sound J { s with
          datagramAdapter := adapter, tcp := s.tcp.step .popSegment, sent := s.sent ++ [seg] } :=
        ⟨by rw [hsame]; exact h.regular, by rw [hsame]; exact hJ, h.ended⟩
      obtain ⟨hdid, hout, hpipe, hnil⟩ :=
        ih (fun n => datagrams (n + 1)) (fun n => hB (n + 1)) hsound
        (by simp [TCPConnection.step, hq])
      refine ⟨⟨hdid.sound, ?_, hdid.throws⟩, hout, hpipe, hnil⟩
      refine ⟨?_, hfd.trans hdid.moves.device, hdid.moves.pipe⟩
      rw [← hsame]
      exact hdid.moves.mimics

/-- **Rule 4.** -/
theorem writeDatagrams_did (hc : AdapterContract J B Q sys) (hA : Met B sys answers)
    (h : Sound J s) : Did J Q sys s (writeDatagrams answers s) :=
  (sendSegments_did hc s.tcp.segmentsOut answers.datagrams hA.datagrams h rfl).1

/-! ## The rules cooperate -/

/-- The invariant of a socket that started as `s₀`, with the rules `C` cancelled; `H` allows
hangups. -/
structure Inv (J : List TCPSegment → α → Prop) (Q : TCPSegment → Prop) (H : Prop)
    (s₀ : TCPSpongeSocket α) (C : Set Name) (s : TCPSpongeSocket α) : Prop where
  sound : Sound J s
  moved : Moves Q s₀ s
  pipeOpen : s.threadData.closed = false
  noDatagrams : .readDatagram ∈ C →
    (fd s.datagramAdapter).eof = true ∨ (fd s.datagramAdapter).closed = true ∨ H
  noPipe : .writePipe ∈ C → H
  noDevice : .writeDatagrams ∈ C → (fd s.datagramAdapter).closed = true ∨ H

/-- Rule 2 relies on the outbound stream not being shut down. -/
def Ready : Name → TCPSpongeSocket α → Prop
  | .readPipe, s => s.outboundShutdown = false
  | .readDatagram, _ | .writePipe, _ | .writeDatagrams, _ => True

variable {H : Prop} {s₀ : TCPSpongeSocket α} {C : Set Name}

theorem Inv.moves (h : Inv J Q H s₀ C s) (hsound : Sound J s') (hm : Moves Q s s') :
    Inv J Q H s₀ C s' := by
  refine ⟨hsound, h.moved.trans hm, hm.pipe.closed.trans h.pipeOpen, fun hk => ?_, h.noPipe,
    fun hk => ?_⟩
  · rcases h.noDatagrams hk with he | he | hup
    · exact .inl (hm.device.eof he)
    · exact .inr (.inl (hm.device.closed.trans he))
    · exact .inr (.inr hup)
  · rcases h.noDevice hk with he | hup
    · exact .inl (hm.device.closed.trans he)
    · exact .inr hup

/-- **Every callback.** -/
theorem callback_did (hc : AdapterContract J B Q sys) (hA : Met B sys answers) (h : Sound J s)
    {k : Name} (hready : Ready k s) : Did J Q sys s ((rule k).callback answers s) := by
  cases k with
  | readDatagram => exact readDatagram_did hc hA h
  | readPipe => exact readPipe_did hc hA h hready
  | writePipe => exact writePipe_did hc hA h
  | writeDatagrams => exact writeDatagrams_did hc hA h

theorem Inv.cancel (hc : AdapterContract J B Q sys) (h : Inv J Q H s₀ C s) {k : Name}
    (hwhy : (rule k).Dead s ∨ H) : Inv J Q H s₀ (insert k C) ((rule k).cancel s).1 := by
  have hmem : ∀ {k' : Name}, k' ≠ k → k' ∈ insert k C → k' ∈ C :=
    fun hne hk' => Set.mem_of_mem_insert_of_ne hk' hne
  cases k with
  | readDatagram =>
    refine ⟨h.sound, h.moved, h.pipeOpen, fun _ => ?_, fun hk => h.noPipe (hmem (by simp) hk),
      fun hk => h.noDevice (hmem (by simp) hk)⟩
    rcases hwhy with (⟨-, heof⟩ | hclosed) | hup
    · exact .inl heof
    · exact .inr (.inl hclosed)
    · exact .inr (.inr hup)
  | readPipe =>
    obtain ⟨hsound, hmoves⟩ := h.sound.endInputStream (Q := Q) hc
    have h' := h.moves hsound hmoves
    exact ⟨h'.sound, h'.moved, h'.pipeOpen, fun hk => h'.noDatagrams (hmem (by simp) hk),
      fun hk => h'.noPipe (hmem (by simp) hk), fun hk => h'.noDevice (hmem (by simp) hk)⟩
  | writePipe =>
    refine ⟨h.sound, h.moved, h.pipeOpen, fun hk => h.noDatagrams (hmem (by simp) hk), fun _ => ?_,
      fun hk => h.noDevice (hmem (by simp) hk)⟩
    rcases hwhy with hdead | hup
    · have hclosed : s.threadData.closed = true := hdead.closed rfl
      rw [h.pipeOpen] at hclosed
      cases hclosed
    · exact hup
  | writeDatagrams =>
    refine ⟨h.sound, h.moved, h.pipeOpen, fun hk => h.noDatagrams (hmem (by simp) hk),
      fun hk => h.noPipe (hmem (by simp) hk), fun _ => ?_⟩
    rcases hwhy with hdead | hup
    · exact .inl (hdead.closed rfl)
    · exact .inr hup

/-- Only rule 2 shuts the outbound stream down. -/
theorem callback_outboundShutdown (hc : AdapterContract J B Q sys) (hA : Met B sys answers)
    (h : Sound J s) {k : Name} (hne : k ≠ .readPipe) :
    ((rule k).callback answers s).1.outboundShutdown = s.outboundShutdown := by
  cases k with
  | readDatagram =>
    show (readDatagram answers s).1.outboundShutdown = s.outboundShutdown
    unfold readDatagram
    generalize DatagramAdapter.read s.datagramAdapter answers.datagram = r
    obtain ⟨adapter, _ | _ | _⟩ := r <;> rfl
  | readPipe => exact absurd rfl hne
  | writePipe =>
    show (writePipe answers s).1.outboundShutdown = s.outboundShutdown
    unfold writePipe FileDescriptor.shutdownWrite
    dsimp only
    split
    · rfl
    · split
      · cases answers.shutdown <;> rfl
      · rfl
  | writeDatagrams =>
    exact (sendSegments_did hc s.tcp.segmentsOut answers.datagrams hA.datagrams h rfl).2.1

/-- A callback that returns has used its descriptor, or has nothing more to do. -/
theorem callback_serves (hc : AdapterContract J B Q sys) (hA : Met B sys answers) (h : Sound J s)
    (k : Name) (hok : ((rule k).callback answers s).2 = .ok ()) :
    (rule k).serviceCount s ≠ (rule k).serviceCount ((rule k).callback answers s).1 ∨
      (rule k).interest ((rule k).callback answers s).1 = false := by
  cases k with
  | readDatagram => exact .inl (readDatagram_counts hc hA h hok)
  | readPipe =>
    left
    show s.threadData.readCount ≠ (readPipe answers s).1.threadData.readCount
    have hok : (readPipe answers s).2 = .ok () := hok
    unfold readPipe at hok ⊢
    rcases s.threadData.read_cases s.tcp.remainingOutboundCapacity answers.read with
      ⟨e, -, hread⟩ | ⟨data, -, -, hread⟩
    · rw [hread] at hok
      cases hok
    · rw [hread]
      dsimp only
      split
      · simp
      · split <;> simp
  | writePipe => exact .inl (writePipe_counts answers s hok)
  | writeDatagrams =>
    right
    have hdid := sendSegments_did hc s.tcp.segmentsOut answers.datagrams hA.datagrams h rfl
    have hnil := hdid.2.2.2 hok
    show (!(writeDatagrams answers s).1.tcp.segmentsOut.isEmpty) = false
    rw [show (writeDatagrams answers s).1.tcp.segmentsOut = [] from hnil]
    rfl

/-- **The four rules cooperate.** -/
theorem cooperate (hc : AdapterContract J B Q sys) (H : Prop) (s₀ : TCPSpongeSocket α) :
    EventLoop.Cooperate (rule (α := α)) (Met B sys) H (Inv J Q H s₀) Ready (Throws sys) where
  asks C k s _ _ _ hint := by
    cases k with
    | readPipe =>
      have hint : (s.tcp.active && !s.outboundShutdown &&
        decide (s.tcp.remainingOutboundCapacity > 0)) = true := hint
      simp only [Bool.and_eq_true, Bool.not_eq_true'] at hint
      exact hint.1.2
    | readDatagram | writePipe | writeDatagrams => trivial
  callback _ _ _ _ hA hI _ hready :=
    let hdid := callback_did hc hA hI.sound hready
    hI.moves hdid.sound hdid.moves
  cancel _ _ _ hI _ hwhy := hI.cancel hc hwhy
  others C k k' i s hA hne hI _ hready := by
    cases k' with
    | readPipe => exact (callback_outboundShutdown hc hA hI.sound hne).trans hready
    | readDatagram | writePipe | writeDatagrams => trivial
  othersCancel C k k' s hne _ hready := by
    cases k' with
    | readPipe => cases k <;> first | exact hready | exact absurd rfl hne
    | readDatagram | writePipe | writeDatagrams => trivial
  serves _ k _ _ hA hI _ hok := callback_serves hc hA hI.sound k hok
  throws _ _ _ _ e hA hI hready he := (callback_did hc hA hI.sound hready).throws e he
  throwsCancel C k s e _ he := by cases k <;> cases he
  polled := .inr (.inr rfl)

end TCPSpongeSocket

end Sponge
