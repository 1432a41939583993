import Sponge.Network
import Sponge.Proof.ConnectionData
import Sponge.Proof.ReceiverStream
import Sponge.Lib.Run

/-!
# Stream integrity, end to end

`Outbound` and `Inbound` are the two halves of an endpoint, each kept by every call: everything
emitted carries what was written (`Carries`), and the receiver holds bytes of what the other side
wrote (`Receives`). Together they are the invariant of the network, and `run_integrity` is what
follows for the application.
-/

namespace Sponge

open Run

namespace Endpoint

open TCPConnection
open TCPSender (Sends Carries)
open TCPReceiver (Receives)

variable {isn : WrappingInt32} {W : List UInt8} {e : Endpoint} {op : ConnOp}

/-! ## The two halves of an endpoint -/

/-- A segment that carries the bytes written at an endpoint. -/
def Genuine (isn : WrappingInt32) (e : Endpoint) (seg : TCPSegment) : Prop :=
  ∃ p ≤ e.written.length + 2, Carries isn e.written e.conn.sender.stream.inputEnded p seg

/-- The sending half: everything emitted is genuine. -/
structure Outbound (isn : WrappingInt32) (e : Endpoint) : Prop where
  base : Base e.conn
  drained : e.conn.segmentsOut = []
  sends : Sends isn e.written e.conn.sender
  emitted : ∀ seg ∈ e.emitted, Genuine isn e seg

/-- The receiving half, `W` being what the other side wrote: what was read and what is buffered are
bytes of `W`. -/
structure Inbound (isn : WrappingInt32) (W : List UInt8) (e : Endpoint) : Prop where
  receives : Receives isn W e.conn.receiver
  popped : e.popped = W.take e.conn.inboundStream.bytesRead

theorem new_outbound (cfg : TCPConfig) (random : UInt32) :
    Outbound (cfg.fixedIsn.getD ⟨random⟩) (new cfg random) :=
  ⟨new_base cfg random, rfl, TCPSender.new_sends _ _ _ _, List.forall_mem_nil _⟩

theorem new_inbound (isn : WrappingInt32) (cfg : TCPConfig) (random : UInt32) :
    Inbound isn [] (new cfg random) :=
  ⟨TCPReceiver.new_receives isn _, rfl⟩

/-- The numbers in use are the SYN's, those of the bytes written and the FIN's. -/
theorem next_le {s : TCPSender} (h : Sends isn W s) : s.nextSeqno ≤ W.length + 2 := by
  have hnext := h.data.counts.next
  have hlen := h.data.bytesRead_le
  split at hnext <;> split at hnext <;> omega

/-- **A call** keeps the sending half. -/
theorem Outbound.call (h : Outbound isn e) (hw : e.conn.writable op = true) :
    Outbound isn (e.call op) := by
  have hb := h.base.step op
  refine ⟨⟨hb.queue, hb.rst, hb.sender, hb.receiver, hb.link⟩, rfl,
    step_sends h.base h.sends (notLate_of_writable hw), fun seg hseg => ?_⟩
  rcases List.mem_append.1 hseg with hseg | hseg
  · obtain ⟨p, hp, hc⟩ := h.emitted seg hseg
    refine ⟨p, ?_, step_carries (notLate_of_writable hw) hc⟩
    show p ≤ (e.written ++ e.conn.accepted op).length + 2
    rw [List.length_append]
    omega
  · rcases step_emits h.base h.sends (notLate_of_writable hw) hseg with hold | hnew
    · rw [h.drained] at hold
      cases hold
    · obtain ⟨p, hp, hc⟩ := hnew
      exact ⟨p, Nat.le_trans hp (next_le (step_sends h.base h.sends (notLate_of_writable hw))), hc⟩

theorem Inbound.append (h : Inbound isn W e) (d : List UInt8) : Inbound isn (W ++ d) e := by
  refine ⟨h.receives.append d, ?_⟩
  rw [h.popped]
  exact (List.take_append_of_le_length h.receives.read_le).symm

/-- **A call** keeps the receiving half, if what it receives carries `W`. -/
theorem Inbound.call (h : Inbound isn W e) (op : ConnOp) (hW : W.length < 2 ^ 31)
    (hseg : ∀ seg, op = .segmentReceived seg → ∃ p < 2 ^ 31, ∃ ended, Carries isn W ended p seg) :
    Inbound isn W (e.call op) := by
  have hreceives : Receives isn W (e.conn.step op).receiver :=
    step_receiver h.receives op (fun _ hr => ⟨hr.inv.setError, hr.peer, hr.read_le⟩)
      (fun seg he _ _ => by
        obtain ⟨p, hp, ended, hc⟩ := hseg seg he
        exact h.receives.segmentReceived (TCPReceiver.cut_of_carries hc) (by omega) hW)
      (fun n _ => h.receives.popOutput n)
  refine ⟨hreceives, ?_⟩
  show e.popped ++ e.conn.taken op = W.take (e.conn.step op).receiver.streamOut.bytesRead
  by_cases hop : ∃ n, op = .read n
  · obtain ⟨n, rfl⟩ := hop
    show e.popped ++ (e.conn.inboundStream.read n).1 =
      W.take (e.conn.receiver.streamOut.popOutput n).bytesRead
    rw [ByteStream.bytesRead_popOutput, List.take_add, h.popped, ByteStream.read_fst]
    congr 1
    show e.conn.receiver.streamOut.contents.take n = _
    rw [← List.take_take, ← h.receives.contents_eq]
  · have htaken : e.conn.taken op = [] := by
      cases op with
      | read n => exact absurd ⟨n, rfl⟩ hop
      | connect | write | endInputStream | segmentReceived | tick | popSegment => rfl
    have hread : (e.conn.step op).receiver.streamOut.bytesRead =
        e.conn.receiver.streamOut.bytesRead :=
      step_receiver (I := fun r => r.streamOut.bytesRead = e.conn.receiver.streamOut.bytesRead)
        rfl op
        (fun _ hr => hr) (fun seg _ _ _ => TCPReceiver.segmentReceived_bytesRead h.receives.inv seg)
        (fun n he => absurd ⟨n, he⟩ hop)
    rw [htaken, List.append_nil, hread]
    exact h.popped

/-- What was read and what is buffered are a prefix of `W`. -/
theorem Inbound.delivered (h : Inbound isn W e) :
    e.popped ++ e.conn.inboundStream.contents <+: W := by
  have hcontents : e.conn.inboundStream.contents =
      (W.drop e.conn.inboundStream.bytesRead).take e.conn.inboundStream.contents.length :=
    h.receives.contents_eq
  rw [h.popped, hcontents, ← List.take_add]
  exact List.take_prefix _ W

end Endpoint

namespace Network

open Endpoint

variable {isn : Side → WrappingInt32} {net : Network} {op : NetOp}

/-! ## The network -/

/-- No application writes after `end_input_stream`. -/
def writable (net : Network) : NetOp → Bool
  | .app x (.write _) => !(net x).conn.sender.stream.inputEnded
  | _ => true

/-- No application writes after `end_input_stream`, and each writes less than `2 ^ 31 - 2` bytes. -/
def Allowed (net : Network) (op : NetOp) : Prop :=
  net.writable op = true ∧ (net.step op .a).written.length < 2 ^ 31 - 2 ∧
    (net.step op .b).written.length < 2 ^ 31 - 2

instance (net : Network) (op : NetOp) : Decidable (net.Allowed op) :=
  inferInstanceAs (Decidable (_ ∧ _))

/-- The invariant of the network. -/
structure Inv (isn : Side → WrappingInt32) (net : Network) : Prop where
  outbound : ∀ x, Outbound (isn x) (net x)
  inbound : ∀ x, Inbound (isn x.other) (net x.other).written (net x)
  small : ∀ x, (net x).written.length < 2 ^ 31 - 2

/-- The initial sequence numbers. -/
def isns (cfg : Side → TCPConfig) (random : Side → UInt32) (x : Side) : WrappingInt32 :=
  (cfg x).fixedIsn.getD ⟨random x⟩

theorem new_inv (cfg : Side → TCPConfig) (random : Side → UInt32) :
    Inv (isns cfg random) (new cfg random) :=
  ⟨fun x => new_outbound (cfg x) (random x), fun x => new_inbound _ (cfg x) (random x),
    fun _ => Nat.zero_lt_succ _⟩

/-- **One step** is a call on one side; what it receives is delivered by the network. -/
theorem step_cases (net : Network) (op : NetOp) : net.step op = net ∨
    ∃ x cop, net.step op = Function.update net x ((net x).call cop) ∧
      (net.writable op = true → (net x).conn.writable cop = true) ∧
      ∀ seg, cop = .segmentReceived seg →
        ∃ i, op = .deliver x i ∧ (net x.other).emitted[i]? = some seg := by
  unfold step
  cases op with
  | app x op =>
    refine .inr ⟨x, op.toConnOp, rfl, fun hw => ?_, fun seg he => ?_⟩
    · cases op with
      | write data => exact hw
      | connect | endInputStream | tick | read => rfl
    · cases op <;> cases he
  | deliver x i =>
    simp only [callOf]
    cases hi : (net x.other).emitted[i]? with
    | none => exact .inl rfl
    | some seg =>
      refine .inr ⟨x, .segmentReceived seg, rfl, fun _ => rfl, fun seg' he => ?_⟩
      cases he
      exact ⟨i, rfl, hi⟩

/-- What one side emitted carries what it wrote. -/
theorem Inv.genuine (h : Inv isn net) {x : Side} {seg : TCPSegment} {i : ℕ}
    (hi : (net x).emitted[i]? = some seg) : ∃ p < 2 ^ 31, TCPSender.Carries (isn x)
      (net x).written (net x).conn.sender.stream.inputEnded p seg := by
  obtain ⟨p, hp, hc⟩ := (h.outbound x).emitted seg (List.mem_of_getElem? hi)
  have := h.small x
  exact ⟨p, by omega, hc⟩

/-- **An allowed step** keeps the invariant. -/
theorem Inv.step (h : Inv isn net) (hop : net.Allowed op) : Inv isn (net.step op) := by
  obtain ⟨hw, ha, hb⟩ := hop
  have hsmall : ∀ x, (net.step op x).written.length < 2 ^ 31 - 2 := by
    intro x
    cases x
    · exact ha
    · exact hb
  obtain he | ⟨x, cop, he, hwrite, hseg⟩ := net.step_cases op
  · rw [he]
    exact h
  · rw [he] at hsmall ⊢
    have hlen := h.small x.other
    have hin := (h.inbound x).call cop (by omega) fun seg hs => by
      obtain ⟨i, -, hi⟩ := hseg seg hs
      obtain ⟨p, hp, hc⟩ := h.genuine hi
      exact ⟨p, hp, _, hc⟩
    have hout := (h.outbound x).call (hwrite hw)
    refine ⟨(Side.forall_iff x).2 ⟨?_, ?_⟩, (Side.forall_iff x).2 ⟨?_, ?_⟩, hsmall⟩
    · rw [Function.update_self]
      exact hout
    · rw [Function.update_of_ne x.other_ne]
      exact h.outbound x.other
    · rw [Function.update_self, Function.update_of_ne x.other_ne]
      exact hin
    · -- the other side receives, from a stream that may have grown
      have hother := h.inbound x.other
      rw [Side.other_other] at hother
      rw [Side.other_other, Function.update_self, Function.update_of_ne x.other_ne]
      exact hother.append _

/-- **Stream integrity**: what one side read, followed by what it still buffers, is a prefix of what
the other side wrote. -/
theorem run_integrity (cfg : Side → TCPConfig) (random : Side → UInt32) (ops : List NetOp)
    (hops : Guarded step Allowed (new cfg random) ops) (x : Side) :
    (exec step (new cfg random) ops x).popped ++
        (exec step (new cfg random) ops x).conn.inboundStream.contents <+:
      (exec step (new cfg random) ops x.other).written := by
  have hinv := Guarded.invariant (I := Inv (isns cfg random)) (fun _ _ h hop => h.step hop)
    (new_inv cfg random) hops
  exact (hinv.inbound x).delivered

/-- A handshake, and a byte that is delivered twice and read once. -/
theorem integrity_of_session :
    (exec step (new (fun _ => {}) (fun _ => 0))
      [.app .a .connect, .deliver .b 0, .deliver .a 0, .app .a (.write [97]), .deliver .b 1,
        .deliver .b 2, .deliver .b 2, .app .b (.read 5)] .b).popped = [97] ∧
    (exec step (new (fun _ => {}) (fun _ => 0))
        [.app .a .connect, .deliver .b 0, .deliver .a 0, .app .a (.write [97]), .deliver .b 1,
          .deliver .b 2, .deliver .b 2, .app .b (.read 5)] .b).popped ++
      (exec step (new (fun _ => {}) (fun _ => 0))
        [.app .a .connect, .deliver .b 0, .deliver .a 0, .app .a (.write [97]), .deliver .b 1,
          .deliver .b 2, .deliver .b 2, .app .b (.read 5)] .b).conn.inboundStream.contents <+:
      (exec step (new (fun _ => {}) (fun _ => 0))
        [.app .a .connect, .deliver .b 0, .deliver .a 0, .app .a (.write [97]), .deliver .b 1,
          .deliver .b 2, .deliver .b 2, .app .b (.read 5)] Side.b.other).written :=
  ⟨by decide, run_integrity _ _ _ (by decide) .b⟩

end Network

end Sponge
