import Sponge.Proof.Emission
import Sponge.Proof.ReceiverAck
import Sponge.Proof.ReceiverStream

/-!
# The advertised right edge

An emitted segment with the ACK flag announces `ackno + win`. With the window size in `win`, this is
the capacity past the bytes read, and one or two more (`AckInv.edge_eq`): it never moves left,
unless the inbound stream gets a new byte after its end. `win` has 16 bits, so that the announcement
is smaller when the window size has more, and then it can move left. `run_right_edge`: it does not,
as long as no byte reopens the stream (`Settled`) and what the 16 bits leave out does not grow from
one announcement to the next (`CutsNoMore`).
-/

namespace Sponge

open Run

namespace TCPReceiver

variable {r : TCPReceiver} {seg : TCPSegment} {isn : WrappingInt32} {W : List UInt8} {p : ℕ}

/-! ## The receiver's edge -/

/-- The absolute number past the window. -/
def edge (r : TCPReceiver) : ℕ := r.streamOut.bytesRead + r.reassembler.capacity + r.ahead

/-- `ackno` and the window size reach the edge. -/
theorem AckInv.edge_eq (h : AckInv r) :
    r.reassembler.firstUnassembled + r.ahead + r.windowSize = r.edge := by
  have hedge : r.reassembler.firstUnassembled + r.windowSize = _ := h.inv.edge_eq
  unfold edge
  omega

theorem segmentReceived_capacity {Q : ℕ → UInt8 → Prop} (h : Inv Q r) (seg : TCPSegment) :
    (r.segmentReceived seg).reassembler.capacity = r.reassembler.capacity := by
  by_cases hd : r.Drops seg
  · rw [segmentReceived_of_drops hd]
  · exact (h.pushed hd).2.capacity

theorem AckInv.ahead_mono {r' : TCPReceiver} (h : AckInv r) (h' : AckInv r')
    (hend : r.streamOut.inputEnded = true → r'.streamOut.inputEnded = true) :
    r.ahead ≤ r'.ahead := by
  cases he : r.streamOut.inputEnded with
  | true => rw [h.ahead_eq, h'.ahead_eq, he, hend he]
  | false =>
    rw [h.ahead_eq, he]
    exact r'.one_le_ahead

/-- The receiver of the peer's stream `W`, with the acknowledgment number that its cursor gives. -/
structure Tracks (isn : WrappingInt32) (W : List UInt8) (r : TCPReceiver) : Prop where
  ack : AckInv r
  receives : Receives isn W r

/-- **A segment of the stream** that does not reopen it keeps this, and neither the acknowledgment
number nor the edge moves left. -/
theorem Tracks.segmentReceived (h : Tracks isn W r) (hc : Cut isn W p seg) (hp : p < 2 ^ 32 - 1)
    (hW : W.length < 2 ^ 31) (hstays : ¬ r.Reopens seg) :
    Tracks isn W (r.segmentReceived seg) ∧ r.absAckno ≤ (r.segmentReceived seg).absAckno ∧
      r.edge ≤ (r.segmentReceived seg).edge := by
  have hreceives := h.receives.segmentReceived hc hp hW
  have hsmall : r.Small (.segment seg) := by
    show (r.segmentReceived seg).streamOut.bytesWritten < 2 ^ 31
    rw [hreceives.inv.bytesWritten_eq]
    exact Nat.lt_of_le_of_lt hreceives.cursor_le hW
  obtain ⟨hkeep, hadv⟩ := h.ack.step hsmall
  have hack : AckInv (r.segmentReceived seg) := hkeep hstays
  have hadv : r.Advances (r.segmentReceived seg) := hadv.2 hstays
  refine ⟨⟨hack, hreceives⟩, hadv.2.1, ?_⟩
  have hahead := h.ack.ahead_mono hack fun hend => (hadv.2.2 hend).1
  unfold edge
  rw [segmentReceived_bytesRead h.ack.inv, segmentReceived_capacity h.ack.inv]
  omega

theorem Tracks.popOutput (h : Tracks isn W r) (n : ℕ) :
    Tracks isn W (r.popOutput n) ∧ r.edge ≤ (r.popOutput n).edge := by
  refine ⟨⟨(h.ack.read n).1, h.receives.popOutput n⟩, ?_⟩
  have hread : (r.popOutput n).streamOut.bytesRead = (r.streamOut.popOutput n).bytesRead := rfl
  have hcap : (r.popOutput n).reassembler.capacity = r.reassembler.capacity := rfl
  have hahead : (r.popOutput n).ahead = r.ahead := rfl
  unfold edge
  rw [hread, ByteStream.bytesRead_popOutput, hcap, hahead]
  omega

theorem Tracks.setError (h : Tracks isn W r) : Tracks isn W { r with reassembler :=
    { r.reassembler with output := r.reassembler.output.setError } } :=
  ⟨⟨h.ack.inv.setError, h.ack.fin, h.ack.ackno, h.ack.ended⟩,
    ⟨h.receives.inv.setError, h.receives.peer, h.receives.read_le⟩⟩

end TCPReceiver

namespace TCPConnection

open TCPReceiver (Cut Tracks)

variable {c : TCPConnection} {op : ConnOp} {isn : WrappingInt32} {W : List UInt8} {seg : TCPSegment}

/-! ## What is announced -/

/-- The right edge that a segment announces to a peer with initial number `isn`. -/
def rightEdge (isn : WrappingInt32) (seg : TCPSegment) : ℕ :=
  (seg.header.ackno.rawValue - isn.rawValue).toNat + seg.header.win.toNat

/-- The right edges announced in a call. -/
def announces (isn : WrappingInt32) (c : TCPConnection) (op : ConnOp) : List ℕ :=
  ((c.emitted op).filter fun seg => seg.header.ack).map (rightEdge isn)

/-- What is announced does not exceed what the receiver offers after the call. -/
def WithinOffer (isn : WrappingInt32) (c : TCPConnection) (op : ConnOp) : Prop :=
  ∀ seg ∈ c.emitted op, seg.header.ack = true → rightEdge isn seg ≤
    (seg.header.ackno.rawValue - isn.rawValue).toNat + (c.step op).receiver.windowSize

/-- What `win` leaves out of the window size after the call, in units of `2 ^ 16`. -/
def cutOff (c : TCPConnection) (op : ConnOp) : ℕ := (c.step op).receiver.windowSize / 2 ^ 16

/-- What is received brings no new byte after the end of the stream. -/
def Settled (c : TCPConnection) : ConnOp → Prop
  | .segmentReceived seg => c.activeFlag = true → seg.header.rst = false → ¬ c.receiver.Reopens seg
  | _ => True

instance (c : TCPConnection) : DecidablePred c.Settled
  | .segmentReceived _ => inferInstanceAs (Decidable (_ → _))
  | .connect | .write _ | .endInputStream | .tick _ | .read _ | .popSegment =>
    inferInstanceAs (Decidable True)

/-- What is received is cut from the peer's stream `W`. -/
def CutFrom (isn : WrappingInt32) (W : List UInt8) : ConnOp → Prop
  | .segmentReceived seg => ∃ p ≤ W.length + 2, Cut isn W p seg
  | _ => True

theorem withinOffer (hb : Base c) (h : TCPSender.Inv Plain c.sender) : c.WithinOffer isn op := by
  intro seg hseg hack
  obtain ⟨-, -, hwin⟩ := emitted_ack hb h hseg hack
  unfold rightEdge
  rw [hwin, UInt16.toNat_ofNat']
  have := Nat.mod_le (c.step op).receiver.windowSize (2 ^ 16)
  omega

/-- A call keeps the receiver on the stream, and its edge does not move left. -/
theorem step_tracks (h : Tracks isn W c.receiver) (hW : W.length < 2 ^ 31)
    (hcut : CutFrom isn W op) (hstays : c.Settled op) :
    Tracks isn W (c.step op).receiver ∧ c.receiver.edge ≤ (c.step op).receiver.edge := by
  apply step_receiver (I := fun r => Tracks isn W r ∧ c.receiver.edge ≤ r.edge)
    ⟨h, Nat.le_refl _⟩
  · intro r hr
    exact ⟨hr.1.setError, hr.2⟩
  · rintro seg rfl ha hrst
    obtain ⟨p, hp, hc⟩ := hcut
    obtain ⟨hnext, -, hedge⟩ := h.segmentReceived hc (by omega) hW (hstays ha hrst)
    exact ⟨hnext, hedge⟩
  · intro n _
    exact h.popOutput n

/-- What a call announces, with what `win` leaves out, is the edge after it. -/
theorem mem_announces (hb : Base c) (h : TCPSender.Inv Plain c.sender)
    (hr : Tracks isn W (c.step op).receiver) (hW : W.length < 2 ^ 31) {x : ℕ}
    (hx : x ∈ c.announces isn op) : x + 2 ^ 16 * c.cutOff op = (c.step op).receiver.edge := by
  obtain ⟨seg, hmem, rfl⟩ := List.mem_map.1 hx
  obtain ⟨hseg, hack⟩ := List.mem_filter.1 hmem
  obtain ⟨hsyn, hackno, hwin⟩ := emitted_ack hb h hseg hack
  have hle := hr.receives.cursor_le
  have htwo := (c.step op).receiver.ahead_le_two
  have hsplit := Nat.mod_add_div (c.step op).receiver.windowSize (2 ^ 16)
  rw [rightEdge, hackno, hwin, hr.ack.ackno hsyn, hr.receives.peer hsyn, toNat_wrap_sub,
    UInt16.toNat_ofNat', ← hr.ack.edge_eq, Nat.mod_eq_of_lt (by omega), cutOff]
  omega

end TCPConnection

/-- A connection, the right edges announced so far and what `win` left out of each. -/
structure EdgeRun where
  conn : TCPConnection
  announced : List ℕ
  cuts : List ℕ

namespace EdgeRun

open TCPConnection
open TCPReceiver (Tracks)

def new (cfg : TCPConfig) (random : UInt32) : EdgeRun := ⟨.new cfg random, [], []⟩

def step (isn : WrappingInt32) (r : EdgeRun) (op : ConnOp) : EdgeRun :=
  ⟨r.conn.step op, r.announced ++ r.conn.announces isn op,
    r.cuts ++ (r.conn.announces isn op).map fun _ => r.conn.cutOff op⟩

/-- Where a segment with the ACK flag is emitted, `win` leaves out no more of the window size than
it did before. -/
def CutsNoMore (r : EdgeRun) (op : ConnOp) : Prop :=
  ∀ seg ∈ r.conn.emitted op, seg.header.ack = true → ∀ k ∈ r.cuts, r.conn.cutOff op ≤ k

instance (r : EdgeRun) (op : ConnOp) : Decidable (r.CutsNoMore op) :=
  inferInstanceAs (Decidable (∀ seg ∈ _, _))

/-- The edges announced are in order, and the receiver's edge is at or past all of them, with what
was left out. -/
structure Inv (isn : WrappingInt32) (W : List UInt8) (r : EdgeRun) : Prop where
  base : Base r.conn
  plain : TCPSender.Inv Plain r.conn.sender
  tracks : Tracks isn W r.conn.receiver
  sorted : r.announced.Pairwise (· ≤ ·)
  bound : ∀ x ∈ r.announced, ∃ k ∈ r.cuts, x + 2 ^ 16 * k ≤ r.conn.receiver.edge

variable {isn : WrappingInt32} {W : List UInt8} {r : EdgeRun} {op : ConnOp}

theorem new_inv (isn : WrappingInt32) (W : List UInt8) (cfg : TCPConfig) (random : UInt32) :
    Inv isn W (new cfg random) :=
  ⟨new_base cfg random, TCPSender.new_inv _ _ _ _,
    ⟨TCPReceiver.new_ackInv _, (TCPReceiver.new_receives isn _).append W⟩, .nil, nofun⟩

theorem Inv.step (h : Inv isn W r) (hW : W.length < 2 ^ 31) (hcut : CutFrom isn W op)
    (hkeeps : r.CutsNoMore op) (hstays : r.conn.Settled op) :
    Inv isn W (EdgeRun.step isn r op) := by
  obtain ⟨htracks, hedge⟩ := step_tracks h.tracks hW hcut hstays
  have hnew := fun x => mem_announces (x := x) h.base h.plain htracks hW
  have hleast : ∀ y ∈ r.conn.announces isn op, ∀ k ∈ r.cuts, r.conn.cutOff op ≤ k := by
    intro y hy k hk
    obtain ⟨seg, hmem, -⟩ := List.mem_map.1 hy
    obtain ⟨hseg, hack⟩ := List.mem_filter.1 hmem
    exact hkeeps seg hseg hack k hk
  refine ⟨h.base.step op, step_plain h.base h.plain op, htracks, ?_, ?_⟩
  · apply List.pairwise_append.2
    refine ⟨h.sorted, ?_, ?_⟩
    · apply List.pairwise_of_forall_mem_list
      intro x hx y hy
      have h1 := hnew x hx
      have h2 := hnew y hy
      omega
    · intro x hx y hy
      obtain ⟨k, hk, hle⟩ := h.bound x hx
      have h1 := hnew y hy
      have h2 := hleast y hy k hk
      omega
  · intro x hx
    rcases List.mem_append.1 hx with hx | hx
    · obtain ⟨k, hk, hle⟩ := h.bound x hx
      exact ⟨k, List.mem_append_left _ hk, Nat.le_trans hle hedge⟩
    · exact ⟨r.conn.cutOff op, List.mem_append_right _ (List.mem_map.2 ⟨x, hx, rfl⟩),
        Nat.le_of_eq (hnew x hx)⟩

/-- **The right edge never moves left**, in every run with one peer's stream in which `win` leaves
out no more of the window size than before wherever it is announced, and no new byte comes after the
end of the stream. What is announced never exceeds what the receiver offers. -/
theorem run_right_edge (isn : WrappingInt32) (W : List UInt8) (cfg : TCPConfig) (random : UInt32)
    (ops : List ConnOp) (hW : W.length < 2 ^ 31) (hcut : ∀ op ∈ ops, CutFrom isn W op)
    (hok : Guarded (EdgeRun.step isn)
      (fun r op => r.CutsNoMore op ∧ r.conn.Settled op) (EdgeRun.new cfg random) ops) :
    (exec (EdgeRun.step isn) (EdgeRun.new cfg random) ops).announced.Pairwise (· ≤ ·) ∧
      Guarded TCPConnection.step (WithinOffer isn) (TCPConnection.new cfg random) ops := by
  constructor
  · have hall := (guarded_of_mem hcut (EdgeRun.new cfg random)).and hok
    have hinv := hall.invariant (I := Inv isn W) (fun r op h hg => h.step hW hg.1 hg.2.1 hg.2.2)
      (new_inv isn W cfg random)
    exact hinv.sorted
  · have htrue : Guarded TCPConnection.step (fun _ _ => True) (TCPConnection.new cfg random) ops :=
      guarded_of_forall (fun _ _ => trivial) _ _
    apply htrue.implies (I := fun c => Base c ∧ TCPSender.Inv Plain c.sender)
    · intro c op h _
      exact ⟨h.1.step op, step_plain h.1 h.2 op⟩
    · intro c op h _
      exact withinOffer h.1 h.2
    · exact ⟨new_base cfg random, TCPSender.new_inv _ _ _ _⟩

/-- What a peer with the stream `"a"` sends to a listening connection, which reads the byte before
it comes a second time. -/
def repeatedByte : List ConnOp :=
  let byte : TCPSegment :=
    { header := { seqno := ⟨1⟩, ack := true, ackno := ⟨1⟩, win := 9 }, payload := [97] }
  [.segmentReceived { header := { syn := true } },
    .segmentReceived { header := { seqno := ⟨1⟩, ack := true, ackno := ⟨1⟩, win := 9 } },
    .segmentReceived byte, .read 1, .segmentReceived byte]

theorem repeatedByte_cut : ∀ op ∈ repeatedByte, CutFrom ⟨0⟩ [97] op := by
  have hbare : ∀ (header : TCPHeader) (p : ℕ), p ≤ 3 → header.seqno = wrap p ⟨0⟩ →
      (header.syn = true → p = 0) → header.fin = false →
      CutFrom ⟨0⟩ [97] (.segmentReceived { header, payload := [] }) := by
    intro header p hp hseq hsyn hfin
    exact ⟨p, hp, hseq, hsyn, by simp, by simp [hfin]⟩
  have hfirst : ∀ header : TCPHeader, header.seqno = ⟨1⟩ → header.syn = false →
      header.fin = false → CutFrom ⟨0⟩ [97] (.segmentReceived { header, payload := [97] }) := by
    intro header hseq hsyn hfin
    refine ⟨1, by decide, hseq, by simp [hsyn], ?_, by simp [hfin]⟩
    intro k c hk
    simpa [TCPReceiver.synLength, hsyn] using hk
  simp only [repeatedByte, List.forall_mem_cons, List.not_mem_nil, false_implies, implies_true,
    and_true]
  exact ⟨hbare _ 0 (by decide) rfl (by decide) rfl, hbare _ 1 (by decide) rfl (by decide) rfl,
    hfirst _ rfl rfl rfl, trivial, hfirst _ rfl rfl rfl⟩

/-- With a window of 4 the edge does not move left. -/
theorem right_edge_of_small_window :
    (exec (EdgeRun.step ⟨0⟩) (EdgeRun.new { recvCapacity := 4, fixedIsn := some ⟨0⟩ } 0)
      repeatedByte).announced.Pairwise (· ≤ ·) :=
  (run_right_edge ⟨0⟩ [97] _ _ _ (by decide) repeatedByte_cut (by decide)).1

example : Guarded (EdgeRun.step ⟨0⟩) (fun r op => r.CutsNoMore op ∧ r.conn.Settled op)
    (EdgeRun.new { recvCapacity := 70000, fixedIsn := some ⟨0⟩ } 0) repeatedByte := by
  decide

/-- With a window of 65536 the edge is at 65537 when the byte has come, and at 2 when it has been
read. -/
theorem truncated_window_moves_left :
    (∀ op ∈ repeatedByte, CutFrom ⟨0⟩ [97] op) ∧
      (exec (EdgeRun.step ⟨0⟩) (EdgeRun.new { recvCapacity := 65536, fixedIsn := some ⟨0⟩ } 0)
        repeatedByte).announced = [1, 65537, 2] ∧ ¬ [1, 65537, 2].Pairwise (· ≤ ·) :=
  ⟨repeatedByte_cut, by decide, by decide⟩

end EdgeRun

end Sponge
