import Sponge.Proof.Connection
import Sponge.Proof.SenderWindow
import Sponge.Lib.Run

/-!
# No silent stall

`NoStall`: once the SYN is sent, a sender that leaves something unsent has used up the peer's
window. `fill_window` establishes it (`fillWindow_noStall`); the three early returns of
`ack_received` keep it (`ackReceived_noStall`). `run_no_stall` is the result for connections: then
the timer is running, with something outstanding.
-/

namespace Sponge

open Run

namespace TCPSender

/-- Something left unsent means that the window is used up. -/
def NoStall (s : TCPSender) : Prop := s.synFlag = true → s.Unsent → s.window ≤ s.bytesInFlight

variable {P : ℕ → TCPSegment → Prop} {s : TCPSender}

theorem fillWindow_noStall (h : Inv P s) (hw : s.synFlag = false → s.receiverWindowSize = 1) :
    s.fillWindow.NoStall := by
  intro _ hu
  cases hs : s.synFlag with
  | true => exact fillWindow_full hs hu
  | false =>
    have hwin : s.window = 1 := by
      unfold window
      rw [hw hs]
      rfl
    rw [fillWindow_of_fresh h hs, emit_window_eq, emit_bytesInFlight, length_synSegment, hwin]
    omega

/-- With something in flight that is not found at its own number, more is in flight than any
window allows. -/
theorem Inv.window_le_of_absSeqno_ne (h : Inv P s) (hP : ∀ p seg, P p seg → Numbered s.isn p seg)
    {t : TCPSegment} {rest : List TCPSegment} (hl : s.segmentsOutstanding = t :: rest)
    (hne : s.absSeqno t ≠ s.una) {w : ℕ} (hw : w < 2 ^ 16) : w ≤ s.bytesInFlight := by
  refine Classical.byContradiction fun hlt => hne ?_
  obtain ⟨h1, h2, h3⟩ := h.front hl
  have hadd := h.una_add
  exact absSeqno_eq (hP _ t h1) (by omega) (by omega)

/-- **An acknowledgment** keeps `NoStall` through each of its returns. -/
theorem ackReceived_noStall (h : Inv P s) (hP : ∀ p seg, P p seg → Numbered s.isn p seg)
    (hs : s.synFlag = true) (hn : s.NoStall) (ackno : WrappingInt32) (windowSize : UInt16) :
    (s.ackReceived ackno windowSize).NoStall := by
  obtain ⟨hl, he⟩ | ⟨t, rest, hl, hi, he⟩ | ⟨t, rest, hl, hi, he⟩ :=
    ackReceived_cases s ackno windowSize rfl <;> rw [he]
  · -- nothing is outstanding, so nothing was left unsent
    intro _ hu
    have hle := hn hs hu
    rw [h.outstanding_eq_nil.1 hl] at hle
    have := s.window_pos
    omega
  · intro _ hu
    by_cases ha : unwrap ackno s.isn s.nextSeqno = s.nextSeqno
    · -- the window has changed, but everything sent is acknowledged: the test has misread
      refine h.window_le_of_absSeqno_ne hP hl (fun habs => ?_) (window_lt _)
      rw [ha] at hi
      exact h.not_ignored_next hl habs windowSize hi
    · rw [ackWindow_of_ne ha] at hu ⊢
      exact hn hs hu
  · refine fillWindow_noStall (h.ackPopped _ _) fun hf => ?_
    have hf : s.synFlag = false := hf
    rw [hs] at hf
    cases hf

end TCPSender

namespace TCPConnection

open TCPSender

/-- The sender's part of the invariant. -/
structure Unstalled (isn : WrappingInt32) (s : TCPSender) : Prop where
  inv : TCPSender.Inv (Numbered isn) s
  isn : s.isn = isn
  fresh : s.synFlag = false → s.receiverWindowSize = 1
  noStall : s.NoStall

variable {isn : WrappingInt32} {s : TCPSender}

/-- `fill_window` after a change of the stream. -/
theorem unstalled_fill (h : Unstalled isn s) (stream : ByteStream) :
    Unstalled isn ({ s with stream := stream } : TCPSender).fillWindow := by
  have hinv : TCPSender.Inv (Numbered isn) { s with stream := stream } :=
    h.inv.setStream stream
  obtain ⟨h1, h2⟩ := (emits_numbered isn).fillWindow hinv h.isn
  refine ⟨h1, h2, fun hf => ?_, fillWindow_noStall hinv h.fresh⟩
  rw [fillWindow_syn] at hf
  cases hf

theorem unstalled_rule (isn : WrappingInt32) : SenderRule (Unstalled isn) where
  drain s h := ⟨((numbered_rule isn).drain s ⟨h.inv, h.isn⟩).1, h.isn, h.fresh, h.noStall⟩
  fill s h := unstalled_fill h s.stream
  endFill s h := unstalled_fill h _
  error s h := ⟨((numbered_rule isn).error s ⟨h.inv, h.isn⟩).1, h.isn, h.fresh, h.noStall⟩
  empty s h := ⟨((numbered_rule isn).empty s ⟨h.inv, h.isn⟩).1, h.isn, h.fresh, h.noStall⟩
  ack s ackno windowSize h hs := by
    obtain ⟨h1, h2⟩ := (numbered_rule isn).ack s ackno windowSize ⟨h.inv, h.isn⟩ hs
    refine ⟨h1, h2, fun hf => ?_, ?_⟩
    · rw [ackReceived_syn hs] at hf
      cases hf
    · exact ackReceived_noStall h.inv (fun p seg hp => by rw [h.isn]; exact hp) hs h.noStall _ _

theorem unstalled_tick (h : Unstalled isn s) (ms : ℕ) : Unstalled isn (s.tick ms) := by
  obtain ⟨h1, h2⟩ := numbered_tick ⟨h.inv, h.isn⟩ ms
  have hf := tick_frame s ms
  refine ⟨h1, h2, by rw [hf.synFlag, hf.window]; exact h.fresh, ?_⟩
  have hn := h.noStall
  unfold NoStall Unsent window at hn ⊢
  rw [hf.stream, hf.bytesInFlight, hf.window, hf.synFlag, hf.finFlag]
  exact hn

variable {c : TCPConnection}

theorem step_unstalled (hb : Base c) (h : Unstalled isn c.sender) (op : ConnOp) :
    Unstalled isn (c.step op).sender :=
  (unstalled_rule isn).step hb.syn_of_not_listen h op (fun _ _ => unstalled_fill h _)
    fun ms _ _ => unstalled_tick h ms

theorem run_unstalled (cfg : TCPConfig) (random : UInt32) (ops : List ConnOp) :
    Base (exec step (new cfg random) ops) ∧
      Unstalled (cfg.fixedIsn.getD ⟨random⟩) (exec step (new cfg random) ops).sender := by
  refine exec_invariant
    (I := fun c => Base c ∧ Unstalled (cfg.fixedIsn.getD ⟨random⟩) c.sender)
    (fun c op h => ⟨h.1.step op, step_unstalled h.1 h.2 op⟩) ops ⟨new_base cfg random, ?_⟩
  exact ⟨TCPSender.new_inv _ _ _ _, rfl, fun _ => rfl, nofun⟩

/-- **No silent stall**: in every run, once the SYN is sent, anything left unsent means that the
peer's window is used up, and that the timer is running with something outstanding. -/
theorem run_no_stall (cfg : TCPConfig) (random : UInt32) (ops : List ConnOp)
    (hs : (exec step (new cfg random) ops).sender.synFlag = true)
    (hu : (exec step (new cfg random) ops).sender.Unsent) :
    max 1 (exec step (new cfg random) ops).sender.receiverWindowSize.toNat ≤
        (exec step (new cfg random) ops).bytesInFlight ∧
      (exec step (new cfg random) ops).sender.timerRunning = true ∧
      (exec step (new cfg random) ops).sender.segmentsOutstanding ≠ [] := by
  obtain ⟨-, h⟩ := run_unstalled cfg random ops
  have hle := h.noStall hs hu
  have hpos := window_pos (exec step (new cfg random) ops).sender
  have hne : (exec step (new cfg random) ops).sender.segmentsOutstanding ≠ [] := by
    rw [Ne, h.inv.outstanding_eq_nil]
    omega
  exact ⟨hle, h.inv.timer.2 hne, hne⟩

/-- A byte written before the SYN is acknowledged waits for it. -/
theorem no_stall_before_handshake :
    1 ≤ (exec step (new {} 0) [.connect, .write [97]]).bytesInFlight ∧
      (exec step (new {} 0) [.connect, .write [97]]).sender.timerRunning = true := by
  obtain ⟨h1, h2, -⟩ := run_no_stall {} 0 [.connect, .write [97]] (by decide) (by decide)
  exact ⟨Nat.le_trans (Nat.le_max_left _ _) h1, h2⟩

end TCPConnection

end Sponge
