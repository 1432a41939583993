import Sponge.Proof.SenderWindow
import Sponge.Proof.SenderRun

/-!
# Flow control

`FlowRun` is a sender with the highest right edge announced to it so far: the maximum of
`absolute ackno + max(window, 1)` over the acknowledgments delivered. The sender keeps only the
last window value it adopted and measures it from the oldest number in flight.

`run_within_edge`: the sender stays below the announced edge in every run in which each
acknowledgment is discarded by the sender's own test (`Discarded`), or brings a window that,
measured where the sender measures it, has room for what stays in flight and ends by the announced
edge (`Fits`). An outdated acknowledgment with the window of the latest one is of this kind.
`outdated_window_exceeds_edge` is a run with an outdated acknowledgment that the test lets through.
-/

namespace Sponge

open Run
open TCPSegment (lengthInSequenceSpace)

/-- The calls on a sender whose acknowledgments have known absolute numbers. -/
inductive FlowOp where
  | ack (absAckno : ℕ) (windowSize : UInt16)
  | write (data : List UInt8)
  | endInput
  | fillWindow
  | tick (ms : ℕ)
  | sendEmptySegment
  | popSegment
deriving DecidableEq, Repr

/-- The call on a sender with initial sequence number `isn`. -/
def FlowOp.senderOp (isn : WrappingInt32) : FlowOp → SenderOp
  | .ack absAckno windowSize => .ackReceived (wrap absAckno isn) windowSize
  | .write data => .write data
  | .endInput => .endInput
  | .fillWindow => .fillWindow
  | .tick ms => .tick ms
  | .sendEmptySegment => .sendEmptySegment
  | .popSegment => .popSegment

/-- A sender with the highest right edge announced to it. -/
structure FlowRun where
  sender : TCPSender
  edge : ℕ

namespace FlowRun

def new (sender : TCPSender) : FlowRun := ⟨sender, 0⟩

/-- The right edge that a call announces. -/
def announced : FlowOp → ℕ
  | .ack absAckno windowSize => absAckno + max 1 windowSize.toNat
  | _ => 0

def step (s : FlowRun) (op : FlowOp) : FlowRun where
  sender := s.sender.step (op.senderOp s.sender.isn)
  edge := max s.edge (announced op)

/-- The sender's own test discards an acknowledgment of `a`: it changes nothing. -/
def Discarded (s : TCPSender) (a : ℕ) (windowSize : UInt16) : Prop :=
  a ≠ s.nextSeqno ∧ s.segmentsOutstanding.head?.all (s.ackIgnored a windowSize) = true

/-- The window brought by an acknowledgment of `a` has room for what `a` leaves in flight, and
measured from the first number of that it ends by `edge`. -/
def Fits (s : TCPSender) (a : ℕ) (windowSize : UInt16) (edge : ℕ) : Prop :=
  TCPSender.totalLength (s.kept a) ≤ max 1 windowSize.toNat ∧
    s.una + TCPSender.totalLength (s.gone a) + max 1 windowSize.toNat ≤ edge

/-- Every acknowledgment, of the number that the sender reads, is discarded or fits below the edge
announced with it. -/
def Fresh (s : FlowRun) : FlowOp → Prop
  | .ack absAckno windowSize =>
    let a := unwrap (wrap absAckno s.sender.isn) s.sender.isn s.sender.nextSeqno
    Discarded s.sender a windowSize ∨
      Fits s.sender a windowSize (max s.edge (announced (.ack absAckno windowSize)))
  | _ => True

instance (s : FlowRun) : ∀ op, Decidable (s.Fresh op)
  | .ack _ _ => inferInstanceAs (Decidable ((_ ∧ _) ∨ (_ ∧ _)))
  | .write _ | .endInput | .fillWindow | .tick _ | .sendEmptySegment | .popSegment =>
    .isTrue trivial

/-- Every number sent after the SYN is below the announced edge. -/
def Within (s : FlowRun) : Prop := ∀ n, 1 ≤ n → n < s.sender.nextSeqno → n < s.edge

/-- The invariant: no more is in flight than the window allows, and the window measured from the
oldest number in flight ends by the announced edge. -/
structure Inv (s : FlowRun) : Prop where
  sender : TCPSender.Inv (TCPSender.Numbered s.sender.isn) s.sender
  flight : s.sender.bytesInFlight ≤ s.sender.window
  edge : s.sender.una + s.sender.window ≤ max 1 s.edge

variable {s : FlowRun}

theorem Inv.within (h : Inv s) : Within s := by
  intro n hn hlt
  have h1 := h.sender.una_add
  have h2 := h.flight
  have h3 := h.edge
  omega

/-! ## The step -/

open TCPSender

/-- `fill_window` keeps the invariant. -/
theorem Inv.fill {s : TCPSender} {edge : ℕ} (h : Inv ⟨s, edge⟩) : Inv ⟨s.fillWindow, edge⟩ := by
  obtain ⟨hinv, hisn⟩ := (emits_numbered s.isn).fillWindow h.sender rfl
  obtain ⟨hwindow, hflight⟩ := fillWindow_flight h.sender h.flight
  have huna := una_fillWindow h.sender
  refine ⟨by dsimp only; rw [hisn]; exact hinv, ?_, ?_⟩
  · show s.fillWindow.bytesInFlight ≤ s.fillWindow.window
    rw [hwindow]
    exact hflight
  · show s.fillWindow.una + s.fillWindow.window ≤ max 1 edge
    rw [huna, hwindow]
    exact h.edge

/-- A change of what the invariant does not mention. -/
theorem Inv.frame {s s' : TCPSender} {edge : ℕ} (h : Inv ⟨s, edge⟩)
    (hinv : TCPSender.Inv (Numbered s.isn) s') (hisn : s'.isn = s.isn)
    (hnext : s'.nextSeqno = s.nextSeqno) (hflight : s'.bytesInFlight = s.bytesInFlight)
    (hwin : s'.receiverWindowSize = s.receiverWindowSize) : Inv ⟨s', edge⟩ := by
  have h1 := h.flight
  have h2 := h.edge
  unfold una window at h2
  unfold window at h1
  refine ⟨by dsimp only; rw [hisn]; exact hinv, ?_, ?_⟩
  · unfold window
    dsimp only at h1 ⊢
    rw [hflight, hwin]
    exact h1
  · unfold una window
    dsimp only at h2 ⊢
    rw [hnext, hflight, hwin]
    exact h2

/-- The acknowledged segments are removed and the new window is adopted. -/
theorem Inv.popped {s : TCPSender} {edge edge' a : ℕ} {windowSize : UInt16} (h : Inv ⟨s, edge⟩)
    (hf : Fits s a windowSize edge') : Inv ⟨s.ackPopped a windowSize, edge'⟩ := by
  obtain ⟨hroom, hedge⟩ := hf
  have hpopped := h.sender.ackPopped a windowSize
  have huna := h.sender.una_ackPopped a windowSize
  dsimp only at huna
  refine ⟨hpopped, ?_, ?_⟩
  · show (s.ackPopped a windowSize).bytesInFlight ≤ (s.ackPopped a windowSize).window
    rw [hpopped.flight_eq]
    exact hroom
  · show (s.ackPopped a windowSize).una + max 1 windowSize.toNat ≤ max 1 edge'
    rw [huna]
    omega

/-- With nothing in flight only a window with an acknowledgment of the next number is adopted. -/
theorem Inv.windowed {s : TCPSender} {edge edge' a : ℕ} {windowSize : UInt16} (h : Inv ⟨s, edge⟩)
    (hl : s.segmentsOutstanding = []) (ha : a = s.nextSeqno) (hf : Fits s a windowSize edge') :
    Inv ⟨s.ackWindow a windowSize, edge'⟩ := by
  have hwin : (s.ackWindow a windowSize).window = max 1 windowSize.toNat := by
    rw [ha]
    simp [ackWindow, window]
  have hedge := hf.2
  have hflight : s.bytesInFlight = 0 := h.sender.outstanding_eq_nil.1 hl
  refine ⟨h.sender.ackWindow _ _, ?_, ?_⟩
  · show s.bytesInFlight ≤ _
    omega
  · show s.una + _ ≤ max 1 edge'
    rw [hwin]
    omega

/-- **An acknowledgment** that is discarded or fits keeps the invariant. -/
theorem Inv.ack (h : Inv s) {absAckno : ℕ} {windowSize : UInt16}
    (hf : s.Fresh (.ack absAckno windowSize)) : Inv (s.step (.ack absAckno windowSize)) := by
  have hgrow : Inv ⟨s.sender, max s.edge (announced (.ack absAckno windowSize))⟩ :=
    ⟨h.sender, h.flight, by have := h.edge; dsimp only; omega⟩
  have hstep : s.step (.ack absAckno windowSize) =
    ⟨s.sender.ackReceived (wrap absAckno s.sender.isn) windowSize,
      max s.edge (announced (.ack absAckno windowSize))⟩ := rfl
  rw [hstep]
  obtain ⟨hl, he⟩ | ⟨t, rest, hl, hi, he⟩ | ⟨t, rest, hl, hi, he⟩ := ackReceived_cases s.sender
    (wrap absAckno s.sender.isn) windowSize rfl
  · rw [he]
    by_cases ha : unwrap (wrap absAckno s.sender.isn) s.sender.isn s.sender.nextSeqno =
        s.sender.nextSeqno
    · exact Inv.windowed h hl ha (hf.resolve_left fun hd => hd.1 ha)
    · rw [ackWindow_of_ne ha]
      exact hgrow
  · rw [he, ackWindow_of_ne (h.sender.ne_of_ignored h.flight hl hi)]
    exact hgrow
  · rw [he]
    have hfits := hf.resolve_left fun hd => by
      have hign := hd.2
      rw [hl] at hign
      exact absurd (hi.symm.trans hign) (by decide)
    exact (Inv.popped h hfits).fill

/-- **Every step** keeps the invariant. -/
theorem Inv.step (h : Inv s) {op : FlowOp} (hf : s.Fresh op) : Inv (s.step op) := by
  obtain ⟨sender, edge⟩ := s
  have hmax : max edge 0 = edge := Nat.max_zero edge
  have hinv := h.sender
  cases op with
  | ack absAckno windowSize => exact h.ack hf
  | write data =>
    show Inv ⟨_, max edge 0⟩
    rw [hmax]
    exact h.frame (hinv.setStream _) rfl rfl rfl rfl
  | endInput =>
    show Inv ⟨_, max edge 0⟩
    rw [hmax]
    exact h.frame (hinv.setStream _) rfl rfl rfl rfl
  | fillWindow =>
    show Inv ⟨sender.fillWindow, max edge 0⟩
    rw [hmax]
    exact h.fill
  | tick ms =>
    have hf := tick_frame sender ms
    show Inv ⟨sender.tick ms, max edge 0⟩
    rw [hmax]
    exact h.frame (hinv.tick ms) hf.isn hf.nextSeqno hf.bytesInFlight hf.window
  | sendEmptySegment =>
    show Inv ⟨sender.sendEmptySegment, max edge 0⟩
    rw [hmax]
    exact h.frame (hinv.sendEmptySegment rfl) rfl rfl rfl rfl
  | popSegment =>
    show Inv ⟨_, max edge 0⟩
    rw [hmax]
    exact h.frame (hinv.setQueue fun _ => List.mem_of_mem_tail) rfl rfl rfl rfl

theorem new_flow_inv (capacity : UInt64) (retxTimeout : UInt16) (fixedIsn : Option WrappingInt32)
    (random : UInt32) : Inv (new (.new capacity retxTimeout fixedIsn random)) :=
  ⟨TCPSender.new_inv capacity retxTimeout fixedIsn random, Nat.zero_le _, Nat.le_refl _⟩

/-- **Flow control**: in every run whose acknowledgments are discarded or fit below the edge, every
number sent after the SYN is below the highest edge announced. -/
theorem run_within_edge (capacity : UInt64) (retxTimeout : UInt16) (fixedIsn : Option WrappingInt32)
    (random : UInt32) (ops : List FlowOp)
    (h : Guarded step Fresh (new (.new capacity retxTimeout fixedIsn random)) ops) :
    Within (exec step (new (.new capacity retxTimeout fixedIsn random)) ops) :=
  (Guarded.invariant (I := Inv) (fun _ _ hs hf => hs.step hf)
    (new_flow_inv capacity retxTimeout fixedIsn random) h).within

/-- Repeated acknowledgments, and outdated ones with the window of the latest. -/
theorem within_edge_of_session :
    Within (exec step (new (.new 16 1000 (some ⟨0⟩) 0))
      [.fillWindow, .ack 1 1000, .write [97, 98, 99], .fillWindow, .ack 4 1000, .ack 4 1000,
        .ack 1 1000, .write [100, 101], .endInput, .fillWindow, .ack 1 1000, .ack 4 1000,
        .ack 6 1000, .ack 1 1000, .tick 5000, .ack 7 1000, .ack 1 1000]) :=
  run_within_edge 16 1000 (some ⟨0⟩) 0 _ (by decide)

/-- **An outdated window**: the peer announces number 1 with window 4, then number 2 with window
3, both with right edge 5. When the first arrives again, its window is adopted, and number 5 is
sent. -/
theorem outdated_window_exceeds_edge :
    ¬ Within (exec step (new (.new 16 1000 (some ⟨0⟩) 0))
      [.fillWindow, .ack 1 4, .write [97], .fillWindow, .write [98], .fillWindow, .ack 2 3,
        .write [99, 100, 101, 102, 103, 104], .fillWindow, .ack 1 4]) := by
  intro h
  exact absurd (h 5 (by decide) (by decide)) (by decide)

end FlowRun

end Sponge
