import Sponge.Proof.StreamIntegrity

/-!
# The end of the stream, end to end

When a lone FIN overtakes the data before it, the stream can end early (`lone_fin_ends_early`): the
reassembler does not keep where the stream ends. `run_complete_iff`: the stream ends with all that
was written in exactly the runs in which every segment delivered is timely (`InTime`): a segment
with which the end is known leaves the last byte held, or some byte waiting for one before it.

In particular this is so if a lone FIN is delivered only once the last byte is held (`FinInOrder`,
`inTime_of_finInOrder`).
-/

namespace Sponge

open Run

namespace Network

open TCPConnection
open TCPReceiver (Ends LastBeforeFin Whole Timely)

variable {isn : Side → WrappingInt32} {net : Network} {op : NetOp}

/-! ## When the stream ends with everything -/

/-- The inbound stream ends only once the other side has finished, with everything it wrote. -/
def Complete (net : Network) (x : Side) : Prop :=
  (net x).conn.inboundStream.inputEnded = true → (net x).conn.inboundStream.error = false →
    (net x.other).conn.sender.stream.inputEnded = true ∧
      (net x).conn.inboundStream.bytesWritten = (net x.other).written.length

/-- The condition on what is delivered to `x`: if it reaches the receiver, it is timely. -/
def Prompt (net : Network) (x : Side) : Option TCPSegment → Prop
  | some seg => (net x).conn.Takes seg →
      Timely (net x.other).written (net x).conn.receiver seg
  | none => True

instance (net : Network) (x : Side) : (seg : Option TCPSegment) → Decidable (net.Prompt x seg)
  | some _ => inferInstanceAs (Decidable (_ → _))
  | none => .isTrue trivial

/-- What is delivered is timely. -/
def InTime (net : Network) : NetOp → Prop
  | .deliver x i => net.Prompt x (net x.other).emitted[i]?
  | .app _ _ => True

instance (net : Network) : (op : NetOp) → Decidable (net.InTime op)
  | .deliver x i => inferInstanceAs (Decidable (net.Prompt x (net x.other).emitted[i]?))
  | .app _ _ => .isTrue trivial

/-- An end of the stream is known only once the other side has finished; streams are in error only
in connections that were reset. -/
structure Told (net : Network) : Prop where
  eof : ∀ x, (net x).conn.receiver.reassembler.isEof = true →
    (net x.other).conn.sender.stream.inputEnded = true
  calm : ∀ x, (net x).conn.Calm ∨ (net x).conn.IsReset

/-- A call of the receiving side: an end becomes known only by a FIN of the other side. -/
theorem Told.eof_call (ht : net.Told) (h : Inv isn net) {x : Side} {cop : ConnOp}
    (hseg : ∀ seg, cop = .segmentReceived seg → ∃ i : ℕ, (net x.other).emitted[i]? = some seg) :
    ((net x).conn.step cop).receiver.reassembler.isEof = true →
      (net x.other).conn.sender.stream.inputEnded = true := by
  have hr := (h.inbound x).receives
  refine step_receiver (I := fun r => r.reassembler.isEof = true →
    (net x.other).conn.sender.stream.inputEnded = true) (ht.eof x) cop (fun _ hr => hr)
    (fun seg hs _ _ heof => ?_) (fun _ _ => ht.eof x)
  by_cases hd : (net x).conn.receiver.Drops seg
  · rw [TCPReceiver.segmentReceived_of_drops hd] at heof
    exact ht.eof x heof
  · rcases (hr.inv.endKnown_iff hd).2 heof with hold | ⟨hfin, -⟩
    · exact ht.eof x hold
    · obtain ⟨i, hi⟩ := hseg seg hs
      obtain ⟨p, -, hc⟩ := h.genuine hi
      exact (hc.fin hfin).1

theorem Told.step (ht : net.Told) (h : Inv isn net) (op : NetOp) : (net.step op).Told := by
  obtain hs | ⟨x, cop, hs, -, hseg⟩ := net.step_cases op
  · rw [hs]
    exact ht
  · rw [hs]
    refine ⟨(Side.forall_iff x).2 ⟨?_, ?_⟩, (Side.forall_iff x).2 ⟨?_, ?_⟩⟩
    · rw [Function.update_self, Function.update_of_ne x.other_ne]
      exact ht.eof_call h fun seg he => (hseg seg he).imp fun _ hi => hi.2
    · have hother := ht.eof x.other
      rw [Side.other_other] at hother
      rw [Side.other_other, Function.update_self, Function.update_of_ne x.other_ne]
      intro heof
      show ((net x).conn.step cop).sender.stream.inputEnded = true
      rw [step_outboundEnded, hother heof, Bool.true_or]
    · rw [Function.update_self]
      exact step_calm_or (h.outbound x).base (ht.calm x) cop
    · rw [Function.update_of_ne x.other_ne]
      exact ht.calm x.other

/-- A call of the sending side: it writes only before the end. -/
theorem whole_of_sender {c : TCPConnection} {W : List UInt8} {r : TCPReceiver} {cop : ConnOp}
    (h : Whole W c.sender.stream.inputEnded r) (hw : c.writable cop = true) :
    Whole (W ++ c.accepted cop) (c.step cop).sender.stream.inputEnded r := by
  intro hend herr
  obtain ⟨hended, hlen⟩ := h hend herr
  have hop : ¬ ∃ data, cop = .write data := by
    rintro ⟨data, rfl⟩
    rw [inputEnded_of_writable hw] at hended
    cases hended
  rw [accepted_of_ne hop, List.append_nil, step_outboundEnded, hended, Bool.true_or]
  exact ⟨rfl, hlen⟩

/-- **A segment delivered**: the stream is whole after it exactly if it is timely. -/
theorem Told.deliver_iff (ht : net.Told) (h : Inv isn net) {x : Side} {seg : TCPSegment} {i : ℕ}
    (hi : (net x.other).emitted[i]? = some seg) (hc : Complete net x) :
    Whole (net x.other).written (net x.other).conn.sender.stream.inputEnded
        ((net x).conn.step (.segmentReceived seg)).receiver ↔
      net.Prompt x (some seg) := by
  have hsmall := h.small x.other
  have hr := (h.inbound x).receives
  have hwhole : Whole (net x.other).written (net x.other).conn.sender.stream.inputEnded
      (net x).conn.receiver := hc
  obtain ⟨p, hp, hcarries⟩ := h.genuine hi
  by_cases htakes : (net x).conn.Takes seg
  · have hseg : ∀ seg', ConnOp.segmentReceived seg = .segmentReceived seg' →
        ∃ i : ℕ, (net x.other).emitted[i]? = some seg' := fun _ he => by
      cases he
      exact ⟨i, hi⟩
    have hended := ht.eof_call h hseg
    rw [receiver_of_takes htakes] at hended ⊢
    rw [hwhole.segmentReceived_iff hr (TCPReceiver.cut_of_carries hcarries) (by omega) (by omega)
      hended (calm_of_active (ht.calm x) htakes.1).2]
    exact ⟨fun htimely _ => htimely, fun hprompt => hprompt htakes⟩
  · refine iff_of_true ?_ fun hno => absurd hno htakes
    by_cases hign : (net x).conn.Ignores seg
    · rw [receiver_of_ignores hign]
      exact hwhole
    · refine step_receiver hwhole _ (fun _ _ _ herr => nomatch herr) (fun seg' he ha hrst => ?_)
        (fun _ he => nomatch he)
      cases he
      exact absurd ⟨ha, hrst, hign⟩ htakes

/-- **A step**: every stream is whole after it exactly if what it delivers is timely. -/
theorem Told.complete_iff (ht : net.Told) (h : Inv isn net) (hc : ∀ x, Complete net x)
    (hop : net.Allowed op) : (∀ x, Complete (net.step op) x) ↔ net.InTime op := by
  -- a call of `x` writes only before the end, so the other side's stream stays whole
  have hcall : ∀ (x : Side) (cop : ConnOp), (net x).conn.writable cop = true →
      ((∀ y, Complete (Function.update net x ((net x).call cop)) y) ↔
        Whole (net x.other).written (net x.other).conn.sender.stream.inputEnded
          ((net x).conn.step cop).receiver) := by
    intro x cop hw
    have hother := hc x.other
    unfold Complete at hother ⊢
    rw [Side.other_other] at hother
    rw [Side.forall_iff x, Side.other_other, Function.update_self,
      Function.update_of_ne x.other_ne]
    exact and_iff_left (whole_of_sender hother hw)
  cases op with
  | app x op =>
    refine (hcall x op.toConnOp ?_).trans (iff_of_true ?_ trivial)
    · cases op with
      | write data => exact hop.1
      | connect | endInputStream | tick | read => rfl
    · refine step_receiver (hc x) _ (fun _ _ _ herr => nomatch herr) (fun seg he => ?_)
        (fun _ _ => hc x)
      cases op <;> cases he
  | deliver x i =>
    show (∀ y, Complete (net.step (.deliver x i)) y) ↔ net.Prompt x (net x.other).emitted[i]?
    cases hi : (net x.other).emitted[i]? with
    | none =>
      have hs : net.step (.deliver x i) = net := by
        unfold Network.step
        simp only [callOf, hi, Option.map_none]
      rw [hs]
      exact iff_of_true hc trivial
    | some seg =>
      have hs : net.step (.deliver x i) =
          Function.update net x ((net x).call (.segmentReceived seg)) := by
        unfold Network.step
        simp only [callOf, hi, Option.map_some]
      rw [hs]
      exact (hcall x _ rfl).trans (ht.deliver_iff h hi (hc x))

/-- **Completeness at the end of the stream**, in every state of exactly the runs in which what is
delivered is timely. -/
theorem run_complete_iff (cfg : Side → TCPConfig) (random : Side → UInt32) (ops : List NetOp)
    (hops : Guarded step Allowed (new cfg random) ops) :
    (∀ n x, Complete (exec step (new cfg random) (ops.take n)) x) ↔
      Guarded step InTime (new cfg random) ops :=
  always_iff_guarded (P := fun net => ∀ x, Complete net x)
    (I := fun net => Inv (isns cfg random) net ∧ net.Told)
    (fun _ op h _ hop _ => ⟨h.1.step hop, h.2.step h.1 op⟩)
    (fun _ _ h hc hop => h.2.complete_iff h.1 hc hop)
    ⟨new_inv cfg random, fun _ => nofun, fun _ => .inl ⟨rfl, rfl⟩⟩ (fun _ => nofun) hops

/-- A byte and then the FIN, delivered in order. -/
theorem complete_of_session :
    (exec step (new (fun _ => {}) (fun _ => 0))
      [.app .a .connect, .deliver .b 0, .deliver .a 0, .app .a (.write [97]),
        .app .a .endInputStream, .deliver .b 1, .deliver .b 2, .deliver .b 3]
      .b).conn.inboundStream.inputEnded = true ∧
    ∀ n x, Complete (exec step (new (fun _ => {}) (fun _ => 0)) (List.take n
      [.app .a .connect, .deliver .b 0, .deliver .a 0, .app .a (.write [97]),
        .app .a .endInputStream, .deliver .b 1, .deliver .b 2, .deliver .b 3])) x :=
  ⟨by decide, (run_complete_iff (fun _ => {}) (fun _ => 0) _ (by decide)).2 (by decide +kernel)⟩

-- a lone FIN that comes while a byte is stored out of order does no harm
example : Guarded step InTime (new (fun _ => {}) (fun _ => 0))
    [.app .a .connect, .deliver .b 0, .deliver .a 0, .app .a (.write [97]), .app .a (.write [98]),
      .app .a .endInputStream, .deliver .b 1, .deliver .b 3, .deliver .b 4, .deliver .b 2] := by
  decide +kernel

/-- The lone FIN overtakes the byte before it: the stream ends with nothing in it. -/
theorem lone_fin_ends_early :
    Guarded step Allowed (new (fun _ => {}) (fun _ => 0))
      [.app .a .connect, .deliver .b 0, .deliver .a 0, .app .a (.write [97]),
        .app .a .endInputStream, .deliver .b 3] ∧
    ¬ Complete (exec step (new (fun _ => {}) (fun _ => 0))
      [.app .a .connect, .deliver .b 0, .deliver .a 0, .app .a (.write [97]),
        .app .a .endInputStream, .deliver .b 3]) .b := by
  refine ⟨by decide, fun h => ?_⟩
  have := (h (by decide) (by decide)).2
  exact absurd this (by decide)

/-! ## Lone FINs in order -/

/-- The condition on what is delivered to `x`: a lone FIN that reaches an active connection, and is
no RST, finds the last byte held. -/
def InOrder (net : Network) (x : Side) : Option TCPSegment → Prop
  | some seg => (net x).conn.activeFlag = true → seg.header.rst = false →
      LastBeforeFin (net x.other).written (net x).conn.receiver seg
  | none => True

instance (net : Network) (x : Side) : (seg : Option TCPSegment) → Decidable (net.InOrder x seg)
  | some _ => inferInstanceAs (Decidable (_ → _))
  | none => .isTrue trivial

def FinInOrder (net : Network) : NetOp → Prop
  | .deliver x i => net.InOrder x (net x.other).emitted[i]?
  | .app _ _ => True

instance (net : Network) : (op : NetOp) → Decidable (net.FinInOrder op)
  | .deliver x i => inferInstanceAs (Decidable (net.InOrder x (net x.other).emitted[i]?))
  | .app _ _ => .isTrue trivial

/-- The invariant of each direction. -/
def EndInv (net : Network) : Prop :=
  ∀ x, Ends (net x.other).written (net x.other).conn.sender.stream.inputEnded (net x).conn.receiver

/-- A call of the sending side: it writes only before the end. -/
theorem ends_of_sender {Q : ℕ → UInt8 → Prop} {c : TCPConnection} {W : List UInt8} {r : TCPReceiver}
    {cop : ConnOp} (hr : TCPReceiver.Inv Q r) (h : Ends W c.sender.stream.inputEnded r)
    (hw : c.writable cop = true) :
    Ends (W ++ c.accepted cop) (c.step cop).sender.stream.inputEnded r := by
  by_cases hop : ∃ data, cop = .write data
  · obtain ⟨data, rfl⟩ := hop
    have hnot : ¬ r.reassembler.isEof = true := fun he => by
      have := (h.eof he).1
      rw [inputEnded_of_writable hw] at this
      cases this
    exact ⟨fun he => absurd he hnot, fun he => absurd (hr.ended he) hnot⟩
  · rw [accepted_of_ne hop, List.append_nil, step_outboundEnded]
    refine ⟨fun he => ⟨?_, (h.eof he).2⟩, h.complete⟩
    rw [(h.eof he).1, Bool.true_or]

/-- A call of the receiving side. -/
theorem ends_of_receiver (h : Inv isn net) (he : net.EndInv) {x : Side} {cop : ConnOp}
    (hfin : net.FinInOrder op) (hseg : ∀ seg, cop = .segmentReceived seg →
      ∃ i, op = .deliver x i ∧ (net x.other).emitted[i]? = some seg) :
    Ends (net x.other).written (net x.other).conn.sender.stream.inputEnded
      ((net x).conn.step cop).receiver := by
  have hsmall := h.small x.other
  refine step_receiver (he x) cop (fun _ hr => ⟨hr.eof, hr.complete⟩) (fun seg hs ha hrst => ?_)
    (fun n _ => ⟨(he x).eof, (he x).complete⟩)
  obtain ⟨i, rfl, hi⟩ := hseg seg hs
  obtain ⟨p, hp, hc⟩ := h.genuine hi
  have hfin : net.InOrder x (net x.other).emitted[i]? := hfin
  rw [hi] at hfin
  exact (he x).segmentReceived (h.inbound x).receives (TCPReceiver.cut_of_carries hc) (by omega)
    (by omega) (fun hf => (hc.fin hf).1) (hfin ha hrst)

/-- **A step** in which no lone FIN overtakes the last byte. -/
theorem EndInv.step (he : net.EndInv) (h : Inv isn net) (hop : net.Allowed op)
    (hfin : net.FinInOrder op) : (net.step op).EndInv := by
  obtain hs | ⟨x, cop, hs, hwrite, hseg⟩ := net.step_cases op
  · rw [hs]
    exact he
  · rw [hs]
    refine (Side.forall_iff x).2 ⟨?_, ?_⟩
    · rw [Function.update_self, Function.update_of_ne x.other_ne]
      exact ends_of_receiver h he hfin hseg
    · have hother := he x.other
      rw [Side.other_other] at hother
      rw [Side.other_other, Function.update_self, Function.update_of_ne x.other_ne]
      exact ends_of_sender (h.inbound x.other).receives.inv hother (hwrite hop.1)

/-- **Lone FINs in order suffice**: a run in which a lone FIN is delivered only once the last byte
is held delivers everything in time. -/
theorem inTime_of_finInOrder (cfg : Side → TCPConfig) (random : Side → UInt32) (ops : List NetOp)
    (hops : Guarded step (fun net op => net.Allowed op ∧ net.FinInOrder op) (new cfg random) ops) :
    Guarded step InTime (new cfg random) ops := by
  apply hops.implies (I := fun net => Inv (isns cfg random) net ∧ net.EndInv)
    (fun _ _ h hop => ⟨h.1.step hop.1, h.2.step h.1 hop.1 hop.2⟩) _
    ⟨new_inv cfg random, fun _ => TCPReceiver.new_ends _ _⟩
  rintro net op ⟨h, he⟩ ⟨-, hfin⟩
  cases op with
  | app x op => trivial
  | deliver x i =>
    have hfin : net.InOrder x (net x.other).emitted[i]? := hfin
    show net.Prompt x (net x.other).emitted[i]?
    cases hi : (net x.other).emitted[i]? with
    | none => trivial
    | some seg =>
      rw [hi] at hfin
      intro htakes
      obtain ⟨p, hp, hc⟩ := h.genuine hi
      have hsmall := h.small x.other
      exact (he x).timely (h.inbound x).receives (TCPReceiver.cut_of_carries hc) (by omega)
        (by omega) (fun hf => (hc.fin hf).1) (hfin htakes.1 htakes.2.1)

end Network

end Sponge
