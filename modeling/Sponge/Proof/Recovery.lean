import Sponge.Lib.Reach
import Sponge.Proof.Progress

/-!
# Everything written can still be delivered

`run_recovers`: in every state of the network in which both connections are past their handshake,
one side's clock, the other side's reads and the network's deliveries can still bring across all
that the side has written, and its FIN. Segments that were lost or reordered before do not matter,
nor does the room left in the windows.

One round gets the oldest segment in flight across. The clock re-sends it (`resend`); it is
delivered, and the other side reads, until it is acknowledged by a segment without data (`relay`);
this acknowledgment is delivered (`settle`). The first number in flight grows in every round, and
when nothing is in flight nothing is left unsent (`Steady`).
-/

namespace Sponge

open Run

namespace Network

open Endpoint TCPConnection
open TCPSender (Sends Carries Steady)
open TCPReceiver (Follows)
open TCPSegment (lengthInSequenceSpace)

variable {isn : Side → WrappingInt32} {net : Network} {op : NetOp} {x : Side} {W : List UInt8}
  {ended : Bool} {i : ℕ} {seg : TCPSegment}

/-! ## The steps -/

/-- The steps that bring across what `x` wrote: its clock, the other side's reads, and
deliveries. -/
def Relays (x : Side) : NetOp → Prop
  | .app y (.tick _) => y = x
  | .app y (.read _) => y = x.other
  | .app _ _ => False
  | .deliver _ _ => True

theorem step_deliver (hi : (net x.other).emitted[i]? = some seg) :
    net.step (.deliver x i) = Function.update net x ((net x).call (.segmentReceived seg)) := by
  simp only [step, callOf, hi, Option.map_some]

/-- What these steps leave alone of an endpoint. -/
structure Kept (e e' : Endpoint) : Prop where
  written : e'.written = e.written
  ended : e'.conn.sender.stream.inputEnded = e.conn.sender.stream.inputEnded
  capacity : e'.conn.receiver.reassembler.capacity = e.conn.receiver.reassembler.capacity

theorem capacity_call {e : Endpoint} (hb : Base e.conn) (cop : ConnOp) :
    (e.call cop).conn.receiver.reassembler.capacity = e.conn.receiver.reassembler.capacity :=
  step_receiver (I := fun r => r.reassembler.capacity = e.conn.receiver.reassembler.capacity)
    rfl cop (fun _ hr => hr)
    (fun seg _ _ _ => TCPReceiver.segmentReceived_capacity hb.receiver seg) (fun _ _ => rfl)

theorem kept_call {e : Endpoint} {cop : ConnOp} (hb : Base e.conn)
    (hw : ¬ ∃ data, cop = .write data) (he : cop ≠ .endInputStream) : Kept e (e.call cop) := by
  refine ⟨?_, ?_, capacity_call hb cop⟩
  · show e.written ++ e.conn.accepted cop = e.written
    rw [accepted_of_ne hw, List.append_nil]
  · show (e.conn.step cop).sender.stream.inputEnded = _
    rw [step_outboundEnded, decide_eq_false he, Bool.or_false]

/-- **A step** is a call on one side, after which nothing more is written. -/
theorem Relays.kept (hop : Relays x op) (h : Inv isn net) (y : Side) :
    Kept (net y) (net.step op y) := by
  have hcall : ∀ z cop, (¬ ∃ data, cop = .write data) → cop ≠ .endInputStream →
      Kept (net y) (Function.update net z ((net z).call cop) y) := by
    intro z cop hw he
    by_cases hz : y = z
    · rw [hz, Function.update_self]
      exact kept_call (h.outbound z).base hw he
    · rw [Function.update_of_ne hz]
      exact ⟨rfl, rfl, rfl⟩
  cases op with
  | app z op =>
    cases op with
    | tick ms => exact hcall z (.tick ms) (by simp) (by simp)
    | read n => exact hcall z (.read n) (by simp) (by simp)
    | connect | write | endInputStream => exact hop.elim
  | deliver z i =>
    cases hi : (net z.other).emitted[i]? with
    | none =>
      have hs : net.step (.deliver z i) = net := by
        simp only [step, callOf, hi, Option.map_none]
      rw [hs]
      exact ⟨rfl, rfl, rfl⟩
    | some seg =>
      rw [step_deliver hi]
      exact hcall z (.segmentReceived seg) (by simp) (by simp)

/-- While what `x` wrote is brought across. `W` is what it wrote; `ended` says whether it has
finished. -/
structure Relaying (isn : Side → WrappingInt32) (x : Side) (W : List UInt8) (ended : Bool)
    (net : Network) : Prop where
  synced : Synced isn net
  steady : ∀ y, Steady (isn y) (net y).conn.sender
  written : (net x).written = W
  ended : (net x).conn.sender.stream.inputEnded = ended
  room : 0 < (net x.other).conn.receiver.reassembler.capacity
  edge : W.length + (net x.other).conn.receiver.reassembler.capacity < 2 ^ 64

theorem step_steady_all (h : Synced isn net) (hs : ∀ y, Steady (isn y) (net y).conn.sender)
    (op : NetOp) (y : Side) : Steady (isn y) (net.step op y).conn.sender := by
  obtain he | ⟨z, cop, he, -, -⟩ := net.step_cases op
  · rw [he]
    exact hs y
  · rw [he]
    by_cases hz : y = z
    · rw [hz, Function.update_self]
      exact TCPConnection.step_steady (h.inv.outbound z).base (hs z) cop
    · rw [Function.update_of_ne hz]
      exact hs y

theorem Relaying.step (h : Relaying isn x W ended net) (hop : Relays x op)
    (hfin : net.FinInOrder op) : Relaying isn x W ended (net.step op) := by
  have hkept := fun y => hop.kept h.synced.inv y
  have hallowed : net.Allowed op := by
    refine ⟨?_, ?_, ?_⟩
    · cases op with
      | app z op =>
        cases op with
        | write => exact hop.elim
        | connect | endInputStream | tick | read => rfl
      | deliver z i => rfl
    · rw [(hkept .a).written]
      exact h.synced.inv.small .a
    · rw [(hkept .b).written]
      exact h.synced.inv.small .b
  refine ⟨h.synced.step hallowed hfin, step_steady_all h.synced h.steady op, ?_, ?_, ?_, ?_⟩
  · rw [(hkept x).written, h.written]
  · rw [(hkept x).ended, h.ended]
  · rw [(hkept x.other).capacity]
    exact h.room
  · rw [(hkept x.other).capacity]
    exact h.edge

/-! ## What holds in between -/

theorem Relaying.small (h : Relaying isn x W ended net) : W.length < 2 ^ 31 - 2 := by
  rw [← h.written]
  exact h.synced.inv.small x

theorem Relaying.sends (h : Relaying isn x W ended net) : Sends (isn x) W (net x).conn.sender := by
  have := (h.synced.inv.outbound x).sends
  rwa [h.written] at this

theorem Relaying.receives (h : Relaying isn x W ended net) :
    Endpoint.Inbound (isn x) W (net x.other) := by
  have := h.synced.inv.inbound x.other
  rwa [Side.other_other, h.written] at this

theorem Relaying.follows (h : Relaying isn x W ended net) :
    Follows (isn x) W (net x.other).conn.receiver := by
  have hends := h.synced.ends x.other
  rw [Side.other_other, h.written] at hends
  exact ⟨⟨(h.synced.acked x).ack, h.receives.receives⟩,
    ⟨fun he => ⟨rfl, (hends.eof he).2⟩, hends.complete⟩⟩

theorem Relaying.una_le (h : Relaying isn x W ended net) :
    (net x).conn.sender.una ≤ (net x.other).conn.receiver.absAckno := (h.synced.acked x).una

theorem Relaying.ackno_le (h : Relaying isn x W ended net) :
    (net x.other).conn.receiver.absAckno ≤ (net x).conn.sender.nextSeqno := by
  have hsmall := h.small
  refine (h.synced.acked x).ackno_le ?_ ?_
  · rw [h.written]
    exact h.receives.receives
  · rw [h.written]
    omega

/-! ## The other side reads -/

/-- The other side reads all that it has. -/
def readAll (x : Side) (net : Network) : NetOp :=
  .app x.other (.read (net x.other).conn.inboundStream.contents.length)

theorem step_readAll (net : Network) (x : Side) : net.step (readAll x net) =
    Function.update net x.other ((net x.other).call
      (.read (net x.other).conn.inboundStream.contents.length)) := rfl

theorem Relaying.read (h : Relaying isn x W ended net) :
    Relaying isn x W ended (net.step (readAll x net)) ∧
      net.step (readAll x net) x = net x ∧
      (net.step (readAll x net) x.other).conn.inboundStream.contents = [] ∧
      (net.step (readAll x net) x.other).conn.sender = (net x.other).conn.sender ∧
      (net.step (readAll x net) x.other).conn.activeFlag = (net x.other).conn.activeFlag ∧
      (net.step (readAll x net) x.other).conn.receiver.synFlag =
        (net x.other).conn.receiver.synFlag ∧
      (net.step (readAll x net) x.other).conn.receiver.absAckno =
        (net x.other).conn.receiver.absAckno ∧
      (net.step (readAll x net) x.other).written = (net x.other).written := by
  have hop : Relays x (readAll x net) := rfl
  have hkept := hop.kept h.synced.inv x.other
  refine ⟨h.step hop trivial, ?_, ?_, ?_, ?_, ?_, ?_, hkept.written⟩
  · rw [step_readAll, Function.update_of_ne (Ne.symm x.other_ne)]
  · rw [step_readAll, Function.update_self]
    show ((net x.other).conn.inboundStream.popOutput _).contents = []
    rw [ByteStream.contents_popOutput, List.drop_length]
  all_goals
    rw [step_readAll, Function.update_self]
    rfl

/-! ## One segment gets across -/

/-- The other side has sent an acknowledgment of the numbers below `stop`, without data. -/
def Acks (isn : Side → WrappingInt32) (x : Side) (stop : ℕ) (net : Network) : Prop :=
  ∃ (j : ℕ) (seg : TCPSegment) (a : ℕ), (net x.other).emitted[j]? = some seg ∧
    PureAck (isn x) a seg ∧ stop ≤ a ∧ a ≤ (net x.other).conn.receiver.absAckno ∧
    ((net x.other).conn.Connected ∨ a = (net x).written.length + 2)

/-- What is missing below `stop`, and what the other side can still send of its own. -/
def missing (x : Side) (stop : ℕ) (net : Network) : ℕ :=
  (stop - (net x.other).conn.receiver.absAckno) +
    ((net x.other).written.length + 2 - (net x.other).conn.sender.nextSeqno)

/-- **A delivery** to a side with an empty buffer: the segment is acknowledged without data, or
less is missing. -/
theorem Relaying.deliver (h : Relaying isn x W ended net) (hy : (net x.other).conn.Connected)
    (hnil : (net x.other).conn.inboundStream.contents = [])
    (hi : (net x).emitted[i]? = some seg) {p : ℕ} (hc : Carries (isn x) W ended p seg)
    (hpos : 1 ≤ p) (hp : p ≤ (net x.other).conn.receiver.absAckno)
    (hlen : 0 < seg.lengthInSequenceSpace) (hack : seg.header.ack = true)
    (hrst : seg.header.rst = false) :
    Relaying isn x W ended (net.step (.deliver x.other i)) ∧
      net.step (.deliver x.other i) x = net x ∧
      (Acks isn x (p + seg.lengthInSequenceSpace) (net.step (.deliver x.other i)) ∨
        (net.step (.deliver x.other i) x.other).conn.Connected ∧
          missing x (p + seg.lengthInSequenceSpace) (net.step (.deliver x.other i)) <
            missing x (p + seg.lengthInSequenceSpace) net) := by
  have hi' : (net x.other.other).emitted[i]? = some seg := by rwa [Side.other_other]
  have hsmall := h.small
  have hout := h.synced.inv.outbound x.other
  have hfin := h.follows.lastBeforeFin (by omega) hc hp
  have hop : Relays x (.deliver x.other i) := trivial
  have hnext : Relaying isn x W ended (net.step (.deliver x.other i)) := by
    refine h.step hop ?_
    show net.InOrder x.other (net x.other.other).emitted[i]?
    rw [hi']
    intro _ _
    rwa [Side.other_other, h.written]
  have hx : net.step (.deliver x.other i) x = net x := by
    rw [step_deliver hi', Function.update_of_ne (Ne.symm x.other_ne)]
  have hother : net.step (.deliver x.other i) x.other =
      (net x.other).call (.segmentReceived seg) := by
    rw [step_deliver hi', Function.update_self]
  refine ⟨hnext, hx, ?_⟩
  rcases hy.takes hout.base hout.sends h.follows hsmall hnil h.room h.edge hc hpos hp hlen hack hrst
    with ⟨seg₀, hem, hpure, hstop, hopen⟩ | ⟨hopen, hle, hmono, hless⟩
  · left
    refine ⟨(net x.other).emitted.length, seg₀, _, ?_, hpure, hstop, ?_, ?_⟩
    · rw [hother]
      show ((net x.other).emitted ++ ((net x.other).conn.step _).segmentsOut)[_]? = some seg₀
      rw [segmentsOut_eq hout.drained, hem, List.getElem?_concat_length]
    · rw [hother]
      rfl
    · rw [hother]
      rcases hopen with hopen | hall
      · exact .inl hopen
      · right
        rw [hx, h.written]
        exact hall
  · right
    have hbound := next_le (hnext.synced.inv.outbound x.other).sends
    have hwritten := (hop.kept h.synced.inv x.other).written
    unfold missing
    rw [hwritten] at hbound ⊢
    rw [hother] at hbound ⊢
    have hmono : (net x.other).conn.sender.nextSeqno ≤
        ((net x.other).call (.segmentReceived seg)).conn.sender.nextSeqno := hmono
    have hle : (net x.other).conn.receiver.absAckno ≤
        ((net x.other).call (.segmentReceived seg)).conn.receiver.absAckno := hle
    refine ⟨hopen, ?_⟩
    rcases hless with ⟨hless, hshort⟩ | hless
    · have hless : (net x.other).conn.receiver.absAckno <
          ((net x.other).call (.segmentReceived seg)).conn.receiver.absAckno := hless
      omega
    · have hless : (net x.other).conn.sender.nextSeqno <
          ((net x.other).call (.segmentReceived seg)).conn.sender.nextSeqno := hless
      omega

/-- **A segment gets across**: it is delivered, and the other side reads, until it is
acknowledged. -/
theorem Relaying.relay (h : Relaying isn x W ended net) (hy : (net x.other).conn.Connected)
    (hi : (net x).emitted[i]? = some seg)
    (hc : Carries (isn x) W ended (net x).conn.sender.una seg) (hpos : 1 ≤ (net x).conn.sender.una)
    (hlen : 0 < seg.lengthInSequenceSpace) (hack : seg.header.ack = true)
    (hrst : seg.header.rst = false) :
    CanReach Network.step (Relays x) (fun net' => Relaying isn x W ended net' ∧ net' x = net x ∧
      Acks isn x ((net x).conn.sender.una + seg.lengthInSequenceSpace) net') net := by
  refine CanReach.of_measure
    (I := fun net' => Relaying isn x W ended net' ∧ net' x = net x ∧ (net' x.other).conn.Connected)
    (missing x ((net x).conn.sender.una + seg.lengthInSequenceSpace)) ?_ ⟨h, rfl, hy⟩
  rintro net' ⟨h', hx', hy'⟩
  right
  obtain ⟨hread, hx, hnil, hsender, hactive, hsyn, hackno, hwritten⟩ := h'.read
  have hx := hx.trans hx'
  have hopen : (net'.step (readAll x net') x.other).conn.Connected := by
    refine ⟨by rw [hactive]; exact hy'.1, by rw [hsyn]; exact hy'.2.1, ?_⟩
    rw [hsender]
    exact hy'.2.2
  have hp := hread.una_le
  rw [hx] at hp
  obtain ⟨hnext, hsame, hcase⟩ := hread.deliver hopen hnil (by rw [hx]; exact hi) hc hpos hp hlen
    hack hrst
  refine .next (i := readAll x net') rfl (.next (i := .deliver x.other i) trivial (.here ?_))
  rcases hcase with hacks | ⟨hopen', hless⟩
  · exact .inr ⟨hnext, hsame.trans hx, hacks⟩
  · refine .inl ⟨⟨hnext, hsame.trans hx, hopen'⟩, ?_⟩
    refine Nat.lt_of_lt_of_eq hless ?_
    unfold missing
    rw [hackno, hwritten, hsender]

/-- **The acknowledgment arrives**: the oldest segment is no longer in flight, and a side that
closes has nothing in flight. -/
theorem Relaying.settle (h : Relaying isn x W ended net) (hx : (net x).conn.Connected)
    {t : TCPSegment} {rest : List TCPSegment}
    (hl : (net x).conn.sender.segmentsOutstanding = t :: rest)
    (hacks : Acks isn x ((net x).conn.sender.una + t.lengthInSequenceSpace) net) :
    ∃ j, Relaying isn x W ended (net.step (.deliver x j)) ∧
      (net x).conn.sender.una < (net.step (.deliver x j) x).conn.sender.una ∧
      (net.step (.deliver x j) x).conn.sender.consecutiveRetransmissions = 0 ∧
      ((net.step (.deliver x j) x).conn.Connected ∧
          (net.step (.deliver x j) x.other).conn.Connected ∨
        (net.step (.deliver x j) x).conn.bytesInFlight = 0) := by
  obtain ⟨j, seg, a, hj, hpure, hstop, hreached, hcase⟩ := hacks
  have hsmall := h.small
  have hout := h.synced.inv.outbound x
  have hfin : seg.header.fin = false := by
    refine Bool.eq_false_iff.2 fun hf => ?_
    have := hpure.length
    unfold lengthInSequenceSpace at this
    rw [hf] at this
    simp at this
  have hop : Relays x (.deliver x j) := trivial
  have hnext : Relaying isn x W ended (net.step (.deliver x j)) := by
    refine h.step hop ?_
    show net.InOrder x (net x.other).emitted[j]?
    rw [hj]
    intro _ _ hf
    rw [hfin] at hf
    cases hf
  refine ⟨j, hnext, ?_⟩
  have hself : net.step (.deliver x j) x = (net x).call (.segmentReceived seg) := by
    rw [step_deliver hj, Function.update_self]
  have hother : net.step (.deliver x j) x.other = net x.other := by
    rw [step_deliver hj, Function.update_of_ne x.other_ne]
  have hsent := next_le h.sends
  have hhigh := h.ackno_le
  have hread : unwrap seg.header.ackno (net x).conn.sender.isn
      (net x).conn.sender.nextSeqno = a := by
    rw [hpure.ackno, h.sends.data.isn]
    exact unwrap_wrap_le (by omega) (by omega)
  have hadd := h.sends.inv.una_add
  obtain ⟨hgrows, hzero, hall⟩ := h.sends.una_lt_ackReceived (by omega) hl hread hstop (by omega)
    seg.header.win
  have hstep := hx.segmentReceived hpure.ack hpure.rst
  rw [answer_of_length_zero hpure.length] at hstep
  have hsender : (net.step (.deliver x j) x).conn.sender =
      { (net x).conn.sender.ackReceived seg.header.ackno seg.header.win with
        segmentsOut := [] } := by
    rw [hself]
    exact (congrArg TCPConnection.sender hstep).trans (sendSenderSegments_sender _)
  refine ⟨by rw [hsender]; exact hgrows, by rw [hsender]; exact hzero, ?_⟩
  rcases Classical.em ((net.step (.deliver x j) x).conn.bytesInFlight = 0) with hdone | hflight
  · exact .inr hdone
  · have hactive : (net.step (.deliver x j) x).conn.activeFlag = true := by
      have hopen : closes { (net x).conn with
          timeSinceLastSegmentReceived := 0
          receiver := (net x).conn.receiver.segmentReceived seg
          sender := (net x).conn.sender.ackReceived seg.header.ackno seg.header.win } = false := by
        refine closes_of_flight fun hnone => hflight ?_
        unfold TCPConnection.bytesInFlight
        rw [hsender]
        exact hnone
      rw [hself]
      refine (congrArg TCPConnection.activeFlag hstep).trans ?_
      rw [sendSenderSegments_active, hopen]
      simpa using hx.1
    obtain ⟨hsyn, huna⟩ := hx.step_segment hout.base hpure.ack hpure.rst
    refine .inl ⟨⟨hactive, by rw [hself]; exact hsyn, by rw [hself]; exact huna⟩, ?_⟩
    rw [hother]
    refine hcase.resolve_right fun hend => hflight ?_
    -- with everything acknowledged, nothing more can be in flight
    have hnext' := next_le hnext.sends
    have hadd' := hnext.sends.inv.una_add
    rw [h.written] at hend
    have hreaches : (net.step (.deliver x j) x).conn.sender.una =
        (net x).conn.sender.nextSeqno := by
      rw [hsender]
      exact hall (by omega)
    unfold TCPConnection.bytesInFlight
    omega

/-! ## The rounds -/

/-- Between two rounds: both sides are open, and `x` may still re-send. -/
structure Round (isn : Side → WrappingInt32) (x : Side) (W : List UInt8) (ended : Bool)
    (net : Network) : Prop where
  relaying : Relaying isn x W ended net
  self : (net x).conn.Connected
  other : (net x.other).conn.Connected
  budget : (net x).conn.sender.consecutiveRetransmissions < TCPConfig.maxRetxAttempts

/-- The clock re-sends the oldest segment in flight. -/
theorem Round.resend (h : Round isn x W ended net) {t : TCPSegment} {rest : List TCPSegment}
    (hl : (net x).conn.sender.segmentsOutstanding = t :: rest) :
    ∃ (ms i : ℕ) (seg : TCPSegment), Relaying isn x W ended (net.step (.app x (.tick ms))) ∧
      (net.step (.app x (.tick ms)) x).conn.Connected ∧
      (net.step (.app x (.tick ms)) x.other).conn.Connected ∧
      (net.step (.app x (.tick ms)) x).conn.sender.segmentsOutstanding = t :: rest ∧
      (net.step (.app x (.tick ms)) x).conn.sender.una = (net x).conn.sender.una ∧
      (net.step (.app x (.tick ms)) x).emitted[i]? = some seg ∧
      Carries (isn x) W ended (net x).conn.sender.una seg ∧
      seg.lengthInSequenceSpace = t.lengthInSequenceSpace ∧ seg.header.ack = true ∧
      seg.header.rst = false := by
  have hout := h.relaying.synced.inv.outbound x
  obtain ⟨hem, hopen, -, hframe⟩ := h.self.resends hout.base (h.relaying.steady x).timed h.budget hl
  generalize resendTime (net x).conn.sender = ms at hem hopen hframe
  have hop : Relays x (.app x (.tick ms)) := rfl
  have hself : net.step (.app x (.tick ms)) x = (net x).call (.tick ms) := Function.update_self ..
  have hother : net.step (.app x (.tick ms)) x.other = net x.other :=
    Function.update_of_ne x.other_ne ..
  refine ⟨ms, (net x).emitted.length, fillFields (net x).conn.receiver false t,
    h.relaying.step hop trivial, ?_, ?_, ?_, ?_, ?_, ?_, ?_, ?_, ?_⟩
  · rw [hself]
    exact hopen
  · rw [hother]
    exact h.other
  · rw [hself, ← hl]
    exact hframe.outstanding
  · rw [hself]
    show ((net x).conn.step (.tick ms)).sender.nextSeqno -
      ((net x).conn.step (.tick ms)).sender.bytesInFlight = _
    rw [hframe.nextSeqno, hframe.bytesInFlight]
    rfl
  · rw [hself]
    show ((net x).emitted ++ ((net x).conn.step _).segmentsOut)[_]? = _
    rw [segmentsOut_eq hout.drained, hem, List.getElem?_concat_length]
  · have hcar := (h.relaying.sends.inv.front hl).1
    rw [h.relaying.ended] at hcar
    exact carries_fillFields hcar _ _
  · exact fillFields_length _ _ _
  · exact (fillFields_ack h.self.2.1 false t).1
  · have hbare := ((h.relaying.steady x).bare.front hl).1
    rw [fillFields_rst_eq, hbare.1]

/-- **A round** takes the oldest segment off those in flight. -/
theorem Round.round (h : Round isn x W ended net) (hflight : (net x).conn.bytesInFlight ≠ 0) :
    CanReach Network.step (Relays x) (fun net' =>
      (Round isn x W ended net' ∧ (net x).conn.sender.una < (net' x).conn.sender.una) ∨
        (Relaying isn x W ended net' ∧ 0 < (net' x).conn.sender.una ∧
          (net' x).conn.bytesInFlight = 0)) net := by
  cases hl : (net x).conn.sender.segmentsOutstanding with
  | nil => exact absurd (h.relaying.sends.inv.outstanding_eq_nil.1 hl) hflight
  | cons t rest =>
    obtain ⟨ms, i, seg, hrel, hx, hy, hl', huna, hi, hc, hlen, hack, hrst⟩ := h.resend hl
    have hpos := (h.relaying.sends.inv.front hl).2.1
    refine .next (i := .app x (.tick ms)) rfl ?_
    rw [← huna] at hc
    refine (hrel.relay hy hi hc hx.2.2 (by omega) hack hrst).bind ?_
    rintro net' ⟨hrel', hsame, hacks⟩
    rw [← hsame, hlen] at hacks
    rw [← hsame] at hx hl' huna
    obtain ⟨j, hnext, hgrows, hzero, hcase⟩ := hrel'.settle hx hl' hacks
    refine .next (i := .deliver x j) trivial (.here ?_)
    rcases hcase with ⟨hx', hy'⟩ | hdone
    · refine .inl ⟨⟨hnext, hx', hy', ?_⟩, by omega⟩
      rw [hzero]
      decide
    · exact .inr ⟨hnext, by omega, hdone⟩

/-- **All rounds**: nothing is left in flight. -/
theorem Round.settled (h : Round isn x W ended net) :
    CanReach Network.step (Relays x) (fun net' => Relaying isn x W ended net' ∧
      0 < (net' x).conn.sender.una ∧ (net' x).conn.bytesInFlight = 0) net := by
  refine CanReach.of_measure (I := Round isn x W ended)
    (fun net' => W.length + 2 - (net' x).conn.sender.una) ?_ h
  intro net' h'
  rcases Classical.em ((net' x).conn.bytesInFlight = 0) with hdone | hflight
  · exact .inl ⟨h'.relaying, h'.self.2.2, hdone⟩
  · right
    refine (h'.round hflight).mono fun net'' hcase => ?_
    rcases hcase with ⟨hround, hgrows⟩ | hdone
    · refine .inl ⟨hround, ?_⟩
      have hadd := hround.relaying.sends.inv.una_add
      have hbound := next_le hround.relaying.sends
      omega
    · exact .inr hdone

/-! ## Everything is delivered -/

/-- Everything that `x` wrote has been read on the other side, which knows of the end of the stream
if `x` has finished; nothing is in flight or left to send. -/
structure Delivered (x : Side) (W : List UInt8) (ended : Bool) (net : Network) : Prop where
  written : (net x).written = W
  popped : (net x.other).popped = W
  flight : (net x).conn.bytesInFlight = 0
  unsent : (net x).conn.sender.stream.contents = []
  eof : (net x.other).conn.inboundStream.eof = ended

/-- With nothing in flight the other side has the whole stream. -/
theorem Relaying.complete (h : Relaying isn x W ended net) (hpos : 0 < (net x).conn.sender.una)
    (hflight : (net x).conn.bytesInFlight = 0) :
    (net x).conn.sender.stream.contents = [] ∧
      (net x.other).conn.receiver.reassembler.firstUnassembled = W.length ∧
      (net x.other).conn.receiver.streamOut.inputEnded = ended := by
  have hsmall := h.small
  have hadd := h.sends.inv.una_add
  have hlow := h.una_le
  have hhigh := h.ackno_le
  have hcounts := h.sends.data.counts
  have hnext := hcounts.next
  unfold TCPConnection.bytesInFlight at hflight
  have hsyn : (net x).conn.sender.synFlag = true := by
    refine Bool.eq_true_of_not_eq_false fun hs => ?_
    obtain ⟨hread, hfin⟩ := hcounts.fresh hs
    rw [hs, hread, hfin] at hnext
    simp at hnext
    omega
  -- a window is never used up with nothing in flight
  have hsent : ¬ (net x).conn.sender.Unsent := by
    intro hu
    have := (h.steady x).unstalled.noStall hsyn hu
    have := (net x).conn.sender.window_pos
    omega
  obtain ⟨hnil, hfin⟩ := not_or.1 hsent
  have hnil := not_not.1 hnil
  have hall : (net x).conn.sender.stream.bytesRead = W.length := by
    have hdrop := h.sends.data.contents
    have hle := h.sends.data.bytesRead_le
    rw [hnil] at hdrop
    have := List.drop_eq_nil_iff.1 hdrop.symm
    omega
  have hfinished : (net x).conn.sender.finFlag = ended := by
    rw [h.ended] at hfin
    cases hf : (net x).conn.sender.finFlag with
    | true =>
      have heof := hcounts.fin hf
      unfold ByteStream.eof at heof
      rw [h.ended, Bool.and_eq_true] at heof
      exact heof.2.symm
    | false =>
      rw [hf] at hfin
      simpa using hfin
  rw [hsyn, hall, hfinished] at hnext
  have hknown : (net x.other).conn.receiver.synFlag = true := by
    refine Bool.eq_true_of_not_eq_false fun hs => ?_
    have hzero : (net x.other).conn.receiver.absAckno = 0 := by
      unfold TCPReceiver.absAckno TCPReceiver.ackno
      rw [hs]
      rfl
    omega
  have hends := h.follows.ended_iff hknown (by omega)
  have hackno := h.follows.absAckno_eq hknown (by omega)
  have hcursor := h.follows.receives.cursor_le
  rw [h.follows.ack.ahead_eq] at hackno
  refine ⟨hnil, ?_, ?_⟩
  · cases he : (net x.other).conn.receiver.streamOut.inputEnded with
    | true => exact h.follows.ends.complete he
    | false =>
      rw [he] at hackno
      simp at hackno hnext
      omega
  · cases ended with
    | true =>
      refine hends.2 ?_
      simp at hnext
      omega
    | false =>
      refine Bool.eq_false_iff.2 fun he => ?_
      have := hends.1 he
      simp at hnext
      omega

/-- **Recovery**, from any state in between. -/
theorem Round.recovers (h : Round isn x W ended net) :
    CanReach Network.step (Relays x) (Delivered x W ended) net := by
  refine h.settled.bind ?_
  rintro net' ⟨h', hpos, hflight⟩
  obtain ⟨hunsent, hcursor, hended⟩ := h'.complete hpos hflight
  obtain ⟨hrel, hx, hnil, -, -, -, -, -⟩ := h'.read
  refine .next (i := readAll x net') rfl (.here ⟨hrel.written, ?_, ?_, ?_, ?_⟩)
  · -- the cursor is at the end, and everything before it has been read
    have hcursor' := hrel.receives.receives.cursor_eq
    have hsame : (net'.step (readAll x net') x.other).conn.receiver.reassembler.firstUnassembled =
        W.length := by
      rw [step_readAll, Function.update_self]
      exact hcursor
    have hnil' : (net'.step (readAll x net') x.other).conn.receiver.streamOut.contents = [] := hnil
    rw [hsame, hnil', List.length_nil, Nat.add_zero] at hcursor'
    have hpopped := hrel.receives.popped
    unfold TCPConnection.inboundStream at hpopped
    rw [← hcursor', List.take_length] at hpopped
    exact hpopped
  · rw [hx]
    exact hflight
  · rw [hx]
    exact hunsent
  · unfold ByteStream.eof ByteStream.bufferEmpty
    rw [← ByteStream.bufferSize, ByteStream.bufferSize_eq, hnil, step_readAll, Function.update_self]
    exact hended

/-- The state of a run. -/
theorem run_steady (cfg : Side → TCPConfig) (random : Side → UInt32) (ops : List NetOp)
    (hops : Guarded step (fun net op => net.Allowed op ∧ net.FinInOrder op) (new cfg random) ops) :
    Synced (isns cfg random) (exec step (new cfg random) ops) ∧
      ∀ x, Steady (isns cfg random x) (exec step (new cfg random) ops x).conn.sender ∧
        (exec step (new cfg random) ops x).conn.receiver.reassembler.capacity =
          (cfg x).recvCapacity.toNat := by
  refine Guarded.invariant (I := fun net => Synced (isns cfg random) net ∧
    ∀ x, Steady (isns cfg random x) (net x).conn.sender ∧
      (net x).conn.receiver.reassembler.capacity = (cfg x).recvCapacity.toNat) ?_
    ⟨new_synced cfg random, fun x => ⟨new_steady (cfg x) (random x), rfl⟩⟩ hops
  rintro net op ⟨hsynced, hboth⟩ ⟨hop, hfin⟩
  refine ⟨hsynced.step hop hfin, fun x => ⟨?_, ?_⟩⟩
  · exact step_steady_all hsynced (fun y => (hboth y).1) op x
  · rw [← (hboth x).2]
    obtain he | ⟨z, cop, he, -, -⟩ := net.step_cases op
    · rw [he]
    · rw [he]
      by_cases hz : x = z
      · rw [hz, Function.update_self]
        exact capacity_call (hsynced.inv.outbound z).base cop
      · rw [Function.update_of_ne hz]

/-- **Everything written can still be delivered**: in every state of every run in which nobody
writes after `end_input_stream`, each side writes less than `2 ^ 31 - 2` bytes (`Allowed`) and no
lone FIN overtakes the last byte (`FinInOrder`), with a receive capacity of the other side between
`1` and `2 ^ 64 - 2 ^ 31`, both connections past their handshake and open and `x` not about to give
up, `x`'s clock, the other side's reads and deliveries can bring across all that `x` wrote, and its
FIN. -/
theorem run_recovers (cfg : Side → TCPConfig) (random : Side → UInt32) (ops : List NetOp)
    (hops : Guarded step (fun net op => net.Allowed op ∧ net.FinInOrder op) (new cfg random) ops)
    (x : Side) (hroom : 0 < (cfg x.other).recvCapacity.toNat)
    (hedge : (cfg x.other).recvCapacity.toNat ≤ 2 ^ 64 - 2 ^ 31)
    (hx : (exec step (new cfg random) ops x).conn.Connected)
    (hy : (exec step (new cfg random) ops x.other).conn.Connected)
    (hbudget : (exec step (new cfg random) ops x).conn.sender.consecutiveRetransmissions <
      TCPConfig.maxRetxAttempts) :
    ∃ more : List NetOp, (∀ op ∈ more, Relays x op) ∧
      Delivered x (exec step (new cfg random) ops x).written
        (exec step (new cfg random) ops x).conn.sender.stream.inputEnded
        (exec step (new cfg random) (ops ++ more)) := by
  obtain ⟨hsynced, hsteady⟩ := run_steady cfg random ops hops
  have hsmall := hsynced.inv.small x
  have hrel : Relaying (isns cfg random) x _ _ (exec step (new cfg random) ops) :=
    ⟨hsynced, fun y => (hsteady y).1, rfl, rfl, by rw [(hsteady x.other).2]; exact hroom,
      by rw [(hsteady x.other).2]; omega⟩
  obtain ⟨more, hmore, hdone⟩ := Round.recovers ⟨hrel, hx, hy, hbudget⟩
  refine ⟨more, hmore, ?_⟩
  rw [exec_append]
  exact hdone

/-- A byte and the FIN are sent after the handshake, and both are lost. -/
theorem recovers_of_loss : ∃ more : List NetOp, (∀ op ∈ more, Relays .a op) ∧
    Delivered .a [97] true (exec step (new (fun _ => {}) (fun _ => 0))
      ([.app .a .connect, .deliver .b 0, .deliver .a 0, .deliver .b 1, .app .a (.write [97]),
        .app .a .endInputStream] ++ more)) :=
  run_recovers (fun _ => {}) (fun _ => 0)
    [.app .a .connect, .deliver .b 0, .deliver .a 0, .deliver .b 1, .app .a (.write [97]),
      .app .a .endInputStream]
    (by decide +kernel) .a (by decide) (by decide) (by decide +kernel) (by decide +kernel)
    (by decide +kernel)

end Network

end Sponge
