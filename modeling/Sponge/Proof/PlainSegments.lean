import Sponge.Network
import Sponge.Proof.Close
import Sponge.Proof.Emission

/-!
# What the segments of a connection look like

The sender sets few fields of a segment (`Bare`), to which the connection adds the acknowledgment,
the window and RST: the header has no options and the payload fits a datagram (`Plain`). A
connection that is still active has emitted no RST. `Regular.call`: every call keeps this, whatever
arrives.

The adapters change the ports and the checksum of a segment, which no connection looks at (`Alike`).
-/

namespace Sponge

/-- The header has no options, and the payload is not above the maximum. -/
def TCPSegment.Plain (seg : TCPSegment) : Prop :=
  seg.header.doff = 5 ∧ seg.payload.length ≤ TCPConfig.maxPayloadSize

namespace TCPSender

/-- The sender sets the number, the flags SYN and FIN and the payload, and nothing else. -/
def Bare (_ : ℕ) (seg : TCPSegment) : Prop :=
  seg.header = { seqno := seg.header.seqno, syn := seg.header.syn, fin := seg.header.fin } ∧
    seg.payload.length ≤ TCPConfig.maxPayloadSize

theorem emits_bare : Emits Bare (fun _ => True) where
  syn _ _ _ _ := ⟨⟨rfl, Nat.zero_le _⟩, trivial⟩
  data n s _ _ _ _ _ := by
    refine ⟨⟨rfl, ?_⟩, trivial⟩
    rw [dataSegment_payload, List.length_take]
    omega
  fin _ _ _ _ _ _ := ⟨⟨rfl, Nat.zero_le _⟩, trivial⟩

end TCPSender

namespace TCPConnection

open TCPSender (Bare)

variable {c x : TCPConnection} {op : ConnOp} {seg : TCPSegment}

theorem bare_rule : SenderRule (TCPSender.Inv Bare) where
  drain _ h := h.setQueue (List.forall_mem_nil _)
  fill _ h := (TCPSender.emits_bare.fillWindow h trivial).1
  endFill _ h := (TCPSender.emits_bare.fillWindow (h.setStream _) trivial).1
  error _ h := h.setStream _
  empty _ h := h.sendEmptySegment ⟨rfl, Nat.zero_le _⟩
  ack _ ackno windowSize h _ := (TCPSender.emits_bare.ackReceived h ackno windowSize
    (fun _ => trivial) (fun _ => trivial)).1

theorem bare_write (h : TCPSender.Inv Bare c.sender) (data : List UInt8) : TCPSender.Inv Bare
    ({ c.sender with stream := (c.sender.stream.write data).2 } : TCPSender).fillWindow :=
  (TCPSender.emits_bare.fillWindow (h.setStream _) trivial).1

theorem outgoing_bare (h : TCPSender.Inv Bare x.sender) (hseg : seg ∈ x.outgoing) :
    ∃ p, Bare p seg := by
  unfold outgoing at hseg
  split at hseg
  · rw [List.mem_singleton.1 hseg]
    exact ⟨0, rfl, Nat.zero_le _⟩
  · obtain ⟨p, -, hp⟩ := h.queued seg hseg
    exact ⟨p, hp⟩

theorem fillFields_doff (receiver : TCPReceiver) (rst : Bool) (seg : TCPSegment) :
    (fillFields receiver rst seg).header.doff = seg.header.doff := by
  unfold fillFields
  cases receiver.ackno <;> cases rst <;> rfl

theorem fillFields_rst_eq (receiver : TCPReceiver) (seg : TCPSegment) :
    (fillFields receiver false seg).header.rst = seg.header.rst := by
  unfold fillFields
  cases receiver.ackno <;> rfl

/-- **An active connection** has not sent RST in the call. -/
theorem emitted_not_rst (hb : Base c) (h : TCPSender.Inv Bare c.sender)
    (ha : (c.step op).activeFlag = true) : ∀ seg ∈ c.emitted op, seg.header.rst = false := by
  have hsent : ∀ x : TCPConnection, c.step op = x.sendSenderSegments →
      x.segmentsOut = c.segmentsOut → x.needSendRst = false → TCPSender.Inv Bare x.sender →
      ∀ seg ∈ c.emitted op, seg.header.rst = false := by
    intro x he hout hr hx seg hseg
    rw [emitted_sends_map he hout hr] at hseg
    obtain ⟨seg₀, hmem, rfl⟩ := List.mem_map.1 hseg
    obtain ⟨p, -, hp⟩ := hx.queued seg₀ hmem
    rw [fillFields_rst_eq, hp.1]
  have hnone : ∀ c' : TCPConnection, c.step op = c' → c'.segmentsOut = c.segmentsOut →
      ∀ seg ∈ c.emitted op, seg.header.rst = false := by
    intro c' he hout seg hseg
    rw [emitted_same he hout] at hseg
    cases hseg
  have hcall := called c op
  generalize hc : c.step op = c' at hcall ha
  cases hcall with
  | connect => exact hsent _ hc rfl hb.rst (bare_rule.fill _ h)
  | write data => exact hsent _ hc rfl hb.rst (bare_write h data)
  | endInputStream => exact hsent _ hc rfl hb.rst (bare_rule.endFill _ h)
  | segmentReceived seg hr =>
    cases hr with
    | inactive | ignored | silent => exact hnone _ hc rfl
    | opened => exact hsent _ hc rfl hb.rst (bare_rule.fill _ h)
    | reset => simp [aborted] at ha
    | simultaneous => exact hsent _ hc rfl hb.rst (bare_rule.empty _ h)
    | answered ha' hl =>
      refine hsent _ hc rfl hb.rst ?_
      have hack := bare_rule.ack _ seg.header.ackno seg.header.win h (hb.syn_of_not_listen hl)
      unfold answer
      dsimp only
      split
      · exact bare_rule.empty _ hack
      · exact hack
  | tick ms ht =>
    cases ht with
    | inactive => exact hnone _ hc rfl
    | passed => exact hsent _ hc rfl hb.rst (h.tick ms)
    | gaveUp => simp [aborted] at ha
  | writeNothing | read => exact hnone _ hc rfl
  | popSegment =>
    intro seg hseg
    rw [emitted_drop (n := 1) (by rw [hc, List.drop_one])] at hseg
    cases hseg

/-- **Every segment emitted** is plain. -/
theorem emitted_plain (hb : Base c) (h : TCPSender.Inv Bare c.sender) :
    ∀ seg ∈ c.emitted op, seg.Plain := by
  intro seg hseg
  obtain ⟨-, he⟩ | ⟨x, -, hx, he⟩ := bare_rule.toCallRule.emits h op
    (fun data _ => bare_write h data)
    (fun seg _ hr => bare_rule.ack _ _ _ h (hb.syn_of_not_listen hr.2.1)) (fun ms _ _ => h.tick ms)
  · rw [he] at hseg
    cases hseg
  · rw [he] at hseg
    obtain ⟨seg₀, hmem, rst, rfl⟩ := mem_stamped hseg
    obtain ⟨p, hheader, hlen⟩ := outgoing_bare hx hmem
    refine ⟨?_, by rw [fillFields_payload]; exact hlen⟩
    rw [fillFields_doff, hheader]
    rfl

end TCPConnection

namespace Endpoint

open TCPSender (Bare)

/-- The invariant of an endpoint, whatever it receives. -/
structure Regular (e : Endpoint) : Prop where
  base : TCPConnection.Base e.conn
  drained : e.conn.segmentsOut = []
  bare : TCPSender.Inv Bare e.conn.sender
  plain : ∀ seg ∈ e.emitted, seg.Plain
  clean : e.conn.activeFlag = true → ∀ seg ∈ e.emitted, seg.header.rst = false
  calm : e.conn.Calm ∨ e.conn.IsReset
  closed : e.conn.activeFlag = false → e.conn.Calm → e.conn.inboundStream.inputEnded = true

theorem new_regular (cfg : TCPConfig) (random : UInt32) : Regular (new cfg random) :=
  ⟨TCPConnection.new_base cfg random, rfl, TCPSender.new_inv _ _ _ _, List.forall_mem_nil _,
    fun _ => List.forall_mem_nil _, .inl ⟨rfl, rfl⟩, nofun⟩

/-- An inactive connection has come to the end of its inbound stream, or it is in error. -/
theorem Regular.over {e : Endpoint} (h : Regular e) (ha : e.conn.activeFlag = false) :
    e.conn.inboundStream.inputEnded = true ∨ e.conn.inboundStream.error = true :=
  h.calm.imp (h.closed ha) fun hr => hr.2.2

/-- **Every call.** -/
theorem Regular.call {e : Endpoint} (h : Regular e) (op : ConnOp) : Regular (e.call op) := by
  have hnew : (e.conn.step op).segmentsOut = e.conn.emitted op := by
    rw [TCPConnection.emitted, h.drained, List.length_nil, List.drop_zero]
  have hbase := h.base.step op
  refine ⟨⟨hbase.queue, hbase.rst, hbase.sender, hbase.receiver, hbase.link⟩, rfl, ?_, ?_, ?_,
    TCPConnection.step_calm_or h.base h.calm op,
    TCPConnection.step_closed h.base h.calm h.closed⟩
  · exact TCPConnection.bare_rule.step h.base.syn_of_not_listen h.bare op
      (fun data _ => TCPConnection.bare_write h.bare data) (fun ms _ _ => h.bare.tick ms)
  · intro seg hseg
    have hseg : seg ∈ e.emitted ++ (e.conn.step op).segmentsOut := hseg
    rw [hnew] at hseg
    rcases List.mem_append.1 hseg with hseg | hseg
    · exact h.plain seg hseg
    · exact TCPConnection.emitted_plain h.base h.bare seg hseg
  · intro ha seg hseg
    have ha : (e.conn.step op).activeFlag = true := ha
    have hseg : seg ∈ e.emitted ++ (e.conn.step op).segmentsOut := hseg
    rw [hnew] at hseg
    rcases List.mem_append.1 hseg with hseg | hseg
    · exact h.clean (TCPConnection.step_active ha) seg hseg
    · exact TCPConnection.emitted_not_rst h.base h.bare ha seg hseg

end Endpoint

/-! ## What a connection does not look at -/

/-- The segments are the same but for what an adapter sets. -/
def TCPSegment.Alike (seg seg' : TCPSegment) : Prop :=
  seg = { seg' with
    header := { seg'.header with
      sport := seg.header.sport, dport := seg.header.dport, cksum := seg.header.cksum } }

/-- **The connection** does not look at the ports and the checksum. -/
theorem TCPConnection.segmentReceived_alike (c : TCPConnection) {seg seg' : TCPSegment}
    (h : seg.Alike seg') : c.segmentReceived seg = c.segmentReceived seg' := by
  unfold TCPSegment.Alike at h
  rw [h]
  rfl

theorem Endpoint.call_alike (e : Endpoint) {seg seg' : TCPSegment} (h : seg.Alike seg') :
    e.call (.segmentReceived seg) = e.call (.segmentReceived seg') := by
  have hstep : e.conn.step (.segmentReceived seg) = e.conn.step (.segmentReceived seg') :=
    e.conn.segmentReceived_alike h
  simp only [call, hstep]
  rfl

/-- The segment is like one of the list. -/
def TCPSegment.Among (segs : List TCPSegment) (seg : TCPSegment) : Prop :=
  ∃ seg' ∈ segs, seg.Alike seg'

theorem TCPSegment.Among.mono {segs segs' : List TCPSegment} {seg : TCPSegment}
    (h : seg.Among segs) (hsub : ∀ s ∈ segs, s ∈ segs') : seg.Among segs' := by
  obtain ⟨seg', hmem, halike⟩ := h
  exact ⟨seg', hsub _ hmem, halike⟩

end Sponge
