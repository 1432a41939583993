import Sponge.Proof.Emission

/-!
# The FIN is unique and last

`ByteStream::write` does not look at `_input_ended`, so bytes can enter the outbound stream after
`end_input_stream`. As long as they do not, the number of the FIN is fixed by what was written, and
nothing lies after it (`run_one_fin_iff`).

The emitted segments are recorded with their absolute numbers. A call queues new segments end to
end from `_next_seqno` on (`Queues`), and a tick re-sends the segment at the first number in
flight; `numbered` assigns the numbers accordingly.
-/

namespace Sponge

namespace TCPSender

open TCPSegment (lengthInSequenceSpace)

variable {s : TCPSender} {isn : WrappingInt32} {W : List UInt8} {n : ℕ}

/-- The queue lies end to end from number `n` up to `_next_seqno`. -/
structure Queues (isn : WrappingInt32) (W : List UInt8) (n : ℕ) (s : TCPSender) : Prop where
  sends : Sends isn W s
  laid : Laid (Carries isn W s.stream.inputEnded) lengthInSequenceSpace n s.segmentsOut s.nextSeqno

theorem Sends.queues (h : Sends isn W s) (hq : s.segmentsOut = []) :
    Queues isn W s.nextSeqno s := by
  refine ⟨h, ?_⟩
  rw [hq]
  exact rfl

/-- **`fill_window`** extends the queue. -/
theorem Queues.fillWindow (h : Queues isn W n s) : Queues isn W n s.fillWindow := by
  have hsends := h.sends.fillWindow
  have hend := h.sends.inv.laid.eq_add
  obtain ⟨new, hout, houtstanding⟩ := fillWindow_pushes s
  have hlaid := hsends.inv.laid
  rw [houtstanding, una_fillWindow h.sends.inv, Laid.append_iff] at hlaid
  obtain ⟨b, hold, hnew⟩ := hlaid
  have hb : b = s.nextSeqno := by rw [hold.eq_add, hend]
  rw [hb] at hnew
  refine ⟨hsends, ?_⟩
  rw [hout]
  apply Laid.append _ (hnew.mono fun _ _ hp => hp.1)
  rw [fillWindow_inputEnded]
  exact h.laid

theorem Queues.endInput (h : Queues isn W n s) :
    Queues isn W n { s with stream := s.stream.endInput } :=
  ⟨h.sends.endInput, h.laid.mono fun _ _ hc => hc.endInput⟩

theorem Queues.setError (h : Queues isn W n s) :
    Queues isn W n { s with stream := s.stream.setError } :=
  ⟨h.sends.setError, h.laid⟩

/-- An empty segment takes no number. -/
theorem Queues.sendEmptySegment (h : Queues isn W n s) : Queues isn W n s.sendEmptySegment :=
  ⟨h.sends.sendEmptySegment, h.laid.append ⟨carries_empty h.sends.data.isn _, rfl⟩⟩

theorem Sends.ackPopped (h : Sends isn W s) (a : ℕ) (windowSize : UInt16) :
    Sends isn W (s.ackPopped a windowSize) :=
  ⟨h.inv.ackPopped a windowSize, h.data.isn, h.data.contents, h.data.written, h.data.counts.next,
    h.data.counts.fin, h.data.counts.fresh⟩

theorem Sends.ackWindow (h : Sends isn W s) (a : ℕ) (windowSize : UInt16) :
    Sends isn W (s.ackWindow a windowSize) :=
  ⟨h.inv.ackWindow a windowSize, h.data.isn, h.data.contents, h.data.written, h.data.counts.next,
    h.data.counts.fin, h.data.counts.fresh⟩

theorem Queues.ackReceived (h : Queues isn W n s) (ackno : WrappingInt32) (windowSize : UInt16) :
    Queues isn W n (s.ackReceived ackno windowSize) := by
  obtain ⟨-, he⟩ | ⟨t, rest, -, -, he⟩ | ⟨t, rest, -, -, he⟩ :=
    ackReceived_cases s ackno windowSize rfl <;> rw [he]
  · exact ⟨h.sends.ackWindow _ _, h.laid⟩
  · exact ⟨h.sends.ackWindow _ _, h.laid⟩
  · have hpopped : Queues isn W n (s.ackPopped (unwrap ackno s.isn s.nextSeqno) windowSize) :=
      ⟨h.sends.ackPopped _ _, h.laid⟩
    exact hpopped.fillWindow

/-- The last number of a segment with data lies at most one past the stream; the FIN's exactly. -/
theorem Carries.last_le {ended : Bool} {p : ℕ} {seg : TCPSegment} (h : Carries isn W ended p seg)
    (hpos : 0 < seg.lengthInSequenceSpace) : p + seg.lengthInSequenceSpace ≤ W.length + 2 := by
  unfold lengthInSequenceSpace at hpos ⊢
  cases hs : seg.header.syn with
  | true =>
    obtain ⟨hp, hnil, hf⟩ := h.syn hs
    simp [hp, hnil, hf]
  | false =>
    cases hf : seg.header.fin with
    | true =>
      have := (h.fin hf).2.2
      simp
      omega
    | false =>
      simp only [hs, hf, Bool.false_eq_true, ↓reduceIte, Nat.add_zero] at hpos ⊢
      have hlast : seg.payload.length - 1 < seg.payload.length := by omega
      obtain ⟨hp, hbyte⟩ := h.payload _ _ (List.getElem?_eq_getElem hlast)
      have := (List.getElem?_eq_some_iff.1 hbyte).1
      omega

theorem Carries.fin_last {ended : Bool} {p : ℕ} {seg : TCPSegment} (h : Carries isn W ended p seg)
    (hf : seg.header.fin = true) : p + seg.lengthInSequenceSpace = W.length + 2 := by
  have hs : seg.header.syn = false := by
    refine Bool.eq_false_iff.2 fun hs => ?_
    have := (h.syn hs).2.2
    rw [hf] at this
    cases this
  have := (h.fin hf).2.2
  unfold lengthInSequenceSpace
  rw [hs, hf]
  simp
  omega

end TCPSender

namespace TCPConnection

open TCPSender (Sends Carries Queues)
open TCPSegment (lengthInSequenceSpace)

variable {c : TCPConnection} {op : ConnOp} {isn : WrappingInt32} {W : List UInt8} {n : ℕ}

/-! ## Numbers of the emitted segments -/

/-- The segments that a call emits, with their absolute numbers. A tick can only re-send the segment
at the first number in flight, or announce the reset with an empty segment. -/
def numbered (c : TCPConnection) : ConnOp → List (ℕ × TCPSegment)
  | .tick ms => (c.emitted (.tick ms)).map fun seg =>
      (if seg.lengthInSequenceSpace = 0 then c.sender.nextSeqno else c.sender.una, seg)
  | op => Laid.positions lengthInSequenceSpace c.sender.nextSeqno (c.emitted op)

theorem numbered_of_ne (hop : ∀ ms, op ≠ .tick ms) : c.numbered op =
    Laid.positions lengthInSequenceSpace c.sender.nextSeqno (c.emitted op) := by
  cases op with
  | tick ms => exact absurd rfl (hop ms)
  | connect | write | endInputStream | segmentReceived | read | popSegment => rfl

theorem queues_rule (isn : WrappingInt32) (W : List UInt8) (n : ℕ) :
    CallRule (Queues isn W n) where
  fill _ h := h.fillWindow
  endFill _ h := h.endInput.fillWindow
  error _ h := h.setError
  empty _ h := h.sendEmptySegment

/-- What is handed over lies as the queue does, the empty segment of a reset included. -/
theorem laid_outgoing {x : TCPConnection} (h : Queues isn W n x.sender) :
    Laid (Carries isn W x.sender.stream.inputEnded) lengthInSequenceSpace n x.outgoing
      x.sender.nextSeqno := by
  unfold outgoing
  split
  · rename_i he
    have hnil : x.sender.segmentsOut = [] := by simpa using (Bool.and_eq_true_iff.1 he).1
    have hn : n = x.sender.nextSeqno := by
      have := h.laid
      rwa [hnil] at this
    rw [hn]
    exact ⟨TCPSender.carries_empty h.sends.data.isn _, rfl⟩
  · exact h.laid

theorem laid_stamped {ended : Bool} {a b : ℕ} {segs : List TCPSegment} (receiver : TCPReceiver)
    (rst : Bool) (h : Laid (Carries isn W ended) lengthInSequenceSpace a segs b) :
    Laid (Carries isn W ended) lengthInSequenceSpace a (stamped receiver rst segs) b := by
  cases segs with
  | nil => exact h
  | cons seg rest =>
    refine ⟨carries_fillFields h.1 receiver rst, ?_⟩
    rw [fillFields_length]
    apply h.2.map
    · intro p seg hc
      exact carries_fillFields hc receiver false
    · intro seg
      exact fillFields_length receiver false seg

/-- The emission of a call other than `tick` lies from `_next_seqno` on. -/
theorem laid_emitted (hb : Base c) (h : Sends isn W c.sender) (hl : c.NotLate op)
    (hop : ∀ ms, op ≠ .tick ms) :
    ∃ b, Laid (Carries isn (W ++ c.accepted op) (c.step op).sender.stream.inputEnded)
      lengthInSequenceSpace c.sender.nextSeqno (c.emitted op) b := by
  have hcases : c.emitted op = [] ∨ ∃ x : TCPConnection,
      (c.step op).sender = { x.sender with segmentsOut := [] } ∧
      Queues isn (W ++ c.accepted op) c.sender.nextSeqno x.sender ∧
      c.emitted op = stamped (c.step op).receiver x.needSendRst x.outgoing := by
    by_cases hwrite : ∃ data, op = .write data
    · obtain ⟨data, rfl⟩ := hwrite
      have hsends := sends_write h hl
      obtain ⟨c', hc'⟩ : ∃ c', c.step (.write data) = c' := ⟨_, rfl⟩
      have hcall := called c (.write data)
      rw [hc'] at hcall
      cases hcall with
      | writeNothing => exact .inl (emitted_same hc' rfl)
      | write data hd =>
        refine .inr ⟨_, by rw [hc', filled, sendSenderSegments_sender], ?_, emitted_sends hc' rfl⟩
        exact (hsends.queues hb.queue).fillWindow
    · rw [accepted_of_ne hwrite, List.append_nil]
      obtain ⟨-, hnil⟩ | hx := (queues_rule isn W c.sender.nextSeqno).emits (h.queues hb.queue) op
        (fun data he => absurd ⟨data, he⟩ hwrite)
        (fun seg _ _ => (h.queues hb.queue).ackReceived _ _)
        (fun ms he _ => absurd he (hop ms))
      · exact .inl hnil
      · exact .inr hx
  obtain hnil | ⟨x, hsender, hx, hem⟩ := hcases
  · exact ⟨_, by rw [hnil]; exact rfl⟩
  · refine ⟨x.sender.nextSeqno, ?_⟩
    rw [hem, hsender]
    exact laid_stamped _ _ (laid_outgoing hx)

/-- What a tick emits is the oldest segment in flight or empty. -/
theorem mem_emitted_tick (hb : Base c) (h : Sends isn W c.sender) {ms : ℕ} {seg : TCPSegment}
    (hseg : seg ∈ c.emitted (.tick ms)) :
    Carries isn W c.sender.stream.inputEnded
      (if seg.lengthInSequenceSpace = 0 then c.sender.nextSeqno else c.sender.una) seg := by
  -- the sender's queue after its tick, and the empty segment of a reset
  have hqueue : ∀ (receiver : TCPReceiver) (rst : Bool) (seg₀ : TCPSegment),
      seg₀ ∈ (c.sender.tick ms).segmentsOut ∨ seg₀ = (c.sender.tick ms).emptySegment →
      Carries isn W c.sender.stream.inputEnded
        (if (fillFields receiver rst seg₀).lengthInSequenceSpace = 0 then c.sender.nextSeqno
          else c.sender.una) (fillFields receiver rst seg₀) := by
    intro receiver rst seg₀ hmem
    apply carries_fillFields
    rw [fillFields_length]
    rcases hmem with hmem | rfl
    · obtain ⟨-, he⟩ | ⟨t, rest, hl, -, he⟩ := c.sender.tick_cases ms
      · rw [he, hb.queue] at hmem
        cases hmem
      · rw [he, hb.queue, List.nil_append] at hmem
        obtain ⟨hcar, hpos, -⟩ := h.inv.front hl
        rw [List.mem_singleton.1 hmem, if_neg (by omega)]
        exact hcar
    · have hf := TCPSender.tick_frame c.sender ms
      have hzero : (c.sender.tick ms).emptySegment.lengthInSequenceSpace = 0 := rfl
      rw [if_pos hzero, ← hf.nextSeqno]
      exact TCPSender.carries_empty (hf.isn.trans h.data.isn) _
  obtain ⟨c', hc'⟩ : ∃ c', c.step (.tick ms) = c' := ⟨_, rfl⟩
  have htick : Ticked c ms (c.step (.tick ms)) := ticked c ms
  rw [hc'] at htick
  cases htick with
  | inactive =>
    rw [emitted_same hc' rfl] at hseg
    cases hseg
  | passed =>
    rw [emitted_sends_map hc' rfl hb.rst] at hseg
    obtain ⟨seg₀, hmem, rfl⟩ := List.mem_map.1 hseg
    exact hqueue _ _ _ (.inl hmem)
  | gaveUp =>
    rw [emitted_sends hc' rfl] at hseg
    obtain ⟨seg₀, hmem, rst, rfl⟩ := mem_stamped hseg
    apply hqueue
    unfold outgoing at hmem
    split at hmem
    · exact .inr (List.mem_singleton.1 hmem)
    · exact .inl hmem

/-- **Every emitted segment** carries what was written, at the number assigned to it. -/
theorem mem_numbered (hb : Base c) (h : Sends isn W c.sender) (hl : c.NotLate op)
    {x : ℕ × TCPSegment} (hx : x ∈ c.numbered op) :
    Carries isn (W ++ c.accepted op) (c.step op).sender.stream.inputEnded x.1 x.2 := by
  by_cases htick : ∃ ms, op = .tick ms
  · obtain ⟨ms, rfl⟩ := htick
    obtain ⟨seg, hseg, rfl⟩ := List.mem_map.1 hx
    have hcar := mem_emitted_tick hb h hseg
    rw [step_outboundEnded]
    simpa [accepted] using hcar
  · have hop : ∀ ms, op ≠ .tick ms := fun ms he => htick ⟨ms, he⟩
    rw [numbered_of_ne hop] at hx
    obtain ⟨b, hlaid⟩ := laid_emitted hb h hl hop
    exact hlaid.mem_positions hx

end TCPConnection

/-- A connection, all it has emitted with absolute numbers, and the bytes that entered the outbound
stream after its end. -/
structure FinRun where
  conn : TCPConnection
  log : List (ℕ × TCPSegment)
  late : List UInt8

namespace FinRun

open Run TCPConnection
open TCPSender (Sends Carries)

def new (cfg : TCPConfig) (random : UInt32) : FinRun := ⟨.new cfg random, [], []⟩

def step (r : FinRun) (op : ConnOp) : FinRun where
  conn := r.conn.step op
  log := r.log ++ r.conn.numbered op
  late := if r.conn.sender.stream.inputEnded then r.late ++ r.conn.accepted op else r.late

/-- The numbers that a segment occupies. -/
def Occupies (x : ℕ × TCPSegment) (q : ℕ) : Prop :=
  x.1 ≤ q ∧ q < x.1 + x.2.lengthInSequenceSpace

/-- The number of a segment's FIN, the last of those it occupies. -/
def finNumber (x : ℕ × TCPSegment) : ℕ := x.1 + x.2.lengthInSequenceSpace - 1

/-- The FIN is unique and last: the emitted segments with FIN agree on its number, no emitted
segment occupies a number after it, and no byte entered the outbound stream after its end. -/
structure OneFin (r : FinRun) : Prop where
  unique : ∀ x ∈ r.log, ∀ y ∈ r.log, x.2.header.fin = true → y.2.header.fin = true →
    finNumber x = finNumber y
  last : ∀ x ∈ r.log, ∀ y ∈ r.log, x.2.header.fin = true → ∀ q, Occupies y q → q ≤ finNumber x
  late : r.late = []

/-- What is recorded carries what was written, at its number. -/
structure Inv (isn : WrappingInt32) (W : List UInt8) (r : FinRun) : Prop where
  base : Base r.conn
  sends : Sends isn W r.conn.sender
  log : ∀ x ∈ r.log, Carries isn W r.conn.sender.stream.inputEnded x.1 x.2

variable {isn : WrappingInt32} {W : List UInt8} {r : FinRun} {op : ConnOp}

theorem new_inv (cfg : TCPConfig) (random : UInt32) :
    Inv (cfg.fixedIsn.getD ⟨random⟩) [] (new cfg random) :=
  ⟨new_base cfg random, TCPSender.new_sends _ _ _ _, List.forall_mem_nil _⟩

theorem Inv.step (h : Inv isn W r) (hl : r.conn.NotLate op) :
    Inv isn (W ++ r.conn.accepted op) (r.step op) := by
  refine ⟨h.base.step op, step_sends h.base h.sends hl, ?_⟩
  intro x hx
  rcases List.mem_append.1 hx with hx | hx
  · exact step_carries hl (h.log x hx)
  · exact mem_numbered h.base h.sends hl hx

theorem Inv.oneFin (h : Inv isn W r) (hlate : r.late = []) : OneFin r := by
  refine ⟨?_, ?_, hlate⟩
  · intro x hx y hy hfx hfy
    have h1 := (h.log x hx).fin_last hfx
    have h2 := (h.log y hy).fin_last hfy
    unfold finNumber
    omega
  · intro x hx y hy hfx q hq
    have h1 := (h.log x hx).fin_last hfx
    have h2 := (h.log y hy).last_le (by have := hq.1; have := hq.2; omega)
    have h3 := hq.2
    unfold finNumber
    omega

/-- A byte that comes late is recorded. -/
theorem late_step (hlate : r.late = []) : (r.step op).late = [] ↔ r.conn.NotLate op := by
  have he : (r.step op).late =
      if r.conn.sender.stream.inputEnded then r.late ++ r.conn.accepted op else r.late := rfl
  rw [he, hlate]
  by_cases hop : ∃ data, op = .write data
  · obtain ⟨data, rfl⟩ := hop
    change _ ↔ (r.conn.sender.stream.inputEnded = true → data = [] ∨ _)
    rw [← accepted_write_eq_nil_iff]
    cases hend : r.conn.sender.stream.inputEnded with
    | true => simp
    | false => simp
  · rw [accepted_of_ne hop]
    cases op with
    | write data => exact absurd ⟨data, rfl⟩ hop
    | connect | endInputStream | segmentReceived | tick | read | popSegment => simp [NotLate]

/-- **The FIN is unique and last** in exactly the runs in which no `write` puts a byte into the
outbound stream after `end_input_stream`. -/
theorem run_one_fin_iff (cfg : TCPConfig) (random : UInt32) (ops : List ConnOp) :
    (∀ n, OneFin (exec FinRun.step (FinRun.new cfg random) (ops.take n))) ↔
      Guarded FinRun.step (fun r op => r.conn.NotLate op) (FinRun.new cfg random) ops := by
  apply always_iff_guarded (A := fun _ _ => True)
    (I := fun r => ∃ W, Inv (cfg.fixedIsn.getD ⟨random⟩) W r)
  · rintro r op ⟨W, h⟩ _ _ hl
    exact ⟨_, h.step hl⟩
  · rintro r op ⟨W, h⟩ hone _
    rw [← late_step hone.late]
    constructor
    · intro hnext
      exact hnext.late
    · intro hnext
      exact (h.step ((late_step hone.late).1 hnext)).oneFin hnext
  · exact ⟨_, new_inv cfg random⟩
  · exact ⟨List.forall_mem_nil _, List.forall_mem_nil _, rfl⟩
  · exact guarded_of_forall (fun _ _ => trivial) _ _

/-- A byte written after the FIN was sent is sent after it, with a second FIN. -/
theorem write_after_end_second_fin :
    ¬ OneFin (exec FinRun.step (FinRun.new { fixedIsn := some ⟨0⟩ } 0)
      [.connect, .segmentReceived
        { header := { syn := true, ack := true, ackno := ⟨1⟩, win := 9 } },
      .endInputStream, .write [97]]) := by
  intro h
  exact absurd h.unique (by decide +kernel)

end FinRun

end Sponge
