import Sponge.Proof.Connection
import Sponge.Lib.Run

/-!
# Retransmission timing, back-off and abort

`Timing s₀ s` is what any call but a tick does to the sender's timer: while the first number in
flight stays, a running timer and the count of retransmissions are left alone; once it grows, or
when the timer is started, the timeout is the initial one and the time is zero. What a tick
does is `tick_cases`.

A `RetxRun` is a connection with the milliseconds ticked since its timer was last restarted. In
every run `_rto` is the initial timeout doubled once for every counted retransmission, and a tick
re-sends the oldest outstanding segment exactly when that time has reached `_rto`
(`run_retransmits`).
-/

namespace Sponge

open Run

namespace TCPSender

/-! ## The timer of the sender -/

/-- What emissions do to the timer: a running one is left alone, a stopped one is started. -/
structure Emitting (s₀ s : TCPSender) : Prop where
  initial : s.initialRetransmissionTimeout = s₀.initialRetransmissionTimeout
  consecutive : s.consecutiveRetransmissions = s₀.consecutiveRetransmissions
  running : s₀.timerRunning = true →
    s.timerRunning = true ∧ s.rto = s₀.rto ∧ s.tickField = s₀.tickField
  started : s₀.timerRunning = false → s.timerRunning = true →
    s.rto = s₀.initialRetransmissionTimeout ∧ s.tickField = 0

theorem Emitting.refl (s : TCPSender) : Emitting s s := by
  refine ⟨rfl, rfl, fun h => ⟨h, rfl, rfl⟩, fun h h' => ?_⟩
  rw [h] at h'
  cases h'

variable {s₀ s : TCPSender}

theorem Emitting.startTimer (h : Emitting s₀ s) : Emitting s₀ s.startTimer := by
  rw [startTimer_eq]
  refine ⟨h.initial, h.consecutive, fun hr => ?_, fun hr _ => ?_⟩
  · obtain ⟨h1, h2, h3⟩ := h.running hr
    dsimp only
    rw [if_pos h1, if_pos h1]
    exact ⟨rfl, h2, h3⟩
  · dsimp only
    split
    · rename_i ht
      exact h.started hr ht
    · exact ⟨h.initial, rfl⟩

/-- `fill_window` only emits. -/
theorem fillWindow_emitting (s : TCPSender) : Emitting s s.fillWindow := by
  refine fillWindow_rule (I := Emitting s) (.refl s) (fun _ => ?_) (fun n s' hi _ _ _ => ?_)
    (fun s' hi _ _ _ => ?_)
  · unfold sendSyn
    apply Emitting.startTimer
    exact ⟨rfl, rfl, (Emitting.refl s).running, (Emitting.refl s).started⟩
  · unfold sendData
    apply Emitting.startTimer
    exact ⟨hi.initial, hi.consecutive, hi.running, hi.started⟩
  · unfold sendFin
    apply Emitting.startTimer
    exact ⟨hi.initial, hi.consecutive, hi.running, hi.started⟩

/-- What any call but a tick does to the timer (module doc). -/
structure Timing (s₀ s : TCPSender) : Prop where
  inv : Inv (Numbered s₀.isn) s ∧ s.isn = s₀.isn
  initial : s.initialRetransmissionTimeout = s₀.initialRetransmissionTimeout
  una_le : s₀.una ≤ s.una
  kept : s.una = s₀.una → s.consecutiveRetransmissions = s₀.consecutiveRetransmissions ∧
    (s₀.timerRunning = true → s.timerRunning = true ∧ s.rto = s₀.rto ∧ s.tickField = s₀.tickField)
  removed : s₀.una < s.una → s.consecutiveRetransmissions = 0
  started : s₀.una < s.una ∨ s₀.timerRunning = false → s.timerRunning = true →
    s.rto = s₀.initialRetransmissionTimeout ∧ s.tickField = 0

theorem Timing.refl (h : Inv (Numbered s.isn) s) : Timing s s := by
  refine ⟨⟨h, rfl⟩, rfl, Nat.le_refl _, fun _ => ⟨rfl, fun hr => ⟨hr, rfl, rfl⟩⟩, ?_, ?_⟩
  · intro hlt
    omega
  · intro hor hr
    rcases hor with hlt | hf
    · omega
    · rw [hf] at hr
      cases hr

theorem Timing.consecutive_le (h : Timing s₀ s) :
    s.consecutiveRetransmissions ≤ s₀.consecutiveRetransmissions := by
  rcases Nat.lt_or_eq_of_le h.una_le with hlt | heq
  · rw [h.removed hlt]
    exact Nat.zero_le _
  · rw [(h.kept heq.symm).1]

/-- A running timer was restarted, or it goes on. -/
theorem Timing.running_cases (h : Timing s₀ s) (hr : s.timerRunning = true) :
    ((s₀.una < s.una ∨ s₀.timerRunning = false) ∧ s.rto = s₀.initialRetransmissionTimeout ∧
      s.tickField = 0) ∨
    (s.una = s₀.una ∧ s₀.timerRunning = true ∧
      s.consecutiveRetransmissions = s₀.consecutiveRetransmissions ∧ s.rto = s₀.rto ∧
      s.tickField = s₀.tickField) := by
  by_cases hor : s₀.una < s.una ∨ s₀.timerRunning = false
  · exact .inl ⟨hor, h.started hor hr⟩
  · obtain ⟨hu, hr₀⟩ := not_or.1 hor
    have hr₀ : s₀.timerRunning = true := Bool.eq_true_of_not_eq_false hr₀
    have hu : s.una = s₀.una := Nat.le_antisymm (Nat.le_of_not_lt hu) h.una_le
    obtain ⟨hk, hkeep⟩ := h.kept hu
    obtain ⟨-, hrto, htick⟩ := hkeep hr₀
    exact .inr ⟨hu, hr₀, hk, hrto, htick⟩

/-- A change of what the timer does not depend on. -/
theorem Timing.frame (h : Timing s₀ s) {s' : TCPSender}
    (hinv : Inv (Numbered s₀.isn) s' ∧ s'.isn = s₀.isn) (huna : s'.una = s.una)
    (ht : s'.initialRetransmissionTimeout = s.initialRetransmissionTimeout ∧
      s'.consecutiveRetransmissions = s.consecutiveRetransmissions ∧
      s'.timerRunning = s.timerRunning ∧ s'.rto = s.rto ∧ s'.tickField = s.tickField) :
    Timing s₀ s' := by
  obtain ⟨h1, h2, h3, h4, h5⟩ := ht
  refine ⟨hinv, ?_, ?_, ?_, ?_, ?_⟩
  · rw [h1]; exact h.initial
  · rw [huna]; exact h.una_le
  · rw [huna, h2, h3, h4, h5]; exact h.kept
  · rw [huna, h2]; exact h.removed
  · rw [huna, h3, h4, h5]; exact h.started

theorem Timing.emitting (h : Timing s₀ s) {s' : TCPSender} (he : Emitting s s')
    (hinv : Inv (Numbered s₀.isn) s' ∧ s'.isn = s₀.isn) (huna : s'.una = s.una) :
    Timing s₀ s' := by
  refine ⟨hinv, he.initial.trans h.initial, by rw [huna]; exact h.una_le, fun hu => ?_,
    fun hu => ?_,
    fun hor hr => ?_⟩
  · rw [huna] at hu
    obtain ⟨h1, h2⟩ := h.kept hu
    refine ⟨he.consecutive.trans h1, fun hr => ?_⟩
    obtain ⟨h3, h4, h5⟩ := h2 hr
    obtain ⟨h6, h7, h8⟩ := he.running h3
    exact ⟨h6, h7.trans h4, h8.trans h5⟩
  · rw [huna] at hu
    exact he.consecutive.trans (h.removed hu)
  · rw [huna] at hor
    cases ht : s.timerRunning with
    | true =>
      obtain ⟨h1, h2⟩ := h.started hor ht
      obtain ⟨-, h3, h4⟩ := he.running ht
      exact ⟨h3.trans h1, h4.trans h2⟩
    | false =>
      rw [← h.initial]
      exact he.started ht hr

/-- `fill_window` after a change of the stream. -/
theorem Timing.fill (h : Timing s₀ s) (stream : ByteStream) :
    Timing s₀ ({ s with stream := stream } : TCPSender).fillWindow := by
  obtain ⟨hinv, hisn⟩ := h.inv
  have hinv' : Inv (Numbered s₀.isn) { s with stream := stream } :=
    hinv.setStream stream
  have hframe : Timing s₀ { s with stream := stream } :=
    h.frame ⟨hinv', hisn⟩ rfl ⟨rfl, rfl, rfl, rfl, rfl⟩
  exact hframe.emitting (fillWindow_emitting _) ((emits_numbered s₀.isn).fillWindow hinv' hisn)
    (una_fillWindow hinv')

/-- The removal of acknowledged segments: the timer goes on if there are none, and is restarted
or stopped otherwise. -/
theorem Timing.ackPopped (h : Timing s₀ s) (a : ℕ) (windowSize : UInt16) :
    Timing s₀ (s.ackPopped a windowSize) := by
  obtain ⟨hinv, hisn⟩ := h.inv
  have huna := hinv.una_ackPopped a windowSize
  have hpop := hinv.ackPopped a windowSize
  by_cases hg : s.gone a = []
  · have hkept : s.kept a = s.segmentsOutstanding := by
      have := gone_append_kept s a
      rw [hg] at this
      exact this
    refine h.frame ⟨hpop, hisn⟩ (by rw [huna, hg]; rfl) ⟨rfl, ?_, ?_, ?_, ?_⟩
    · show (if s.gone a = [] then _ else _) = _
      rw [if_pos hg]
    · rw [Bool.eq_iff_iff, hpop.timer, hinv.timer]
      show s.kept a ≠ [] ↔ _
      rw [hkept]
    · show (if s.gone a = [] then _ else _) = _
      rw [if_pos hg]
    · show (if s.gone a = [] then _ else _) = _
      rw [if_pos hg]
  · have hpos : 0 < totalLength (s.gone a) :=
      Nat.pos_of_ne_zero fun h0 => hg ((totalLength_eq_zero (hinv.laid_gone a).1).1 h0)
    have hle := h.una_le
    refine ⟨⟨hpop, hisn⟩, h.initial, by omega, fun hu => by omega, fun _ => ?_, fun _ _ => ⟨?_, ?_⟩⟩
    · show (if s.gone a = [] then _ else _) = _
      rw [if_neg hg]
    · show (if s.gone a = [] then _ else _) = _
      rw [if_neg hg, h.initial]
    · show (if s.gone a = [] then _ else _) = _
      rw [if_neg hg]

theorem Timing.ackReceived (h : Timing s₀ s) (ackno : WrappingInt32) (windowSize : UInt16) :
    Timing s₀ (s.ackReceived ackno windowSize) := by
  obtain ⟨hinv, hisn⟩ := h.inv
  have hwin : ∀ a, Timing s₀ (s.ackWindow a windowSize) := fun a =>
    h.frame ⟨hinv.ackWindow a windowSize, hisn⟩ rfl ⟨rfl, rfl, rfl, rfl, rfl⟩
  obtain ⟨-, he⟩ | ⟨t, rest, -, -, he⟩ | ⟨t, rest, -, -, he⟩ :=
    ackReceived_cases s ackno windowSize rfl <;> rw [he]
  · exact hwin _
  · exact hwin _
  · exact (h.ackPopped _ windowSize).fill _

end TCPSender

namespace TCPConnection

open TCPSender (Timing)

variable {c : TCPConnection}

/-! ## The calls of a connection -/

theorem timing_rule (s₀ : TCPSender) : SenderRule (Timing s₀) where
  drain s h := h.frame ((numbered_rule s₀.isn).drain s h.inv) rfl ⟨rfl, rfl, rfl, rfl, rfl⟩
  fill s h := h.fill s.stream
  endFill _ h := h.fill _
  error s h := h.frame ((numbered_rule s₀.isn).error s h.inv) rfl ⟨rfl, rfl, rfl, rfl, rfl⟩
  empty s h := h.frame ((numbered_rule s₀.isn).empty s h.inv) rfl ⟨rfl, rfl, rfl, rfl, rfl⟩
  ack _ ackno windowSize h _ := h.ackReceived ackno windowSize

/-- Any call but a tick. -/
theorem step_timing (hb : Base c) {op : ConnOp} (hop : ∀ ms, op ≠ .tick ms) :
    Timing c.sender (c.step op).sender :=
  (timing_rule c.sender).step hb.syn_of_not_listen (.refl hb.sender) op
    (fun _ _ => (Timing.refl hb.sender).fill _) (fun ms he => absurd he (hop ms))

/-- The sender after a tick, up to its stream's error flag. -/
theorem tick_sender (ha : c.activeFlag = true) (ms : ℕ) : ∃ stream,
    (c.tick ms).sender = { c.sender.tick ms with segmentsOut := [], stream := stream } := by
  have ht := ticked c ms
  generalize c.tick ms = c' at ht ⊢
  cases ht with
  | inactive hi => rw [ha] at hi; cases hi
  | passed => exact ⟨_, by rw [sendSenderSegments_sender]⟩
  | gaveUp => exact ⟨(c.sender.tick ms).stream.setError, by rw [sendSenderSegments_sender]; rfl⟩

/-- What a tick emits: what the sender queued, with RST if the connection gives up. -/
theorem tick_segmentsOut (ha : c.activeFlag = true) (hb : Base c) (ms : ℕ)
    (hne : TCPConfig.maxRetxAttempts < (c.sender.tick ms).consecutiveRetransmissions →
      (c.sender.tick ms).segmentsOut ≠ []) :
    (c.tick ms).segmentsOut = c.segmentsOut ++ stamped c.receiver
      (decide (TCPConfig.maxRetxAttempts < (c.sender.tick ms).consecutiveRetransmissions))
      (c.sender.tick ms).segmentsOut := by
  have ht := ticked c ms
  generalize c.tick ms = c' at ht ⊢
  cases ht with
  | inactive hi => rw [ha] at hi; cases hi
  | passed _ hk =>
    have hout : outgoing { c with
        timeSinceLastSegmentReceived := (c.timeSinceLastSegmentReceived + ms) % 2 ^ 64
        sender := c.sender.tick ms } = (c.sender.tick ms).segmentsOut := by
      unfold outgoing
      dsimp only
      rw [hb.rst, Bool.and_false]
      rfl
    rw [sendSenderSegments_segmentsOut, hout, decide_eq_false (Nat.not_lt.2 hk)]
    dsimp only
    rw [hb.rst]
  | gaveUp _ hk =>
    have hout : outgoing ({ c with
        timeSinceLastSegmentReceived := (c.timeSinceLastSegmentReceived + ms) % 2 ^ 64
        sender := c.sender.tick ms }.aborted true) = (c.sender.tick ms).segmentsOut := by
      unfold outgoing aborted
      dsimp only
      rw [List.isEmpty_eq_false_iff.2 (hne hk), Bool.false_and]
      rfl
    rw [sendSenderSegments_segmentsOut, hout, decide_eq_true hk]
    rfl

theorem tick_isReset (ha : c.activeFlag = true) (hc : c.Calm) (ms : ℕ) : (c.tick ms).IsReset ↔
    TCPConfig.maxRetxAttempts < (c.sender.tick ms).consecutiveRetransmissions := by
  have ht := ticked c ms
  generalize c.tick ms = c' at ht ⊢
  cases ht with
  | inactive hi => rw [ha] at hi; cases hi
  | passed _ hk =>
    refine ⟨fun hreset => absurd (calm_sendSenderSegments.2 ?_) (not_calm_of_isReset hreset),
      fun hlt => absurd hk (Nat.not_le.2 hlt)⟩
    refine ⟨?_, hc.2⟩
    rw [(TCPSender.tick_frame c.sender ms).stream]
    exact hc.1
  | gaveUp _ hk => exact ⟨fun _ => hk, fun _ => isReset_aborted _ _⟩

end TCPConnection

/-! ## Runs -/

/-- A connection with the milliseconds ticked since its retransmission timer was restarted. -/
structure RetxRun where
  conn : TCPConnection
  elapsed : ℕ

namespace RetxRun

open TCPConnection
open TCPSender (Timing)

def new (cfg : TCPConfig) (random : UInt32) : RetxRun := ⟨.new cfg random, 0⟩

/-- The time after a call that leads from `c` to `c'`. It restarts with a tick that re-sends, and
with any other call that starts the timer or removes a segment, which raises the first number in
flight. -/
def elapsedAfter (c c' : TCPConnection) (elapsed : ℕ) : ConnOp → ℕ
  | .tick ms => if c'.segmentsOut = c.segmentsOut then elapsed + ms else 0
  | _ =>
    if (c.sender.timerRunning = false ∧ c'.sender.timerRunning = true) ∨
        c.sender.una < c'.sender.una then 0 else elapsed

/-- One call. -/
def step (r : RetxRun) (op : ConnOp) : RetxRun :=
  ⟨r.conn.step op, elapsedAfter r.conn (r.conn.step op) r.elapsed op⟩

/-- `_rto` is the initial timeout doubled with every retransmission counted, without overflow. -/
def BackedOff (timeout : UInt16) (c : TCPConnection) : Prop :=
  c.sender.segmentsOutstanding ≠ [] →
    c.sender.rto = timeout.toNat * 2 ^ c.sender.consecutiveRetransmissions ∧
      c.sender.rto < 2 ^ 32 ∧ c.sender.consecutiveRetransmissions ≤ 9

/-- What a tick of an active connection does. -/
structure TickSpec (r : RetxRun) (ms : ℕ) (c' : TCPConnection) : Prop where
  /-- It re-sends exactly if the time has come. -/
  due : r.elapsed + ms < 2 ^ 64 → (c'.segmentsOut ≠ r.conn.segmentsOut ↔
    r.conn.sender.segmentsOutstanding ≠ [] ∧ r.conn.sender.rto ≤ r.elapsed + ms)
  /-- What it re-sends is one copy of the oldest outstanding segment, and it is counted but for a
  zero window. -/
  resent : c'.segmentsOut ≠ r.conn.segmentsOut → ∃ t rest,
    r.conn.sender.segmentsOutstanding = t :: rest ∧
      c'.segmentsOut = r.conn.segmentsOut ++ [fillFields r.conn.receiver
        (decide (c'.sender.consecutiveRetransmissions = 9)) t] ∧
      c'.sender.consecutiveRetransmissions = r.conn.sender.consecutiveRetransmissions +
        (if r.conn.sender.receiverWindowSize = 0 ∧ t.header.syn = false then 0 else 1)
  quiet : c'.segmentsOut = r.conn.segmentsOut →
    c'.sender.consecutiveRetransmissions = r.conn.sender.consecutiveRetransmissions
  /-- It resets the connection exactly if the count becomes 9; the segment sent has RST. -/
  aborts : c'.IsReset ↔ c'.sender.consecutiveRetransmissions = 9
  rst : c'.IsReset → ∃ seg, c'.segmentsOut = r.conn.segmentsOut ++ [seg] ∧ seg.header.rst = true

/-- What any other call does: the count restarts when a segment is removed, and only a received RST
resets the connection. -/
structure OtherSpec (c : TCPConnection) (op : ConnOp) (c' : TCPConnection) : Prop where
  una_le : c.sender.una ≤ c'.sender.una
  removed : c.sender.una < c'.sender.una → c'.sender.consecutiveRetransmissions = 0
  kept : c'.sender.una = c.sender.una →
    c'.sender.consecutiveRetransmissions = c.sender.consecutiveRetransmissions
  aborts : c'.IsReset → c.IsReset ∨ ∃ seg, op = .segmentReceived seg ∧ seg.header.rst = true

/-- What a call does; a tick of an inactive connection does nothing. -/
def CallSpec (r : RetxRun) : ConnOp → Prop
  | .tick ms => (r.conn.activeFlag = true → TickSpec r ms (r.step (.tick ms)).conn) ∧
      (r.conn.activeFlag = false → (r.step (.tick ms)).conn = r.conn)
  | op => OtherSpec r.conn op (r.step op).conn

/-- The invariant of a run. -/
structure Inv (timeout : UInt16) (r : RetxRun) : Prop where
  base : Base r.conn
  initial : r.conn.sender.initialRetransmissionTimeout = timeout.toNat
  rto : r.conn.sender.segmentsOutstanding ≠ [] →
    r.conn.sender.rto = timeout.toNat * 2 ^ r.conn.sender.consecutiveRetransmissions
  idle : r.conn.sender.segmentsOutstanding = [] → r.conn.sender.consecutiveRetransmissions = 0
  count_le : r.conn.sender.consecutiveRetransmissions ≤ 9
  live : r.conn.activeFlag = true →
    r.conn.sender.consecutiveRetransmissions ≤ TCPConfig.maxRetxAttempts ∧ r.conn.Calm
  calm : r.conn.Calm ∨ r.conn.IsReset
  clock : r.conn.activeFlag = true → r.conn.sender.segmentsOutstanding ≠ [] →
    r.conn.sender.tickField = r.elapsed % 2 ^ 64

variable {timeout : UInt16} {r : RetxRun}

theorem new_inv (cfg : TCPConfig) (random : UInt32) : Inv cfg.rtTimeout (new cfg random) :=
  ⟨new_base cfg random, rfl, nofun, fun _ => rfl, Nat.zero_le _, fun _ => ⟨Nat.zero_le _, rfl, rfl⟩,
    .inl ⟨rfl, rfl⟩, nofun⟩

theorem backoff_lt (timeout : UInt16) {k : ℕ} (hk : k ≤ 9) : timeout.toNat * 2 ^ k < 2 ^ 25 := by
  have h1 : timeout.toNat < 2 ^ 16 := timeout.toNat_lt
  have h2 : 2 ^ k ≤ 2 ^ 9 := Nat.pow_le_pow_right (by decide) hk
  calc timeout.toNat * 2 ^ k ≤ timeout.toNat * 2 ^ 9 := Nat.mul_le_mul_left _ h2
    _ < 2 ^ 25 := by omega

theorem Inv.backedOff (h : Inv timeout r) : BackedOff timeout r.conn := by
  intro hne
  have hlt := backoff_lt timeout h.count_le
  refine ⟨h.rto hne, ?_, h.count_le⟩
  rw [h.rto hne]
  omega

/-- A tick counts at most one retransmission more, so at most the ninth. -/
theorem Inv.tick_count_le (h : Inv timeout r) (ha : r.conn.activeFlag = true) (ms : ℕ) :
    (r.conn.tick ms).sender.consecutiveRetransmissions ≤ 9 := by
  obtain ⟨stream, hsender⟩ := tick_sender ha ms
  have hk := (h.live ha).1
  have hmax : TCPConfig.maxRetxAttempts = 8 := rfl
  rw [hsender]
  obtain ⟨-, he⟩ | ⟨t, rest, -, -, he⟩ := TCPSender.tick_cases r.conn.sender ms <;> rw [he] <;>
    dsimp only
  · omega
  · split <;> omega

/-- The connection gives up at the ninth. -/
theorem Inv.gaveUp_iff (h : Inv timeout r) (ha : r.conn.activeFlag = true) (ms : ℕ) :
    TCPConfig.maxRetxAttempts < (r.conn.sender.tick ms).consecutiveRetransmissions ↔
      (r.conn.tick ms).sender.consecutiveRetransmissions = 9 := by
  have hle := h.tick_count_le ha ms
  obtain ⟨stream, hsender⟩ := tick_sender ha ms
  have hmax : TCPConfig.maxRetxAttempts = 8 := rfl
  rw [hsender] at hle ⊢
  dsimp only at hle ⊢
  omega

/-- What a tick of an active connection does to the fields of the timer. -/
theorem Inv.tick_cases (h : Inv timeout r) (ha : r.conn.activeFlag = true) (ms : ℕ)
    {c' : TCPConnection} (hc' : r.conn.tick ms = c') :
    ((r.conn.sender.segmentsOutstanding = [] ∨ (r.elapsed + ms) % 2 ^ 64 < r.conn.sender.rto) ∧
      c'.segmentsOut = r.conn.segmentsOut ∧
      c'.sender.consecutiveRetransmissions = r.conn.sender.consecutiveRetransmissions ∧
      c'.sender.rto = r.conn.sender.rto ∧
      c'.sender.tickField = (r.conn.sender.tickField + ms) % 2 ^ 64) ∨
    ∃ t rest, r.conn.sender.segmentsOutstanding = t :: rest ∧
      r.conn.sender.rto ≤ (r.elapsed + ms) % 2 ^ 64 ∧
      c'.segmentsOut = r.conn.segmentsOut ++ [fillFields r.conn.receiver
        (decide (c'.sender.consecutiveRetransmissions = 9)) t] ∧
      c'.sender.consecutiveRetransmissions = r.conn.sender.consecutiveRetransmissions +
        (if r.conn.sender.receiverWindowSize = 0 ∧ t.header.syn = false then 0 else 1) ∧
      c'.sender.rto = timeout.toNat * 2 ^ c'.sender.consecutiveRetransmissions ∧
      c'.sender.tickField = 0 := by
  obtain ⟨stream, hsender⟩ := tick_sender ha ms
  have hk := (h.live ha).1
  have hnine := h.gaveUp_iff ha ms
  have hout := tick_segmentsOut ha h.base ms
  rw [hc'] at hsender hnine hout
  obtain ⟨hq, he⟩ | ⟨t, rest, hl, hle, he⟩ := TCPSender.tick_cases r.conn.sender ms
  · have hq' : r.conn.sender.segmentsOutstanding = [] ∨
        (r.elapsed + ms) % 2 ^ 64 < r.conn.sender.rto := by
      by_cases hnil : r.conn.sender.segmentsOutstanding = []
      · exact .inl hnil
      · rw [h.clock ha hnil, Nat.mod_add_mod] at hq
        exact hq
    refine .inl ⟨hq', ?_, ?_, ?_, ?_⟩
    · rw [he] at hout
      rw [hout fun hlt => absurd hk (Nat.not_le.2 hlt), h.base.queue]
      exact List.append_nil _
    all_goals rw [hsender, he]
  · have hne : r.conn.sender.segmentsOutstanding ≠ [] := by rw [hl]; exact List.cons_ne_nil t rest
    rw [h.clock ha hne, Nat.mod_add_mod] at hle
    have hrto := h.rto hne
    have hlt := backoff_lt timeout h.count_le
    have hmax : TCPConfig.maxRetxAttempts = 8 := rfl
    have hqueue : (r.conn.sender.tick ms).segmentsOut = [t] := by
      rw [he, h.base.queue]
      rfl
    have hcount : c'.sender.consecutiveRetransmissions =
        r.conn.sender.consecutiveRetransmissions + (if r.conn.sender.backsOff t then 1 else 0) := by
      rw [hsender, he]
      dsimp only
      split <;> omega
    refine .inr ⟨t, rest, hl, hle, ?_, by rw [TCPSender.ite_backsOff]; exact hcount, ?_, ?_⟩
    · rw [hout fun _ => by rw [hqueue]; exact List.cons_ne_nil _ _, hqueue,
        decide_eq_decide.2 hnine]
      rfl
    · rw [hcount, hsender, he]
      dsimp only
      split
      · rw [hrto, Nat.pow_add_one 2 r.conn.sender.consecutiveRetransmissions, ← Nat.mul_assoc]
        omega
      · exact hrto
    · rw [hsender, he]

theorem fillFields_rst (receiver : TCPReceiver) (seg : TCPSegment) :
    (fillFields receiver true seg).header.rst = true := by
  unfold fillFields
  rfl

/-- **A tick** of an active connection. -/
theorem Inv.tickSpec (h : Inv timeout r) (ha : r.conn.activeFlag = true) (ms : ℕ) :
    TickSpec r ms (r.conn.tick ms) := by
  have hk := (h.live ha).1
  have haborts := (tick_isReset ha (h.live ha).2 ms).trans (h.gaveUp_iff ha ms)
  have hmax : TCPConfig.maxRetxAttempts = 8 := rfl
  have hcases := h.tick_cases ha ms rfl
  generalize r.conn.tick ms = c' at hcases haborts ⊢
  obtain ⟨hq, hout, hsame, -, -⟩ | ⟨t, rest, hl, hle, hout, hnext, -, -⟩ := hcases
  · refine ⟨fun hlt => ?_, fun hne => absurd hout hne, fun _ => hsame, haborts, fun hr => ?_⟩
    · rw [Nat.mod_eq_of_lt hlt] at hq
      refine ⟨fun hne => absurd hout hne, fun hdue => ?_⟩
      rcases hq with hq | hq
      · exact absurd hq hdue.1
      · omega
    · have := haborts.1 hr
      omega
  · have hne : c'.segmentsOut ≠ r.conn.segmentsOut := by
      rw [hout]
      simp
    refine ⟨fun hlt => ?_, fun _ => ⟨t, rest, hl, hout, hnext⟩, fun he => absurd he hne,
      haborts, ?_⟩
    · rw [Nat.mod_eq_of_lt hlt] at hle
      refine ⟨fun _ => ⟨?_, hle⟩, fun _ => hne⟩
      rw [hl]
      exact List.cons_ne_nil t rest
    · intro hr
      rw [decide_eq_true (haborts.1 hr)] at hout
      exact ⟨_, hout, fillFields_rst _ _⟩

/-- **Any other call.** -/
theorem Inv.otherSpec (h : Inv timeout r) {op : ConnOp} (hop : ∀ ms, op ≠ .tick ms) :
    OtherSpec r.conn op (r.conn.step op) := by
  have ht := step_timing h.base hop
  refine ⟨ht.una_le, ht.removed, fun hu => (ht.kept hu).1, fun hr => ?_⟩
  rcases h.calm with hc | hc
  · rcases step_calm h.base hc op with hc' | ⟨-, -, ⟨seg, he, hrst⟩ | ⟨ms, he, -⟩⟩
    · exact absurd hc' (not_calm_of_isReset hr)
    · exact .inr ⟨seg, he, hrst⟩
    · exact absurd he (hop ms)
  · exact .inl hc

theorem Inv.callSpec (h : Inv timeout r) (op : ConnOp) : CallSpec r op := by
  cases op with
  | tick ms =>
    refine ⟨fun ha => h.tickSpec ha ms, fun ha => ?_⟩
    show r.conn.tick ms = r.conn
    unfold TCPConnection.tick
    rw [if_pos ha]
  | connect | write | endInputStream | segmentReceived | read | popSegment =>
    exact h.otherSpec nofun

theorem elapsedAfter_of_ne {op : ConnOp} (hop : ∀ ms, op ≠ .tick ms) (c c' : TCPConnection)
    (elapsed : ℕ) : elapsedAfter c c' elapsed op =
      if (c.sender.timerRunning = false ∧ c'.sender.timerRunning = true) ∨
        c.sender.una < c'.sender.una then 0 else elapsed := by
  cases op with
  | tick ms => exact absurd rfl (hop ms)
  | connect | write | endInputStream | segmentReceived | read | popSegment => rfl

/-- The count after a restart of the timer is zero. -/
theorem Inv.count_restarted (h : Inv timeout r) {s : TCPSender} (ht : Timing r.conn.sender s)
    (hor : r.conn.sender.una < s.una ∨ r.conn.sender.timerRunning = false) :
    s.consecutiveRetransmissions = 0 := by
  rcases hor with hu | hr
  · exact ht.removed hu
  · have hnil : r.conn.sender.segmentsOutstanding = [] := by
      refine Classical.byContradiction fun hne => ?_
      rw [h.base.sender.timer.2 hne] at hr
      cases hr
    have hle := ht.consecutive_le
    rw [h.idle hnil] at hle
    exact Nat.eq_zero_of_le_zero hle

/-- A call other than a tick keeps the invariant. -/
theorem Inv.step_other (h : Inv timeout r) {op : ConnOp} (hop : ∀ ms, op ≠ .tick ms) :
    Inv timeout (r.step op) := by
  have ht := step_timing h.base hop
  have hb := h.base.step op
  have hcalm := step_calm_or h.base h.calm op
  have hactive := @step_active r.conn op
  have helapsed := elapsedAfter_of_ne hop r.conn (r.conn.step op) r.elapsed
  unfold RetxRun.step
  generalize r.conn.step op = c' at *
  have hrun := hb.sender.timer
  have hrun₀ := h.base.sender.timer
  have hcount := ht.consecutive_le
  refine ⟨hb, ht.initial.trans h.initial, ?_, ?_, Nat.le_trans hcount h.count_le, ?_, hcalm, ?_⟩
  · intro hne
    dsimp only at hne ⊢
    obtain ⟨hor, hrto, -⟩ | ⟨-, hr, hk, hrto, -⟩ := ht.running_cases (hrun.2 hne)
    · rw [hrto, h.initial, h.count_restarted ht hor, Nat.pow_zero, Nat.mul_one]
    · rw [hrto, hk]
      exact h.rto (hrun₀.1 hr)
  · intro hnil
    dsimp only at hnil ⊢
    rcases Nat.lt_or_eq_of_le ht.una_le with hu | hu
    · exact ht.removed hu
    · obtain ⟨hk, hkeep⟩ := ht.kept hu.symm
      rw [hk]
      refine h.idle (Classical.byContradiction fun hne => ?_)
      exact hrun.1 (hkeep (hrun₀.2 hne)).1 hnil
  · intro ha
    exact ⟨Nat.le_trans hcount (h.live (hactive ha)).1, calm_of_active hcalm ha⟩
  · intro ha hne
    dsimp only at hne ⊢
    have hr' := hrun.2 hne
    obtain ⟨hor, -, htick⟩ | ⟨hu, hr, -, -, htick⟩ := ht.running_cases hr'
    · rw [htick, helapsed, if_pos (hor.symm.imp_left fun hr => ⟨hr, hr'⟩)]
      rfl
    · rw [htick, helapsed, if_neg (by simp [hu, hr])]
      exact h.clock (hactive ha) (hrun₀.1 hr)

/-- A tick of an inactive connection keeps the invariant. -/
theorem Inv.step_tick_inactive (h : Inv timeout r) (ha : r.conn.activeFlag = false) (ms : ℕ) :
    Inv timeout (r.step (.tick ms)) := by
  have he : (r.step (.tick ms)).conn = r.conn := (h.callSpec (.tick ms)).2 ha
  refine ⟨h.base.step (.tick ms), ?_, ?_, ?_, ?_, ?_, step_calm_or h.base h.calm (.tick ms), ?_⟩
    <;> rw [he]
  · exact h.initial
  · exact h.rto
  · exact h.idle
  · exact h.count_le
  · exact h.live
  · intro ha'
    rw [ha] at ha'
    cases ha'

/-- A tick of an active connection keeps the invariant. -/
theorem Inv.step_tick (h : Inv timeout r) (ha : r.conn.activeFlag = true) (ms : ℕ) :
    Inv timeout (r.step (.tick ms)) := by
  obtain ⟨stream, hsender⟩ := tick_sender ha ms
  have hb : Base (r.conn.tick ms) := h.base.step (.tick ms)
  have hcalm : (r.conn.tick ms).Calm ∨ (r.conn.tick ms).IsReset :=
    step_calm_or h.base h.calm (.tick ms)
  have haborts := (h.tickSpec ha ms).aborts
  have hle := h.tick_count_le ha ms
  obtain ⟨c', hc'⟩ : ∃ c', r.conn.tick ms = c' := ⟨_, rfl⟩
  have hstep : r.step (.tick ms) =
      ⟨c', if c'.segmentsOut = r.conn.segmentsOut then r.elapsed + ms else 0⟩ := by
    rw [← hc']
    rfl
  have hcases := h.tick_cases ha ms hc'
  rw [hc'] at hsender hb hcalm haborts hle
  have hout : c'.sender.segmentsOutstanding = r.conn.sender.segmentsOutstanding := by
    rw [hsender]
    exact (TCPSender.tick_frame r.conn.sender ms).outstanding
  have hinitial : c'.sender.initialRetransmissionTimeout = timeout.toNat := by
    rw [hsender]
    exact (TCPSender.tick_frame r.conn.sender ms).initial.trans h.initial
  have hmax : TCPConfig.maxRetxAttempts = 8 := rfl
  have hlive : c'.activeFlag = true →
      c'.sender.consecutiveRetransmissions ≤ TCPConfig.maxRetxAttempts ∧ c'.Calm := by
    intro ha'
    have hc := calm_of_active hcalm ha'
    have hne : c'.sender.consecutiveRetransmissions ≠ 9 := by
      intro h9
      exact not_calm_of_isReset (haborts.2 h9) hc
    exact ⟨by omega, hc⟩
  rw [hstep]
  obtain ⟨-, hsame, hk', hrto, htick⟩ | ⟨t, rest, hl, -, hnew, -, hrto, htick⟩ := hcases
  · refine ⟨hb, hinitial, ?_, ?_, hle, hlive, hcalm, fun _ hne => ?_⟩ <;> dsimp only at *
    · rw [hout, hrto, hk']; exact h.rto
    · rw [hout, hk']; exact h.idle
    · rw [hout] at hne
      rw [if_pos hsame, htick, h.clock ha hne, Nat.mod_add_mod]
  · refine ⟨hb, hinitial, fun _ => hrto, fun hnil => ?_, hle, hlive, hcalm, fun _ hne => ?_⟩ <;>
      dsimp only at *
    · rw [hout, hl] at hnil
      cases hnil
    · rw [if_neg (by rw [hnew]; simp), htick]
      rfl

theorem Inv.step (h : Inv timeout r) (op : ConnOp) : Inv timeout (r.step op) := by
  cases op with
  | tick ms =>
    cases ha : r.conn.activeFlag with
    | true => exact h.step_tick ha ms
    | false => exact h.step_tick_inactive ha ms
  | connect | write | endInputStream | segmentReceived | read | popSegment =>
    exact h.step_other nofun

/-- **Retransmission timing, back-off and abort**: in every state of every run the timeout is backed
off by the retransmissions counted, and the next call re-sends, counts and resets as specified. -/
theorem run_retransmits (cfg : TCPConfig) (random : UInt32) (ops : List ConnOp) (op : ConnOp) :
    BackedOff cfg.rtTimeout (exec step (new cfg random) ops).conn ∧
      CallSpec (exec step (new cfg random) ops) op := by
  have h : Inv cfg.rtTimeout (exec step (new cfg random) ops) :=
    exec_invariant (fun _ op h => h.step op) ops (new_inv cfg random)
  exact ⟨h.backedOff, h.callSpec op⟩

/-- A connection that was reset with its SYN outstanding re-sends nothing, although the timeout has
passed. -/
theorem reset_connection_resends_nothing :
    (exec step (new {} 0)
      [.connect, .segmentReceived { header := { rst := true } }]).conn.sender.rto
        ≤ 1000 ∧
      (exec step (new {} 0)
        [.connect, .segmentReceived { header := { rst := true } }]).elapsed = 0 ∧
      (exec step (new {} 0)
        [.connect, .segmentReceived { header := { rst := true } }]).conn.sender.segmentsOutstanding
          ≠ [] ∧
      (exec step (new {} 0)
        [.connect, .segmentReceived { header := { rst := true } }, .tick 1000]).conn.segmentsOut =
      (exec step (new {} 0)
        [.connect, .segmentReceived { header := { rst := true } }]).conn.segmentsOut := by
  decide

end RetxRun

end Sponge
