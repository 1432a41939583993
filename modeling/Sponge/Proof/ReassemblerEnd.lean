import Sponge.Proof.ReassemblerRun

/-!
# When the reassembled stream ends

`EndRun` is a run on excerpts of one stream `S` that also remembers whether the end was `announced`:
some push with `eof` came while the whole stream was within the window. The output should have ended
exactly if it was and all of `S` is assembled (`Ends`).

The reassembler does not keep the length of `S`: it ends its output as soon as the end is announced
and nothing is stored. `run_ends_iff`: it is right in all states of a run exactly if, from the
announcement on, the accepted indices never are a proper initial segment of `S` with nothing beyond
it, and no push with `eof` finds the edge of the window wrapped around once all is assembled
(`Timely`).
-/

namespace Sponge

open StreamReassembler Run

variable {S : List UInt8}

/-- A push says `eof` only at the end of the stream. -/
def ExcerptOp.Honest : ExcerptOp S → Prop
  | .push i n eof _ _ => eof = true → i + n = S.length
  | .pop _ => True

instance : (op : ExcerptOp S) → Decidable op.Honest
  | .push i n eof _ _ => inferInstanceAs (Decidable (eof = true → i + n = S.length))
  | .pop _ => .isTrue trivial

/-- A run on excerpts, and whether the end of the stream has been announced. -/
structure EndRun extends ExcerptRun where
  announced : Bool

namespace EndRun

def new (capacity : UInt64) : EndRun := ⟨.new capacity, false⟩

/-- Has the end of a stream of `len` bytes been announced after a push with this `eof`? -/
def announcedBy (s : EndRun) (len : ℕ) (eof : Bool) : Bool :=
  s.announced ||
    (eof && decide (len ≤ s.reassembler.output.bytesRead + s.reassembler.capacity))

/-- One call, with the history it makes. -/
def step (s : EndRun) : ExcerptOp S → EndRun
  | .push i n eof inside small =>
    { toExcerptRun := s.toExcerptRun.step (.push i n eof inside small)
      announced := s.announcedBy S.length eof }
  | .pop n => ⟨s.toExcerptRun.step (S := S) (.pop n), s.announced⟩

/-- The output has ended exactly if the end was announced and all is assembled. -/
def Ends (S : List UInt8) (s : EndRun) : Prop :=
  s.reassembler.output.inputEnded = true ↔
    s.announced = true ∧ s.reassembler.firstUnassembledByte = S.length

/-- The condition: while the sum `first_unread + _capacity` fits 64 bits, a push after which the end
is announced does not leave a proper initial segment of the stream accepted and nothing else; and
once it does not fit, the end is not announced for the first time when all is assembled. -/
def Timely (s : EndRun) : ExcerptOp S → Prop
  | .push i n eof _ _ =>
    if s.reassembler.output.bytesRead + s.reassembler.capacity < 2 ^ 64 then
      s.announcedBy S.length eof = true →
        ∀ m < S.length, s.accepted ∪ s.arriving i n ≠ Finset.range m
    else
      eof = true → s.announced = true ∨ s.reassembler.firstUnassembledByte ≠ S.length
  | .pop _ => True

instance (s : EndRun) : (op : ExcerptOp S) → Decidable (s.Timely op)
  | .push i n eof _ _ => inferInstanceAs (Decidable
    (if s.reassembler.output.bytesRead + s.reassembler.capacity < 2 ^ 64 then
      s.announcedBy S.length eof = true →
        ∀ m < S.length, s.accepted ∪ s.arriving i n ≠ Finset.range m
    else eof = true → s.announced = true ∨ s.reassembler.firstUnassembledByte ≠ S.length))
  | .pop _ => .isTrue trivial

/-- The reassembler follows its history as long as the edge has not wrapped around, and has ended
its output when it should by its own lights. -/
structure Follows (S : List UInt8) (s : EndRun) : Prop where
  inv : Inv (fun j c => S[j]? = some c) s.reassembler []
  gap : Gap s.reassembler
  inside : ∀ j, s.reassembler.mExist j = true → j < S.length
  accepted : s.reassembler.output.bytesRead + s.reassembler.capacity < 2 ^ 64 →
    ∀ j, j ∈ s.accepted ↔ s.reassembler.mExist j = true
  announced : s.reassembler.output.bytesRead + s.reassembler.capacity < 2 ^ 64 →
    s.reassembler.isEof = s.announced
  ended : s.reassembler.output.inputEnded = (s.reassembler.empty && s.reassembler.isEof)

variable {s : EndRun}

theorem new_follows (S : List UInt8) (capacity : UInt64) : Follows S (new capacity) := by
  refine ⟨new_inv capacity, rfl, ?_, ?_, fun _ => rfl, ?_⟩
  · intro j hj
    cases hj
  · intro _ j
    simp [new, ExcerptRun.new, StreamReassembler.new]
  · rfl

theorem new_ends (S : List UInt8) (capacity : UInt64) : Ends S (new capacity) := by
  constructor
  · intro h
    exact absurd h Bool.false_ne_true
  · intro h
    exact absurd h.1 Bool.false_ne_true

theorem Follows.cursor_le (h : Follows S s) : s.reassembler.firstUnassembled ≤ S.length :=
  h.inv.cursor_le_of h.inside

/-- Nothing is stored when all is assembled. -/
theorem Follows.empty_of_all (h : Follows S s)
    (hall : s.reassembler.firstUnassembled = S.length) : s.reassembler.empty = true := by
  rw [h.inv.empty_iff, hall]
  exact h.inside

/-- **While the edge has not wrapped around**, the end is right exactly if no proper initial segment
is all that is accepted once it is announced. -/
theorem Follows.ends_iff (h : Follows S s)
    (hsmall : s.reassembler.output.bytesRead + s.reassembler.capacity < 2 ^ 64) :
    Ends S s ↔ (s.announced = true → ∀ m < S.length, s.accepted ≠ Finset.range m) := by
  have hended := h.ended
  rw [h.announced hsmall, Bool.eq_iff_iff, Bool.and_eq_true] at hended
  have hgap : FirstGap {j | j ∈ s.accepted} s.reassembler.firstUnassembled := by
    have hset : {j | j ∈ s.accepted} = s.reassembler.present := Set.ext (h.accepted hsmall)
    rw [hset]
    exact h.inv.firstGap h.gap
  have hempty : s.reassembler.empty = true ↔
      s.accepted = Finset.range s.reassembler.firstUnassembled := by
    rw [h.inv.empty_iff, Finset.ext_iff]
    refine forall_congr' fun j => ?_
    rw [h.accepted hsmall, Finset.mem_range]
    exact ⟨fun hj => ⟨hj, h.inv.below j⟩, fun hj => hj.1⟩
  constructor
  · intro hends hannounced m hm hsegment
    have hcursor : s.reassembler.firstUnassembled = m := by
      apply hgap.eq
      rw [hsegment]
      exact ⟨fun j hj => Finset.mem_range.2 hj, fun hm => Finset.notMem_range_self hm⟩
    have hall := (hends.1 (hended.2 ⟨hempty.2 (by rw [hcursor, hsegment]), hannounced⟩)).2
    change s.reassembler.firstUnassembled = S.length at hall
    omega
  · intro htimely
    constructor
    · intro hstop
      obtain ⟨hnone, hannounced⟩ := hended.1 hstop
      refine ⟨hannounced, ?_⟩
      by_contra hne
      exact htimely hannounced _ (Nat.lt_of_le_of_ne h.cursor_le hne) (hempty.1 hnone)
    · intro hdone
      exact hended.2 ⟨h.empty_of_all hdone.2, hdone.1⟩

/-- What the push of an excerpt does. -/
structure PushedTo (S : List UInt8) (s : EndRun) (i n : ℕ) (eof : Bool) (s' : EndRun) : Prop where
  inv : Inv (fun j c => S[j]? = some c) s'.reassembler []
  pushed : Pushed s.reassembler ((S.drop i).take n) i eof s'.reassembler
  length : ((S.drop i).take n).length = n
  inside : i + n ≤ S.length
  small : i + n < 2 ^ 64
  last : eof = true → i + n = S.length
  accepted : s'.accepted = s.accepted ∪ s.arriving i n
  announced : s'.announced = s.announcedBy S.length eof

theorem exists_pushedTo (h : Follows S s) {i n : ℕ} {eof : Bool} (hin : i + n ≤ S.length)
    (h64 : i + n < 2 ^ 64) (hlast : eof = true → i + n = S.length) :
    ∃ s', s.step (.push i n eof hin h64) = s' ∧ PushedTo S s i n eof s' := by
  obtain ⟨hinv, hpush, hlen⟩ := ExcerptRun.push_excerpt h.inv h.gap eof hin h64
  exact ⟨_, rfl, hinv, hpush, hlen, hin, h64, hlast, rfl, rfl⟩

section
variable {i n : ℕ} {eof : Bool} {s' : EndRun} (hto : PushedTo S s i n eof s')
include hto

theorem PushedTo.edge : s'.reassembler.output.bytesRead + s'.reassembler.capacity =
    s.reassembler.output.bytesRead + s.reassembler.capacity := by
  rw [hto.pushed.bytesRead, hto.pushed.capacity]

theorem PushedTo.isEof : s'.reassembler.isEof =
    (s.reassembler.isEof || (eof && decide (S.length ≤ s.reassembler.windowEdge))) := by
  rw [hto.pushed.isEof, hto.length, Nat.mod_eq_of_lt hto.small]
  cases heof : eof with
  | false => rfl
  | true => rw [hto.last heof]

theorem PushedTo.mem_inside (h : Follows S s) {j : ℕ} (hj : s'.reassembler.mExist j = true) :
    j < S.length := by
  have hin := hto.inside
  have hlen := hto.length
  obtain hj | ⟨-, hj, -⟩ := (hto.pushed.mExist j).1 hj
  · exact h.inside j hj
  · omega

/-- What was assembled stays assembled. -/
theorem PushedTo.cursor_le (h : Follows S s) :
    s.reassembler.firstUnassembled ≤ s'.reassembler.firstUnassembled := by
  by_contra hlt
  have hthere := (hto.pushed.mExist _).2 (.inl (h.inv.below _ (Nat.lt_of_not_le hlt)))
  rw [hto.pushed.gap] at hthere
  cases hthere

/-- While the edge has not wrapped around, the reassembler keeps following its history. -/
theorem PushedTo.follows (h : Follows S s) (hends : Ends S s) : Follows S s' := by
  have hedge : s.reassembler.output.bytesRead + s.reassembler.capacity < 2 ^ 64 →
      s.reassembler.windowEdge = s.reassembler.output.bytesRead + s.reassembler.capacity :=
    Nat.mod_eq_of_lt
  refine ⟨hto.inv, hto.pushed.gap, fun j hj => hto.mem_inside h hj, ?_, ?_, ?_⟩
  · intro hsmall j
    rw [hto.edge] at hsmall
    rw [hto.accepted, Finset.mem_union, ExcerptRun.mem_arriving, h.accepted hsmall,
      hto.pushed.mExist, hto.length, hedge hsmall, and_assoc]
  · intro hsmall
    rw [hto.edge] at hsmall
    rw [hto.isEof, hto.announced, announcedBy, h.announced hsmall, hedge hsmall]
  · rw [hto.pushed.inputEnded]
    cases hended : s.reassembler.output.inputEnded with
    | false => rfl
    | true =>
      -- all was assembled, so that nothing can be stored any more
      obtain ⟨-, hall⟩ := hends.1 hended
      have heof : s.reassembler.isEof = true := by
        have hboth := h.ended
        rw [hended] at hboth
        exact (Bool.and_eq_true_iff.1 hboth.symm).2
      have hempty : s'.reassembler.empty = true := by
        rw [hto.inv.empty_iff]
        intro j hj
        have hlt := hto.mem_inside h hj
        have hle := hto.cursor_le h
        change s.reassembler.firstUnassembled = S.length at hall
        omega
      rw [hempty, hto.isEof, heof]
      rfl

/-- **A push past a wrapped edge** changes neither the cursor nor the end of the output. -/
theorem PushedTo.of_wrapped (h : Follows S s)
    (hwrap : ¬ s.reassembler.output.bytesRead + s.reassembler.capacity < 2 ^ 64) :
    s'.reassembler.firstUnassembled = s.reassembler.firstUnassembled ∧
      s'.reassembler.output.inputEnded = s.reassembler.output.inputEnded ∧
      s'.announced = (s.announced || eof) := by
  have hsame := hto.pushed.mExist_of_wrapped h.inv hwrap
  have hcursor : s'.reassembler.firstUnassembled = s.reassembler.firstUnassembled := by
    have hset : s'.reassembler.present = s.reassembler.present := Set.ext hsame
    have hgap' := hto.inv.firstGap hto.pushed.gap
    rw [hset] at hgap'
    exact hgap'.eq (h.inv.firstGap h.gap)
  -- the edge is below all that was read, and so below the end of the stream
  have heof : s'.reassembler.isEof = s.reassembler.isEof := by
    have hlt := h.inv.windowEdge_lt hwrap
    have hread := h.inv.cursor
    have hle := h.cursor_le
    have hnot : ¬ S.length ≤ s.reassembler.windowEdge := by omega
    rw [hto.isEof, decide_eq_false hnot, Bool.and_false, Bool.or_false]
  have hempty : s'.reassembler.empty = s.reassembler.empty := by
    rw [Bool.eq_iff_iff, hto.inv.empty_iff, h.inv.empty_iff, hcursor]
    simp only [hsame]
  refine ⟨hcursor, ?_, ?_⟩
  · rw [hto.pushed.inputEnded, hempty, heof, ← h.ended, Bool.or_self]
  · rw [hto.announced, announcedBy]
    cases hmarked : eof with
    | false => rfl
    | true =>
      have hlen := hto.last hmarked
      have hsmall := hto.small
      rw [decide_eq_true (by omega), Bool.and_true]

end

/-- **Step**: the reassembler keeps following its history. -/
theorem step_follows (h : Follows S s) (hends : Ends S s) (op : ExcerptOp S) (hop : op.Honest) :
    Follows S (s.step op) := by
  cases op with
  | pop n =>
    -- the reader moves the edge up only
    have hread : s.reassembler.output.bytesRead + s.reassembler.capacity ≤
        (s.step (S := S) (.pop n)).reassembler.output.bytesRead +
          (s.step (S := S) (.pop n)).reassembler.capacity := by
      change _ ≤ (s.reassembler.output.popOutput n).bytesRead + s.reassembler.capacity
      rw [ByteStream.bytesRead_popOutput]
      omega
    exact ⟨popOutput_inv h.inv n, h.gap, h.inside,
      fun hsmall => h.accepted (Nat.lt_of_le_of_lt hread hsmall),
      fun hsmall => h.announced (Nat.lt_of_le_of_lt hread hsmall), h.ended⟩
  | push i n eof hin h64 =>
    obtain ⟨s', hs', hto⟩ := exists_pushedTo h hin h64 hop
    rw [hs']
    exact hto.follows h hends

/-- **Step**: the end stays right exactly if the call is timely. -/
theorem step_ends_iff (h : Follows S s) (hends : Ends S s) (op : ExcerptOp S) (hop : op.Honest) :
    Ends S (s.step op) ↔ s.Timely op := by
  cases op with
  | pop n => exact iff_of_true hends trivial
  | push i n eof hin h64 =>
    obtain ⟨s', hs', hto⟩ := exists_pushedTo h hin h64 hop
    rw [hs', Timely]
    by_cases hsmall : s.reassembler.output.bytesRead + s.reassembler.capacity < 2 ^ 64
    · rw [if_pos hsmall, (hto.follows h hends).ends_iff (by rw [hto.edge]; exact hsmall),
        hto.announced, hto.accepted]
    · obtain ⟨hcursor, hended, hannounced⟩ := hto.of_wrapped h hsmall
      unfold Ends firstUnassembledByte at hends ⊢
      rw [if_neg hsmall, hended, hends, hcursor, hannounced]
      cases s.announced <;> cases eof <;> simp

/-- **The reassembled stream ends exactly when it is complete** in all states of a run, exactly if
all its calls are timely. -/
theorem run_ends_iff (S : List UInt8) (capacity : UInt64) (ops : List (ExcerptOp S))
    (hops : ∀ op ∈ ops, op.Honest) :
    (∀ n, Ends S (exec step (new capacity) (ops.take n))) ↔
      Guarded step Timely (new capacity) ops := by
  apply always_iff_guarded (A := fun _ op => op.Honest) (I := Follows S) _ _
    (new_follows S capacity) (new_ends S capacity) (guarded_of_mem hops _)
  · intro s op h hends hop _
    exact step_follows h hends op hop
  · intro s op h hends hop
    exact step_ends_iff h hends op hop

/-- The last byte comes first, then the first one, then the end once more without any. -/
theorem run_ends_of_last_first :
    Guarded (step (S := [97, 98])) Timely (new 2)
      [.push 1 1 true (by decide) (by decide), .push 0 1 false (by decide) (by decide), .pop 2,
        .push 2 0 true (by decide) (by decide)] ∧
    ∀ n, Ends [97, 98] (exec (step (S := [97, 98])) (new 2)
      (List.take n [.push 1 1 true (by decide) (by decide),
        .push 0 1 false (by decide) (by decide), .pop 2,
        .push 2 0 true (by decide) (by decide)])) := by
  have htimely : Guarded (step (S := [97, 98])) Timely (new 2)
      [.push 1 1 true (by decide) (by decide), .push 0 1 false (by decide) (by decide), .pop 2,
        .push 2 0 true (by decide) (by decide)] := by
    decide +kernel
  exact ⟨htimely, (run_ends_iff [97, 98] 2 _ (by decide)).2 htimely⟩

/-- The end of a stream of one byte, announced with no byte at all, ends the output at once. -/
theorem announced_end_is_early :
    ¬ Ends [97] (exec (step (S := [97])) (new 1) [.push 1 0 true (by decide) (by decide)]) := by
  intro h
  exact absurd (h.1 (by decide)).2 (by decide)

end EndRun

end Sponge
