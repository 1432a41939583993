import Mathlib.Data.List.Basic

/-!
# Runs of a transition function

`exec step s ops` is the state after the operations `ops` from `s`. `Guarded step G s ops` says
that every operation of the run meets `G` in the state it is applied to. The rules:

* `Guarded.invariant`: what holds initially and is kept by every guarded step holds after every
  guarded run.
* `always_iff_guarded`: when an allowed step keeps a property exactly if its guard holds, an allowed
  run has the property in all its states exactly if all its steps are guarded;
  `guarded_iff_guarded` is the same for a property of steps.
* `guarded_iff_rel`: an order on the states that every step follows, the whole run follows.
* `exec_filter`: operations that change nothing can be deleted from a run.
-/

namespace Run

variable {σ ι : Type}

/-- The state after `ops`, in order, from `s`. -/
def exec (step : σ → ι → σ) (s : σ) (ops : List ι) : σ := ops.foldl step s

/-- Every operation of the run from `s` meets `G` in the state it is applied to. -/
def Guarded (step : σ → ι → σ) (G : σ → ι → Prop) : σ → List ι → Prop
  | _, [] => True
  | s, i :: ops => G s i ∧ Guarded step G (step s i) ops

variable {step : σ → ι → σ}

@[simp] theorem exec_nil (s : σ) : exec step s [] = s := rfl

@[simp] theorem exec_cons (s : σ) (i : ι) (ops : List ι) :
    exec step s (i :: ops) = exec step (step s i) ops := rfl

theorem exec_append (s : σ) (xs ys : List ι) :
    exec step s (xs ++ ys) = exec step (exec step s xs) ys := by
  simp [exec]

@[simp] theorem exec_concat (s : σ) (xs : List ι) (i : ι) :
    exec step s (xs ++ [i]) = step (exec step s xs) i := by
  simp [exec]

instance Guarded.decidable {G : σ → ι → Prop} [∀ s i, Decidable (G s i)] :
    ∀ (s : σ) (ops : List ι), Decidable (Guarded step G s ops)
  | _, [] => .isTrue trivial
  | s, i :: ops =>
    have := Guarded.decidable (G := G) (step s i) ops
    inferInstanceAs (Decidable (G s i ∧ Guarded step G (step s i) ops))

theorem guarded_append {G : σ → ι → Prop} {s : σ} {xs ys : List ι} :
    Guarded step G s (xs ++ ys) ↔ Guarded step G s xs ∧ Guarded step G (exec step s xs) ys := by
  induction xs generalizing s with
  | nil => simp [Guarded]
  | cons i xs ih => simp only [List.cons_append, Guarded, exec_cons, ih, and_assoc]

/-- **Invariant rule**: kept by every guarded step, so by every guarded run. -/
theorem Guarded.invariant {G : σ → ι → Prop} {I : σ → Prop}
    (hstep : ∀ s i, I s → G s i → I (step s i)) {s : σ} {ops : List ι} (hs : I s)
    (hg : Guarded step G s ops) : I (exec step s ops) := by
  induction ops generalizing s with
  | nil => exact hs
  | cons i ops ih =>
    obtain ⟨hi, hops⟩ := hg
    rw [exec_cons]
    apply ih
    · exact hstep s i hs hi
    · exact hops

/-- The invariant rule for steps that need no guard. -/
theorem exec_invariant {I : σ → Prop} (hstep : ∀ s i, I s → I (step s i)) {s : σ} (ops : List ι)
    (hs : I s) : I (exec step s ops) := by
  induction ops generalizing s with
  | nil => exact hs
  | cons i ops ih =>
    rw [exec_cons]
    apply ih
    exact hstep s i hs

theorem guarded_of_forall {G : σ → ι → Prop} (h : ∀ s i, G s i) (s : σ) (ops : List ι) :
    Guarded step G s ops := by
  induction ops generalizing s with
  | nil => trivial
  | cons i ops ih => exact ⟨h s i, ih (step s i)⟩

/-- A guard on the inputs alone. -/
theorem guarded_of_mem {G : ι → Prop} {ops : List ι} (h : ∀ i ∈ ops, G i) (s : σ) :
    Guarded step (fun _ i => G i) s ops := by
  induction ops generalizing s with
  | nil => trivial
  | cons i ops ih =>
    refine ⟨h i List.mem_cons_self, ih ?_ (step s i)⟩
    intro j hj
    exact h j (List.mem_cons_of_mem i hj)

theorem Guarded.and {G H : σ → ι → Prop} {s : σ} {ops : List ι} (hg : Guarded step G s ops)
    (hh : Guarded step H s ops) : Guarded step (fun s i => G s i ∧ H s i) s ops := by
  induction ops generalizing s with
  | nil => trivial
  | cons i ops ih => exact ⟨⟨hg.1, hh.1⟩, ih hg.2 hh.2⟩

/-- **Step rule**: what every guarded step from an invariant state has, all steps of a guarded run
have. -/
theorem Guarded.implies {G Q : σ → ι → Prop} {I : σ → Prop}
    (hinv : ∀ s i, I s → G s i → I (step s i)) (hq : ∀ s i, I s → G s i → Q s i) {s : σ}
    {ops : List ι} (hs : I s) (hg : Guarded step G s ops) : Guarded step Q s ops := by
  induction ops generalizing s with
  | nil => trivial
  | cons i ops ih => exact ⟨hq s i hs hg.1, ih (hinv s i hs hg.1) hg.2⟩

/-- **Exact guards, by steps**: where an allowed step has `Q` exactly if it is guarded, the allowed
runs whose steps all have `Q` are exactly the guarded ones. -/
theorem guarded_iff_guarded {A G Q : σ → ι → Prop} {I : σ → Prop}
    (hinv : ∀ s i, I s → A s i → G s i → I (step s i))
    (hiff : ∀ s i, I s → A s i → (Q s i ↔ G s i)) {s : σ} {ops : List ι} (hi : I s)
    (ha : Guarded step A s ops) : Guarded step Q s ops ↔ Guarded step G s ops := by
  induction ops generalizing s with
  | nil => exact Iff.rfl
  | cons i ops ih =>
    obtain ⟨hai, haops⟩ := ha
    constructor
    · intro hq
      have hg : G s i := (hiff s i hi hai).1 hq.1
      exact ⟨hg, (ih (hinv s i hi hai hg) haops).1 hq.2⟩
    · intro hg
      exact ⟨(hiff s i hi hai).2 hg.1, (ih (hinv s i hi hai hg.1) haops).2 hg.2⟩

/-- A property of all states of a run: of the first, and of the state after each step. -/
theorem forall_take_iff {P : σ → Prop} {s : σ} {ops : List ι} :
    (∀ n, P (exec step s (ops.take n))) ↔ P s ∧ Guarded step (fun s i => P (step s i)) s ops := by
  induction ops generalizing s with
  | nil => simp [Guarded]
  | cons i ops ih =>
    constructor
    · intro h
      refine ⟨by simpa using h 0, ?_⟩
      apply ih.1
      intro n
      simpa using h (n + 1)
    · intro h n
      cases n with
      | zero => simpa using h.1
      | succ n => simpa using ih.2 h.2 n

/-- **Exact guards**: from a state with `P`, an allowed step keeps `P` exactly if it is guarded.
Then among the allowed runs those with `P` in every state are exactly the guarded ones. -/
theorem always_iff_guarded {A G : σ → ι → Prop} {I P : σ → Prop}
    (hinv : ∀ s i, I s → P s → A s i → G s i → I (step s i))
    (hiff : ∀ s i, I s → P s → A s i → (P (step s i) ↔ G s i)) {s : σ} {ops : List ι} (hi : I s)
    (hp : P s) (ha : Guarded step A s ops) :
    (∀ n, P (exec step s (ops.take n))) ↔ Guarded step G s ops := by
  have hboth : Guarded step (fun s i => P (step s i)) s ops ↔ Guarded step G s ops := by
    apply guarded_iff_guarded (I := fun s => I s ∧ P s) _ _ ⟨hi, hp⟩ ha
    · intro s i h hai hg
      exact ⟨hinv s i h.1 h.2 hai hg, (hiff s i h.1 h.2 hai).2 hg⟩
    · intro s i h hai
      exact hiff s i h.1 h.2 hai
  rw [forall_take_iff, hboth]
  exact and_iff_right hp

/-- A reflexive and transitive relation between the states of a run, earlier to later: it relates
the states before and after each step. -/
theorem guarded_iff_rel {R : σ → σ → Prop} (hrefl : ∀ s, R s s)
    (htrans : ∀ a b c, R a b → R b c → R a c) {s : σ} {ops : List ι} :
    Guarded step (fun s i => R s (step s i)) s ops ↔
      ∀ m n, m ≤ n → R (exec step s (ops.take m)) (exec step s (ops.take n)) := by
  induction ops generalizing s with
  | nil => simp [Guarded, hrefl]
  | cons i ops ih =>
    constructor
    · intro h m n hmn
      have hrest := ih.1 h.2
      cases n with
      | zero =>
        rw [Nat.eq_zero_of_le_zero hmn]
        exact hrefl _
      | succ n =>
        cases m with
        | zero =>
          have htail := hrest 0 n (Nat.zero_le n)
          exact htrans _ _ _ h.1 (by simpa using htail)
        | succ m => simpa using hrest m n (Nat.le_of_succ_le_succ hmn)
    · intro h
      refine ⟨by simpa using h 0 1 (Nat.zero_le 1), ?_⟩
      apply ih.2
      intro m n hmn
      simpa using h (m + 1) (n + 1) (Nat.succ_le_succ hmn)

/-- **Deletion**: from an invariant state, operations that change no invariant state can be left
out. -/
theorem exec_filter {I : σ → Prop} (hinv : ∀ s i, I s → I (step s i)) {keep : ι → Bool}
    (hskip : ∀ s i, I s → keep i = false → step s i = s) {s : σ} (hs : I s) (ops : List ι) :
    exec step s (ops.filter keep) = exec step s ops := by
  induction ops generalizing s with
  | nil => rfl
  | cons i ops ih =>
    cases hkeep : keep i with
    | false =>
      rw [List.filter_cons_of_neg (by simp [hkeep]), exec_cons, hskip s i hs hkeep]
      exact ih hs
    | true =>
      rw [List.filter_cons_of_pos hkeep, exec_cons, exec_cons]
      exact ih (hinv s i hs)

end Run
