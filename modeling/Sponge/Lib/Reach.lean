import Sponge.Lib.Run

/-!
# States that can be reached

`CanReach step A Q s`: some operations that meet `A` lead from `s` to a state with `Q`. Statements
compose with `CanReach.bind`, and `CanReach.of_measure` repeats one as long as a measure decreases.
-/

namespace Run

variable {σ ι : Type} {step : σ → ι → σ} {A : ι → Prop} {Q Q' : σ → Prop} {s : σ}

/-- Some operations with `A` lead from `s` to a state with `Q`. -/
def CanReach (step : σ → ι → σ) (A : ι → Prop) (Q : σ → Prop) (s : σ) : Prop :=
  ∃ ops : List ι, (∀ i ∈ ops, A i) ∧ Q (exec step s ops)

theorem CanReach.here (h : Q s) : CanReach step A Q s := ⟨[], List.forall_mem_nil _, h⟩

theorem CanReach.next {i : ι} (hi : A i) (h : CanReach step A Q (step s i)) :
    CanReach step A Q s := by
  obtain ⟨ops, hops, hq⟩ := h
  exact ⟨i :: ops, List.forall_mem_cons.2 ⟨hi, hops⟩, hq⟩

theorem CanReach.bind (h : CanReach step A Q s) (k : ∀ s', Q s' → CanReach step A Q' s') :
    CanReach step A Q' s := by
  obtain ⟨ops, hops, hq⟩ := h
  obtain ⟨ops', hops', hq'⟩ := k _ hq
  refine ⟨ops ++ ops', ?_, by rw [exec_append]; exact hq'⟩
  intro i hi
  rcases List.mem_append.1 hi with hi | hi
  · exact hops i hi
  · exact hops' i hi

theorem CanReach.mono (h : CanReach step A Q s) (hq : ∀ s, Q s → Q' s) : CanReach step A Q' s :=
  h.bind fun s' hs' => .here (hq s' hs')

/-- **Measure rule**: from every state with `I` the goal holds, or a state with `I` and a smaller
measure can be reached. -/
theorem CanReach.of_measure {I : σ → Prop} (m : σ → ℕ)
    (hround : ∀ s, I s → Q s ∨ CanReach step A (fun s' => I s' ∧ m s' < m s ∨ Q s') s)
    (hs : I s) : CanReach step A Q s := by
  generalize hm : m s = k
  induction k using Nat.strongRecOn generalizing s with
  | ind k ih =>
    rcases hround s hs with hq | hr
    · exact .here hq
    · refine hr.bind fun s' hs' => ?_
      rcases hs' with ⟨hi, hlt⟩ | hq
      · exact ih (m s') (by omega) hi rfl
      · exact .here hq

end Run
