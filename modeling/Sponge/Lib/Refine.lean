import Sponge.Lib.Run

/-!
# Refinement between two transition functions

`Path step G s s'` says that some run that keeps the guard `G` leads from `s` to `s'`.
`Guarded.refines` is the rule: if every guarded step of one machine is matched by a path of the
other one, from related states to related states, then so is every guarded run.
-/

namespace Run

variable {σ ι τ κ : Type} {step : σ → ι → σ} {G G' : σ → ι → Prop} {s s' s'' : σ}

/-- Some guarded run leads from `s` to `s'`. -/
def Path (step : σ → ι → σ) (G : σ → ι → Prop) (s s' : σ) : Prop :=
  ∃ ops, Guarded step G s ops ∧ exec step s ops = s'

theorem Path.refl (s : σ) : Path step G s s := ⟨[], trivial, rfl⟩

theorem Path.single {i : ι} (h : G s i) : Path step G s (step s i) := ⟨[i], ⟨h, trivial⟩, rfl⟩

theorem Path.trans (h : Path step G s s') (h' : Path step G s' s'') : Path step G s s'' := by
  obtain ⟨xs, hxs, rfl⟩ := h
  obtain ⟨ys, hys, rfl⟩ := h'
  exact ⟨xs ++ ys, guarded_append.2 ⟨hxs, hys⟩, exec_append s xs ys⟩

theorem Path.invariant {I : σ → Prop} (hstep : ∀ s i, I s → G s i → I (step s i))
    (h : Path step G s s') (hs : I s) : I s' := by
  obtain ⟨ops, hg, rfl⟩ := h
  exact hg.invariant hstep hs

/-- The guard may be weakened, using an invariant of the path. -/
theorem Path.weaken {I : σ → Prop} (hinv : ∀ s i, I s → G s i → I (step s i))
    (hguard : ∀ s i, I s → G s i → G' s i) (h : Path step G s s') (hs : I s) :
    Path step G' s s' := by
  obtain ⟨ops, hg, rfl⟩ := h
  exact ⟨ops, hg.implies hinv hguard hs, rfl⟩

/-- What is true at the end of a path, and was true before every step that leads to where it is
true, is true after every step of it. -/
theorem Path.backward {P : σ → Prop} (hback : ∀ s i, P (step s i) → P s) (h : Path step G s s')
    (hP : P s') : Path step (fun s i => G s i ∧ P (step s i)) s s' := by
  obtain ⟨ops, hg, rfl⟩ := h
  have hfirst : ∀ (ops : List ι) (s : σ), P (exec step s ops) → P s := by
    intro ops
    induction ops with
    | nil => exact fun _ h => h
    | cons i ops ih => exact fun s h => hback s i (ih (step s i) h)
  refine ⟨ops, ?_, rfl⟩
  induction ops generalizing s with
  | nil => exact trivial
  | cons i ops ih => exact ⟨⟨hg.1, hfirst ops (step s i) hP⟩, ih hg.2 hP⟩

/-- **Refinement rule**: step by step, hence over whole runs. -/
theorem Guarded.refines {step' : τ → κ → τ} {G' : τ → κ → Prop} {R : σ → τ → Prop}
    (hstep : ∀ s t i, R s t → G s i → ∃ t', Path step' G' t t' ∧ R (step s i) t') {ops : List ι}
    {t : τ} (hr : R s t) (hg : Guarded step G s ops) :
    ∃ t', Path step' G' t t' ∧ R (exec step s ops) t' := by
  induction ops generalizing s t with
  | nil => exact ⟨t, .refl t, hr⟩
  | cons i ops ih =>
    obtain ⟨t', hpath, hr'⟩ := hstep s t i hr hg.1
    obtain ⟨t'', hpath', hr''⟩ := ih hr' hg.2
    exact ⟨t'', hpath.trans hpath', hr''⟩

end Run
