import Sponge.Lib.Run
import Sponge.Util.EventLoop
import Mathlib.Data.Set.Insert

/-!
# What an event loop keeps

A call of `wait_next_event` runs callbacks and cancellations of several rules, one after the other;
a callback runs in a state that the callbacks before it have changed since its rule was asked for
its interest. `Asks` and `Serves` say what the two loops can do, for rules given by names.

`Cooperate` is the contract under which this is harmless: what a rule relies on (`ready`) holds when
it is interested and is kept by the other rules. `Cooperate.waitNextEvent` is the rule for
invariants that follows, with the exceptions that can come out.

`run_lifecycle` is about any list of rules that no callback adds to: a rule is called back any
number of times, is cancelled at most once, exactly when it leaves the list, and is never called
back afterwards.
-/

namespace Sponge

variable {ι σ : Type} {s : σ}

/-- A rule that reads a descriptor that is open is cancelled at the end of the input. -/
theorem Rule.Dead.eof {rule : Rule ι σ} (h : rule.Dead s) (hopen : (rule.fd s).closed = false) :
    (rule.fd s).eof = true := by
  rcases h with ⟨-, heof⟩ | hclosed
  · exact heof
  · rw [hopen] at hclosed
    cases hclosed

/-- A rule that writes is cancelled when its descriptor is closed. -/
theorem Rule.Dead.closed {rule : Rule ι σ} (h : rule.Dead s) (hout : rule.direction = .Out) :
    (rule.fd s).closed = true := by
  rcases h with ⟨hin, -⟩ | hclosed
  · rw [hout] at hin
    cases hin
  · exact hclosed

namespace EventLoop

open Run

variable {κ : Type} {ruleOf : κ → Rule ι σ} {keys keys' : List κ} {ks : List (κ × Bool)}
  {s' : σ} {r : Except Exn Unit} {A : ι → Prop} {H : Prop}

/-! ## The two loops -/

/-- The rules with these names, each with whether it is interested. -/
def asked (ruleOf : κ → Rule ι σ) (ks : List (κ × Bool)) : List (Rule ι σ × Bool) :=
  ks.map fun p => (ruleOf p.1, p.2)

theorem map_fst_asked (ks : List (κ × Bool)) :
    (asked ruleOf ks).map Prod.fst = (ks.map Prod.fst).map ruleOf := by
  simp [asked]

/-- What the first loop can do. -/
inductive Asks (ruleOf : κ → Rule ι σ) :
    List κ → σ → List (κ × Bool) → σ → Except Exn Unit → Prop
  | nil {s : σ} : Asks ruleOf [] s [] s (.ok ())
  | cancelled {k : κ} {keys : List κ} {s s' s'' : σ} {ks : List (κ × Bool)} {r : Except Exn Unit}
      (hdead : (ruleOf k).Dead s) (hc : (ruleOf k).cancel s = (s', .ok ()))
      (rest : Asks ruleOf keys s' ks s'' r) :
      Asks ruleOf (k :: keys) s ks s'' r
  | threw {k : κ} {keys : List κ} {s s' : σ} {e : Exn} (hdead : (ruleOf k).Dead s)
      (hc : (ruleOf k).cancel s = (s', .error e)) :
      Asks ruleOf (k :: keys) s ((k :: keys).map fun k => (k, false)) s' (.error e)
  | kept {k : κ} {keys : List κ} {s s' : σ} {ks : List (κ × Bool)} {r : Except Exn Unit}
      (hlive : ¬ (ruleOf k).Dead s) (rest : Asks ruleOf keys s ks s' r) :
      Asks ruleOf (k :: keys) s ((k, (ruleOf k).interest s) :: ks) s' r

theorem setUp_asks (ruleOf : κ → Rule ι σ) (keys : List κ) (s : σ) :
    ∃ ks, (setUp (keys.map ruleOf) s).1 = asked ruleOf ks ∧
      Asks ruleOf keys s ks (setUp (keys.map ruleOf) s).2.1 (setUp (keys.map ruleOf) s).2.2 := by
  induction keys generalizing s with
  | nil => exact ⟨[], rfl, .nil⟩
  | cons k keys ih =>
    rw [List.map_cons, setUp]
    split
    · rename_i hdead
      split
      · rename_i s' e hc
        exact ⟨_, by simp [asked], .threw hdead hc⟩
      · rename_i s' hc
        obtain ⟨ks, heq, hrest⟩ := ih s'
        exact ⟨ks, heq, .cancelled hdead hc hrest⟩
    · rename_i hlive
      obtain ⟨ks, heq, hrest⟩ := ih s
      exact ⟨(k, (ruleOf k).interest s) :: ks, congrArg _ heq, .kept hlive hrest⟩

/-- What the second loop can do, when the kernel's answers to the callbacks meet `A`; `H` allows
descriptors to hang up. -/
inductive Serves (ruleOf : κ → Rule ι σ) (A : ι → Prop) (H : Prop) :
    List (κ × Bool) → σ → List κ → σ → Except Exn Unit → Prop
  /-- No descriptor has events any more. -/
  | done {ks : List (κ × Bool)} {s : σ} : Serves ruleOf A H ks s (ks.map Prod.fst) s (.ok ())
  | polled {ks : List (κ × Bool)} {s : σ} : Serves ruleOf A H ks s (ks.map Prod.fst) s
      (.error (.runtimeError "EventLoop: error on polled file descriptor"))
  | cancelled {k : κ} {ks : List (κ × Bool)} {keys : List κ} {s s' s'' : σ} {r : Except Exn Unit}
      (hup : H) (hc : (ruleOf k).cancel s = (s', .ok ()))
      (rest : Serves ruleOf A H ks s' keys s'' r) :
      Serves ruleOf A H ((k, true) :: ks) s keys s'' r
  | cancelThrew {k : κ} {ks : List (κ × Bool)} {s s' : σ} {e : Exn}
      (hup : H) (hc : (ruleOf k).cancel s = (s', .error e)) :
      Serves ruleOf A H ((k, true) :: ks) s (k :: ks.map Prod.fst) s' (.error e)
  | called {k : κ} {ks : List (κ × Bool)} {keys : List κ} {s s' s'' : σ} {r : Except Exn Unit}
      {i : ι} (hi : A i) (hc : (ruleOf k).callback i s = (s', .ok ()))
      (rest : Serves ruleOf A H ks s' keys s'' r) :
      Serves ruleOf A H ((k, true) :: ks) s (k :: keys) s'' r
  | callThrew {k : κ} {ks : List (κ × Bool)} {s s' : σ} {e : Exn} {i : ι}
      (hi : A i) (hc : (ruleOf k).callback i s = (s', .error e)) :
      Serves ruleOf A H ((k, true) :: ks) s (k :: ks.map Prod.fst) s' (.error e)
  | busy {k : κ} {ks : List (κ × Bool)} {s s' : σ} {e : Exn} {i : ι}
      (hi : A i) (hc : (ruleOf k).callback i s = (s', .ok ()))
      (hcount : (ruleOf k).serviceCount s = (ruleOf k).serviceCount s')
      (hint : (ruleOf k).interest s' = true) :
      Serves ruleOf A H ((k, true) :: ks) s (k :: ks.map Prod.fst) s' (.error e)
  | skipped {k : κ} {b : Bool} {ks : List (κ × Bool)} {keys : List κ} {s s' : σ}
      {r : Except Exn Unit} (rest : Serves ruleOf A H ks s keys s' r) :
      Serves ruleOf A H ((k, b) :: ks) s (k :: keys) s' r

theorem dispatch_serves (ruleOf : κ → Rule ι σ) (ks : List (κ × Bool))
    {results : List (Revents × ι)} (hA : ∀ p ∈ results, A p.2 ∧ (p.1.pollhup = true → H)) (s : σ) :
    ∃ keys, (dispatch (asked ruleOf ks) results s).1 = keys.map ruleOf ∧
      Serves ruleOf A H ks s keys (dispatch (asked ruleOf ks) results s).2.1
        (dispatch (asked ruleOf ks) results s).2.2 := by
  induction ks generalizing s results with
  | nil => exact ⟨[], rfl, .done⟩
  | cons p ks ih =>
    obtain ⟨k, interested⟩ := p
    have hall : ruleOf k :: (asked ruleOf ks).map Prod.fst = (k :: ks.map Prod.fst).map ruleOf := by
      rw [map_fst_asked, List.map_cons]
    cases results with
    | nil => exact ⟨_, hall, .done⟩
    | cons result rest =>
      obtain ⟨revents, answers⟩ := result
      obtain ⟨⟨hi, hup⟩, hA⟩ := List.forall_mem_cons.1 hA
      have hcons : asked ruleOf ((k, interested) :: ks) =
        (ruleOf k, interested) :: asked ruleOf ks := rfl
      rw [hcons]
      unfold dispatch
      split
      · exact ⟨_, hall, .polled⟩
      · dsimp only
        split
        · rename_i hhup
          obtain ⟨hhup, rfl, -⟩ := hhup
          split
          · rename_i s' e hc
            exact ⟨_, hall, .cancelThrew (hup hhup) hc⟩
          · rename_i s' hc
            obtain ⟨keys, heq, hrest⟩ := ih hA s'
            exact ⟨keys, heq, .cancelled (hup hhup) hc hrest⟩
        · split
          · rename_i hready
            obtain ⟨rfl, -⟩ := Bool.and_eq_true_iff.1 hready
            split
            · rename_i s' e hc
              exact ⟨_, hall, .callThrew hi hc⟩
            · rename_i s' hc
              split
              · rename_i hbusy
                exact ⟨_, hall, .busy hi hc hbusy.1 hbusy.2⟩
              · obtain ⟨keys, heq, hrest⟩ := ih hA s'
                exact ⟨k :: keys, congrArg _ heq, .called hi hc hrest⟩
          · obtain ⟨keys, heq, hrest⟩ := ih hA s
            exact ⟨k :: keys, congrArg _ heq, .skipped hrest⟩

/-- The kernel's answers to the callbacks meet `A`, and descriptors hang up only if `H` allows it.
-/
def Answers (A : ι → Prop) (H : Prop) : Poll ι → Prop
  | .ready results => ∀ p ∈ results, A p.2 ∧ (p.1.pollhup = true → H)
  | .timeout | .interrupted | .failed => True

theorem answers_true (poll : Poll ι) : Answers (fun _ => True) True poll := by
  cases poll with
  | ready results => exact fun _ _ => ⟨trivial, fun _ => trivial⟩
  | timeout | interrupted | failed => trivial

/-- What a call of `wait_next_event` can do. -/
inductive Waits (ruleOf : κ → Rule ι σ) (A : ι → Prop) (H : Prop) (poll : Poll ι) :
    List κ → σ → List κ → σ → Except Exn Result → Prop
  | threw {keys : List κ} {s s' : σ} {ks : List (κ × Bool)} {e : Exn}
      (asks : Asks ruleOf keys s ks s' (.error e)) :
      Waits ruleOf A H poll keys s (ks.map Prod.fst) s' (.error e)
  /-- No rule is interested. -/
  | idle {keys : List κ} {s s' : σ} {ks : List (κ × Bool)}
      (asks : Asks ruleOf keys s ks s' (.ok ()))
      (hidle : ∀ p ∈ ks, p.2 = false) :
      Waits ruleOf A H poll keys s (ks.map Prod.fst) s' (.ok .exit)
  | timeout {keys : List κ} {s s' : σ} {ks : List (κ × Bool)}
      (asks : Asks ruleOf keys s ks s' (.ok ())) :
      Waits ruleOf A H poll keys s (ks.map Prod.fst) s' (.ok .timeout)
  | interrupted {keys : List κ} {s s' : σ} {ks : List (κ × Bool)} (hp : poll = .interrupted)
      (asks : Asks ruleOf keys s ks s' (.ok ())) :
      Waits ruleOf A H poll keys s (ks.map Prod.fst) s' (.ok .exit)
  | served {keys keys' : List κ} {s s' s'' : σ} {ks : List (κ × Bool)} {r : Except Exn Unit}
      (asks : Asks ruleOf keys s ks s' (.ok ())) (serves : Serves ruleOf A H ks s' keys' s'' r) :
      Waits ruleOf A H poll keys s keys' s'' (r.map fun _ => .success)

theorem waitNextEvent_waits (ruleOf : κ → Rule ι σ) (keys : List κ) {poll : Poll ι}
    (hA : Answers A H poll) (s : σ) :
    ∃ keys', (waitNextEvent ⟨keys.map ruleOf⟩ poll s).1 = ⟨keys'.map ruleOf⟩ ∧
      Waits ruleOf A H poll keys s keys' (waitNextEvent ⟨keys.map ruleOf⟩ poll s).2.1
        (waitNextEvent ⟨keys.map ruleOf⟩ poll s).2.2 := by
  obtain ⟨ks, heq, hasks⟩ := setUp_asks ruleOf keys s
  unfold waitNextEvent
  dsimp only
  generalize setUp (keys.map ruleOf) s = out at heq hasks ⊢
  obtain ⟨pollfds, s', r⟩ := out
  have heq : pollfds = asked ruleOf ks := heq
  subst heq
  have hfst : (⟨(asked ruleOf ks).map Prod.fst⟩ : EventLoop ι σ) =
      ⟨(ks.map Prod.fst).map ruleOf⟩ := by
    rw [map_fst_asked]
  have hserve : ∀ results : List (Revents × ι), (∀ p ∈ results, A p.2 ∧ (p.1.pollhup = true → H)) →
      r = .ok () → ∃ keys',
      (serve (asked ruleOf ks) results s').1 = ⟨keys'.map ruleOf⟩ ∧
      Waits ruleOf A H poll keys s keys' (serve (asked ruleOf ks) results s').2.1
        (serve (asked ruleOf ks) results s').2.2 := by
    rintro results hA rfl
    obtain ⟨keys', heq', hserves⟩ := dispatch_serves ruleOf ks hA s'
    exact ⟨keys', congrArg EventLoop.mk heq', .served hasks hserves⟩
  cases r with
  | error e => exact ⟨_, hfst, .threw hasks⟩
  | ok =>
    dsimp only
    split
    · rename_i hany
      refine ⟨_, hfst, .idle hasks fun p hp => ?_⟩
      simp only [asked, List.any_map, List.any_eq_false] at hany
      simpa using hany p hp
    · cases poll with
      | timeout => exact ⟨_, hfst, .timeout hasks⟩
      | interrupted => exact ⟨_, hfst, .interrupted rfl hasks⟩
      | failed => exact hserve [] (List.forall_mem_nil _) rfl
      | ready results => exact hserve results hA rfl

/-- The names that stay are among those there were, in their order. -/
theorem Asks.sublist (h : Asks ruleOf keys s ks s' r) : (ks.map Prod.fst).Sublist keys := by
  induction h with
  | nil => exact .slnil
  | cancelled _ _ _ ih => exact ih.cons _
  | threw => simp [Function.comp_def]
  | kept _ _ ih => exact ih.cons_cons _

theorem Serves.sublist (h : Serves ruleOf A H ks s keys s' r) : keys.Sublist (ks.map Prod.fst) := by
  induction h with
  | done | polled | cancelThrew | callThrew | busy => exact List.Sublist.refl _
  | cancelled _ _ _ ih => exact ih.cons _
  | called _ _ _ ih | skipped _ ih => exact ih.cons_cons _

theorem Waits.sublist {poll : Poll ι} {r : Except Exn Result}
    (h : Waits ruleOf A H poll keys s keys' s' r) : keys'.Sublist keys := by
  cases h with
  | threw asks | idle asks | timeout asks | interrupted _ asks => exact asks.sublist
  | served asks serves => exact serves.sublist.trans asks.sublist

/-- A rule that is not interested when it is asked is not interested at the end of the first loop,
if the cancellations of the rules after it leave it so. -/
theorem Asks.uninterested (h : Asks ruleOf keys s ks s' (.ok ()))
    (hquiet : keys.Pairwise fun k k' => ∀ s, (ruleOf k).interest s = false →
      (ruleOf k).interest ((ruleOf k').cancel s).1 = false) :
    ∀ k, (k, false) ∈ ks → (ruleOf k).interest s' = false := by
  generalize hr : (.ok () : Except Exn Unit) = r at h
  have hkeep : ∀ {keys : List κ} {s s' : σ} {ks : List (κ × Bool)} {r : Except Exn Unit} (k : κ),
      Asks ruleOf keys s ks s' r → r = .ok () →
      (∀ k' ∈ keys, ∀ s, (ruleOf k).interest s = false →
        (ruleOf k).interest ((ruleOf k').cancel s).1 = false) →
      (ruleOf k).interest s = false → (ruleOf k).interest s' = false := by
    intro keys s s' ks r k ha hr hk hs
    induction ha with
    | nil => exact hs
    | @cancelled k' keys s s' s'' ks r _ hc _ ih =>
      refine ih hr (fun k'' hmem => hk k'' (List.mem_cons_of_mem _ hmem)) ?_
      have := hk k' List.mem_cons_self s hs
      rwa [hc] at this
    | threw => cases hr
    | kept _ _ ih => exact ih hr (fun k'' hmem => hk k'' (List.mem_cons_of_mem _ hmem)) hs
  induction h with
  | nil => nofun
  | cancelled _ _ _ ih => exact ih (List.pairwise_cons.1 hquiet).2 hr
  | threw => cases hr
  | @kept k₀ keys s s' ks r _ rest ih =>
    obtain ⟨hk₀, hquiet⟩ := List.pairwise_cons.1 hquiet
    intro k hmem
    rcases List.mem_cons.1 hmem with he | hmem
    · obtain ⟨rfl, hint⟩ := Prod.mk.inj he
      exact hkeep k rest hr.symm hk₀ hint.symm
    · exact ih hquiet hr k hmem

/-! ## What every callback keeps -/

section

variable {I : σ → Prop} (hcall : ∀ k i s, A i → I s → I ((ruleOf k).callback i s).1)
  (hcancel : ∀ k s, I s → I ((ruleOf k).cancel s).1)

include hcancel in
theorem Asks.invariant (h : Asks ruleOf keys s ks s' r) (hs : I s) : I s' := by
  induction h with
  | nil => exact hs
  | @cancelled k keys s _ _ _ _ _ hc _ ih =>
    refine ih ?_
    have hs' := hcancel k s hs
    rwa [hc] at hs'
  | @threw k keys s _ _ _ hc =>
    have hs' := hcancel k s hs
    rwa [hc] at hs'
  | kept _ _ ih => exact ih hs

include hcall hcancel in
theorem Serves.invariant (h : Serves ruleOf A H ks s keys s' r) (hs : I s) : I s' := by
  have hcalled : ∀ {k : κ} {i : ι} {s s' : σ} {r : Except Exn Unit}, A i →
      (ruleOf k).callback i s = (s', r) → I s → I s' := by
    intro k i s s' r hi hc hs
    have hs' := hcall k i s hi hs
    rwa [hc] at hs'
  have hcancelled : ∀ {k : κ} {s s' : σ} {r : Except Exn Unit},
      (ruleOf k).cancel s = (s', r) → I s → I s' := by
    intro k s s' r hc hs
    have hs' := hcancel k s hs
    rwa [hc] at hs'
  induction h with
  | done | polled => exact hs
  | cancelled _ hc _ ih => exact ih (hcancelled hc hs)
  | cancelThrew _ hc => exact hcancelled hc hs
  | called hi hc _ ih => exact ih (hcalled hi hc hs)
  | callThrew hi hc | busy hi hc => exact hcalled hi hc hs
  | skipped _ ih => exact ih hs

include hcall hcancel in
/-- **One call** keeps what every callback and every cancellation keeps. -/
theorem Waits.invariant {poll : Poll ι} {r : Except Exn Result}
    (h : Waits ruleOf A H poll keys s keys' s' r) (hs : I s) : I s' := by
  cases h with
  | threw asks | idle asks | timeout asks | interrupted _ asks => exact asks.invariant hcancel hs
  | served asks serves => exact serves.invariant hcall hcancel (asks.invariant hcancel hs)

end

/-! ## Rules that cooperate -/

/-- The contract between rules, when the kernel's answers meet `A` and `H` allows hangups. `I C` is
the invariant once the rules `C` have been cancelled, `ready k` is what the callback of `k` relies
on, and `E` are the exceptions that may be thrown. -/
structure Cooperate (ruleOf : κ → Rule ι σ) (A : ι → Prop) (H : Prop) (I : Set κ → σ → Prop)
    (ready : κ → σ → Prop) (E : Exn → Prop) : Prop where
  asks : ∀ C k s, I C s → k ∉ C → ¬ (ruleOf k).Dead s → (ruleOf k).interest s = true → ready k s
  callback : ∀ C k i s, A i → I C s → k ∉ C → ready k s → I C ((ruleOf k).callback i s).1
  cancel : ∀ C k s, I C s → k ∉ C → (ruleOf k).Dead s ∨ H → I (insert k C) ((ruleOf k).cancel s).1
  others : ∀ C k k' i s, A i → k ≠ k' → I C s → ready k s → ready k' s →
    ready k' ((ruleOf k).callback i s).1
  othersCancel : ∀ C k k' s, k ≠ k' → I C s → ready k' s → ready k' ((ruleOf k).cancel s).1
  serves : ∀ C k i s, A i → I C s → ready k s → ((ruleOf k).callback i s).2 = .ok () →
    (ruleOf k).serviceCount s ≠ (ruleOf k).serviceCount ((ruleOf k).callback i s).1 ∨
      (ruleOf k).interest ((ruleOf k).callback i s).1 = false
  throws : ∀ C k i s e, A i → I C s → ready k s → ((ruleOf k).callback i s).2 = .error e → E e
  throwsCancel : ∀ C k s e, I C s → ((ruleOf k).cancel s).2 = .error e → E e
  polled : E (.runtimeError "EventLoop: error on polled file descriptor")

/-- The rules `keys` are there and the rules `C` have been cancelled. -/
def Apart (keys : List κ) (C : Set κ) : Prop := keys.Nodup ∧ ∀ k ∈ keys, k ∉ C

variable {I : Set κ → σ → Prop} {ready : κ → σ → Prop} {E : Exn → Prop} {C : Set κ}

theorem Apart.tail {k : κ} (h : Apart (k :: keys) C) : Apart keys C :=
  ⟨(List.nodup_cons.1 h.1).2, fun k' hk' => h.2 k' (List.mem_cons_of_mem _ hk')⟩

theorem Apart.ne {k k' : κ} (h : Apart (k :: ks.map Prod.fst) C) (hk' : (k', true) ∈ ks) :
    k ≠ k' := by
  rintro rfl
  exact (List.nodup_cons.1 h.1).1 (List.mem_map.2 ⟨_, hk', rfl⟩)

/-- The first rule is cancelled. -/
theorem Apart.cancelled {k : κ} (h : Apart (k :: keys) C) : Apart keys (insert k C) := by
  obtain ⟨hk, hnd⟩ := List.nodup_cons.1 h.1
  refine ⟨hnd, fun k' hk' hmem => ?_⟩
  rcases hmem with rfl | hmem
  · exact hk hk'
  · exact h.2 k' (List.mem_cons_of_mem _ hk') hmem

/-- What holds after a loop over `keys` that leaves `keys'`: the invariant, with more of `keys`
cancelled, and, unless it has thrown, exactly those that have left. -/
def After (I : Set κ → σ → Prop) (C : Set κ) (keys keys' : List κ) (s : σ) {α : Type}
    (r : Except Exn α) : Prop :=
  ∃ C', C ⊆ C' ∧ (∀ k ∈ C', k ∈ C ∨ k ∈ keys) ∧ I C' s ∧
    ∀ a, r = .ok a → ∀ k ∈ keys, (k ∈ C' ↔ k ∉ keys')

theorem After.refl {α : Type} {r : Except Exn α} (hC : Apart keys C) (hI : I C s) :
    After I C keys keys s r :=
  ⟨C, subset_rfl, fun _ hk => .inl hk, hI, fun _ _ k hk => iff_of_false (hC.2 k hk) (not_not.2 hk)⟩

/-- The loop has thrown in the middle. -/
theorem After.threw {α : Type} {e : Exn} {C' : Set κ} (hsub : C ⊆ C')
    (hC' : ∀ k ∈ C', k ∈ C ∨ k ∈ keys) (hI : I C' s) :
    After I C keys keys' s (.error e : Except Exn α) :=
  ⟨C', hsub, hC', hI, nofun⟩

theorem After.cancelled {k : κ} {α : Type} {r : Except Exn α} (hk : k ∉ keys')
    (h : After I (insert k C) keys keys' s r) : After I C (k :: keys) keys' s r := by
  obtain ⟨C', hsub, hC', hI, hgone⟩ := h
  refine ⟨C', (Set.subset_insert k C).trans hsub, fun k' hk' => ?_, hI, fun a ha k' hk' => ?_⟩
  · rcases hC' k' hk' with (rfl | hmem) | hmem
    · exact .inr List.mem_cons_self
    · exact .inl hmem
    · exact .inr (List.mem_cons_of_mem _ hmem)
  · rcases List.mem_cons.1 hk' with rfl | hk'
    · exact iff_of_true (hsub (Set.mem_insert _ _)) hk
    · exact hgone a ha k' hk'

theorem After.kept {k : κ} {α : Type} {r : Except Exn α} (hk : Apart (k :: keys) C)
    (h : After I C keys keys' s r) : After I C (k :: keys) (k :: keys') s r := by
  obtain ⟨hnot, -⟩ := List.nodup_cons.1 hk.1
  obtain ⟨C', hsub, hC', hI, hgone⟩ := h
  refine ⟨C', hsub, fun k' hk' => ?_, hI, fun a ha k' hk' => ?_⟩
  · rcases hC' k' hk' with hmem | hmem
    · exact .inl hmem
    · exact .inr (List.mem_cons_of_mem _ hmem)
  · rcases List.mem_cons.1 hk' with rfl | hk'
    · refine iff_of_false (fun hmem => ?_) (not_not.2 List.mem_cons_self)
      rcases hC' k' hmem with hmem | hmem
      · exact hk.2 k' List.mem_cons_self hmem
      · exact hnot hmem
    · rw [hgone a ha k' hk', List.mem_cons, not_or]
      have hne : k' ≠ k := fun he => hnot (he ▸ hk')
      exact ⟨fun h => ⟨hne, h⟩, And.right⟩

/-- The rules that stay are apart from those cancelled. -/
theorem Apart.stay (hnd : keys.Nodup) (hsub : keys'.Sublist keys)
    {C' : Set κ} (h : ∀ k ∈ keys, (k ∈ C' ↔ k ∉ keys')) : Apart keys' C' :=
  ⟨hsub.nodup hnd, fun k hk hmem => (h k (hsub.subset hk)).1 hmem hk⟩

/-- **The first loop** keeps the invariant, and what the rules asked rely on. -/
theorem Cooperate.asked (h : Cooperate ruleOf A H I ready E) (ha : Asks ruleOf keys s ks s' r)
    (hC : Apart keys C) (hI : I C s) :
    After I C keys (ks.map Prod.fst) s' r ∧
      (∀ k ∉ keys, ready k s → ready k s') ∧ (∀ k, (k, true) ∈ ks → ready k s') ∧
      ∀ e, r = .error e → E e := by
  induction ha generalizing C with
  | nil => exact ⟨.refl hC hI, fun _ _ hr => hr, nofun, nofun⟩
  | @cancelled k keys s s' s'' ks r hdead hc rest ih =>
    have hI' := h.cancel C k s hI (hC.2 k List.mem_cons_self) (.inl hdead)
    have hothers := fun k' hne hr => h.othersCancel C k k' s hne hI hr
    rw [hc] at hI' hothers
    obtain ⟨h1, h2, h3, h4⟩ := ih hC.cancelled hI'
    have hgone : k ∉ ks.map Prod.fst := fun hk =>
      (List.nodup_cons.1 hC.1).1 (rest.sublist.subset hk)
    refine ⟨h1.cancelled hgone, fun k' hk' hr => ?_, h3, h4⟩
    rw [List.mem_cons, not_or] at hk'
    exact h2 k' hk'.2 (hothers k' (Ne.symm hk'.1) hr)
  | @threw k keys s s' e hdead hc =>
    have hI' := h.cancel C k s hI (hC.2 k List.mem_cons_self) (.inl hdead)
    have hothers := fun k' hne hr => h.othersCancel C k k' s hne hI hr
    rw [hc] at hI' hothers
    refine ⟨.threw (Set.subset_insert k C) (fun k' hk' => ?_) hI', fun k' hk' hr => ?_,
      fun k' hk' => ?_, ?_⟩
    · rcases hk' with rfl | hk'
      · exact .inr List.mem_cons_self
      · exact .inl hk'
    · rw [List.mem_cons, not_or] at hk'
      exact hothers k' (Ne.symm hk'.1) hr
    · simp at hk'
    · rintro e' he
      cases he
      exact h.throwsCancel C k s e hI (by rw [hc])
  | @kept k keys s s' ks r hlive rest ih =>
    obtain ⟨h1, h2, h3, h4⟩ := ih hC.tail hI
    refine ⟨h1.kept hC, fun k' hk' => h2 k' fun hmem => hk' (List.mem_cons_of_mem _ hmem), ?_, h4⟩
    intro k' hmem
    rcases List.mem_cons.1 hmem with he | hmem
    · obtain ⟨rfl, hint⟩ := Prod.mk.inj he
      exact h2 k' (List.nodup_cons.1 hC.1).1
        (h.asks C k' s hI (hC.2 k' List.mem_cons_self) hlive hint.symm)
    · exact h3 k' hmem

/-- **The second loop** keeps the invariant, and finds no busy wait. -/
theorem Cooperate.served (h : Cooperate ruleOf A H I ready E)
    (hs : Serves ruleOf A H ks s keys s' r)
    (hC : Apart (ks.map Prod.fst) C) (hI : I C s) (hready : ∀ k, (k, true) ∈ ks → ready k s) :
    After I C (ks.map Prod.fst) keys s' r ∧ ∀ e, r = .error e → E e := by
  induction hs generalizing C with
  | done => exact ⟨.refl hC hI, nofun⟩
  | polled =>
    refine ⟨.refl hC hI, ?_⟩
    rintro e he
    cases he
    exact h.polled
  | @cancelled k ks keys s s' s'' r hup hc rest ih =>
    have hC : Apart (k :: ks.map Prod.fst) C := hC
    have hI' := h.cancel C k s hI (hC.2 k List.mem_cons_self) (.inr hup)
    have hothers := fun k' hne hr => h.othersCancel C k k' s hne hI hr
    rw [hc] at hI' hothers
    obtain ⟨h1, h2⟩ := ih hC.cancelled hI'
      (fun k' hmem => hothers k' (hC.ne hmem) (hready k' (List.mem_cons_of_mem _ hmem)))
    have hgone : k ∉ keys := fun hk => (List.nodup_cons.1 hC.1).1 (rest.sublist.subset hk)
    exact ⟨h1.cancelled hgone, h2⟩
  | @cancelThrew k ks s s' e hup hc =>
    have hC : Apart (k :: ks.map Prod.fst) C := hC
    have hI' := h.cancel C k s hI (hC.2 k List.mem_cons_self) (.inr hup)
    rw [hc] at hI'
    refine ⟨.threw (Set.subset_insert k C) (fun k' hk' => ?_) hI', ?_⟩
    · rcases hk' with rfl | hk'
      · exact .inr List.mem_cons_self
      · exact .inl hk'
    rintro e' he
    cases he
    exact h.throwsCancel C k s e hI (by rw [hc])
  | @called k ks keys s s' s'' r i hi hc rest ih =>
    have hC : Apart (k :: ks.map Prod.fst) C := hC
    have hrk := hready k List.mem_cons_self
    have hI' := h.callback C k i s hi hI (hC.2 k List.mem_cons_self) hrk
    have hothers := fun k' hne hr => h.others C k k' i s hi hne hI hrk hr
    rw [hc] at hI' hothers
    obtain ⟨h1, h2⟩ := ih hC.tail hI'
      (fun k' hmem => hothers k' (hC.ne hmem) (hready k' (List.mem_cons_of_mem _ hmem)))
    exact ⟨h1.kept hC, h2⟩
  | @callThrew k ks s s' e i hi hc =>
    have hrk := hready k List.mem_cons_self
    have hI' := h.callback C k i s hi hI (hC.2 k List.mem_cons_self) hrk
    rw [hc] at hI'
    refine ⟨.threw subset_rfl (fun _ hk => .inl hk) hI', ?_⟩
    rintro e' he
    cases he
    exact h.throws C k i s e hi hI hrk (by rw [hc])
  | @busy k ks s s' e i hi hc hcount hint =>
    have hrk := hready k List.mem_cons_self
    have hserves := h.serves C k i s hi hI hrk
    rw [hc] at hserves
    rcases hserves rfl with hno | hno
    · exact absurd hcount hno
    · rw [hint] at hno
      cases hno
  | @skipped k b ks keys s s' r rest ih =>
    have hC : Apart (k :: ks.map Prod.fst) C := hC
    obtain ⟨h1, h2⟩ := ih hC.tail hI (fun k' hmem => hready k' (List.mem_cons_of_mem _ hmem))
    exact ⟨h1.kept hC, h2⟩

/-- **One call** of `wait_next_event` keeps the invariant, and throws only what the contract allows:
it never detects a busy wait. -/
theorem Cooperate.waited (h : Cooperate ruleOf A H I ready E) {poll : Poll ι}
    {r : Except Exn Result}
    (hw : Waits ruleOf A H poll keys s keys' s' r) (hC : Apart keys C) (hI : I C s) :
    After I C keys keys' s' r ∧ ∀ e, r = .error e → E e := by
  cases hw with
  | threw asks =>
    obtain ⟨⟨C', hsub, hC', hI', -⟩, -, -, he⟩ := h.asked asks hC hI
    refine ⟨.threw hsub hC' hI', ?_⟩
    rintro e' he'
    cases he'
    exact he _ rfl
  | idle asks | timeout asks | interrupted _ asks =>
    obtain ⟨⟨C', hsub, hC', hI', hgone⟩, -⟩ := h.asked asks hC hI
    exact ⟨⟨C', hsub, hC', hI', fun _ _ => hgone () rfl⟩, nofun⟩
  | @served _ s' _ _ ks r asks serves =>
    obtain ⟨⟨C', hsub, hC', hI', hgone⟩, -, hready, -⟩ := h.asked asks hC hI
    have hC₁ : Apart (ks.map Prod.fst) C' := .stay hC.1 asks.sublist (hgone () rfl)
    obtain ⟨⟨C'', hsub', hC'', hI'', hgone'⟩, he⟩ := h.served serves hC₁ hI' hready
    refine ⟨⟨C'', hsub.trans hsub', fun k hk => ?_, hI'', fun a ha k hk => ?_⟩,
      fun e hre => he e ?_⟩
    · rcases hC'' k hk with hk | hk
      · exact hC' k hk
      · exact .inr (asks.sublist.subset hk)
    · cases r with
      | error e' => cases ha
      | ok =>
        by_cases hk' : k ∈ ks.map Prod.fst
        · exact hgone' () rfl k hk'
        · exact iff_of_true (hsub' ((hgone () rfl k hk).2 hk'))
            fun hk'' => hk' (serves.sublist.subset hk'')
    · cases r with
      | error e' => exact congrArg Except.error (Except.error.inj hre)
      | ok => cases hre

/-- The names that are not there. -/
def gone (keys : List κ) : Set κ := {k | k ∉ keys}

theorem apart_gone (hnd : keys.Nodup) : Apart keys (gone keys) := ⟨hnd, fun _ hk hno => hno hk⟩

/-- Every name that is not there has been cancelled, before a call and after it. -/
theorem After.gone {α : Type} {a : α} (hsub : keys'.Sublist keys)
    (h : After I (gone keys) keys keys' s (.ok a : Except Exn α)) : I (gone keys') s := by
  obtain ⟨C', hC, -, hI, hgone⟩ := h
  have he : C' = EventLoop.gone keys' := by
    ext k
    by_cases hk : k ∈ keys
    · exact hgone a rfl k hk
    · exact iff_of_true (hC hk) fun hk' => hk (hsub.subset hk')
  exact he ▸ hI

/-! ## The life of a rule -/

/-- What happens to a rule. -/
inductive RuleEvent where
  | called | cancelled
deriving DecidableEq, Repr

/-- The rules with a log of what happens to them. -/
def logged (ruleOf : κ → Rule ι σ) (k : κ) : Rule ι (σ × List (κ × RuleEvent)) where
  fd s := (ruleOf k).fd s.1
  direction := (ruleOf k).direction
  callback i s := ((((ruleOf k).callback i s.1).1, s.2 ++ [(k, .called)]),
    ((ruleOf k).callback i s.1).2)
  interest s := (ruleOf k).interest s.1
  cancel s := ((((ruleOf k).cancel s.1).1, s.2 ++ [(k, .cancelled)]), ((ruleOf k).cancel s.1).2)

variable {k : κ} {h h' h'' : List RuleEvent}

/-- How the history of `k` grows while the names go from `keys` to `keys'`: a rule that stays is
only called back, one that leaves is cancelled last, and to one that is not there nothing happens.
-/
structure Grows (k : κ) (keys keys' : List κ) (h h' : List RuleEvent) : Prop where
  absent : k ∉ keys → h' = h
  stays : k ∈ keys → k ∈ keys' → ∃ n, h' = h ++ List.replicate n .called
  leaves : k ∈ keys → k ∉ keys' → ∃ n, h' = h ++ (List.replicate n .called ++ [.cancelled])

theorem Grows.refl (k : κ) (keys : List κ) (h : List RuleEvent) : Grows k keys keys h h :=
  ⟨fun _ => rfl, fun _ _ => ⟨0, by simp⟩, fun hk hk' => absurd hk hk'⟩

theorem Grows.trans {keys'' : List κ} (h₁ : Grows k keys keys' h h')
    (h₂ : Grows k keys' keys'' h' h'') (hsub : keys'.Sublist keys)
    (hsub' : keys''.Sublist keys') : Grows k keys keys'' h h'' := by
  refine ⟨fun hk => ?_, fun hk hk'' => ?_, fun hk hk'' => ?_⟩
  · rw [h₂.absent fun hk' => hk (hsub.subset hk'), h₁.absent hk]
  · obtain ⟨n, hn⟩ := h₁.stays hk (hsub'.subset hk'')
    obtain ⟨m, hm⟩ := h₂.stays (hsub'.subset hk'') hk''
    exact ⟨n + m, by rw [hm, hn, List.append_assoc, List.replicate_append_replicate]⟩
  · by_cases hk' : k ∈ keys'
    · obtain ⟨n, hn⟩ := h₁.stays hk hk'
      obtain ⟨m, hm⟩ := h₂.leaves hk' hk''
      refine ⟨n + m, ?_⟩
      rw [hm, hn, List.append_assoc, ← List.append_assoc (List.replicate n _),
        List.replicate_append_replicate]
    · rw [h₂.absent hk']
      exact h₁.leaves hk hk'

/-- A rule that is not the first. -/
theorem Grows.cons_ne {k₀ : κ} (hne : k ≠ k₀) (hg : Grows k keys keys' h h') :
    Grows k (k₀ :: keys) keys' h h' ∧ Grows k (k₀ :: keys) (k₀ :: keys') h h' := by
  have hmem : ∀ l : List κ, k ∈ k₀ :: l ↔ k ∈ l := fun l => by simp [hne]
  refine ⟨⟨?_, ?_, ?_⟩, ⟨?_, ?_, ?_⟩⟩ <;> simp only [hmem]
  · exact hg.absent
  · exact hg.stays
  · exact hg.leaves
  · exact hg.absent
  · exact hg.stays
  · exact hg.leaves

/-- The first rule stays, and is called back if `event` says so. -/
theorem Grows.cons_stays (hk : k ∉ keys) {n : ℕ}
    (hg : Grows k keys keys' (h ++ List.replicate n .called) h') :
    Grows k (k :: keys) (k :: keys') h h' :=
  ⟨fun hno => absurd List.mem_cons_self hno, fun _ _ => ⟨n, hg.absent hk⟩,
    fun _ hno => absurd List.mem_cons_self hno⟩

/-- The first rule leaves, and is cancelled. -/
theorem Grows.cons_leaves (hk : k ∉ keys) (hsub : keys'.Sublist keys)
    (hg : Grows k keys keys' (h ++ [.cancelled]) h') : Grows k (k :: keys) keys' h h' :=
  ⟨fun hno => absurd List.mem_cons_self hno, fun _ hk' => absurd (hsub.subset hk') hk,
    fun _ _ => ⟨0, hg.absent hk⟩⟩

variable [DecidableEq κ]

/-- What happened to the rule `k`. -/
def history (k : κ) (log : List (κ × RuleEvent)) : List RuleEvent :=
  (log.filter fun p => p.1 = k).map Prod.snd

theorem history_concat_self (k : κ) (log : List (κ × RuleEvent)) (event : RuleEvent) :
    history k (log ++ [(k, event)]) = history k log ++ [event] := by
  simp [history]

theorem history_concat_of_ne {k₀ : κ} (hne : k ≠ k₀) (log : List (κ × RuleEvent))
    (event : RuleEvent) : history k (log ++ [(k₀, event)]) = history k log := by
  simp [history, Ne.symm hne]

/-- **The first loop**, if it returns. -/
theorem Asks.grows {s s' : σ × List (κ × RuleEvent)} (ha : Asks (logged ruleOf) keys s ks s' r)
    (hr : r = .ok ()) (hnd : keys.Nodup) (k : κ) :
    Grows k keys (ks.map Prod.fst) (history k s.2) (history k s'.2) := by
  induction ha with
  | nil => exact .refl k [] _
  | @cancelled k₀ keys s s' s'' ks r _ hc rest ih =>
    obtain ⟨hk₀, hnd⟩ := List.nodup_cons.1 hnd
    have hg := ih hr hnd
    obtain ⟨hs', -⟩ := Prod.mk.inj hc
    rw [← hs'] at hg
    by_cases hk : k = k₀
    · subst hk
      rw [history_concat_self] at hg
      exact hg.cons_leaves hk₀ rest.sublist
    · rw [history_concat_of_ne hk] at hg
      exact (hg.cons_ne hk).1
  | threw => cases hr
  | @kept k₀ keys s s' ks r _ rest ih =>
    obtain ⟨hk₀, hnd⟩ := List.nodup_cons.1 hnd
    have hg := ih hr hnd
    by_cases hk : k = k₀
    · subst hk
      exact Grows.cons_stays (n := 0) hk₀ (by simpa using hg)
    · exact (hg.cons_ne hk).2

/-- **The second loop**, if it returns. -/
theorem Serves.grows {s s' : σ × List (κ × RuleEvent)}
    (hs : Serves (logged ruleOf) A H ks s keys s' r)
    (hr : r = .ok ()) (hnd : (ks.map Prod.fst).Nodup) (k : κ) :
    Grows k (ks.map Prod.fst) keys (history k s.2) (history k s'.2) := by
  induction hs with
  | done => exact .refl k _ _
  | polled | cancelThrew | callThrew | busy => cases hr
  | @cancelled k₀ ks keys s s' s'' r _ hc rest ih =>
    obtain ⟨hk₀, hnd⟩ := List.nodup_cons.1 hnd
    have hg := ih hr hnd
    obtain ⟨hs', -⟩ := Prod.mk.inj hc
    rw [← hs'] at hg
    by_cases hk : k = k₀
    · subst hk
      rw [history_concat_self] at hg
      exact hg.cons_leaves hk₀ rest.sublist
    · rw [history_concat_of_ne hk] at hg
      exact (hg.cons_ne hk).1
  | @called k₀ ks keys s s' s'' r i _ hc rest ih =>
    obtain ⟨hk₀, hnd⟩ := List.nodup_cons.1 hnd
    have hg := ih hr hnd
    obtain ⟨hs', -⟩ := Prod.mk.inj hc
    rw [← hs'] at hg
    by_cases hk : k = k₀
    · subst hk
      rw [history_concat_self] at hg
      exact Grows.cons_stays (n := 1) hk₀ hg
    · rw [history_concat_of_ne hk] at hg
      exact (hg.cons_ne hk).2
  | @skipped k₀ b ks keys s s' r rest ih =>
    obtain ⟨hk₀, hnd⟩ := List.nodup_cons.1 hnd
    have hg := ih hr hnd
    by_cases hk : k = k₀
    · subst hk
      exact Grows.cons_stays (n := 0) hk₀ (by simpa using hg)
    · exact (hg.cons_ne hk).2

/-- **A call of `wait_next_event`** that returns. -/
theorem Waits.grows {s s' : σ × List (κ × RuleEvent)} {poll : Poll ι} {result : Result}
    (hw : Waits (logged ruleOf) A H poll keys s keys' s' (.ok result)) (hnd : keys.Nodup) (k : κ) :
    Grows k keys keys' (history k s.2) (history k s'.2) := by
  generalize hr : (.ok result : Except Exn Result) = r at hw
  cases hw with
  | threw => cases hr
  | idle asks | timeout asks | interrupted _ asks => exact asks.grows rfl hnd k
  | @served _ s' _ _ ks r asks serves =>
    have hr : r = .ok () := by
      cases r with
      | error => cases hr
      | ok => rfl
    exact (asks.grows rfl hnd k).trans (serves.grows hr (asks.sublist.nodup hnd) k) asks.sublist
      serves.sublist

/-- One call after another. -/
def waitStep (state : EventLoop ι σ × σ) (poll : Poll ι) : EventLoop ι σ × σ :=
  ((state.1.waitNextEvent poll state.2).1, (state.1.waitNextEvent poll state.2).2.1)

/-- The call returns. -/
def Returns (state : EventLoop ι σ × σ) (poll : Poll ι) : Prop :=
  ∃ result, (state.1.waitNextEvent poll state.2).2.2 = .ok result

/-- The invariant of a run that starts with the rules `keys`. -/
def Lived (ruleOf : κ → Rule ι σ) (keys : List κ)
    (state : EventLoop ι (σ × List (κ × RuleEvent)) × σ × List (κ × RuleEvent)) : Prop :=
  ∃ keys' : List κ, keys'.Sublist keys ∧ state.1 = ⟨keys'.map (logged ruleOf)⟩ ∧
    ∀ k, Grows k keys keys' [] (history k state.2.2)

theorem Lived.step (hnd : keys.Nodup)
    {state : EventLoop ι (σ × List (κ × RuleEvent)) × σ × List (κ × RuleEvent)} {poll : Poll ι}
    (hl : Lived ruleOf keys state) (hret : Returns state poll) :
    Lived ruleOf keys (waitStep state poll) := by
  obtain ⟨loop, s⟩ := state
  obtain ⟨keys', hsub, heq, hgrows⟩ := hl
  obtain ⟨result, hresult⟩ := hret
  have heq : loop = ⟨keys'.map (logged ruleOf)⟩ := heq
  subst heq
  obtain ⟨keys'', heq', hw⟩ := waitNextEvent_waits (logged ruleOf) keys' (answers_true poll) s
  have hresult : (waitNextEvent ⟨keys'.map (logged ruleOf)⟩ poll s).2.2 = .ok result := hresult
  rw [hresult] at hw
  exact ⟨keys'', hw.sublist.trans hsub, heq', fun k =>
    (hgrows k).trans (hw.grows (hsub.nodup hnd) k) hsub hw.sublist⟩

/-- **The life of a rule**: while the calls of `wait_next_event` return, whatever the callbacks do
to the state they share (they cannot add a rule) and whatever `poll` reports, the rules keep their
order, and each one has been called back any number of times and cancelled once, last, exactly if it
has left the list. -/
theorem run_lifecycle (ruleOf : κ → Rule ι σ) (keys : List κ) (hnd : keys.Nodup) (s : σ)
    (polls : List (Poll ι))
    (hret : Guarded waitStep Returns (⟨keys.map (logged ruleOf)⟩, (s, [])) polls) :
    ∃ keys' : List κ, keys'.Sublist keys ∧
      (exec waitStep (⟨keys.map (logged ruleOf)⟩, (s, [])) polls).1 = ⟨keys'.map (logged ruleOf)⟩ ∧
      ∀ k ∈ keys, ∃ n,
        history k (exec waitStep (⟨keys.map (logged ruleOf)⟩, (s, [])) polls).2.2 =
          List.replicate n .called ++ if k ∈ keys' then [] else [.cancelled] := by
  have hstart : Lived ruleOf keys (⟨keys.map (logged ruleOf)⟩, (s, [])) :=
    ⟨keys, .refl keys, rfl, fun k => .refl k keys []⟩
  obtain ⟨keys', hsub, heq, hgrows⟩ :=
    Guarded.invariant (fun _ _ hl hr => Lived.step hnd hl hr) hstart hret
  refine ⟨keys', hsub, heq, fun k hk => ?_⟩
  by_cases hk' : k ∈ keys'
  · obtain ⟨n, hn⟩ := (hgrows k).stays hk hk'
    exact ⟨n, by rw [hn, if_pos hk', List.nil_append, List.append_nil]⟩
  · obtain ⟨n, hn⟩ := (hgrows k).leaves hk hk'
    exact ⟨n, by rw [hn, if_neg hk', List.nil_append]⟩

/-- A rule that reads one byte at a time. -/
def readerRule (_ : Unit) : Rule (Except Exn (List UInt8)) FileDescriptor where
  fd := id
  direction := .In
  callback answer fd := ((fd.read 1 answer).1, .ok ())

/-- It reads a byte and then the end of its input, after which it is cancelled. -/
theorem lifecycle_of_reader : ∃ keys' : List Unit, keys'.Sublist [()] ∧
    (exec waitStep (⟨[()].map (logged readerRule)⟩, ({}, []))
      [.ready [({ pollin := true }, .ok [97])], .ready [({ pollin := true }, .ok [])],
        .timeout]).1 = ⟨keys'.map (logged readerRule)⟩ ∧
    ∀ k ∈ [()], ∃ n, history k (exec waitStep (⟨[()].map (logged readerRule)⟩, ({}, []))
        [.ready [({ pollin := true }, .ok [97])], .ready [({ pollin := true }, .ok [])],
          .timeout]).2.2 =
      List.replicate n .called ++ if k ∈ keys' then [] else [.cancelled] :=
  run_lifecycle readerRule [()] (by decide) {}
    [.ready [({ pollin := true }, .ok [97])], .ready [({ pollin := true }, .ok [])], .timeout]
    ⟨⟨_, rfl⟩, ⟨_, rfl⟩, ⟨_, rfl⟩, trivial⟩

end EventLoop

end Sponge
