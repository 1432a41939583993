import Mathlib.Algebra.Ring.Nat
import Mathlib.Data.List.Basic

/-!
# Items laid end to end

`Laid P len a xs b`: the items `xs`, of lengths `len`, lie one after the other from position `a`
to position `b`, each satisfying `P` at its own position.
-/

/-- `xs` lies end to end from `a` to `b`. -/
def Laid {α : Type} (P : ℕ → α → Prop) (len : α → ℕ) : ℕ → List α → ℕ → Prop
  | a, [], b => a = b
  | a, x :: xs, b => P a x ∧ Laid P len (a + len x) xs b

namespace Laid

variable {α : Type} {P Q : ℕ → α → Prop} {len : α → ℕ} {a b c : ℕ} {xs ys : List α}

@[simp] theorem nil_iff : Laid P len a [] b ↔ a = b := Iff.rfl

@[simp] theorem cons_iff {x : α} :
    Laid P len a (x :: xs) b ↔ P a x ∧ Laid P len (a + len x) xs b := Iff.rfl

/-- The end is the start plus the lengths. -/
theorem eq_add (h : Laid P len a xs b) : b = a + (xs.map len).sum := by
  induction xs generalizing a with
  | nil => simpa using h.symm
  | cons x xs ih =>
    have hrest := ih h.2
    simp only [List.map_cons, List.sum_cons]
    omega

theorem append_iff : Laid P len a (xs ++ ys) c ↔ ∃ b, Laid P len a xs b ∧ Laid P len b ys c := by
  induction xs generalizing a with
  | nil => simp
  | cons x xs ih =>
    simp only [List.cons_append, cons_iff, ih]
    constructor
    · intro ⟨hx, b, h1, h2⟩
      exact ⟨b, ⟨hx, h1⟩, h2⟩
    · intro ⟨b, ⟨hx, h1⟩, h2⟩
      exact ⟨hx, b, h1, h2⟩

theorem append (h1 : Laid P len a xs b) (h2 : Laid P len b ys c) : Laid P len a (xs ++ ys) c :=
  append_iff.2 ⟨b, h1, h2⟩

theorem single {x : α} (h : P a x) : Laid P len a [x] (a + len x) := ⟨h, rfl⟩

theorem mono (hPQ : ∀ p x, P p x → Q p x) (h : Laid P len a xs b) : Laid Q len a xs b := by
  induction xs generalizing a with
  | nil => exact h
  | cons x xs ih => exact ⟨hPQ _ _ h.1, ih h.2⟩

theorem le (h : Laid P len a xs b) : a ≤ b := by
  have := h.eq_add
  omega

/-- Every item has a position inside the range. -/
theorem mem (h : Laid P len a xs b) (x : α) (hx : x ∈ xs) :
    ∃ p, a ≤ p ∧ p + len x ≤ b ∧ P p x := by
  induction xs generalizing a with
  | nil => cases hx
  | cons y ys ih =>
    rcases List.mem_cons.1 hx with rfl | hx
    · exact ⟨a, Nat.le_refl _, h.2.le, h.1⟩
    · obtain ⟨p, h1, h2, h3⟩ := ih h.2 hx
      exact ⟨p, by omega, h2, h3⟩

/-- A change of the items that keeps their lengths and what holds of them. -/
theorem map {f : α → α} (hf : ∀ p x, P p x → P p (f x)) (hlen : ∀ x, len (f x) = len x)
    (h : Laid P len a xs b) : Laid P len a (xs.map f) b := by
  induction xs generalizing a with
  | nil => exact h
  | cons x xs ih =>
    refine ⟨hf a x h.1, ?_⟩
    rw [hlen]
    exact ih h.2

/-- The items with their positions, from `a` on. -/
def positions (len : α → ℕ) : ℕ → List α → List (ℕ × α)
  | _, [] => []
  | a, x :: xs => (a, x) :: positions len (a + len x) xs

theorem mem_positions (h : Laid P len a xs b) {y : ℕ × α} (hy : y ∈ positions len a xs) :
    P y.1 y.2 := by
  induction xs generalizing a with
  | nil => cases hy
  | cons x xs ih =>
    rcases List.mem_cons.1 hy with rfl | hy
    · exact h.1
    · exact ih h.2 hy

/-! ## Items of length one -/

theorem ones_length (h : Laid P (fun _ => 1) a xs b) : b = a + xs.length := by
  have := h.eq_add
  simpa using this

/-- Items of length one that are the entries of `l` at their positions are a slice of `l`. -/
theorem eq_slice {l : List α} (h : Laid (fun j x => l[j]? = some x) (fun _ => 1) a xs b) :
    xs = (l.drop a).take (b - a) := by
  induction xs generalizing a with
  | nil =>
    have hab : a = b := h
    simp [hab]
  | cons x xs ih =>
    obtain ⟨hlt, hx⟩ := List.getElem?_eq_some_iff.1 h.1
    have hle : a + 1 ≤ b := h.2.le
    rw [List.drop_eq_getElem_cons hlt, show b - a = (b - (a + 1)) + 1 by omega,
      List.take_succ_cons, ← ih h.2, hx]

end Laid
