import Mathlib.Data.List.AList

/-!
# Tables that are swept entry by entry

A `Table` is a finite map in some iteration order (`AList`). A sweep visits every key once, in that
order, and updates its value in place or erases it: `lookup_sweep` says what is left at each key,
in whatever order they are visited.
-/

/-- A finite map from `α` to `β`. -/
abbrev Table (α β : Type) := AList fun _ : α => β

namespace Table

variable {α β : Type} [DecidableEq α]

theorem kreplace_cons_self (a : α) (b b' : β) (entries : List (Σ _ : α, β)) :
    List.kreplace a b (⟨a, b'⟩ :: entries) = ⟨a, b⟩ :: entries := by
  apply List.lookmap_cons_some
  simp

theorem kreplace_cons_ne {a a' : α} (h : a ≠ a') (b b' : β) (entries : List (Σ _ : α, β)) :
    List.kreplace a b (⟨a', b'⟩ :: entries) = ⟨a', b'⟩ :: List.kreplace a b entries := by
  apply List.lookmap_cons_none
  simp [h]

theorem lookup_replace_self {m : Table α β} {a : α} {b : β} (h : a ∈ m) :
    (m.replace a b).lookup a = some b := by
  have hmem : a ∈ m.entries.keys := h
  change List.dlookup a (List.kreplace a b m.entries) = some b
  generalize m.entries = entries at hmem
  induction entries with
  | nil => simp at hmem
  | cons e entries ih =>
    obtain ⟨a', b'⟩ := e
    by_cases ha : a = a'
    · subst ha
      rw [kreplace_cons_self, List.dlookup_cons_eq]
    · have htail : a ∈ List.keys entries := by simpa [ha] using hmem
      rw [kreplace_cons_ne ha, List.dlookup_cons_ne _ _ ha, ih htail]

theorem lookup_replace_ne {m : Table α β} {a a' : α} {b : β} (h : a ≠ a') :
    (m.replace a' b).lookup a = m.lookup a := by
  change List.dlookup a (List.kreplace a' b m.entries) = List.dlookup a m.entries
  generalize m.entries = entries
  induction entries with
  | nil => rfl
  | cons e entries ih =>
    obtain ⟨a₁, b₁⟩ := e
    by_cases ha' : a' = a₁
    · subst ha'
      rw [kreplace_cons_self, List.dlookup_cons_ne _ _ h, List.dlookup_cons_ne _ _ h]
    · rw [kreplace_cons_ne ha']
      by_cases ha : a = a₁
      · subst ha
        rw [List.dlookup_cons_eq, List.dlookup_cons_eq]
      · rw [List.dlookup_cons_ne _ _ ha, List.dlookup_cons_ne _ _ ha, ih]

theorem replace_replace (m : Table α β) (a : α) (b b' : β) :
    (m.replace a b).replace a b' = m.replace a b' := by
  apply AList.ext
  change List.kreplace a b' (List.kreplace a b m.entries) = List.kreplace a b' m.entries
  generalize m.entries = entries
  induction entries with
  | nil => rfl
  | cons e entries ih =>
    obtain ⟨a₁, b₁⟩ := e
    by_cases ha : a = a₁
    · subst ha
      rw [kreplace_cons_self, kreplace_cons_self, kreplace_cons_self]
    · rw [kreplace_cons_ne ha, kreplace_cons_ne ha, kreplace_cons_ne ha, ih]

/-- Visit one key: `f` gives the value to store in place of the present one, or erases it. -/
def visit (f : β → Option β) (m : Table α β) (a : α) : Table α β :=
  match m.lookup a with
  | none => m
  | some b =>
    match f b with
    | none => m.erase a
    | some b' => m.replace a b'

/-- Visit every key once. -/
def sweep (f : β → Option β) (m : Table α β) : Table α β := m.keys.foldl (visit f) m

theorem visit_some {f : β → Option β} {m : Table α β} {a : α} {b b' : β}
    (hl : m.lookup a = some b) (hf : f b = some b') : visit f m a = m.replace a b' := by
  simp [visit, hl, hf]

theorem lookup_visit_self (f : β → Option β) (m : Table α β) (a : α) :
    (visit f m a).lookup a = (m.lookup a).bind f := by
  unfold visit
  cases hl : m.lookup a with
  | none => simpa using hl
  | some b =>
    have ha : a ∈ m := AList.lookup_isSome.1 (by rw [hl]; rfl)
    cases hf : f b with
    | none => simp [hf]
    | some b' => simp [hf, lookup_replace_self ha]

theorem lookup_visit_ne (f : β → Option β) (m : Table α β) {a a' : α} (h : a ≠ a') :
    (visit f m a').lookup a = m.lookup a := by
  unfold visit
  cases m.lookup a' with
  | none => rfl
  | some b =>
    cases hf : f b with
    | none => simp [hf, AList.lookup_erase_ne h]
    | some b' => simp [hf, lookup_replace_ne h]

/-- Distinct keys are visited independently of each other. -/
theorem lookup_foldl_visit (f : β → Option β) {keys : List α} (hkeys : keys.Nodup) (m : Table α β)
    (a : α) :
    (keys.foldl (visit f) m).lookup a = if a ∈ keys then (m.lookup a).bind f else m.lookup a := by
  induction keys generalizing m with
  | nil => simp
  | cons k keys ih =>
    obtain ⟨hk, hkeys⟩ := List.nodup_cons.1 hkeys
    rw [List.foldl_cons, ih hkeys]
    by_cases ha : a = k
    · subst ha
      simp [hk, lookup_visit_self]
    · simp [ha, lookup_visit_ne f m ha]

/-- **A sweep** applies `f` to the value at every key. -/
@[simp] theorem lookup_sweep (f : β → Option β) (m : Table α β) (a : α) :
    (sweep f m).lookup a = (m.lookup a).bind f := by
  rw [sweep, lookup_foldl_visit f m.keys_nodup]
  by_cases ha : a ∈ m.keys
  · simp [ha]
  · have hnone : m.lookup a = none := AList.lookup_eq_none.2 ha
    simp [ha, hnone]

theorem mem_iff_lookup {m : Table α β} {a : α} : a ∈ m ↔ ∃ b, m.lookup a = some b := by
  rw [← AList.lookup_isSome, Option.isSome_iff_exists]

theorem mem_of_mem_sweep {f : β → Option β} {m : Table α β} {a : α} (h : a ∈ sweep f m) :
    a ∈ m := by
  obtain ⟨b, hb⟩ := mem_iff_lookup.1 h
  rw [lookup_sweep, Option.bind_eq_some_iff] at hb
  obtain ⟨b', hb', -⟩ := hb
  exact mem_iff_lookup.2 ⟨b', hb'⟩

/-- A sweep that erases nothing. -/
theorem mem_sweep_some {f : β → β} {m : Table α β} {a : α} :
    a ∈ sweep (fun b => some (f b)) m ↔ a ∈ m := by
  constructor
  · exact mem_of_mem_sweep
  · intro h
    obtain ⟨b, hb⟩ := mem_iff_lookup.1 h
    exact mem_iff_lookup.2 ⟨f b, by simp [hb]⟩

end Table
