/-!
The first element of a list that has a property: what `find?` and `findSome?` find. In a sorted list
it is the least of those that have the property (`first_iff_of_pairwise`).
-/

namespace Bottleneck

section First

variable {α β : Type} {xs : List α}

/-- The first element of a list that has a property. -/
def First (p : α → Prop) (x : α) (xs : List α) : Prop :=
  p x ∧ ∃ before after, xs = before ++ x :: after ∧ ∀ y ∈ before, ¬ p y

theorem find?_eq_some_iff_first {p : α → Bool} {x : α} :
    xs.find? p = some x ↔ First (fun x => p x = true) x xs := by
  simp only [List.find?_eq_some_iff_append, First, Bool.not_eq_true, Bool.not_eq_eq_eq_not,
    Bool.not_true]

section

variable {p : α → Prop}

theorem first_iff_find? [DecidablePred p] {x : α} :
    First p x xs ↔ xs.find? (fun x => decide (p x)) = some x := by
  simp only [find?_eq_some_iff_first, decide_eq_true_eq]

instance [DecidablePred p] [DecidableEq α] (x : α) (xs : List α) : Decidable (First p x xs) :=
  decidable_of_iff _ first_iff_find?.symm

/-- Where an element has the property there is a first one. -/
theorem exists_first (h : ∃ x ∈ xs, p x) : ∃ x, First p x xs := by
  classical
  simp only [first_iff_find?]
  rw [← Option.isSome_iff_exists, List.find?_isSome]
  simpa only [decide_eq_true_eq] using h

theorem First.unique {x y : α} (hx : First p x xs) (hy : First p y xs) : x = y := by
  classical
  exact Option.some.inj ((first_iff_find?.mp hx).symm.trans (first_iff_find?.mp hy))

theorem First.mem {x : α} (h : First p x xs) : x ∈ xs := by
  obtain ⟨-, before, after, rfl, -⟩ := h
  exact List.mem_append_right before List.mem_cons_self

theorem First.eq_or_rel {r : α → α → Prop} {x y : α} (h : First p x xs) (hsorted : xs.Pairwise r)
    (hmem : y ∈ xs) (hy : p y) : y = x ∨ r x y := by
  obtain ⟨-, before, after, rfl, hbefore⟩ := h
  rw [List.pairwise_append, List.pairwise_cons] at hsorted
  rcases List.mem_append.mp hmem with hmem | hmem
  · exact absurd hy (hbefore y hmem)
  · exact (List.mem_cons.mp hmem).imp_right (hsorted.2.1.1 y)

/-- In a sorted list the first element with a property is the one that none goes before. -/
theorem first_iff_of_pairwise {r : α → α → Prop} {x : α} (hasymm : ∀ a b, r a b → ¬ r b a)
    (hsorted : xs.Pairwise r) : First p x xs ↔ x ∈ xs ∧ p x ∧ ∀ y ∈ xs, r y x → ¬ p y := by
  constructor
  · intro hfirst
    refine ⟨hfirst.mem, hfirst.1, fun y hmem hyx hy => ?_⟩
    rcases hfirst.eq_or_rel hsorted hmem hy with rfl | hxy
    · exact hasymm y y hyx hyx
    · exact hasymm x y hxy hyx
  · intro hx
    obtain ⟨hmem, hx, hleast⟩ := hx
    obtain ⟨before, after, rfl⟩ := List.append_of_mem hmem
    refine ⟨hx, before, after, rfl, fun y hy => ?_⟩
    have hyx : r y x := (List.pairwise_append.mp hsorted).2.2 y hy x List.mem_cons_self
    exact hleast y (List.mem_append_left _ hy) hyx

end

theorem findSome?_eq_some_iff_first {f : α → Option β} {y : β} :
    xs.findSome? f = some y ↔ ∃ x, First (fun x => (f x).isSome = true) x xs ∧ f x = some y := by
  rw [List.findSome?_eq_some_iff]
  constructor
  · rintro ⟨before, x, after, hsplit, hx, hbefore⟩
    have hnone : ∀ z ∈ before, ¬ (f z).isSome = true := fun z hz => by simp [hbefore z hz]
    exact ⟨x, ⟨by simp [hx], before, after, hsplit, hnone⟩, hx⟩
  · rintro ⟨x, ⟨-, before, after, hsplit, hbefore⟩, hx⟩
    exact ⟨before, x, after, hsplit, hx, fun z hz => by simpa using hbefore z hz⟩

end First

end Bottleneck
