import Bottleneck.Label.Basic

/-!
The order of labels is linear, so a label list has one sorted form (`sortedForm_iff`). Main
statement: two lists sort to the same list exactly when they hold the same labels, each as often
(`sort_eq_sort_iff`).
-/

namespace Bottleneck.Label

theorem precedes_iff {a b : Label} :
    precedes a b = true ↔ a.name < b.name ∨ a.name = b.name ∧ a.value ≤ b.value := by
  simp [precedes]

theorem precedes_total (a b : Label) : (precedes a b || precedes b a) = true := by
  rw [Bool.or_eq_true, precedes_iff, precedes_iff]
  by_cases hname : a.name = b.name
  · rcases String.le_total a.value b.value with hvalue | hvalue
    · exact .inl (.inr ⟨hname, hvalue⟩)
    · exact .inr (.inr ⟨hname.symm, hvalue⟩)
  · rcases String.le_total a.name b.name with hle | hle
    · exact .inl (.inl (Std.lt_of_le_of_ne hle hname))
    · exact .inr (.inl (Std.lt_of_le_of_ne hle (Ne.symm hname)))

theorem precedes_trans (a b c : Label) (hab : precedes a b = true) (hbc : precedes b c = true) :
    precedes a c = true := by
  rw [precedes_iff] at *
  obtain hab | ⟨hab, hab'⟩ := hab <;> obtain hbc | ⟨hbc, hbc'⟩ := hbc
  · exact .inl (Std.lt_trans hab hbc)
  · exact .inl (hbc ▸ hab)
  · exact .inl (hab ▸ hbc)
  · exact .inr ⟨hab.trans hbc, String.le_trans hab' hbc'⟩

theorem precedes_antisymm {a b : Label} (hab : precedes a b = true) (hba : precedes b a = true) :
    a = b := by
  rw [precedes_iff] at *
  obtain hab | ⟨hname, hab⟩ := hab
  · obtain hba | ⟨hname, -⟩ := hba
    · exact absurd (Std.lt_trans hab hba) (String.lt_irrefl _)
    · exact absurd (hname ▸ hab) (String.lt_irrefl _)
  · obtain hba | ⟨-, hba⟩ := hba
    · exact absurd (hname ▸ hba) (String.lt_irrefl _)
    · obtain ⟨name, value⟩ := a
      simp only at hname hab hba
      rw [hname, String.le_antisymm hab hba]

theorem pairwise_sort (labels : List Label) :
    (sort labels).Pairwise fun a b => precedes a b = true :=
  List.pairwise_mergeSort precedes_trans precedes_total labels

/-- The same labels, each as often, in the order of their names and those of one name in the order of
their values. Texts are ordered by code point. -/
structure SortedForm (listed sorted : List Label) : Prop where
  perm : sorted.Perm listed
  ordered : sorted.Pairwise fun a b => a.name < b.name ∨ a.name = b.name ∧ a.value ≤ b.value

theorem sortedForm_sort (labels : List Label) : SortedForm labels (sort labels) :=
  ⟨perm_sort labels, (pairwise_sort labels).imp precedes_iff.mp⟩

theorem sortedForm_iff {listed sorted : List Label} :
    SortedForm listed sorted ↔ sorted = sort listed := by
  constructor
  · intro h
    refine List.Perm.eq_of_pairwise (fun a b _ _ hab hba => precedes_antisymm hab hba)
      (h.ordered.imp precedes_iff.mpr) (pairwise_sort listed) ?_
    exact h.perm.trans (perm_sort listed).symm
  · rintro rfl
    exact sortedForm_sort listed

/-- **Sorting forgets the order of the labels and nothing else.** -/
theorem sort_eq_sort_iff {xs ys : List Label} : sort xs = sort ys ↔ xs.Perm ys := by
  constructor
  · intro h
    exact (perm_sort xs).symm.trans (h ▸ perm_sort ys)
  · intro h
    refine List.Perm.eq_of_pairwise (fun a b _ _ hab hba => precedes_antisymm hab hba)
      (pairwise_sort xs) (pairwise_sort ys) ?_
    exact (perm_sort xs).trans (h.trans (perm_sort ys).symm)

end Bottleneck.Label
