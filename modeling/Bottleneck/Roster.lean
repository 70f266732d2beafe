import Std.Data.HashMap

/-!
A roster holds items in the order in which their keys were first seen, at most one item to a key,
and an index that leads from a key to its slot. Main statements, all of the roster seen as a list:
no key occurs twice (`nodup_keys`), adding an item merges it into the item of its key or appends it
(`toList_add`), and looking a key up is a search from the front (`get?_eq_find?`).
-/

namespace Bottleneck

variable {α κ : Type} [DecidableEq κ] [Hashable κ]

structure Roster (key : α → κ) where
  slots : Array α
  index : Std.HashMap κ Nat
  /-- The index leads from a key to the slot that holds it and to nothing else. -/
  index_iff : ∀ k i, index[k]? = some i ↔ slots[i]?.map key = some k

/-- What adding does to the items in order: the item merges into the first one of its key, which
keeps its place, and without such a one it comes last. -/
def mergeInto (key : α → κ) (merge : α → α → α) (item : α) : List α → List α
  | [] => [item]
  | old :: rest =>
    if key old = key item then merge old item :: rest else old :: mergeInto key merge item rest

namespace Roster

variable {key : α → κ}

def empty : Roster key := ⟨#[], ∅, by simp⟩

instance : EmptyCollection (Roster key) := ⟨empty⟩

/-- The items, in the order in which their keys were first seen. -/
def toList (r : Roster key) : List α := r.slots.toList

/-- The item of that key. -/
def get? (r : Roster key) (k : κ) : Option α := r.index[k]?.bind (r.slots[·]?)

/-- Add an item, or merge it into the item of its key; `merge old new` must keep the key. -/
def add (r : Roster key) (item : α) (merge : α → α → α)
    (keeps : ∀ old, key old = key item → key (merge old item) = key item) : Roster key :=
  match found : r.index[key item]? with
  | some i =>
    ⟨r.slots.modify i (merge · item), r.index, by
      intro k j
      rw [r.index_iff, Array.getElem?_modify]
      by_cases hij : i = j
      · subst hij
        have hold := (r.index_iff _ _).mp found
        obtain ⟨old, hget, hkey⟩ := Option.map_eq_some_iff.mp hold
        simp [hget, hkey, keeps old hkey]
      · simp [hij]⟩
  | none =>
    ⟨r.slots.push item, r.index.insert (key item) r.slots.size, by
      intro k j
      have fresh : ∀ i, r.slots[i]?.map key ≠ some (key item) := fun i h => by
        rw [← r.index_iff, found] at h
        cases h
      rw [Std.HashMap.getElem?_insert, Array.getElem?_push]
      by_cases hj : j = r.slots.size
      · subst hj
        have hnone : ∀ k, r.index[k]? ≠ some r.slots.size := fun k h => by
          simpa using (r.index_iff k _).mp h
        by_cases hk : key item = k <;> simp [hk, hnone]
      · by_cases hk : key item = k
        · subst hk
          have := fresh j
          simpa [hj, Ne.symm hj] using this
        · simp [hk, hj, r.index_iff]⟩

/-! ## The roster as a list -/

omit [Hashable κ] in
theorem mergeInto_of_forall_ne {merge : α → α → α} {item : α} {items : List α}
    (h : ∀ old ∈ items, key old ≠ key item) :
    mergeInto key merge item items = items ++ [item] := by
  induction items with
  | nil => rfl
  | cons old rest ih =>
    simp only [List.mem_cons, forall_eq_or_imp] at h
    simp [mergeInto, h.1, ih h.2]

omit [Hashable κ] in
theorem mergeInto_eq_modify {merge : α → α → α} {item : α} {items : List α} {i : Nat}
    (hi : items[i]?.map key = some (key item))
    (unique : ∀ j, items[j]?.map key = some (key item) → j = i) :
    mergeInto key merge item items = items.modify i (merge · item) := by
  induction items generalizing i with
  | nil => simp at hi
  | cons old rest ih =>
    by_cases hold : key old = key item
    · have := unique 0 (by simp [hold])
      subst this
      simp [mergeInto, hold]
    · cases i with
      | zero => simp [hold] at hi
      | succ i =>
        have hrest := ih (i := i) (by simpa using hi) fun j hj => by
          simpa using unique (j + 1) (by simpa using hj)
        simp [mergeInto, hold, hrest]

@[simp] theorem toList_empty : (∅ : Roster key).toList = [] := rfl

theorem getElem?_toList (r : Roster key) (i : Nat) : r.toList[i]? = r.slots[i]? := by
  simp [toList]

/-- A slot holds a key exactly when the index leads there. -/
theorem index_eq_some_iff (r : Roster key) {k : κ} {i : Nat} :
    r.index[k]? = some i ↔ r.toList[i]?.map key = some k := by
  rw [getElem?_toList]
  exact r.index_iff k i

theorem nodup_keys (r : Roster key) : (r.toList.map key).Nodup := by
  rw [List.Nodup, List.pairwise_iff_getElem]
  intro i j hi hj hlt heq
  simp only [List.length_map] at hi hj
  have hi' : r.index[key r.toList[i]]? = some i := r.index_eq_some_iff.mpr (by simp [hi])
  have hj' : r.index[key r.toList[j]]? = some j := r.index_eq_some_iff.mpr (by simp [hj])
  simp only [List.getElem_map] at heq
  rw [heq, hj', Option.some.injEq] at hi'
  omega

/-- **Adding, seen as a list.** -/
theorem toList_add (r : Roster key) (item : α) (merge : α → α → α)
    (keeps : ∀ old, key old = key item → key (merge old item) = key item) :
    (r.add item merge keeps).toList = mergeInto key merge item r.toList := by
  unfold add
  split
  · rename_i i found
    rw [mergeInto_eq_modify (r.index_eq_some_iff.mp found)]
    · simp [toList, Array.toList_modify]
    · intro j hj
      have := r.index_eq_some_iff.mpr hj
      rw [found, Option.some.injEq] at this
      exact this.symm
  · rename_i found
    rw [mergeInto_of_forall_ne]
    · simp [toList]
    · intro old hold heq
      obtain ⟨i, hi⟩ := List.mem_iff_getElem?.mp hold
      have : r.index[key item]? = some i := r.index_eq_some_iff.mpr (by simp [hi, heq])
      rw [found] at this
      cases this

/-- **Looking up, seen as a list.** -/
theorem get?_eq_find? (r : Roster key) (k : κ) : r.get? k = r.toList.find? (key · = k) := by
  unfold get?
  cases found : r.index[k]? with
  | none =>
    symm
    simp only [Option.bind_none, List.find?_eq_none, decide_eq_true_eq]
    intro item hitem hkey
    obtain ⟨i, hi⟩ := List.mem_iff_getElem?.mp hitem
    have : r.index[k]? = some i := r.index_eq_some_iff.mpr (by simp [hi, hkey])
    rw [found] at this
    cases this
  | some i =>
    obtain ⟨item, hget, hkey⟩ := Option.map_eq_some_iff.mp (r.index_eq_some_iff.mp found)
    rw [Option.bind_some, ← getElem?_toList, hget]
    symm
    rw [List.find?_eq_some_iff_getElem]
    obtain ⟨hlt, hitem⟩ := List.getElem?_eq_some_iff.mp hget
    refine ⟨by simpa using hkey, i, hlt, hitem, fun j hj => ?_⟩
    have hjlt : j < r.toList.length := Nat.lt_trans hj hlt
    suffices key r.toList[j] ≠ k by simpa using this
    intro hkj
    have : r.index[k]? = some j := r.index_eq_some_iff.mpr (by simp [hjlt, hkj])
    rw [found, Option.some.injEq] at this
    omega

end Roster

end Bottleneck
