import Bottleneck.Roster
import Mathlib.Algebra.GroupWithZero.Nat
import Mathlib.Data.List.Basic
import Mathlib.Data.List.Find
import Mathlib.Data.List.Induction

/-!
What a roster holds after a whole list of items was added to it, seen as a list. Adding one item
either merges it or appends it (`mergeInto`), so the keys of the result stand in the order of their
first occurrence (`keys_collect`), and under each key stand all of its items, merged from left to
right (`find?_collect`). A list whose keys are distinct is determined by these two, so the result is
a plain grouping of the log (`collect_eq_filterMap`), and two lists one after the other leave what
merging their two results leaves (`collect_append`). Some of the keys can be collected without the
others (`filter_collect`), and what is held can be taken apart and collected again
(`collect_flatMap`).
-/

namespace Bottleneck

variable {α κ : Type} [DecidableEq κ] {key : α → κ} {merge : α → α → α}

/-! ## Keys in the order of their first occurrence -/

omit [DecidableEq κ] in
theorem nodup_eraseDups [BEq κ] [LawfulBEq κ] (ks : List κ) : ks.eraseDups.Nodup := by
  cases ks with
  | nil => simp
  | cons k ks =>
    rw [List.eraseDups_cons, List.nodup_cons]
    refine ⟨by simp, ?_⟩
    have := List.length_filter_le (fun b => !b == k) ks
    exact nodup_eraseDups _
termination_by ks.length

omit [DecidableEq κ] in
theorem eraseDups_filter [BEq κ] [LawfulBEq κ] (p : κ → Bool) (ks : List κ) :
    (ks.filter p).eraseDups = ks.eraseDups.filter p := by
  cases ks with
  | nil => simp
  | cons k ks =>
    have := List.length_filter_le (fun b => !b == k) ks
    have ih := eraseDups_filter p (ks.filter fun b => !b == k)
    rw [List.eraseDups_cons]
    by_cases hk : p k = true
    · rw [List.filter_cons_of_pos hk, List.filter_cons_of_pos hk, List.eraseDups_cons, ← ih,
        List.filter_filter, List.filter_filter]
      simp only [Bool.and_comm]
    · rw [List.filter_cons_of_neg hk, List.filter_cons_of_neg hk, ← ih, List.filter_filter]
      -- an element that passes the test is not the refused one, so erasing it changes nothing
      congr 1
      refine List.filter_congr fun b _ => ?_
      by_cases hb : p b = true
      · have : b ≠ k := fun e => hk (e ▸ hb)
        simp [hb, this]
      · simp [hb]
termination_by ks.length

theorem eraseDups_concat (ks : List κ) (k : κ) :
    (ks ++ [k]).eraseDups = if k ∈ ks then ks.eraseDups else ks.eraseDups ++ [k] := by
  rw [List.eraseDups_append]
  by_cases hk : k ∈ ks <;> simp [List.removeAll, List.eraseDups_cons, hk]

/-- An item is found under its key if no other item has it. -/
theorem find?_key_of_mem {items : List α} (h : (items.map key).Nodup) {item : α}
    (hitem : item ∈ items) : items.find? (key · = key item) = some item := by
  induction items with
  | nil => cases hitem
  | cons first rest ih =>
    obtain ⟨hne, hrest⟩ := List.nodup_cons.mp h
    rcases List.mem_cons.mp hitem with rfl | hmem
    · rw [List.find?_cons_of_pos (by simp)]
    · have : key first ≠ key item := fun e => hne (e ▸ List.mem_map_of_mem hmem)
      rw [List.find?_cons_of_neg (by simp [this]), ih hrest hmem]

/-- Items with distinct keys are found under their keys in their order. -/
theorem eq_filterMap_find? {items : List α} (h : (items.map key).Nodup) :
    items = (items.map key).filterMap fun k => items.find? (key · = k) := by
  induction items with
  | nil => rfl
  | cons item rest ih =>
    obtain ⟨hne, hrest⟩ := List.nodup_cons.mp h
    rw [List.map_cons, List.filterMap_cons, List.find?_cons_of_pos (by simp)]
    conv_lhs => rw [ih hrest]
    congr 1
    refine List.filterMap_congr fun k hk => ?_
    have : key item ≠ k := fun e => hne (e ▸ hk)
    simp [this]

/-- **Keys and what is found under them determine the items.** -/
theorem eq_of_keys_of_find? {xs ys : List α} (h : (xs.map key).Nodup)
    (hkeys : xs.map key = ys.map key)
    (hfind : ∀ k, xs.find? (key · = k) = ys.find? (key · = k)) : xs = ys := by
  have hy : (ys.map key).Nodup := hkeys ▸ h
  calc
    xs = (xs.map key).filterMap fun k => xs.find? (key · = k) := eq_filterMap_find? h
    _ = (ys.map key).filterMap fun k => ys.find? (key · = k) := by
      rw [hkeys]
      exact List.filterMap_congr fun k _ => hfind k
    _ = ys := (eq_filterMap_find? hy).symm

/-! ## One more item -/

/-- Items merged into the first of them, from left to right. -/
def fuse (merge : α → α → α) : List α → Option α
  | [] => none
  | item :: rest => some (rest.foldl merge item)

theorem fuse_concat (items : List α) (item : α) :
    fuse merge (items ++ [item]) = some ((fuse merge items).elim item (merge · item)) := by
  cases items <;> simp [fuse]

def KeepsKey (key : α → κ) (merge : α → α → α) : Prop :=
  ∀ old item, key old = key item → key (merge old item) = key item

theorem keys_mergeInto (keeps : KeepsKey key merge) (item : α) (items : List α) :
    (mergeInto key merge item items).map key =
      if key item ∈ items.map key then items.map key else items.map key ++ [key item] := by
  induction items with
  | nil => simp [mergeInto]
  | cons old rest ih =>
    by_cases hold : key old = key item
    · simp [mergeInto, hold, keeps old item hold]
    · have hne : key item ≠ key old := Ne.symm hold
      rw [mergeInto, if_neg hold, List.map_cons, ih]
      by_cases hmem : key item ∈ rest.map key
      · rw [if_pos hmem, if_pos (by simp [hmem]), List.map_cons]
      · rw [if_neg hmem, if_neg (by simp [hmem, hne]), List.map_cons, List.cons_append]

theorem find?_mergeInto (keeps : KeepsKey key merge) (item : α) (items : List α) (k : κ) :
    (mergeInto key merge item items).find? (key · = k) =
      if key item = k then some ((items.find? (key · = k)).elim item (merge · item))
      else items.find? (key · = k) := by
  induction items with
  | nil => by_cases hk : key item = k <;> simp [mergeInto, hk]
  | cons old rest ih =>
    by_cases hold : key old = key item
    · have hmerged := keeps old item hold
      by_cases hk : key item = k <;> simp [mergeInto, hold, hmerged, hk]
    · rw [mergeInto, if_neg hold]
      by_cases hk : key old = k
      · have : key item ≠ k := fun e => hold (hk.trans e.symm)
        simp [hk, this]
      · simp [hk, ih]

/-! ## A list of items -/

/-- What a roster holds to which a list of items was added, one after the other. -/
def collect (key : α → κ) (merge : α → α → α) (items : List α) : List α :=
  items.foldl (fun held item => mergeInto key merge item held) []

theorem collect_concat (items : List α) (item : α) :
    collect key merge (items ++ [item]) = mergeInto key merge item (collect key merge items) := by
  simp [collect]

theorem keys_collect (keeps : KeepsKey key merge) (items : List α) :
    (collect key merge items).map key = (items.map key).eraseDups := by
  induction items using List.reverseRecOn with
  | nil => rfl
  | append_singleton items item ih =>
    rw [collect_concat, keys_mergeInto keeps, ih, List.map_append, List.map_cons, List.map_nil,
      eraseDups_concat]
    simp only [List.mem_eraseDups]

theorem nodup_keys_collect (keeps : KeepsKey key merge) (items : List α) :
    ((collect key merge items).map key).Nodup := by
  rw [keys_collect keeps]
  exact nodup_eraseDups _

theorem find?_collect (keeps : KeepsKey key merge) (items : List α) (k : κ) :
    (collect key merge items).find? (key · = k) = fuse merge (items.filter (key · = k)) := by
  induction items using List.reverseRecOn with
  | nil => rfl
  | append_singleton items item ih =>
    rw [collect_concat, find?_mergeInto keeps, List.filter_append]
    by_cases hk : key item = k
    · rw [if_pos hk, List.filter_cons_of_pos (by simp [hk]), List.filter_nil, fuse_concat, ih]
    · rw [if_neg hk, List.filter_cons_of_neg (by simp [hk]), List.filter_nil, List.append_nil, ih]

/-- **Collecting is grouping**: one item for each key, in the order in which the keys first occur,
made of all the items of that key. -/
theorem collect_eq_filterMap (keeps : KeepsKey key merge) (items : List α) :
    collect key merge items =
      (items.map key).eraseDups.filterMap fun k => fuse merge (items.filter (key · = k)) := by
  conv_lhs => rw [eq_filterMap_find? (nodup_keys_collect keeps items), keys_collect keeps]
  exact List.filterMap_congr fun k _ => find?_collect keeps items k

theorem collect_of_nodup {items : List α} (h : (items.map key).Nodup) :
    collect key merge items = items := by
  induction items using List.reverseRecOn with
  | nil => rfl
  | append_singleton items item ih =>
    rw [List.map_append, List.nodup_append] at h
    obtain ⟨hitems, -, hne⟩ := h
    rw [collect_concat, ih hitems]
    exact Roster.mergeInto_of_forall_ne fun old hold =>
      hne (key old) (List.mem_map_of_mem hold) (key item) (by simp)

theorem forall_mem_mergeInto {P : α → Prop} {item : α}
    (hmerge : ∀ old, key old = key item → P old → P (merge old item)) (hitem : P item)
    {items : List α} (h : ∀ x ∈ items, P x) : ∀ x ∈ mergeInto key merge item items, P x := by
  induction items with
  | nil => exact List.forall_mem_singleton.mpr hitem
  | cons old rest ih =>
    obtain ⟨hold, hrest⟩ := List.forall_mem_cons.mp h
    rw [mergeInto]
    split
    · rename_i heq
      exact List.forall_mem_cons.mpr ⟨hmerge old heq hold, hrest⟩
    · exact List.forall_mem_cons.mpr ⟨hold, ih hrest⟩

/-- What merging items of one key keeps holds of all that is collected. -/
theorem forall_mem_collect {P : α → Prop}
    (hmerge : ∀ old item, key old = key item → P old → P item → P (merge old item))
    {items : List α} (h : ∀ item ∈ items, P item) : ∀ x ∈ collect key merge items, P x := by
  induction items using List.reverseRecOn with
  | nil => exact fun x hx => absurd hx List.not_mem_nil
  | append_singleton items item ih =>
    have hitem : P item := h item (by simp)
    rw [collect_concat]
    exact forall_mem_mergeInto (fun old heq hold => hmerge old item heq hold hitem) hitem
      (ih fun x hx => h x (by simp [hx]))

theorem filter_key_filter (p : κ → Bool) (items : List α) (k : κ) :
    (items.filter fun x => p (key x)).filter (key · = k) =
      if p k then items.filter (key · = k) else [] := by
  rw [List.filter_filter]
  split
  · rename_i hk
    refine List.filter_congr fun x _ => ?_
    by_cases hx : key x = k
    · simp [hx, hk]
    · simp [hx]
  · rename_i hk
    refine List.filter_eq_nil_iff.mpr fun x _ => ?_
    by_cases hx : key x = k
    · simp [hx, hk]
    · simp [hx]

/-- **Collecting and choosing by key commute**: what is collected under the chosen keys depends on
their items alone. -/
theorem filter_collect (keeps : KeepsKey key merge) (p : κ → Bool) (items : List α) :
    (collect key merge items).filter (fun x => p (key x)) =
      collect key merge (items.filter fun x => p (key x)) := by
  have hkeys (xs : List α) : (xs.filter fun x => p (key x)).map key = (xs.map key).filter p := by
    rw [List.filter_map]
    rfl
  have hnodup : (((collect key merge items).filter fun x => p (key x)).map key).Nodup := by
    rw [hkeys]
    exact (nodup_keys_collect keeps items).filter p
  refine eq_of_keys_of_find? hnodup ?_ fun k => ?_
  · rw [hkeys, keys_collect keeps, keys_collect keeps, hkeys, eraseDups_filter]
  · rw [← List.head?_filter, filter_key_filter, find?_collect keeps, filter_key_filter]
    split
    · rw [List.head?_filter, find?_collect keeps]
    · rfl

/-- A measure that merging adds up is that of all the items together. -/
theorem sum_collect {size : α → Nat}
    (adds : ∀ old item, size (merge old item) = size old + size item) (items : List α) :
    ((collect key merge items).map size).sum = (items.map size).sum := by
  have hstep : ∀ (item : α) (held : List α),
      ((mergeInto key merge item held).map size).sum = (held.map size).sum + size item := by
    intro item held
    induction held with
    | nil => simp [mergeInto]
    | cons old rest ih =>
      by_cases hold : key old = key item
      · simp only [mergeInto, hold, if_true, List.map_cons, List.sum_cons, adds]
        omega
      · simp only [mergeInto, hold, if_false, List.map_cons, List.sum_cons, ih]
        omega
  induction items using List.reverseRecOn with
  | nil => rfl
  | append_singleton items item ih => simp [collect_concat, hstep, ih]

/-! ## Two lists, one after the other -/

def IsAssoc (merge : α → α → α) : Prop :=
  ∀ a b c, merge (merge a b) c = merge a (merge b c)

theorem fuse_append (assoc : IsAssoc merge) (xs ys : List α) :
    fuse merge (xs ++ ys) =
      (fuse merge xs).elim (fuse merge ys) fun x => some ((fuse merge ys).elim x (merge x)) := by
  induction ys using List.reverseRecOn with
  | nil =>
    rw [List.append_nil]
    cases fuse merge xs <;> rfl
  | append_singleton ys y ih =>
    rw [← List.append_assoc, fuse_concat, fuse_concat, ih]
    cases fuse merge xs with
    | none => simp
    | some x =>
      cases fuse merge ys with
      | none => simp
      | some old => simp [assoc x old y]

/-- An item that has merged the one of its key in another list has its own key still. -/
theorem key_elim_find? (keeps : KeepsKey key merge) (ys : List α) (x : α) :
    key ((ys.find? (key · = key x)).elim x (merge x)) = key x := by
  cases hfind : ys.find? (key · = key x) with
  | none => rfl
  | some y =>
    have hy : key y = key x := by simpa using List.find?_some hfind
    exact (keeps x y hy.symm).trans hy

/-- Merging changes what is found under a key and not where. -/
theorem find?_map_elim (keeps : KeepsKey key merge) (xs ys : List α) (k : κ) :
    (xs.map fun x => (ys.find? (key · = key x)).elim x (merge x)).find? (key · = k) =
      (xs.find? (key · = k)).map fun x => (ys.find? (key · = k)).elim x (merge x) := by
  have hcomp : ((fun x => decide (key x = k)) ∘ fun x =>
      (ys.find? (key · = key x)).elim x (merge x)) = (key · = k) :=
    funext fun x => by simp [key_elim_find? keeps ys x]
  rw [List.find?_map, hcomp]
  cases hx : xs.find? (key · = k) with
  | none => rfl
  | some x =>
    have : key x = k := by simpa using List.find?_some hx
    simp [this]

/-- Items whose keys another list lacks are all there is under such a key. -/
theorem find?_filter_notMem {xs : List α} {k : κ} (h : xs.find? (key · = k) = none) (ys : List α) :
    (ys.filter fun y => key y ∉ xs.map key).find? (key · = k) = ys.find? (key · = k) := by
  have hfresh : k ∉ xs.map key := by
    intro hk
    obtain ⟨x, hmem, rfl⟩ := List.mem_map.mp hk
    simpa using List.find?_eq_none.mp h x hmem
  rw [List.find?_filter]
  refine List.find?_congr fun y _ => ?_
  by_cases hy : key y = k
  · simp only [hy, hfresh, not_false_eq_true, decide_true, and_self]
  · simp [hy]

/-- **Collecting two lists is merging what they leave**: the items of the first keep their places
and merge those of the second that share their keys, and the others of the second follow. -/
theorem collect_append (keeps : KeepsKey key merge) (assoc : IsAssoc merge) (xs ys : List α) :
    collect key merge (xs ++ ys) =
      (collect key merge xs).map
          (fun x => ((collect key merge ys).find? (key · = key x)).elim x (merge x)) ++
        (collect key merge ys).filter fun y => key y ∉ (collect key merge xs).map key := by
  have hkey := key_elim_find? keeps (collect key merge ys)
  refine eq_of_keys_of_find? (nodup_keys_collect keeps _) ?_ fun k => ?_
  · rw [keys_collect keeps, List.map_append, List.map_append, List.map_map, List.eraseDups_append]
    congr 1
    · rw [← keys_collect keeps]
      exact (List.map_congr_left fun x _ => hkey x).symm
    · rw [List.removeAll, eraseDups_filter, ← keys_collect keeps, List.filter_map]
      refine congrArg (List.map key) (List.filter_congr fun y _ => ?_)
      simp only [keys_collect keeps, Function.comp, List.elem_eq_mem, List.mem_eraseDups,
        decide_not]
  · rw [find?_collect keeps, List.filter_append, fuse_append assoc, ← find?_collect keeps,
      ← find?_collect keeps, List.find?_append, find?_map_elim keeps]
    cases hx : (collect key merge xs).find? (key · = k) with
    | some x => rfl
    | none => exact (find?_filter_notMem hx _).symm

/-! ## Groups -/

/-- Items of one key are collected into one. -/
theorem collect_of_key_eq (keeps : KeepsKey key merge) {items : List α} {k : κ}
    (h : ∀ x ∈ items, key x = k) : collect key merge items = (fuse merge items).toList := by
  induction items using List.reverseRecOn with
  | nil => rfl
  | append_singleton items item ih =>
    have hitems : ∀ x ∈ items, key x = k := fun x hx => h x (by simp [hx])
    have hitem : key item = k := h item (by simp)
    have hheld : ∀ x ∈ collect key merge items, key x = k :=
      forall_mem_collect (fun old new heq _ hnew => (keeps old new heq).trans hnew) hitems
    rw [collect_concat, fuse_concat]
    rw [ih hitems] at hheld ⊢
    cases hfuse : fuse merge items with
    | none => rfl
    | some old =>
      have hold : key old = k := hheld old (by simp [hfuse])
      simp [mergeInto, hold, hitem]

/-- **Groups that are taken apart are collected again.** -/
theorem collect_flatMap (keeps : KeepsKey key merge) (assoc : IsAssoc merge) {groups : List α}
    {parts : α → List α} (hparts : ∀ g ∈ groups, fuse merge (parts g) = some g)
    (hkeys : ∀ g ∈ groups, ∀ x ∈ parts g, key x = key g) (hnodup : (groups.map key).Nodup) :
    collect key merge (groups.flatMap parts) = groups := by
  induction groups with
  | nil => rfl
  | cons g groups ih =>
    obtain ⟨hg, hgroups⟩ := List.forall_mem_cons.mp hparts
    obtain ⟨hkey, hkeys⟩ := List.forall_mem_cons.mp hkeys
    obtain ⟨hfresh, hnodup⟩ := List.nodup_cons.mp hnodup
    have hfirst : collect key merge (parts g) = [g] := by
      rw [collect_of_key_eq keeps hkey, hg]
      rfl
    have hnone : groups.find? (key · = key g) = none := by
      rw [List.find?_eq_none]
      intro x hx hxg
      exact hfresh (List.mem_map.mpr ⟨x, hx, by simpa using hxg⟩)
    have hothers : groups.filter (fun y => key y ∉ [g].map key) = groups := by
      rw [List.filter_eq_self]
      intro x hx
      have : key x ≠ key g := fun heq => hfresh (List.mem_map.mpr ⟨x, hx, heq⟩)
      simpa using this
    rw [List.flatMap_cons, collect_append keeps assoc, hfirst, ih hgroups hkeys hnodup, hothers,
      List.map_singleton, hnone]
    rfl

end Bottleneck
