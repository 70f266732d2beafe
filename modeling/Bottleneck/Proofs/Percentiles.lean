import Bottleneck.Latency
import Bottleneck.Proofs.First
import Bottleneck.Proofs.Number.Comparison

/-!
What an estimate depends on. A bound reaches a target if some bucket of it has a count that is large
enough, and an estimate is the least bound that does (`reach?_eq_some_iff`). Sorting decides where
this bound is found and not which one it is, so buckets in another order, or more than once, give
the same estimates (`estimate_congr`).
-/

namespace Bottleneck

namespace Percentiles

open Number (place)

/-- A bucket of this bound has a count that is large enough. -/
def Reaches (buckets : List Bucket) (target bound : Float) : Prop :=
  ∃ bucket ∈ buckets, bucket.bound? = some bound ∧ bucket.count ≥ target

/-- The least of the bounds that reach the target. -/
structure IsRank (buckets : List Bucket) (target bound : Float) : Prop where
  reaches : Reaches buckets target bound
  least : ∀ other, Reaches buckets target other → place bound ≤ place other

theorem IsRank.unique {buckets : List Bucket} {target x y : Float} (hx : IsRank buckets target x)
    (hy : IsRank buckets target y) : x = y :=
  Number.eq_of_place_eq (Nat.le_antisymm (hx.least y hy.reaches) (hy.least x hx.reaches))

theorem isRank_iff {buckets : List Bucket} {target bound : Float} :
    IsRank buckets target bound ↔
      (∃ bucket ∈ buckets, bucket.bound? = some bound ∧ bucket.count ≥ target) ∧
        ∀ bucket ∈ buckets, ∀ other ∈ bucket.bound?,
          bucket.count ≥ target → place bound ≤ place other := by
  constructor
  · intro h
    exact ⟨h.reaches, fun bucket hmem other hother hcount =>
      h.least other ⟨bucket, hmem, hother, hcount⟩⟩
  · rintro ⟨hreaches, hleast⟩
    exact ⟨hreaches, fun other ⟨bucket, hmem, hother, hcount⟩ =>
      hleast bucket hmem other hother hcount⟩

instance (buckets : List Bucket) (target bound : Float) : Decidable (IsRank buckets target bound) :=
  decidable_of_iff _ isRank_iff.symm

/-! ## The sorted bounds -/

theorem mem_sortedBounds {buckets : List Bucket} {pair : Float × Float} :
    pair ∈ sortedBounds buckets ↔
      ∃ bucket ∈ buckets, bucket.bound? = some pair.1 ∧ bucket.count = pair.2 := by
  rw [sortedBounds, List.mem_mergeSort, List.mem_filterMap]
  refine exists_congr fun bucket => and_congr_right fun _ => ?_
  rw [Option.map_eq_some_iff]
  constructor
  · rintro ⟨bound, hbound, rfl⟩
    exact ⟨hbound, rfl⟩
  · rintro ⟨hbound, hcount⟩
    exact ⟨pair.1, hbound, by rw [hcount]⟩

theorem pairwise_sortedBounds (buckets : List Bucket) :
    (sortedBounds buckets).Pairwise fun a b => place a.1 ≤ place b.1 := by
  refine (List.pairwise_mergeSort ?_ ?_ _).imp fun h => of_decide_eq_true h
  · intro a b c hab hbc
    exact decide_eq_true (Nat.le_trans (of_decide_eq_true hab) (of_decide_eq_true hbc))
  · intro a b
    rw [Bool.or_eq_true, decide_eq_true_eq, decide_eq_true_eq]
    exact Nat.le_total (place a.1) (place b.1)

theorem reaches_iff_mem_sortedBounds {buckets : List Bucket} {target bound : Float} :
    Reaches buckets target bound ↔
      ∃ count, (bound, count) ∈ sortedBounds buckets ∧ count ≥ target := by
  simp only [mem_sortedBounds]
  constructor
  · rintro ⟨bucket, hmem, hbound, hcount⟩
    exact ⟨bucket.count, ⟨bucket, hmem, hbound, rfl⟩, hcount⟩
  · rintro ⟨_, ⟨bucket, hmem, hbound, rfl⟩, hcount⟩
    exact ⟨bucket, hmem, hbound, hcount⟩

/-- What is found first in the sorted bounds is the least. -/
theorem isRank_of_reach? {buckets : List Bucket} {target bound : Float}
    (h : reach? (sortedBounds buckets) target = some bound) : IsRank buckets target bound := by
  obtain ⟨⟨_, count⟩, hfound, rfl⟩ := Option.map_eq_some_iff.mp h
  have hfirst := find?_eq_some_iff_first.mp hfound
  refine ⟨reaches_iff_mem_sortedBounds.mpr ⟨count, hfirst.mem, of_decide_eq_true hfirst.1⟩, ?_⟩
  intro other hother
  obtain ⟨c, hmem, hc⟩ := reaches_iff_mem_sortedBounds.mp hother
  have hsorted := pairwise_sortedBounds buckets
  rcases hfirst.eq_or_rel hsorted hmem (decide_eq_true hc) with heq | hle
  · exact Nat.le_of_eq (congrArg (fun pair => place pair.1) heq.symm)
  · exact hle

theorem reach?_eq_none_iff {buckets : List Bucket} {target : Float} :
    reach? (sortedBounds buckets) target = none ↔ ∀ bound, ¬ Reaches buckets target bound := by
  rw [reach?, Option.map_eq_none_iff, List.find?_eq_none]
  constructor
  · intro h bound hreaches
    obtain ⟨count, hmem, hcount⟩ := reaches_iff_mem_sortedBounds.mp hreaches
    exact h _ hmem (decide_eq_true hcount)
  · rintro h ⟨bound, count⟩ hmem hcount
    exact h bound (reaches_iff_mem_sortedBounds.mpr ⟨count, hmem, of_decide_eq_true hcount⟩)

/-- **An estimate is the least bound that reaches its target.** -/
theorem reach?_eq_some_iff {buckets : List Bucket} {target bound : Float} :
    reach? (sortedBounds buckets) target = some bound ↔ IsRank buckets target bound := by
  refine ⟨isRank_of_reach?, fun h => ?_⟩
  cases hfound : reach? (sortedBounds buckets) target with
  | none => exact absurd h.reaches (reach?_eq_none_iff.mp hfound bound)
  | some found => rw [(isRank_of_reach? hfound).unique h]

/-! ## Other buckets, same estimates -/

theorem reach?_congr {xs ys : List Bucket} {target : Float}
    (h : ∀ bound, Reaches xs target bound ↔ Reaches ys target bound) :
    reach? (sortedBounds xs) target = reach? (sortedBounds ys) target := by
  refine Option.ext fun bound => ?_
  rw [reach?_eq_some_iff, reach?_eq_some_iff]
  constructor
  · intro hx
    exact ⟨(h bound).mp hx.reaches, fun other hother => hx.least other ((h other).mpr hother)⟩
  · intro hy
    exact ⟨(h bound).mpr hy.reaches, fun other hother => hy.least other ((h other).mp hother)⟩

/-- Without buckets there are no bounds either, so only a total of zero needs a rule of its own. -/
theorem estimate_eq (buckets : List Bucket) (total : Float) :
    estimate buckets total =
      if total == 0 then {}
      else
        { p50 := reach? (sortedBounds buckets) (total * 0.50)
          p95 := reach? (sortedBounds buckets) (total * 0.95)
          p99 := reach? (sortedBounds buckets) (total * 0.99) } := by
  unfold estimate
  cases buckets with
  | nil =>
    have hnone (target : Float) : reach? (sortedBounds []) target = none :=
      reach?_eq_none_iff.mpr fun _ h => by
        obtain ⟨_, hmem, -⟩ := h
        cases hmem
    simp [hnone]
  | cons bucket buckets => rfl

/-- **The estimates depend on which bounds reach which targets** and on nothing else. -/
theorem estimate_congr {xs ys : List Bucket}
    (h : ∀ target bound, Reaches xs target bound ↔ Reaches ys target bound) (total : Float) :
    estimate xs total = estimate ys total := by
  simp only [estimate_eq, fun target => reach?_congr (h target)]

theorem estimate_congr_mem {xs ys : List Bucket} (h : ∀ bucket, bucket ∈ xs ↔ bucket ∈ ys)
    (total : Float) : estimate xs total = estimate ys total :=
  estimate_congr (fun _ _ => exists_congr fun bucket => and_congr_left fun _ => h bucket) total

end Percentiles

end Bottleneck
