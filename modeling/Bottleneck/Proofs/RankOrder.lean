import Bottleneck.Proofs.NearestRank
import Bottleneck.Proofs.Number.Product

/-!
Estimates in the order of their ranks. A greater rank asks for a greater part of the total, and a
bound that reaches the greater target reaches the lesser one as well, whatever the order of the
buckets and of their counts; so the least bound of those that reach the lesser target is not above
(`reach?_below`). Main statement: `estimate_ordered`.
-/

namespace Bottleneck.Percentiles

open Number (place)

/-- Where the greater rank has an estimate the lesser one has one too, and it is not above the
other, neither as a number nor in the total order. -/
def Below (lesser greater : Option Float) : Prop :=
  ∀ y, greater = some y → ∃ x, lesser = some x ∧ x ≤ y ∧ place x ≤ place y

theorem Below.none (lesser : Option Float) : Below lesser none := nofun

/-- A count that is large enough for a target is large enough for any lesser target. -/
theorem Reaches.of_le {buckets : List Bucket} {target target' bound : Float}
    (h : Reaches buckets target' bound) (hle : target ≤ target') :
    Reaches buckets target bound := by
  obtain ⟨bucket, hmem, hbound, hcount⟩ := h
  exact ⟨bucket, hmem, hbound, Number.le_trans hle hcount⟩

theorem isNaN_of_isRank {buckets : List Bucket} {target bound : Float}
    (h : IsRank buckets target bound) : bound.isNaN = false := by
  obtain ⟨bucket, -, hbound, -⟩ := h.reaches
  exact Number.isNaN_of_isFinite (Bucket.isFinite_of_bound? hbound)

theorem reach?_below (buckets : List Bucket) {target target' : Float} (h : target ≤ target') :
    Below (reach? (sortedBounds buckets) target) (reach? (sortedBounds buckets) target') := by
  intro y hy
  have hrank := isRank_of_reach? hy
  have hreaches : Reaches buckets target y := hrank.reaches.of_le h
  cases hx : reach? (sortedBounds buckets) target with
  | none => exact absurd hreaches (reach?_eq_none_iff.mp hx y)
  | some x =>
    have hrank' := isRank_of_reach? hx
    have hplace : place x ≤ place y := hrank'.least y hreaches
    exact ⟨x, rfl, Number.le_of_place_le (isNaN_of_isRank hrank') (isNaN_of_isRank hrank) hplace,
      hplace⟩

/-- No rank asks for nothing. -/
theorem Rank.share_pos (rank : Rank) : 0 < rank.share := by
  cases rank <;> decide +kernel

theorem get?_below (buckets : List Bucket) {total : Float} (htotal : total > 0)
    {lesser greater : Rank} (h : lesser.share ≤ greater.share) :
    Below ((estimate buckets total).get? lesser) ((estimate buckets total).get? greater) := by
  by_cases hvoid : Void buckets total
  · rw [get?_estimate_of_void hvoid greater]
    exact Below.none _
  · rw [get?_estimate hvoid, get?_estimate hvoid]
    exact reach?_below buckets (Number.mul_le_mul_left htotal lesser.share_pos h)

/-- **Estimates are in the order of their ranks**, for every positive total and for buckets in any
order with any counts: with an estimate of a rank there is one of every lesser rank, and the lesser
the rank is, the lesser is its estimate. -/
theorem estimate_ordered (buckets : List Bucket) {total : Float} (htotal : total > 0) :
    Below (estimate buckets total).p50 (estimate buckets total).p95 ∧
      Below (estimate buckets total).p95 (estimate buckets total).p99 ∧
      Below (estimate buckets total).p50 (estimate buckets total).p99 := by
  have hmedian : Rank.p50.share ≤ Rank.p95.share := by decide +kernel
  have htail : Rank.p95.share ≤ Rank.p99.share := by decide +kernel
  exact ⟨get?_below buckets htotal hmedian, get?_below buckets htotal htail,
    get?_below buckets htotal (Number.le_trans hmedian htail)⟩

/-- Counts that are infinite, negative or less than those of lesser bounds, and a spoiled block. -/
def erratic : List Bucket :=
  [⟨"le=\"3\"", [⟨"le", "3"⟩], Number.infinity⟩, ⟨"le=\"5\",", [⟨"le", "5"⟩], -2⟩,
    ⟨"le=\"-0.5\" +", [], Number.infinity⟩, ⟨"le=\"+Inf\"", [⟨"le", "+Inf"⟩], 7⟩]

theorem estimate_ordered_erratic :
    Number.infinity > 0 ∧ (estimate erratic Number.infinity).p99 = some (-0.5) ∧
      Below (estimate erratic Number.infinity).p50 (estimate erratic Number.infinity).p95 ∧
      Below (estimate erratic Number.infinity).p95 (estimate erratic Number.infinity).p99 ∧
      Below (estimate erratic Number.infinity).p50 (estimate erratic Number.infinity).p99 := by
  have htotal : Number.infinity > 0 := by decide
  have hfull : ¬ Void erratic Number.infinity := by
    rintro (h | h | h)
    · cases h
    · exact absurd h (by decide)
    · exact absurd h (by decide)
  have hrank : IsRank erratic (Number.infinity * Rank.p99.share) (-0.5) := by decide +kernel
  have hestimate : (estimate erratic Number.infinity).get? .p99 = some (-0.5) := by
    rw [get?_estimate hfull, reach?_eq_some_iff]
    exact hrank
  exact ⟨htotal, hestimate, estimate_ordered erratic htotal⟩

end Bottleneck.Percentiles
