import Bottleneck.Proofs.Number.Numeral
import Bottleneck.Proofs.Percentiles

/-!
The nearest rank. Sorting the bounds and taking the first one that reaches the target comes to the
least bound of all that reach it, and no order of the counts is assumed for that. So the estimates
depend on the set of the bounds with their counts only: changing the order of buckets, repeating
some, and adding or taking away buckets without a finite bound leaves them alone
(`Rearranged.samePairs`). Main statement: `estimate_nearestRank`.
-/

namespace Bottleneck

namespace Number

/-- A text that says `+inf` in any case is a number, but not a finite one. -/
theorem read?_plusInf {cs : List Char} (h : cs.map Char.toLower = ['+', 'i', 'n', 'f']) :
    read? cs = some infinity := by
  obtain ⟨c, rest, rfl, hc, hrest⟩ := List.map_eq_cons_iff.mp h
  have hplus : c = '+' := by
    rcases eq_or_eq_of_toLower '\x0b' (by decide) hc with heq | heq
    · exact heq
    · rw [heq] at hc
      exact absurd hc (by decide)
  have hword : readWord? rest = some infinity := by
    simp only [readWord?, hrest]
    rfl
  subst hplus
  simp only [read?, readSign, hword]
  rfl

end Number

namespace Bucket

theorem isFinite_of_bound? {bucket : Bucket} {bound : Float} (h : bucket.bound? = some bound) :
    bound.isFinite = true :=
  (Option.filter_eq_some_iff.mp h).2

/-- The bucket that counts every observation has no finite bound. -/
theorem bound?_of_isInf {bucket : Bucket} (h : bucket.isInf = true) :
    bucket.bound? = none := by
  unfold isInf at h
  unfold bound?
  cases hle : bucket.le? with
  | none => rfl
  | some le =>
    rw [hle] at h
    rw [Option.bind_some, Number.read?_plusInf (of_decide_eq_true h)]
    rfl

end Bucket

namespace Percentiles

/-! ## What a nearest rank is -/

/-- The ranks that are estimated. -/
inductive Rank where
  | p50
  | p95
  | p99

/-- The part of the total that a rank asks for. -/
def Rank.share : Rank → Float
  | p50 => 0.50
  | p95 => 0.95
  | p99 => 0.99

def get? (p : Percentiles) : Rank → Option Float
  | .p50 => p.p50
  | .p95 => p.p95
  | .p99 => p.p99

/-- There is nothing to estimate from, or nothing was observed. -/
def Void (buckets : List Bucket) (total : Float) : Prop := buckets = [] ∨ total = 0 ∨ total = -0

/-- Estimates by nearest rank: the least bound that reaches the target, if any does. -/
structure NearestRank (buckets : List Bucket) (total : Float) (p : Percentiles) : Prop where
  of_void : Void buckets total → ∀ rank, p.get? rank = none
  some_iff : ¬ Void buckets total → ∀ rank bound,
    p.get? rank = some bound ↔ IsRank buckets (total * rank.share) bound
  none_iff : ¬ Void buckets total → ∀ rank,
    p.get? rank = none ↔ ∀ bound, ¬ Reaches buckets (total * rank.share) bound
  /-- No bound is made up. -/
  own : ∀ rank bound, p.get? rank = some bound →
    bound.isFinite = true ∧ ∃ bucket ∈ buckets, bucket.bound? = some bound

theorem get?_estimate_of_void {buckets : List Bucket} {total : Float} (h : Void buckets total)
    (rank : Rank) : (estimate buckets total).get? rank = none := by
  have hempty : (buckets.isEmpty || total == 0) = true := by
    rw [Bool.or_eq_true, List.isEmpty_iff, Number.beq_zero_iff]
    exact h
  rw [estimate, if_pos hempty]
  cases rank <;> rfl

theorem get?_estimate {buckets : List Bucket} {total : Float} (h : ¬ Void buckets total)
    (rank : Rank) :
    (estimate buckets total).get? rank = reach? (sortedBounds buckets) (total * rank.share) := by
  have hfull : ¬ (buckets.isEmpty || total == 0) = true := by
    rw [Bool.or_eq_true, List.isEmpty_iff, Number.beq_zero_iff]
    exact h
  rw [estimate, if_neg hfull]
  cases rank <;> rfl

theorem nearestRank_estimate (buckets : List Bucket) (total : Float) :
    NearestRank buckets total (estimate buckets total) where
  of_void := get?_estimate_of_void
  some_iff hfull rank bound := by rw [get?_estimate hfull, reach?_eq_some_iff]
  none_iff hfull rank := by rw [get?_estimate hfull, reach?_eq_none_iff]
  own rank bound hbound := by
    by_cases hvoid : Void buckets total
    · rw [get?_estimate_of_void hvoid] at hbound
      cases hbound
    · rw [get?_estimate hvoid] at hbound
      obtain ⟨bucket, hmem, hown, -⟩ := (isRank_of_reach? hbound).reaches
      exact ⟨Bucket.isFinite_of_bound? hown, bucket, hmem, hown⟩

/-! ## What the estimates depend on -/

/-- A bucket has this finite bound and this count. -/
def HasPair (buckets : List Bucket) (bound count : Float) : Prop :=
  ∃ bucket ∈ buckets, bucket.bound? = some bound ∧ bucket.count = count

def SamePairs (xs ys : List Bucket) : Prop :=
  ∀ bound count, HasPair xs bound count ↔ HasPair ys bound count

/-- Changes that keep the finite bounds with their counts, one after another in any number. -/
inductive Rearranged : List Bucket → List Bucket → Prop where
  | permute {xs ys : List Bucket} (h : xs.Perm ys) : Rearranged xs ys
  | duplicate {xs : List Bucket} {bucket : Bucket} (h : bucket ∈ xs) : Rearranged xs (bucket :: xs)
  | unbounded {xs : List Bucket} {bucket : Bucket} (h : bucket.bound? = none) :
      Rearranged xs (bucket :: xs)
  | symm {xs ys : List Bucket} (h : Rearranged xs ys) : Rearranged ys xs
  | trans {xs ys zs : List Bucket} (h : Rearranged xs ys) (h' : Rearranged ys zs) :
      Rearranged xs zs

theorem hasPair_cons {bucket : Bucket} {buckets : List Bucket} {bound count : Float} :
    HasPair (bucket :: buckets) bound count ↔
      bucket.bound? = some bound ∧ bucket.count = count ∨ HasPair buckets bound count := by
  simp [HasPair]

theorem Rearranged.samePairs {xs ys : List Bucket} (h : Rearranged xs ys) : SamePairs xs ys := by
  induction h with
  | permute h => exact fun bound count => exists_congr fun b => and_congr_left fun _ => h.mem_iff
  | @duplicate xs bucket h =>
    intro bound count
    rw [hasPair_cons, or_iff_right_of_imp]
    exact fun hpair => ⟨bucket, h, hpair⟩
  | @unbounded xs bucket h =>
    intro bound count
    rw [hasPair_cons, h]
    simp
  | symm _ ih => exact fun bound count => (ih bound count).symm
  | trans _ _ ih ih' => exact fun bound count => (ih bound count).trans (ih' bound count)

theorem reaches_iff_hasPair {buckets : List Bucket} {target bound : Float} :
    Reaches buckets target bound ↔ ∃ count, HasPair buckets bound count ∧ count ≥ target := by
  refine ⟨fun ⟨bucket, hmem, hbound, hcount⟩ => ?_, fun ⟨count, hpair, hcount⟩ => ?_⟩
  · exact ⟨bucket.count, ⟨bucket, hmem, hbound, rfl⟩, hcount⟩
  · obtain ⟨bucket, hmem, hbound, rfl⟩ := hpair
    exact ⟨bucket, hmem, hbound, hcount⟩

theorem SamePairs.estimate_eq {xs ys : List Bucket} (h : SamePairs xs ys) (total : Float) :
    estimate xs total = estimate ys total := by
  refine estimate_congr (fun target bound => ?_) total
  rw [reaches_iff_hasPair, reaches_iff_hasPair]
  exact exists_congr fun count => and_congr_left fun _ => h bound count

/-- **The estimates are nearest ranks**, whatever the order and the counts of the buckets are: each
is the least finite bound with a count that reaches the rank's part of the total, and there is none
if no bound does, if there is no bucket or if the total is a zero. They depend on the set of the
finite bounds with their counts only, in which an unbounded bucket has no part. -/
theorem estimate_nearestRank (buckets : List Bucket) (total : Float) :
    NearestRank buckets total (estimate buckets total) ∧
      (∀ others, SamePairs buckets others → estimate others total = estimate buckets total) ∧
      (∀ others, Rearranged buckets others → estimate others total = estimate buckets total) ∧
      ∀ bucket : Bucket, bucket.isInf = true → bucket.bound? = none :=
  ⟨nearestRank_estimate buckets total, fun _ h => (h.estimate_eq total).symm,
    fun _ h => (h.samePairs.estimate_eq total).symm, fun _ => Bucket.bound?_of_isInf⟩

end Percentiles

end Bottleneck
