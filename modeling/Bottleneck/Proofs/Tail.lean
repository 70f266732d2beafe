import Bottleneck.Proofs.Checks
import Bottleneck.Proofs.NearestRank
import Bottleneck.Proofs.Number.Comparison
import Bottleneck.Proofs.Precedence

/-!
The check for a latency tail against what a latency tail is. The histogram is chosen by its name
alone (`IsChosen`), so it is chosen before anything is known of its total or of its buckets, and
whether it has a tail is a question of its own (`IsTail`). Main statement: the check finds a tail of
the chosen histogram if there is one, and where there is none it finds nothing, whatever else the
text holds (`checkLatencyTail_exact`).
-/

namespace Bottleneck

open Text (occursIn)

/-- The names of the histograms of a text in the order in which they were first seen. -/
def DataLine.histogramNames (text : String) : List String :=
  ((bucketLines (all text)).map (·.name)).eraseDups

/-- The first of the names that has the first of the patterns which any name has. -/
def IsChosen (names patterns : List String) (name : String) : Prop :=
  ∃ pattern, First (fun pattern => ∃ name ∈ names, occursIn pattern name = true) pattern patterns ∧
    First (fun name => occursIn pattern name = true) name names

theorem isChosen_iff {names patterns : List String} {name : String} :
    IsChosen names patterns name ↔
      (patterns.findSome? fun pattern => names.find? (occursIn pattern)) = some name := by
  simp only [IsChosen, findSome?_eq_some_iff_first, find?_eq_some_iff_first, List.find?_isSome]

instance (names patterns : List String) (name : String) :
    Decidable (IsChosen names patterns name) := decidable_of_iff _ isChosen_iff.symm

theorem IsChosen.unique {names patterns : List String} {x y : String}
    (hx : IsChosen names patterns x) (hy : IsChosen names patterns y) : x = y :=
  Option.some.inj ((isChosen_iff.mp hx).symm.trans (isChosen_iff.mp hy))

theorem Snapshot.latencyHistogram?_parse_iff {text name : String} {patterns : List String} :
    (parse text).latencyHistogram? patterns = some name ↔
      IsChosen (DataLine.histogramNames text) patterns name := by
  rw [isChosen_iff, latencyHistogram?, histogramNames_parse, DataLine.histogramNames]

/-- Whatever is chosen has a bucket. -/
theorem IsChosen.buckets_ne_nil {text name : String} {patterns : List String}
    (h : IsChosen (DataLine.histogramNames text) patterns name) :
    (Snapshot.parse text).buckets name ≠ [] := by
  obtain ⟨pattern, -, -, before, after, hsplit, -⟩ := h
  have hname : name ∈ DataLine.histogramNames text := by
    rw [hsplit]
    exact List.mem_append_right before List.mem_cons_self
  obtain ⟨line, hline, hnamed⟩ := List.mem_map.mp (List.mem_eraseDups.mp hname)
  have hfound : line ∈ (DataLine.bucketLines (DataLine.all text)).filter (·.name = name) :=
    List.mem_filter.mpr ⟨hline, decide_eq_true hnamed⟩
  rw [Snapshot.buckets_parse]
  exact List.ne_nil_of_mem (List.mem_map_of_mem hfound)

/-! ## The tail of one histogram -/

/-- The least bounds that hold half and 95 percent of the total are far apart. -/
structure IsTail (buckets : List Bucket) (total p50 p95 : Float) : Prop where
  finite : p50.isFinite = true ∧ p95.isFinite = true
  median : Percentiles.IsRank buckets (total * 0.50) p50
  ninetyFifth : Percentiles.IsRank buckets (total * 0.95) p95
  apart : p95 > tailRatio * p50

instance (buckets : List Bucket) (total p50 p95 : Float) :
    Decidable (IsTail buckets total p50 p95) :=
  decidable_of_iff ((p50.isFinite = true ∧ p95.isFinite = true) ∧
      Percentiles.IsRank buckets (total * 0.50) p50 ∧
      Percentiles.IsRank buckets (total * 0.95) p95 ∧ p95 > tailRatio * p50)
    ⟨fun h => ⟨h.1, h.2.1, h.2.2.1, h.2.2.2⟩,
      fun h => ⟨h.finite, h.median, h.ninetyFifth, h.apart⟩⟩

theorem Snapshot.nonzero_iff {x : Float} : nonzero x = true ↔ ¬ (x = 0 ∨ x = -0) := by
  rw [← Number.beq_zero_iff, nonzero, bne, Bool.not_eq_true', Bool.not_eq_true]

/-- A total is never zero. -/
theorem Snapshot.total?_ne_zero {s : Snapshot} {histogram : String} {total : Float}
    (h : s.total? histogram = some total) : ¬ (total = 0 ∨ total = -0) := by
  rw [total?, Option.orElse_eq_orElse, Option.orElse_eq_or, Option.or_eq_some_iff] at h
  rw [← nonzero_iff]
  rcases h with hfound | ⟨-, hfound⟩
  · exact (Option.filter_eq_some_iff.mp hfound).2
  · exact (Option.filter_eq_some_iff.mp hfound).2

theorem isNaN_tailRatio_mul (x : Float) : (tailRatio * x).isNaN = x.isNaN :=
  Number.isNaN_scaled_left (by decide +kernel)

theorem isTail_iff {buckets : List Bucket} {total p50 p95 : Float}
    (htotal : ¬ (total = 0 ∨ total = -0)) :
    IsTail buckets total p50 p95 ↔ (Percentiles.estimate buckets total).p50 = some p50 ∧
      (Percentiles.estimate buckets total).p95 = some p95 ∧ ¬ p95 ≤ tailRatio * p50 := by
  have hranks := Percentiles.nearestRank_estimate buckets total
  have hapart : p50.isFinite = true → p95.isFinite = true →
      (¬ p95 ≤ tailRatio * p50 ↔ p95 > tailRatio * p50) := fun h50 h95 =>
    Number.not_le (Number.isNaN_of_isFinite h95)
      ((isNaN_tailRatio_mul p50).trans (Number.isNaN_of_isFinite h50))
  constructor
  · intro h
    have hbuckets : buckets ≠ [] := by
      rintro rfl
      obtain ⟨bucket, hmem, -⟩ := h.median.reaches
      cases hmem
    have hfull : ¬ Percentiles.Void buckets total := not_or.mpr ⟨hbuckets, htotal⟩
    exact ⟨(hranks.some_iff hfull .p50 p50).mpr h.median,
      (hranks.some_iff hfull .p95 p95).mpr h.ninetyFifth,
      (hapart h.finite.1 h.finite.2).mpr h.apart⟩
  · rintro ⟨h50, h95, htail⟩
    have hfull : ¬ Percentiles.Void buckets total := by
      intro hvoid
      have hnone : (Percentiles.estimate buckets total).p50 = none := hranks.of_void hvoid .p50
      rw [hnone] at h50
      cases h50
    have hfinite : p50.isFinite = true ∧ p95.isFinite = true :=
      ⟨(hranks.own .p50 p50 h50).1, (hranks.own .p95 p95 h95).1⟩
    exact {
      finite := hfinite
      median := (hranks.some_iff hfull .p50 p50).mp h50
      ninetyFifth := (hranks.some_iff hfull .p95 p95).mp h95
      apart := (hapart hfinite.1 hfinite.2).mp htail }

/-! ## The check -/

/-- The snapshot of the text has a total for the histogram and a tail by this total. -/
def Snapshot.HasTail (s : Snapshot) (histogram : String) (p50 p95 : Float) : Prop :=
  ∃ total, s.total? histogram = some total ∧ IsTail (s.buckets histogram) total p50 p95

theorem checkLatencyTail_parse_iff {rules : Rules} {text : String} {issue : Issue} :
    checkLatencyTail rules (.parse text) = some issue ↔
      ∃ name p50 p95, IsChosen (DataLine.histogramNames text) rules.latencyHistograms name ∧
        (Snapshot.parse text).HasTail name p50 p95 ∧
        issue = ⟨.latencyTail, .high, name, .tail p50 p95, explainTail p50 p95⟩ := by
  rw [checkLatencyTail_eq_some_iff]
  constructor
  · rintro ⟨name, total, p50, p95, hname, htotal, h50, h95, htail, rfl⟩
    exact ⟨name, p50, p95, Snapshot.latencyHistogram?_parse_iff.mp hname,
      ⟨total, htotal, (isTail_iff (Snapshot.total?_ne_zero htotal)).mpr ⟨h50, h95, htail⟩⟩, rfl⟩
  · rintro ⟨name, p50, p95, hname, ⟨total, htotal, htail⟩, rfl⟩
    obtain ⟨h50, h95, hapart⟩ := (isTail_iff (Snapshot.total?_ne_zero htotal)).mp htail
    exact ⟨name, total, p50, p95, Snapshot.latencyHistogram?_parse_iff.mpr hname, htotal, h50, h95,
      hapart, rfl⟩

/-- What is chosen decides, by its buckets and its total. -/
theorem IsChosen.checkLatencyTail_eq {rules rules' : Rules} {text text' name : String}
    (h : IsChosen (DataLine.histogramNames text) rules.latencyHistograms name)
    (h' : IsChosen (DataLine.histogramNames text') rules'.latencyHistograms name)
    (hbuckets : (Snapshot.parse text').buckets name = (Snapshot.parse text).buckets name)
    (htotal : (Snapshot.parse text').total? name = (Snapshot.parse text).total? name) :
    checkLatencyTail rules' (.parse text') = checkLatencyTail rules (.parse text) := by
  have htail (p50 p95 : Float) :
      (Snapshot.parse text').HasTail name p50 p95 ↔ (Snapshot.parse text).HasTail name p50 p95 := by
    rw [Snapshot.HasTail, Snapshot.HasTail, hbuckets, htotal]
  refine Option.ext fun issue => ?_
  rw [checkLatencyTail_parse_iff, checkLatencyTail_parse_iff]
  constructor
  · rintro ⟨other, p50, p95, hother, hother', rfl⟩
    obtain rfl := hother.unique h'
    exact ⟨other, p50, p95, h, (htail p50 p95).mp hother', rfl⟩
  · rintro ⟨other, p50, p95, hother, hother', rfl⟩
    obtain rfl := hother.unique h
    exact ⟨other, p50, p95, h', (htail p50 p95).mpr hother', rfl⟩

/-- **The check finds exactly the tail of the chosen histogram.** Nothing is chosen for its
contents: without a tail there, no other histogram and no later pattern is looked at, and any other
text and rules that choose a histogram of this name with these buckets and this total give the same
result. What is chosen is never without buckets. -/
theorem checkLatencyTail_exact (rules : Rules) (text : String) :
    (∀ issue, checkLatencyTail rules (.parse text) = some issue ↔
      ∃ name p50 p95, IsChosen (DataLine.histogramNames text) rules.latencyHistograms name ∧
        (Snapshot.parse text).HasTail name p50 p95 ∧
        issue = ⟨.latencyTail, .high, name, .tail p50 p95, explainTail p50 p95⟩) ∧
      ∀ name, IsChosen (DataLine.histogramNames text) rules.latencyHistograms name →
        (Snapshot.parse text).buckets name ≠ [] ∧
        (checkLatencyTail rules (.parse text) = none ↔
          ¬ ∃ p50 p95, (Snapshot.parse text).HasTail name p50 p95) ∧
        ∀ (rules' : Rules) (text' : String),
          IsChosen (DataLine.histogramNames text') rules'.latencyHistograms name →
          (Snapshot.parse text').buckets name = (Snapshot.parse text).buckets name →
          (Snapshot.parse text').total? name = (Snapshot.parse text).total? name →
          checkLatencyTail rules' (.parse text') = checkLatencyTail rules (.parse text) := by
  refine ⟨fun issue => checkLatencyTail_parse_iff, fun name h => ⟨h.buckets_ne_nil, ?_, ?_⟩⟩
  · rw [Option.eq_none_iff_forall_ne_some]
    constructor
    · rintro hnone ⟨p50, p95, htail⟩
      exact hnone _ (checkLatencyTail_parse_iff.mpr ⟨name, p50, p95, h, htail, rfl⟩)
    · intro hnone issue hissue
      obtain ⟨other, p50, p95, hother, htail, -⟩ := checkLatencyTail_parse_iff.mp hissue
      obtain rfl := hother.unique h
      exact hnone ⟨p50, p95, htail⟩
  · intro rules' text' h' hbuckets htotal
    exact h.checkLatencyTail_eq h' hbuckets htotal

/-- A histogram with a tail, between one that no pattern has and two that are not the first. -/
def skewed : String :=
  "other_bucket\x7ble=\"+Inf\"\x7d 9\nwait_bucket\x7ble=\"0.1\"\x7d 50\n" ++
    "late_wait_bucket 7\nwait_bucket\x7ble=\"2\"\x7d 96\nwait_bucket\x7ble=\"+Inf\"\x7d 100\n" ++
    "rest_bucket 1"

/-- The same histogram by itself. -/
def skewedAlone : String :=
  "wait_bucket\x7ble=\"0.1\"\x7d 50\nwait_bucket\x7ble=\"2\"\x7d 96\n" ++
    "wait_bucket\x7ble=\"+Inf\"\x7d 100"

def skewedRules : Rules := ⟨[], [], ["lost_bucket", "wait_bucket", "rest_bucket"]⟩

theorem checkLatencyTail_exact_skewed :
    IsChosen (DataLine.histogramNames skewed) skewedRules.latencyHistograms "wait_bucket" ∧
      IsChosen (DataLine.histogramNames skewedAlone) ["bucket"] "wait_bucket" ∧
      (Snapshot.parse skewed).buckets "wait_bucket" ≠ [] ∧
      (∃ p50 p95, (Snapshot.parse skewed).HasTail "wait_bucket" p50 p95) ∧
      checkLatencyTail skewedRules (.parse skewed) ≠ none ∧
      checkLatencyTail ⟨[], [], ["bucket"]⟩ (.parse skewedAlone) =
        checkLatencyTail skewedRules (.parse skewed) := by
  have hchosen : IsChosen (DataLine.histogramNames skewed) skewedRules.latencyHistograms
      "wait_bucket" := by decide +kernel
  have halone : IsChosen (DataLine.histogramNames skewedAlone) ["bucket"] "wait_bucket" := by
    decide +kernel
  have hbuckets (text : String) (h : text = skewed ∨ text = skewedAlone) :
      (Snapshot.parse text).buckets "wait_bucket" =
        [⟨"le=\"0.1\"", [⟨"le", "0.1"⟩], 50⟩, ⟨"le=\"2\"", [⟨"le", "2"⟩], 96⟩,
          ⟨"le=\"+Inf\"", [⟨"le", "+Inf"⟩], 100⟩] := by
    rw [Snapshot.buckets_parse]
    rcases h with rfl | rfl <;> decide +kernel
  have htotal (text : String) (h : text = skewed ∨ text = skewedAlone) :
      (Snapshot.parse text).total? "wait_bucket" = some 100 := by
    have hunbounded : (Option.map Bucket.count (((Snapshot.parse text).buckets
        "wait_bucket").find? Bucket.isInf)).filter Snapshot.nonzero = some 100 := by
      rw [hbuckets text h]
      decide +kernel
    rw [Snapshot.total?, hunbounded]
    rfl
  have htail : (Snapshot.parse skewed).HasTail "wait_bucket" 0.1 2 := by
    refine ⟨100, htotal skewed (.inl rfl), ?_⟩
    rw [hbuckets skewed (.inl rfl)]
    exact ⟨by decide +kernel, by decide +kernel, by decide +kernel, by decide +kernel⟩
  obtain ⟨hnonempty, hnone, hsame⟩ :=
    (checkLatencyTail_exact skewedRules skewed).2 "wait_bucket" hchosen
  refine ⟨hchosen, halone, hnonempty, ⟨0.1, 2, htail⟩, fun h => hnone.mp h ⟨0.1, 2, htail⟩, ?_⟩
  refine hsame ⟨[], [], ["bucket"]⟩ skewedAlone halone ?_ ?_
  · rw [hbuckets skewedAlone (.inr rfl), hbuckets skewed (.inl rfl)]
  · rw [htotal skewedAlone (.inr rfl), htotal skewed (.inl rfl)]

end Bottleneck
