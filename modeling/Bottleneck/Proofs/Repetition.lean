import Bottleneck.Proofs.Checks
import Bottleneck.Proofs.Concatenation
import Bottleneck.Proofs.Percentiles

/-!
A text after itself. Every sample is replaced by itself and every histogram gets its buckets once
more, so the snapshot is another one; but no question of the diagnosis tells the two apart, because
the first bucket of a kind is still the first and estimates do not count buckets. Main statement:
repeating a text changes no finding (`analyze_repeat`).
-/

namespace Bottleneck

namespace Snapshot

/-- A snapshot holds all of another one twice, as far as anything can be held twice. -/
structure Repeats (twice once : Snapshot) : Prop where
  /-- Each sample keeps its place and its value. -/
  samples : twice.samples.toList = once.samples.toList
  histogramNames : twice.histogramNames = once.histogramNames
  buckets : ∀ name, twice.buckets name = once.buckets name ++ once.buckets name

/-- A snapshot that continues itself. -/
theorem Merges.repeats {twice once : Snapshot} (h : twice.Merges once once) :
    twice.Repeats once where
  samples := by
    have hsame : once.samples.toList.map (fun s => (once.sample? s.key).getD s) =
        once.samples.toList := by
      conv_rhs => rw [← List.map_id once.samples.toList]
      refine List.map_congr_left fun s hs => ?_
      rw [sample?_eq_find?, find?_key_of_mem once.samples.nodup_keys hs]
      rfl
    have hnew :
        once.samples.toList.filter (fun s => s.key ∉ once.samples.toList.map (·.key)) = [] :=
      List.filter_eq_nil_iff.mpr fun s hs => by simp [List.mem_map_of_mem hs]
    rw [h.samples, hsame, hnew, List.append_nil]
  histogramNames := by
    have hnew : once.histogramNames.filter (· ∉ once.histogramNames) = [] :=
      List.filter_eq_nil_iff.mpr fun name hname => by simp [hname]
    rw [h.histogramNames, hnew, List.append_nil]
  buckets := h.buckets

namespace Repeats

variable {twice once : Snapshot} (h : twice.Repeats once)
include h

theorem valueMatching? (pattern : String) :
    twice.valueMatching? pattern = once.valueMatching? pattern := by
  rw [Snapshot.valueMatching?, Snapshot.valueMatching?, h.samples]

theorem latencyHistogram? (patterns : List String) :
    twice.latencyHistogram? patterns = once.latencyHistogram? patterns := by
  rw [Snapshot.latencyHistogram?, Snapshot.latencyHistogram?, h.histogramNames]

/-- The first unbounded bucket is found in the first half, and if there is none there is none. -/
theorem total? (histogram : String) : twice.total? histogram = once.total? histogram := by
  have hfind : (twice.buckets histogram).find? Bucket.isInf =
      (once.buckets histogram).find? Bucket.isInf := by
    rw [h.buckets, List.find?_append, Option.or_self]
  rw [Snapshot.total?, Snapshot.total?, hfind, sampleNamed?, sampleNamed?, h.samples]

theorem estimate (histogram : String) (total : Float) :
    Percentiles.estimate (twice.buckets histogram) total =
      Percentiles.estimate (once.buckets histogram) total :=
  Percentiles.estimate_congr_mem (fun bucket => by simp [h.buckets]) total

theorem diagnose (rules : Rules) : diagnose rules twice = diagnose rules once := by
  have hpool (kind : IssueKind) (explain : PoolUsage → String) (patterns : List PoolPattern) :
      checkPool kind explain twice patterns = checkPool kind explain once patterns :=
    checkPool_congr (fun pair _ => ⟨h.valueMatching? pair.current, h.valueMatching? pair.max⟩) kind
      explain
  have htail : checkLatencyTail rules twice = checkLatencyTail rules once :=
    checkLatencyTail_congr (h.latencyHistogram? _) fun histogram _ =>
      ⟨h.total? histogram, h.estimate histogram⟩
  simp only [Bottleneck.diagnose, checkThreadPool, checkConnectionPool, hpool, htail]

end Repeats

end Snapshot

/-- **Repeating a text changes no finding.** The samples are the same in the same order, and
although every histogram has its buckets twice, the same one is chosen, with the same total and the
same estimates. -/
theorem analyze_repeat (rules : Rules) (text : String) :
    let twice := Snapshot.parse (text ++ "\n" ++ text)
    let once := Snapshot.parse text
    analyze rules (text ++ "\n" ++ text) = analyze rules text ∧
      twice.samples.toList = once.samples.toList ∧
      (∀ histogram, twice.buckets histogram = once.buckets histogram ++ once.buckets histogram) ∧
      (∀ patterns, twice.latencyHistogram? patterns = once.latencyHistogram? patterns) ∧
      (∀ histogram, twice.total? histogram = once.total? histogram) ∧
      ∀ histogram total, Percentiles.estimate (twice.buckets histogram) total =
        Percentiles.estimate (once.buckets histogram) total := by
  intro twice once
  have hmerges : (Snapshot.parse (text ++ "\n" ++ text)).Merges once once := by
    rw [Snapshot.parse_append_eq]
    exact Snapshot.merges_ofLines (Line.all text) (Line.all text)
  have h : twice.Repeats once := hmerges.repeats
  exact ⟨h.diagnose rules, h.samples, h.buckets, h.latencyHistogram?, h.total?, h.estimate⟩

end Bottleneck
