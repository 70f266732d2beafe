import Bottleneck.Proofs.Checks
import Bottleneck.Proofs.Concatenation

/-!
Series that a diagnosis does not look at. Lines in the middle of a text share the lists of the
snapshot with all others, and yet a question that is put to the samples and that none of these lines
answers is answered by the samples around them (`Snapshot.find?_samples_between`); the same holds of
the histograms. Main statement: lines that no pattern of the rules occurs in, that belong to series
of their own and that count nobody's observations do not change the diagnosis
(`analyze_between`).
-/

namespace Bottleneck

open Text (occursIn)

/-- The lines of a text say nothing of what the rules look at in two others. -/
structure Unrelated (rules : Rules) (text before after : String) : Prop where
  /-- No pattern of a pool occurs in a composite name. -/
  pools : ∀ line ∈ DataLine.scalars (DataLine.all text),
    ∀ pair ∈ rules.threadPool ++ rules.connectionPool,
      occursIn pair.current line.toSample.composite = false ∧
        occursIn pair.max line.toSample.composite = false
  /-- No series is one of the others. -/
  series : ∀ line ∈ DataLine.scalars (DataLine.all text),
    ∀ other ∈ DataLine.scalars (DataLine.all before) ++ DataLine.scalars (DataLine.all after),
      line.toSample.key ≠ other.toSample.key
  /-- No series counts the observations of a histogram. -/
  totals : ∀ line ∈ DataLine.scalars (DataLine.all text),
    ∀ histogram ∈ (Snapshot.parse before).histogramNames ++ (Snapshot.parse after).histogramNames,
      line.name ≠ Snapshot.countSeriesName histogram
  /-- No pattern of the latencies occurs in the name of a histogram. -/
  latencies : ∀ line ∈ DataLine.bucketLines (DataLine.all text),
    ∀ pattern ∈ rules.latencyHistograms, occursIn pattern line.name = false

/-! ## Lines in between -/

/-- The series of a text. -/
def DataLine.series (text : String) : List SeriesKey :=
  (scalars (all text)).map (·.toSample.key)

namespace Snapshot

variable {before text after : String}

section Samples

variable (hseries : ∀ line ∈ DataLine.scalars (DataLine.all text),
  ∀ other ∈ DataLine.scalars (DataLine.all before) ++ DataLine.scalars (DataLine.all after),
    line.toSample.key ≠ other.toSample.key)
include hseries

/-- The samples of other series are those of the lines around, in their order. -/
theorem samples_between :
    ((parse (before ++ "\n" ++ text ++ "\n" ++ after)).samples.toList.filter
        (·.key ∉ DataLine.series text)) =
      (parse (before ++ "\n" ++ after)).samples.toList := by
  have hown : ((DataLine.scalars (DataLine.all text)).map DataLine.toSample).filter
      (·.key ∉ DataLine.series text) = [] := by
    refine List.filter_eq_nil_iff.mpr fun sample hsample => ?_
    obtain ⟨line, hline, rfl⟩ := List.mem_map.mp hsample
    have hkey : line.toSample.key ∈ DataLine.series text := List.mem_map.mpr ⟨line, hline, rfl⟩
    simp [hkey]
  have hothers : ((DataLine.scalars (DataLine.all before) ++
      DataLine.scalars (DataLine.all after)).map DataLine.toSample).filter
        (·.key ∉ DataLine.series text) =
      (DataLine.scalars (DataLine.all before) ++ DataLine.scalars (DataLine.all after)).map
        DataLine.toSample := by
    refine List.filter_eq_self.mpr fun sample hsample => decide_eq_true fun hkey => ?_
    obtain ⟨other, hother, rfl⟩ := List.mem_map.mp hsample
    obtain ⟨line, hline, heq⟩ := List.mem_map.mp hkey
    exact hseries line hline other hother heq
  rw [samples_parse, samples_parse,
    filter_collect Sample.keepsKey_replace fun key => key ∉ DataLine.series text,
    DataLine.all_append, DataLine.all_append, DataLine.all_append]
  simp only [DataLine.scalars_append, List.map_append, List.filter_append] at hothers ⊢
  rw [hown, List.append_nil, hothers]

/-- **A question that no line in between answers** has the answer of the lines around. -/
theorem find?_samples_between {p : Sample → Bool}
    (hp : ∀ line ∈ DataLine.scalars (DataLine.all text), p line.toSample = false) :
    (parse (before ++ "\n" ++ text ++ "\n" ++ after)).samples.toList.find? p =
      (parse (before ++ "\n" ++ after)).samples.toList.find? p := by
  rw [← samples_between hseries, List.find?_filter]
  refine List.find?_congr fun sample hsample => ?_
  by_cases hkey : sample.key ∈ DataLine.series text
  · obtain ⟨line, hline, heq⟩ := List.mem_map.mp hkey
    obtain ⟨said, hsaid, rfl⟩ := exists_line_of_mem_samples hsample
    rw [DataLine.all_append, DataLine.all_append, DataLine.scalars_append, DataLine.scalars_append,
      List.mem_append, List.mem_append] at hsaid
    -- a sample of one of the series in between comes from a line in between
    have hmem : said ∈ DataLine.scalars (DataLine.all text) := by
      rcases hsaid with (hbefore | hmem) | hafter
      · exact absurd heq (hseries line hline said (List.mem_append_left _ hbefore))
      · exact hmem
      · exact absurd heq (hseries line hline said (List.mem_append_right _ hafter))
    simp [hp said hmem]
  · simp [hkey]

end Samples

section Histograms

variable {p : String → Bool}
  (hp : ∀ line ∈ DataLine.bucketLines (DataLine.all text), p line.name = false)
include hp

theorem filter_bucketLines_between :
    (DataLine.bucketLines (DataLine.all (before ++ "\n" ++ text ++ "\n" ++ after))).filter
        (p ·.name) =
      (DataLine.bucketLines (DataLine.all (before ++ "\n" ++ after))).filter (p ·.name) := by
  have hown : (DataLine.bucketLines (DataLine.all text)).filter (p ·.name) = [] :=
    List.filter_eq_nil_iff.mpr fun line hline => by simp [hp line hline]
  simp only [DataLine.all_append, DataLine.bucketLines_append, List.filter_append, hown,
    List.append_nil]

theorem find?_histogramNames_between :
    (parse (before ++ "\n" ++ text ++ "\n" ++ after)).histogramNames.find? p =
      (parse (before ++ "\n" ++ after)).histogramNames.find? p := by
  have hnames (log : List DataLine) : (log.map (·.name)).eraseDups.find? p =
      ((log.filter (p ·.name)).map (·.name)).eraseDups.head? := by
    rw [← List.head?_filter, ← eraseDups_filter, List.filter_map]
    rfl
  rw [histogramNames_parse, histogramNames_parse, hnames, hnames, filter_bucketLines_between hp]

theorem buckets_between {name : String} (hname : p name = true) :
    (parse (before ++ "\n" ++ text ++ "\n" ++ after)).buckets name =
      (parse (before ++ "\n" ++ after)).buckets name := by
  have hlines (log : List DataLine) : log.filter (·.name = name) =
      (log.filter (p ·.name)).filter (·.name = name) := by
    rw [filter_key_filter p log name, if_pos hname]
  rw [buckets_parse, buckets_parse, hlines, filter_bucketLines_between hp, ← hlines]

end Histograms

end Snapshot

/-! ## The checks -/

namespace Unrelated

variable {rules : Rules} {text before after : String} (h : Unrelated rules text before after)
include h

theorem checkPool_between (kind : IssueKind) (explain : PoolUsage → String)
    {pairs : List PoolPattern} (hpairs : pairs ⊆ rules.threadPool ++ rules.connectionPool) :
    checkPool kind explain (.parse (before ++ "\n" ++ text ++ "\n" ++ after)) pairs =
      checkPool kind explain (.parse (before ++ "\n" ++ after)) pairs := by
  have hvalue (pattern : String)
      (hp : ∀ line ∈ DataLine.scalars (DataLine.all text),
        occursIn pattern line.toSample.composite = false) :
      (Snapshot.parse (before ++ "\n" ++ text ++ "\n" ++ after)).valueMatching? pattern =
        (Snapshot.parse (before ++ "\n" ++ after)).valueMatching? pattern :=
    congrArg (Option.map Sample.value) (Snapshot.find?_samples_between h.series hp)
  refine checkPool_congr (fun pair hpair => ?_) kind explain
  have hpools := fun line hline => h.pools line hline pair (hpairs hpair)
  exact ⟨hvalue pair.current fun line hline => (hpools line hline).1,
    hvalue pair.max fun line hline => (hpools line hline).2⟩

theorem latencyHistogram?_between :
    (Snapshot.parse (before ++ "\n" ++ text ++ "\n" ++ after)).latencyHistogram?
        rules.latencyHistograms =
      (Snapshot.parse (before ++ "\n" ++ after)).latencyHistogram? rules.latencyHistograms :=
  findSome?_congr fun pattern hpattern =>
    Snapshot.find?_histogramNames_between fun line hline => h.latencies line hline pattern hpattern

/-- The count series of a histogram of the lines around is one of theirs. -/
theorem sampleNamed?_between {histogram : String}
    (hmem : histogram ∈ (Snapshot.parse (before ++ "\n" ++ after)).histogramNames) :
    (Snapshot.parse (before ++ "\n" ++ text ++ "\n" ++ after)).sampleNamed?
        (Snapshot.countSeriesName histogram) =
      (Snapshot.parse (before ++ "\n" ++ after)).sampleNamed?
        (Snapshot.countSeriesName histogram) := by
  have haround : histogram ∈
      (Snapshot.parse before).histogramNames ++ (Snapshot.parse after).histogramNames := by
    rw [Snapshot.histogramNames_parse, DataLine.all_append, DataLine.bucketLines_append,
      List.map_append, List.mem_eraseDups, List.mem_append] at hmem
    simpa only [Snapshot.histogramNames_parse, List.mem_append, List.mem_eraseDups] using hmem
  refine Snapshot.find?_samples_between h.series fun line hline => ?_
  rw [DataLine.name_key_toSample]
  exact decide_eq_false (h.totals line hline histogram haround)

theorem checkLatencyTail_between :
    checkLatencyTail rules (.parse (before ++ "\n" ++ text ++ "\n" ++ after)) =
      checkLatencyTail rules (.parse (before ++ "\n" ++ after)) := by
  refine checkLatencyTail_congr h.latencyHistogram?_between fun histogram hchosen => ?_
  obtain ⟨pattern, hpattern, hfound⟩ := List.exists_of_findSome?_eq_some hchosen
  have hoccurs : occursIn pattern histogram = true := List.find?_some hfound
  have hbuckets : (Snapshot.parse (before ++ "\n" ++ text ++ "\n" ++ after)).buckets histogram =
      (Snapshot.parse (before ++ "\n" ++ after)).buckets histogram :=
    Snapshot.buckets_between (p := occursIn pattern)
      (fun line hline => h.latencies line hline pattern hpattern) hoccurs
  have hnamed := h.sampleNamed?_between (List.mem_of_find?_eq_some hfound)
  have htotal : (Snapshot.parse (before ++ "\n" ++ text ++ "\n" ++ after)).total? histogram =
      (Snapshot.parse (before ++ "\n" ++ after)).total? histogram := by
    rw [Snapshot.total?, Snapshot.total?, hbuckets, hnamed]
  exact ⟨htotal, fun total => by rw [hbuckets]⟩

end Unrelated

/-- **Unrelated series do not influence the diagnosis**, wherever their lines stand. -/
theorem analyze_between {rules : Rules} {text before after : String}
    (h : Unrelated rules text before after) :
    analyze rules (before ++ "\n" ++ text ++ "\n" ++ after) =
      analyze rules (before ++ "\n" ++ after) := by
  have hthread := h.checkPool_between .threadPoolSaturation explainThreadPool
    (List.subset_append_left rules.threadPool rules.connectionPool)
  have hconnection := h.checkPool_between .connectionPoolSaturation explainConnectionPool
    (List.subset_append_right rules.threadPool rules.connectionPool)
  rw [analyze, analyze, diagnose, diagnose, h.checkLatencyTail_between, checkThreadPool,
    checkThreadPool, checkConnectionPool, checkConnectionPool, hthread, hconnection]

def around : String × String :=
  ("tomcat_threads_busy 95\nhttp_request_duration_seconds_bucket 4",
    "tomcat_threads_max 100\nhttp_request_duration_seconds_count 4")

def beside : String := "queue{first} 1\nworker_seconds_bucket 7\nqueue{second} 2"

theorem analyze_between_around :
    Unrelated .builtIn beside around.1 around.2 ∧
      analyze .builtIn (around.1 ++ "\n" ++ beside ++ "\n" ++ around.2) =
        analyze .builtIn (around.1 ++ "\n" ++ around.2) := by
  have h : Unrelated .builtIn beside around.1 around.2 := {
    pools := by decide +kernel
    series := by decide +kernel
    totals := by
      simp only [Snapshot.histogramNames_parse]
      decide +kernel
    latencies := by decide +kernel }
  exact ⟨h, analyze_between h⟩

end Bottleneck
