import Bottleneck.Diagnosis

/-!
What the checks look at and what they find. A pool check asks for the values that the patterns of
its table match, and the check for a latency tail asks for a histogram, its total and its estimates.
Snapshots that answer these questions alike have the same findings (`checkPool_congr`,
`checkLatencyTail_congr`), and an issue tells what the answers were (`checkPool_eq_some_iff`,
`checkLatencyTail_eq_some_iff`).
-/

namespace Bottleneck

theorem findSome?_congr {α β : Type} {f g : α → Option β} {xs : List α}
    (h : ∀ x ∈ xs, f x = g x) : xs.findSome? f = xs.findSome? g := by
  induction xs with
  | nil => rfl
  | cons x xs ih =>
    obtain ⟨hx, hxs⟩ := List.forall_mem_cons.mp h
    rw [List.findSome?_cons, List.findSome?_cons, hx, ih hxs]

variable {s t : Snapshot}

/-- The values that a table of pools asks for are all that its check looks at. -/
theorem checkPool_congr {patterns : List PoolPattern}
    (h : ∀ pair ∈ patterns, s.valueMatching? pair.current = t.valueMatching? pair.current ∧
      s.valueMatching? pair.max = t.valueMatching? pair.max)
    (kind : IssueKind) (explain : PoolUsage → String) :
    checkPool kind explain s patterns = checkPool kind explain t patterns := by
  have hfirst : PoolUsage.first? s patterns = PoolUsage.first? t patterns := by
    refine findSome?_congr fun pair hpair => ?_
    obtain ⟨hcurrent, hmax⟩ := h pair hpair
    rw [PoolUsage.ofPattern?, PoolUsage.ofPattern?, hcurrent, hmax]
  rw [checkPool, checkPool, hfirst]

/-! ## What an issue tells -/

namespace PoolUsage

theorem ofPattern?_eq_some_iff {pattern : PoolPattern} {usage : PoolUsage} :
    ofPattern? s pattern = some usage ↔
      s.valueMatching? pattern.current = some usage.current ∧
        s.valueMatching? pattern.max = some usage.max ∧ ¬ usage.max ≤ 0 ∧
          usage.pattern = pattern := by
  constructor
  · intro h
    obtain ⟨current, hcurrent, h⟩ := Option.bind_eq_some_iff.mp h
    obtain ⟨max, hmax, h⟩ := Option.bind_eq_some_iff.mp h
    split at h
    · cases h
    · rename_i hpositive
      cases h
      exact ⟨hcurrent, hmax, hpositive, rfl⟩
  · rintro ⟨hcurrent, hmax, hpositive, rfl⟩
    refine Option.bind_eq_some_iff.mpr ⟨_, hcurrent, ?_⟩
    exact Option.bind_eq_some_iff.mpr ⟨_, hmax, if_neg hpositive⟩

/-- The usage comes from a pair of the table. -/
theorem pattern_mem_of_first? {patterns : List PoolPattern} {usage : PoolUsage}
    (h : first? s patterns = some usage) : usage.pattern ∈ patterns := by
  obtain ⟨pattern, hpattern, hof⟩ := List.exists_of_findSome?_eq_some h
  exact (ofPattern?_eq_some_iff.mp hof).2.2.2 ▸ hpattern

end PoolUsage

theorem checkPool_eq_some_iff {kind : IssueKind} {explain : PoolUsage → String}
    {patterns : List PoolPattern} {issue : Issue} :
    checkPool kind explain s patterns = some issue ↔
      ∃ usage severity, PoolUsage.first? s patterns = some usage ∧
        usage.severity? = some severity ∧
        issue = ⟨kind, severity, usage.pattern.label,
          .usage usage.percent usage.current usage.max, explain usage⟩ := by
  constructor
  · intro h
    obtain ⟨usage, hfirst, h⟩ := Option.bind_eq_some_iff.mp h
    obtain ⟨severity, hseverity, h⟩ := Option.bind_eq_some_iff.mp h
    cases h
    exact ⟨usage, severity, hfirst, hseverity, rfl⟩
  · rintro ⟨usage, severity, hfirst, hseverity, rfl⟩
    refine Option.bind_eq_some_iff.mpr ⟨usage, hfirst, ?_⟩
    exact Option.bind_eq_some_iff.mpr ⟨severity, hseverity, rfl⟩

theorem Percentiles.estimate_nil (total : Float) : estimate [] total = {} := rfl

theorem checkLatencyTail_eq_some_iff {rules : Rules} {issue : Issue} :
    checkLatencyTail rules s = some issue ↔
      ∃ name total p50 p95, s.latencyHistogram? rules.latencyHistograms = some name ∧
        s.total? name = some total ∧
        (Percentiles.estimate (s.buckets name) total).p50 = some p50 ∧
        (Percentiles.estimate (s.buckets name) total).p95 = some p95 ∧
        ¬ p95 ≤ tailRatio * p50 ∧
        issue = ⟨.latencyTail, .high, name, .tail p50 p95, explainTail p50 p95⟩ := by
  constructor
  · intro h
    obtain ⟨name, hname, h⟩ := Option.bind_eq_some_iff.mp h
    split at h
    · cases h
    obtain ⟨total, htotal, h⟩ := Option.bind_eq_some_iff.mp h
    obtain ⟨p50, hp50, h⟩ := Option.bind_eq_some_iff.mp h
    obtain ⟨p95, hp95, h⟩ := Option.bind_eq_some_iff.mp h
    split at h
    · cases h
    · rename_i htail
      cases h
      exact ⟨name, total, p50, p95, hname, htotal, hp50, hp95, htail, rfl⟩
  · rintro ⟨name, total, p50, p95, hname, htotal, hp50, hp95, htail, rfl⟩
    have hbuckets : ¬ (s.buckets name).isEmpty = true := by
      intro hempty
      rw [List.isEmpty_iff.mp hempty, Percentiles.estimate_nil] at hp50
      cases hp50
    refine Option.bind_eq_some_iff.mpr ⟨name, hname, (if_neg hbuckets).trans ?_⟩
    refine Option.bind_eq_some_iff.mpr ⟨total, htotal, ?_⟩
    refine Option.bind_eq_some_iff.mpr ⟨p50, hp50, ?_⟩
    exact Option.bind_eq_some_iff.mpr ⟨p95, hp95, if_neg htail⟩

/-- The chosen histogram, its total and its estimates are all that the check for a latency tail
looks at. -/
theorem checkLatencyTail_congr {rules : Rules}
    (hchosen : s.latencyHistogram? rules.latencyHistograms =
      t.latencyHistogram? rules.latencyHistograms)
    (h : ∀ histogram, t.latencyHistogram? rules.latencyHistograms = some histogram →
      s.total? histogram = t.total? histogram ∧
        ∀ total, Percentiles.estimate (s.buckets histogram) total =
          Percentiles.estimate (t.buckets histogram) total) :
    checkLatencyTail rules s = checkLatencyTail rules t := by
  refine Option.ext fun issue => ?_
  rw [checkLatencyTail_eq_some_iff, checkLatencyTail_eq_some_iff, hchosen]
  refine exists_congr fun name => exists_congr fun total => ?_
  refine exists_congr fun p50 => exists_congr fun p95 => and_congr_right fun hname => ?_
  obtain ⟨htotal, hestimate⟩ := h name hname
  rw [htotal, hestimate]

theorem mem_diagnose_iff {rules : Rules} {issue : Issue} :
    issue ∈ diagnose rules s ↔ checkThreadPool rules s = some issue ∨
      checkConnectionPool rules s = some issue ∨ checkLatencyTail rules s = some issue := by
  simp only [diagnose, List.mem_filterMap, List.mem_cons, List.not_mem_nil, or_false, id_eq,
    exists_eq_right, eq_comm]

/-- A latency tail comes from the check for it. -/
theorem mem_diagnose_latencyTail_iff {rules : Rules} {issue : Issue} :
    issue ∈ diagnose rules s ∧ issue.kind = .latencyTail ↔
      checkLatencyTail rules s = some issue := by
  rw [mem_diagnose_iff]
  constructor
  · intro ⟨h, hkind⟩
    rcases h with h | h | h
    · obtain ⟨usage, severity, -, -, rfl⟩ := checkPool_eq_some_iff.mp h
      cases hkind
    · obtain ⟨usage, severity, -, -, rfl⟩ := checkPool_eq_some_iff.mp h
      cases hkind
    · exact h
  · intro h
    obtain ⟨name, total, p50, p95, -, -, -, -, -, hissue⟩ := checkLatencyTail_eq_some_iff.mp h
    exact ⟨.inr (.inr h), congrArg Issue.kind hissue⟩

end Bottleneck
