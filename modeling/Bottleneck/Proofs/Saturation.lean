import Bottleneck.Proofs.Number.Product
import Bottleneck.Proofs.Pool

/-!
When a pool is reported. A usage is reported if its percentage exceeds the lower threshold, and it
is severe from the upper threshold on; but a check refuses what is at or below the threshold, and of
two infinite values there is no percentage to refuse (`PoolUsage.isNaN_percent_iff`). Main
statement: the thresholds decide all findings of the pool checks, except that such a usage is
reported as well (`analyze_thresholds`).
-/

namespace Bottleneck

namespace PoolUsage

/-- Both values are too large for a double. -/
def Overflows (usage : PoolUsage) : Prop :=
  usage.current.isInf = true ∧ usage.max.isInf = true

variable {text : String} {usage : PoolUsage}

theorem isNaN_percent_iff (h : usage.IsToldBy text) :
    usage.percent.isNaN = true ↔ usage.Overflows := by
  have hcurrent : usage.current.isNaN = false :=
    Snapshot.isNaN_of_valueMatching? (Snapshot.valueMatching?_parse_iff.mpr h.current)
  have hpercent : usage.percent.isNaN = (usage.current / usage.max).isNaN :=
    (Number.isNaN_scaled (by decide +kernel)).1
  rw [hpercent, Number.isNaN_div_of_pos hcurrent h.max_pos, Overflows]

/-- The severity of a usage by its percentage. -/
structure IsRated (usage : PoolUsage) (severity : Severity) : Prop where
  exceeds : usage.percent > warnUsagePercent
  high_iff : severity = .high ↔ usage.percent ≥ highUsagePercent
  medium_iff : severity = .medium ↔
    usage.percent > warnUsagePercent ∧ usage.percent < highUsagePercent

theorem severity?_eq_none_iff : usage.severity? = none ↔ usage.percent ≤ warnUsagePercent := by
  unfold severity?
  split
  · exact iff_of_true rfl ‹_›
  · split <;> exact iff_of_false nofun ‹_›

theorem severity?_eq_some_iff (h : usage.percent.isNaN = false) {severity : Severity} :
    usage.severity? = some severity ↔ usage.IsRated severity := by
  have hwarn : ¬ usage.percent ≤ warnUsagePercent ↔ usage.percent > warnUsagePercent :=
    Number.not_le h (by decide +kernel)
  have hhigh : ¬ usage.percent ≥ highUsagePercent ↔ usage.percent < highUsagePercent :=
    Number.not_le (by decide +kernel) h
  unfold severity?
  split
  · rename_i hle
    exact iff_of_false nofun fun hrated => hwarn.mpr hrated.exceeds hle
  rename_i hle
  have hexceeds := hwarn.mp hle
  split
  · rename_i hge
    have hmedium : ¬ usage.percent < highUsagePercent := fun hlt => hhigh.mpr hlt hge
    cases severity with
    | high => exact iff_of_true rfl ⟨hexceeds, by simp [hge], by simp [hmedium]⟩
    | medium => exact iff_of_false nofun fun hrated => hmedium (hrated.medium_iff.mp rfl).2
  · rename_i hge
    have hlt := hhigh.mp hge
    cases severity with
    | high => exact iff_of_false nofun fun hrated => hge (hrated.high_iff.mp rfl)
    | medium => exact iff_of_true rfl ⟨hexceeds, by simp [hge], by simp [hlt, hexceeds]⟩

/-- Neither comparison holds of NaN. -/
theorem severity?_of_isNaN (h : usage.percent.isNaN = true) : usage.severity? = some .medium := by
  have hwarn : ¬ usage.percent ≤ warnUsagePercent :=
    fun hle => Bool.false_ne_true ((Number.isNaN_of_le hle).1.symm.trans h)
  have hhigh : ¬ usage.percent ≥ highUsagePercent :=
    fun hge => Bool.false_ne_true ((Number.isNaN_of_le hge).2.symm.trans h)
  rw [severity?, if_neg hwarn, if_neg hhigh]

/-- A usage is reported for its percentage or for want of one. -/
theorem severity?_cases (htold : usage.IsToldBy text) {severity : Severity}
    (h : usage.severity? = some severity) : usage.IsRated severity ∨
      usage.Overflows ∧ usage.percent.isNaN = true ∧ severity = .medium := by
  cases hnan : usage.percent.isNaN with
  | false => exact .inl ((severity?_eq_some_iff hnan).mp h)
  | true =>
    rw [severity?_of_isNaN hnan, Option.some.injEq] at h
    exact .inr ⟨(isNaN_percent_iff htold).mp hnan, rfl, h.symm⟩

theorem isSome_severity?_iff (htold : usage.IsToldBy text) :
    usage.severity?.isSome = true ↔ usage.percent > warnUsagePercent ∨ usage.Overflows := by
  rw [← isNaN_percent_iff htold, ← Option.ne_none_iff_isSome, Ne, severity?_eq_none_iff]
  exact Number.not_le_iff (by decide +kernel)

end PoolUsage

/-! ## The findings -/

theorem Pool.mem_analyze_iff {rules : Rules} {text : String} {issue : Issue} :
    issue ∈ analyze rules text ∧ issue.kind ≠ .latencyTail ↔
      ∃ pool : Pool, pool.check rules (.parse text) = some issue := by
  rw [analyze, mem_diagnose_iff]
  constructor
  · rintro ⟨h | h | h, hkind⟩
    · exact ⟨.thread, h⟩
    · exact ⟨.connection, h⟩
    · obtain ⟨name, total, p50, p95, -, -, -, -, -, rfl⟩ := checkLatencyTail_eq_some_iff.mp h
      exact absurd rfl hkind
  · rintro ⟨pool, h⟩
    have hkind : issue.kind = pool.kind := by
      rw [check_eq] at h
      obtain ⟨usage, -, h⟩ := Option.bind_eq_some_iff.mp h
      obtain ⟨severity, -, rfl⟩ := Option.map_eq_some_iff.mp h
      rfl
    rw [hkind]
    cases pool with
    | thread => exact ⟨.inl h, nofun⟩
    | connection => exact ⟨.inr (.inl h), nofun⟩

/-- **The thresholds decide what is reported.** Every issue of a pool comes from a usage that the
text tells, whose percentage exceeds the lower threshold, and is severe from the upper threshold on;
and the first usage of a table is reported if it exceeds the lower threshold. The one exception is a
usage of two infinite values: it has no percentage, and it is reported all the same. -/
theorem analyze_thresholds (rules : Rules) (text : String) :
    (∀ issue ∈ analyze rules text, issue.kind ≠ .latencyTail →
      ∃ usage : PoolUsage, usage.IsToldBy text ∧ issue.metric = usage.pattern.label ∧
        issue.figures = .usage usage.percent usage.current usage.max ∧
        (usage.IsRated issue.severity ∨
          usage.Overflows ∧ usage.percent.isNaN = true ∧ issue.severity = .medium)) ∧
      ∀ (pool : Pool) (usage : PoolUsage), usage.IsFirst text (pool.table rules) →
        ((pool.check rules (.parse text)).isSome = true ↔
          usage.percent > warnUsagePercent ∨ usage.Overflows) := by
  constructor
  · intro issue hissue hkind
    obtain ⟨pool, hcheck⟩ := Pool.mem_analyze_iff.mp ⟨hissue, hkind⟩
    rw [Pool.check_eq] at hcheck
    obtain ⟨usage, hfirst, hcheck⟩ := Option.bind_eq_some_iff.mp hcheck
    obtain ⟨severity, hseverity, rfl⟩ := Option.map_eq_some_iff.mp hcheck
    have htold := (PoolUsage.first?_parse_iff.mp hfirst).2
    exact ⟨usage, htold, rfl, rfl, PoolUsage.severity?_cases htold hseverity⟩
  · intro pool usage hfirst
    rw [Pool.check_parse_eq hfirst, Option.isSome_map]
    exact PoolUsage.isSome_severity?_iff hfirst.2

/-- Two pools, one in use to 85 percent and one to 60. -/
def crowded : String := "busy 85\nbusy_max 100\nopen 60\nopen_max 100"

def crowdedRules : Rules where
  threadPool := [⟨"spare", "spare_max"⟩, ⟨"busy", "busy_max"⟩]
  connectionPool := [⟨"open", "open_max"⟩]
  latencyHistograms := []

theorem analyze_thresholds_crowded :
    (∃ issue ∈ analyze crowdedRules crowded, issue.kind ≠ .latencyTail ∧
      ∃ usage : PoolUsage, usage.IsToldBy crowded ∧
        issue.figures = .usage usage.percent usage.current usage.max ∧
        (usage.IsRated issue.severity ∨
          usage.Overflows ∧ usage.percent.isNaN = true ∧ issue.severity = .medium)) ∧
      ∃ usage : PoolUsage, usage.IsFirst crowded (Pool.connection.table crowdedRules) ∧
        ¬ (usage.percent > warnUsagePercent ∨ usage.Overflows) := by
  obtain ⟨hissues, hchecks⟩ := analyze_thresholds crowdedRules crowded
  have hthread : PoolUsage.first? (.parse crowded) (Pool.thread.table crowdedRules) =
      some ⟨⟨"busy", "busy_max"⟩, 85, 100⟩ := by
    unfold PoolUsage.first? PoolUsage.ofPattern?
    simp only [Snapshot.valueMatching?_parse]
    decide +kernel
  have hconnection : PoolUsage.first? (.parse crowded) (Pool.connection.table crowdedRules) =
      some ⟨⟨"open", "open_max"⟩, 60, 100⟩ := by
    unfold PoolUsage.first? PoolUsage.ofPattern?
    simp only [Snapshot.valueMatching?_parse]
    decide +kernel
  have hopen := PoolUsage.first?_parse_iff.mp hconnection
  constructor
  · have hseverity : (⟨⟨"busy", "busy_max"⟩, 85, 100⟩ : PoolUsage).severity? = some .medium := by
      decide +kernel
    have hcheck := Pool.check_parse_eq (PoolUsage.first?_parse_iff.mp hthread)
    rw [hseverity, Option.map_some] at hcheck
    obtain ⟨hmem, hkind⟩ := Pool.mem_analyze_iff.mpr ⟨.thread, hcheck⟩
    obtain ⟨usage, htold, -, hfigures, hrated⟩ := hissues _ hmem hkind
    exact ⟨_, hmem, hkind, usage, htold, hfigures, hrated⟩
  · refine ⟨_, hopen, ?_⟩
    rw [← hchecks .connection _ hopen, Pool.check_parse_eq hopen]
    decide +kernel

/-- A text whose values are both too large for a double. -/
def overflowingPool : String := "tomcat_threads_busy 1e999\ntomcat_threads_max 1e999"

theorem exists_issue_not_above_threshold :
    ∃ issue ∈ analyze .builtIn overflowingPool, issue.kind ≠ .latencyTail ∧
      ∃ percent current max, issue.figures = .usage percent current max ∧
        ¬ percent > warnUsagePercent ∧ issue.severity = .medium := by
  have hfirst : PoolUsage.first? (.parse overflowingPool) (Pool.thread.table .builtIn) =
      some ⟨⟨"tomcat_threads_busy", "tomcat_threads_max"⟩, Number.infinity, Number.infinity⟩ := by
    unfold PoolUsage.first? PoolUsage.ofPattern?
    simp only [Snapshot.valueMatching?_parse]
    decide +kernel
  have hcheck := Pool.check_parse_eq (PoolUsage.first?_parse_iff.mp hfirst)
  rw [PoolUsage.severity?_of_isNaN (by decide +kernel), Option.map_some] at hcheck
  obtain ⟨hmem, hkind⟩ := Pool.mem_analyze_iff.mpr ⟨.thread, hcheck⟩
  exact ⟨_, hmem, hkind, _, _, _, rfl, by decide +kernel, rfl⟩

end Bottleneck
