import Bottleneck.Proofs.Checks
import Bottleneck.Proofs.Number.Comparison
import Bottleneck.Proofs.Precedence
import Bottleneck.Proofs.WellFormed

/-!
The check of a pool against the lines of a text. Of each series the last line counts, where the
series was first seen, and a pattern has the value of the first such line whose composite name it
occurs in (`DataLine.IsMatch`). Main statement: a check is decided by the first pair of its table
that is usable, whatever follows it, and the two checks differ in what they call their finding only
(`Pool.check_first`).
-/

namespace Bottleneck

open Text (occursIn)

namespace DataLine

/-- The last line of each series, in the order in which the series were first seen. -/
def current (text : String) : List DataLine :=
  ((scalars (all text)).map (·.toSample.key)).eraseDups.filterMap fun key =>
    ((scalars (all text)).filter (·.toSample.key = key)).getLast?

/-- The value that a text has for a pattern. -/
def IsMatch (text pattern : String) (value : Float) : Prop :=
  ∃ line, First (fun line : DataLine => occursIn pattern line.toSample.composite = true) line
    (current text) ∧ line.value = value

end DataLine

namespace Snapshot

variable {text pattern : String} {value : Float}

theorem samples_parse_eq_current (text : String) :
    (parse text).samples.toList = (DataLine.current text).map DataLine.toSample := by
  rw [DataLine.current, List.map_filterMap, parse_eq_ofLines, samples_eq_filterMap,
    Line.filterMap_data?_all]

theorem valueMatching?_parse (text pattern : String) :
    (parse text).valueMatching? pattern = ((DataLine.current text).find? fun line =>
      occursIn pattern line.toSample.composite).map (·.value) := by
  rw [valueMatching?, samples_parse_eq_current, List.find?_map, Option.map_map]
  rfl

theorem valueMatching?_parse_iff :
    (parse text).valueMatching? pattern = some value ↔ DataLine.IsMatch text pattern value := by
  rw [valueMatching?_parse, Option.map_eq_some_iff]
  exact exists_congr fun line => and_congr_left fun _ => find?_eq_some_iff_first

theorem isNaN_of_valueMatching? (h : (parse text).valueMatching? pattern = some value) :
    value.isNaN = false := by
  obtain ⟨sample, hfound, rfl⟩ := Option.map_eq_some_iff.mp h
  obtain ⟨line, hline, rfl⟩ := exists_line_of_mem_samples (List.mem_of_find?_eq_some hfound)
  exact (DataLine.writable_of_mem_all (List.mem_filter.mp hline).1).isNaN_value

end Snapshot

/-! ## The usage of a pool -/

namespace PoolUsage

variable {text : String}

/-- A text tells this usage: it has both values, and the maximum is positive. -/
structure IsToldBy (text : String) (usage : PoolUsage) : Prop where
  current : DataLine.IsMatch text usage.pattern.current usage.current
  max : DataLine.IsMatch text usage.pattern.max usage.max
  max_pos : usage.max > 0

/-- A pair can be used if the text tells a usage by it. -/
def Usable (text : String) (pair : PoolPattern) : Prop :=
  ∃ usage : PoolUsage, usage.pattern = pair ∧ usage.IsToldBy text

/-- The usage by the first pair that can be used. -/
def IsFirst (text : String) (table : List PoolPattern) (usage : PoolUsage) : Prop :=
  First (Usable text) usage.pattern table ∧ usage.IsToldBy text

theorem ofPattern?_parse_iff {pair : PoolPattern} {usage : PoolUsage} :
    ofPattern? (.parse text) pair = some usage ↔ usage.pattern = pair ∧ usage.IsToldBy text := by
  have hpositive (h : (Snapshot.parse text).valueMatching? pair.max = some usage.max) :
      ¬ usage.max ≤ 0 ↔ usage.max > 0 :=
    Number.not_le (Snapshot.isNaN_of_valueMatching? h) rfl
  rw [ofPattern?_eq_some_iff]
  constructor
  · rintro ⟨hcurrent, hmax, hle, rfl⟩
    exact ⟨rfl, Snapshot.valueMatching?_parse_iff.mp hcurrent,
      Snapshot.valueMatching?_parse_iff.mp hmax, (hpositive hmax).mp hle⟩
  · rintro ⟨rfl, hcurrent, hmax, hpos⟩
    have hmax := Snapshot.valueMatching?_parse_iff.mpr hmax
    exact ⟨Snapshot.valueMatching?_parse_iff.mpr hcurrent, hmax, (hpositive hmax).mpr hpos, rfl⟩

theorem isSome_ofPattern?_parse_iff {pair : PoolPattern} :
    (ofPattern? (.parse text) pair).isSome = true ↔ Usable text pair := by
  simp only [Option.isSome_iff_exists, ofPattern?_parse_iff, Usable]

theorem first?_parse_iff {table : List PoolPattern} {usage : PoolUsage} :
    first? (.parse text) table = some usage ↔ usage.IsFirst text table := by
  simp only [first?, findSome?_eq_some_iff_first, isSome_ofPattern?_parse_iff, ofPattern?_parse_iff]
  constructor
  · rintro ⟨pair, hfirst, rfl, htold⟩
    exact ⟨hfirst, htold⟩
  · rintro ⟨hfirst, htold⟩
    exact ⟨usage.pattern, hfirst, rfl, htold⟩

theorem first?_parse_eq_none_iff {table : List PoolPattern} :
    first? (.parse text) table = none ↔ ∀ pair ∈ table, ¬ Usable text pair := by
  simp only [first?, List.findSome?_eq_none_iff, ← isSome_ofPattern?_parse_iff, Bool.not_eq_true,
    Option.isSome_eq_false_iff, Option.isNone_iff_eq_none]

end PoolUsage

/-! ## The two checks -/

/-- The pools that are checked. -/
inductive Pool where
  | thread
  | connection

namespace Pool

def table : Pool → Rules → List PoolPattern
  | thread, rules => rules.threadPool
  | connection, rules => rules.connectionPool

/-- The rules with another table for this pool. -/
def withTable : Pool → Rules → List PoolPattern → Rules
  | thread, rules, table => { rules with threadPool := table }
  | connection, rules, table => { rules with connectionPool := table }

def check : Pool → Rules → Snapshot → Option Issue
  | thread => checkThreadPool
  | connection => checkConnectionPool

def kind : Pool → IssueKind
  | thread => .threadPoolSaturation
  | connection => .connectionPoolSaturation

def explain : Pool → PoolUsage → String
  | thread => explainThreadPool
  | connection => explainConnectionPool

/-- The issue of a usage. -/
def issue (pool : Pool) (usage : PoolUsage) (severity : Severity) : Issue where
  kind := pool.kind
  severity := severity
  metric := usage.pattern.label
  figures := .usage usage.percent usage.current usage.max
  explanation := pool.explain usage

@[simp] theorem table_withTable (pool : Pool) (rules : Rules) (table : List PoolPattern) :
    pool.table (pool.withTable rules table) = table := by
  cases pool <;> rfl

theorem check_eq (pool : Pool) (rules : Rules) (s : Snapshot) :
    pool.check rules s = (PoolUsage.first? s (pool.table rules)).bind fun usage =>
      usage.severity?.map (pool.issue usage) := by
  cases pool <;> exact Option.bind_congr fun usage _ => Option.map_eq_bind.symm

/-- A check is decided by the first pair that can be used. -/
theorem check_parse_eq {pool : Pool} {rules : Rules} {text : String} {usage : PoolUsage}
    (h : usage.IsFirst text (pool.table rules)) :
    pool.check rules (.parse text) = usage.severity?.map (pool.issue usage) := by
  rw [check_eq, PoolUsage.first?_parse_iff.mpr h]
  rfl

end Pool

/-- What an issue of a pool says apart from the pool. -/
def Issue.finding (issue : Issue) : Severity × String × Figures :=
  (issue.severity, issue.metric, issue.figures)

namespace Pool

theorem map_finding_check (pool : Pool) (rules : Rules) (s : Snapshot) :
    (pool.check rules s).map Issue.finding = (PoolUsage.first? s (pool.table rules)).bind
      fun usage => usage.severity?.map fun severity =>
        (severity, usage.pattern.label, .usage usage.percent usage.current usage.max) := by
  rw [check_eq, Option.map_bind]
  exact Option.bind_congr fun usage _ => Option.map_map ..

/-- **A check is decided by the first pair that can be used**, if there is one, and finds nothing
otherwise. The pair has its two values from the current lines, the issue has the label of the pair,
and no table that has other pairs behind it, or it alone, makes a difference, whether or not there
is an issue. Both pools have the same findings by one table. -/
theorem check_first (pool : Pool) (rules : Rules) (text : String) :
    ((∀ pair ∈ pool.table rules, ¬ PoolUsage.Usable text pair) ∧
        pool.check rules (.parse text) = none ∨
      ∃ (before after : List PoolPattern) (usage : PoolUsage),
        pool.table rules = before ++ usage.pattern :: after ∧
        (∀ pair ∈ before, ¬ PoolUsage.Usable text pair) ∧ usage.IsToldBy text ∧
        pool.check rules (.parse text) = usage.severity?.map (pool.issue usage) ∧
        pool.check (pool.withTable rules [usage.pattern]) (.parse text) =
          pool.check rules (.parse text) ∧
        ∀ later, pool.check (pool.withTable rules (before ++ usage.pattern :: later))
          (.parse text) = pool.check rules (.parse text)) ∧
      ∀ table, (thread.check (thread.withTable rules table) (.parse text)).map Issue.finding =
        (connection.check (connection.withTable rules table) (.parse text)).map Issue.finding := by
  constructor
  · cases hfirst : PoolUsage.first? (.parse text) (pool.table rules) with
    | none =>
      refine .inl ⟨PoolUsage.first?_parse_eq_none_iff.mp hfirst, ?_⟩
      rw [check_eq, hfirst]
      rfl
    | some usage =>
      have hisFirst := PoolUsage.first?_parse_iff.mp hfirst
      have ⟨⟨husable, before, after, hsplit, hbefore⟩, htold⟩ := hisFirst
      have hcheck (front later : List PoolPattern)
          (hfront : ∀ pair ∈ front, ¬ PoolUsage.Usable text pair) :
          pool.check (pool.withTable rules (front ++ usage.pattern :: later)) (.parse text) =
            pool.check rules (.parse text) := by
        rw [check_parse_eq hisFirst]
        exact check_parse_eq ⟨⟨husable, front, later, table_withTable .., hfront⟩, htold⟩
      exact .inr ⟨before, after, usage, hsplit, hbefore, htold, check_parse_eq hisFirst,
        hcheck [] [] (List.forall_mem_nil _), fun later => hcheck before later hbefore⟩
  · intro table
    rw [map_finding_check, map_finding_check, table_withTable, table_withTable]

end Pool

end Bottleneck
