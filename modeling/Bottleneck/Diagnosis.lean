import Bottleneck.Issue
import Bottleneck.Latency
import Bottleneck.Rules

/-!
The diagnosis of a snapshot: whether its thread pool or its connection pool is nearly used up, and
whether its slowest requests are far slower than the median. The three checks run in this order and
know nothing of each other; a check that finds no data finds no issue.
-/

namespace Bottleneck

open Number (oneDecimal)

/-- The usage of a pool, taken from the values of two series. -/
structure PoolUsage where
  pattern : PoolPattern
  current : Float
  max : Float
deriving DecidableEq

namespace PoolUsage

def percent (u : PoolUsage) : Float := u.current / u.max * 100

/-- Usage that does not exceed the lower threshold is no issue. -/
def severity? (u : PoolUsage) : Option Severity :=
  if u.percent ≤ warnUsagePercent then none
  else if u.percent ≥ highUsagePercent then some .high
  else some .medium

/-- A pair resolves if the snapshot has a value for both patterns and the maximum is positive. -/
def ofPattern? (s : Snapshot) (pattern : PoolPattern) : Option PoolUsage := do
  let current ← s.valueMatching? pattern.current
  let max ← s.valueMatching? pattern.max
  if max ≤ 0 then none else some { pattern, current, max }

/-- The usage by the first pair that resolves. Later pairs are not looked at, even if this one
turns out to be no issue. -/
def first? (s : Snapshot) (patterns : List PoolPattern) : Option PoolUsage :=
  patterns.findSome? (ofPattern? s)

/-- The percentage and the two numbers that it comes from, with their unit. -/
def summary (u : PoolUsage) (unit : String) : String :=
  oneDecimal u.percent ++ "% utilized (" ++ oneDecimal u.current ++ "/" ++ oneDecimal u.max ++
    " " ++ unit ++ ")"

end PoolUsage

/-- The issue of a pool that is nearly used up, if it is. -/
def checkPool (kind : IssueKind) (explain : PoolUsage → String) (s : Snapshot)
    (patterns : List PoolPattern) : Option Issue := do
  let usage ← PoolUsage.first? s patterns
  let severity ← usage.severity?
  return {
    kind, severity
    metric := usage.pattern.label
    figures := .usage usage.percent usage.current usage.max
    explanation := explain usage }

def explainThreadPool (u : PoolUsage) : String :=
  "Thread pool is " ++ u.summary "threads" ++ ". " ++
    "Worker threads are running out, so requests queue up before they are " ++
    "processed and latency grows. Consider increasing the thread pool size " ++
    "or reducing per-request processing time."

def explainConnectionPool (u : PoolUsage) : String :=
  "Database connection pool is " ++ u.summary "connections" ++ ". " ++
    "Requests are waiting for a free database connection, which adds directly " ++
    "to request latency. Check for slow queries and connection leaks, or " ++
    "consider increasing the pool size."

def checkThreadPool (rules : Rules) (s : Snapshot) : Option Issue :=
  checkPool .threadPoolSaturation explainThreadPool s rules.threadPool

def checkConnectionPool (rules : Rules) (s : Snapshot) : Option Issue :=
  checkPool .connectionPoolSaturation explainConnectionPool s rules.connectionPool

def explainTail (p50 p95 : Float) : String :=
  let comparison := match Figures.ratioText? p50 p95 with
    | some ratio => ratio ++ " higher than"
    | none => "far above"
  "Latency tail detected: p95 (" ++ Figures.millisecondsText p95 ++ ") is " ++ comparison ++
    " p50 (" ++ Figures.millisecondsText p50 ++ "). " ++
    "A small share of requests is much slower than the majority. Common " ++
    "causes: slow database queries, external API calls, garbage collection " ++
    "pauses, or resource contention. Investigate what makes these requests " ++
    "different from the majority."

/-- The issue of a p95 that is out of proportion to the p50. Only the chosen histogram counts: if
it has no total or not enough bounds, no other one is looked at. -/
def checkLatencyTail (rules : Rules) (s : Snapshot) : Option Issue := do
  let name ← s.latencyHistogram? rules.latencyHistograms
  if (s.buckets name).isEmpty then none
  else
    let total ← s.total? name
    let estimates := Percentiles.estimate (s.buckets name) total
    let p50 ← estimates.p50
    let p95 ← estimates.p95
    if p95 ≤ tailRatio * p50 then none
    else
      return {
        kind := .latencyTail
        severity := .high
        metric := name
        figures := .tail p50 p95
        explanation := explainTail p50 p95 }

/-- All issues of a snapshot, in the order of the checks. -/
def diagnose (rules : Rules) (s : Snapshot) : List Issue :=
  [checkThreadPool rules s, checkConnectionPool rules s, checkLatencyTail rules s].filterMap id

/-- All issues of the snapshot that a text describes. -/
def analyze (rules : Rules) (text : String) : List Issue := diagnose rules (.parse text)

end Bottleneck
