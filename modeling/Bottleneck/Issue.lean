import Bottleneck.Number.Fixed

/-!
Issues: what a diagnosis finds. An issue carries the figures that led to it, and the texts that a
report shows of them are computed from the figures, one decimal place each.
-/

namespace Bottleneck

open Number (oneDecimal)

inductive IssueKind where
  | threadPoolSaturation
  | connectionPoolSaturation
  | latencyTail
deriving DecidableEq, Repr

/-- The stable name of a kind. -/
def IssueKind.code : IssueKind → String
  | .threadPoolSaturation => "thread_pool_saturation"
  | .connectionPoolSaturation => "connection_pool_saturation"
  | .latencyTail => "latency_tail"

/-- A word with its first letter in upper case. -/
def capitalized : List Char → List Char
  | [] => []
  | c :: cs => c.toUpper :: cs

/-- The heading under which a report lists an issue: the words of its code, capitalized. -/
def IssueKind.title (kind : IssueKind) : String :=
  .ofList ([' '].intercalate ((kind.code.toList.splitOn '_').map capitalized))

/-- Severities ascend. -/
inductive Severity where
  | medium
  | high
deriving DecidableEq, Ord, Repr

def Severity.code : Severity → String
  | .medium => "medium"
  | .high => "high"

/-! ## Names in records -/

/-- A name in lower case, with an underscore in front of every capital but the first character. -/
def snakeCase : List Char → List Char
  | [] => []
  | c :: cs => c.toLower :: cs.flatMap fun d => if d.isUpper then ['_', d.toLower] else [d]

def IssueKind.name : IssueKind → String
  | .threadPoolSaturation => "ThreadPoolSaturation"
  | .connectionPoolSaturation => "ConnectionPoolSaturation"
  | .latencyTail => "LatencyTail"

def Severity.name : Severity → String
  | .medium => "Medium"
  | .high => "High"

/-- A record calls a kind by its name. -/
def IssueKind.recordName (kind : IssueKind) : String := .ofList (snakeCase kind.name.toList)

def Severity.recordName (severity : Severity) : String := .ofList (snakeCase severity.name.toList)

theorem IssueKind.recordName_eq_code (kind : IssueKind) : kind.recordName = kind.code := by
  cases kind <;> rfl

theorem Severity.recordName_eq_code (severity : Severity) :
    severity.recordName = severity.code := by
  cases severity <;> rfl

/-- The numbers behind an issue. Latencies are in seconds. -/
inductive Figures where
  /-- How much of a pool is in use, in percent of its maximum. -/
  | usage (percent current max : Float)
  | tail (p50 p95 : Float)
deriving DecidableEq

namespace Figures

def percentText (percent : Float) : String := oneDecimal percent ++ "%"

def millisecondsText (seconds : Float) : String := oneDecimal (seconds * 1000) ++ "ms"

/-- How many times the p95 is the p50. Only a positive p50 has a ratio. -/
def ratioText? (p50 p95 : Float) : Option String :=
  if p50 > 0 then some (oneDecimal (p95 / p50) ++ "x") else none

/-- Where there is no ratio the tail is unbounded. -/
def ratioText (p50 p95 : Float) : String := (ratioText? p50 p95).getD "unbounded"

end Figures

/-- The texts of a latency tail. -/
structure TailTexts where
  p50 : String
  p95 : String
  ratio : String
deriving DecidableEq, Repr

def TailTexts.of (p50 p95 : Float) : TailTexts where
  p50 := Figures.millisecondsText p50
  p95 := Figures.millisecondsText p95
  ratio := Figures.ratioText p50 p95

namespace Figures

def usageText? : Figures → Option String
  | .usage percent _ _ => some (percentText percent)
  | .tail _ _ => none

def tailTexts? : Figures → Option TailTexts
  | .usage _ _ _ => none
  | .tail p50 p95 => some (.of p50 p95)

end Figures

structure Issue where
  kind : IssueKind
  severity : Severity
  /-- The pair of patterns or the histogram that the issue is about. -/
  metric : String
  figures : Figures
  explanation : String
deriving DecidableEq

end Bottleneck
