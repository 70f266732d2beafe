import Bottleneck.Issue
import Bottleneck.Report.Json

/-!
Reports of a list of issues. The text report is a list of lines, nine to an issue, with lines of its
own before and after them; the JSON report is an object with one record per issue.
-/

namespace Bottleneck.Report

/-! ## Text -/

def heavyRule : String := .ofList (List.replicate 80 '=')

def lightRule : String := .ofList (List.replicate 80 '-')

/-- The report of a snapshot without issues. -/
def healthyLines : List String :=
  ["✅ No issues detected! Your metrics look healthy.",
    "",
    "Note: This tool checks for common patterns. Make sure your metrics file",
    "contains the expected metric names (thread pools, connection pools, latency histograms)."]

def openingLines (count : Nat) : List String :=
  ["", "⚠️  Found " ++ toString count ++ " potential issue(s):", "", heavyRule]

def marker : Severity → String
  | .high => "🔴"
  | .medium => "🟡"

/-- The line that starts the section of an issue. Issues are numbered from one. -/
def header (number : Nat) (issue : Issue) : String :=
  marker issue.severity ++ " Issue #" ++ toString number ++ ": " ++ issue.kind.title

def figuresLine : Figures → String
  | .usage percent _ _ => "Usage: " ++ Figures.percentText percent
  | .tail p50 p95 =>
    let texts := TailTexts.of p50 p95
    "p50: " ++ texts.p50 ++ ", p95: " ++ texts.p95 ++ " (ratio: " ++ texts.ratio ++ ")"

/-- The section of an issue, from the blank line in front of its header to the one at its end. -/
def sectionLines (number : Nat) (issue : Issue) : List String :=
  ["", header number issue, lightRule, figuresLine issue.figures, "Metric: " ++ issue.metric,
    "", "💡 Explanation:", "   " ++ issue.explanation, ""]

def closingLines : List String :=
  [heavyRule,
    "",
    "💼 Next Steps:",
    "   1. Verify these metrics in your monitoring dashboard",
    "   2. Check application logs around the time these metrics were collected",
    "   3. Review recent deployments or configuration changes",
    "   4. Consider increasing resource limits or optimizing slow operations"]

def lines (issues : List Issue) : List String :=
  match issues with
  | [] => healthyLines
  | issues =>
    openingLines issues.length ++
      (issues.zipIdx 1).flatMap (fun (issue, number) => sectionLines number issue) ++ closingLines

/-- Every line of the report ends with a line feed. -/
def text (issues : List Issue) : String := .join ((lines issues).map (· ++ "\n"))

/-! ## JSON -/

def figuresFields : Figures → List (String × Json)
  | .usage percent _ _ => [("usage", .string (Figures.percentText percent))]
  | .tail p50 p95 =>
    let texts := TailTexts.of p50 p95
    [("p50", .string texts.p50), ("p95", .string texts.p95), ("ratio", .string texts.ratio)]

/-- The record of one issue. The figures stand between the metric and the explanation. -/
def record (issue : Issue) : Json :=
  .object ([("type", .string issue.kind.recordName),
    ("severity", .string issue.severity.recordName), ("metric", .string issue.metric)] ++
    figuresFields issue.figures ++ [("explanation", .string issue.explanation)])

/-- The record of every issue, in a report whose last line ends with a line feed. -/
def json (issues : List Issue) : String :=
  (Json.object [("issues", .array (issues.map record))]).pretty ++ "\n"

/-! ## Formats -/

inductive Format where
  | text
  | json
deriving DecidableEq, Repr

def render (issues : List Issue) : Format → String
  | .text => text issues
  | .json => json issues

end Bottleneck.Report
