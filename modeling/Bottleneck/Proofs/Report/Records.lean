import Bottleneck.Proofs.Report.JsonReader
import Bottleneck.Report.Basic
import Mathlib.Data.List.Forall2

/-!
The records of a JSON report. Main statement: a report is one JSON text and a line feed, and who
reads it gets the issues back, each with its texts under their names and in their order
(`Report.read_json`).
-/

namespace Bottleneck.Report

/-- The fields that show these figures: a usage, or both percentiles of a tail and their ratio. -/
def Shows (figures : Figures) (shown : List (String × Json)) : Prop :=
  (∃ usage, figures.usageText? = some usage ∧ figures.tailTexts? = none ∧
    shown = [("usage", .string usage)]) ∨
  ∃ tail, figures.usageText? = none ∧ figures.tailTexts? = some tail ∧
    shown = [("p50", .string tail.p50), ("p95", .string tail.p95), ("ratio", .string tail.ratio)]

/-- An entry that tells all of an issue, in the order of its fields and with no others. -/
def Records (entry : Json) (issue : Issue) : Prop :=
  ∃ shown, Shows issue.figures shown ∧
    entry = .object ([("type", .string issue.kind.code), ("severity", .string issue.severity.code),
      ("metric", .string issue.metric)] ++ shown ++ [("explanation", .string issue.explanation)])

theorem shows_figuresFields (figures : Figures) : Shows figures (figuresFields figures) := by
  cases figures with
  | usage percent current max => exact .inl ⟨_, rfl, rfl, rfl⟩
  | tail p50 p95 => exact .inr ⟨_, rfl, rfl, rfl⟩

theorem records_record (issue : Issue) : Records (record issue) issue := by
  refine ⟨figuresFields issue.figures, shows_figuresFields issue.figures, ?_⟩
  rw [record, IssueKind.recordName_eq_code, Severity.recordName_eq_code]

theorem read?_compact (j : Json) : Json.read? j.compact = some j := by
  have hread := Json.read?_write Json.Layout.blank_compact j (List.forall_mem_nil _)
  rwa [List.append_nil] at hread

theorem read?_pretty (j : Json) : Json.read? j.pretty = some j := by
  have hread := Json.read?_write Json.Layout.blank_pretty j (List.forall_mem_nil _)
  rwa [List.append_nil] at hread

/-- The line feed behind a report is a blank to its reader. -/
theorem read?_pretty_lineFeed (j : Json) : Json.read? (j.pretty ++ "\n") = some j := by
  have htext : j.pretty ++ "\n" = .ofList (j.write .pretty 0 ++ ['\n']) := by
    rw [String.ofList_append]
    rfl
  rw [htext]
  exact Json.read?_write Json.Layout.blank_pretty j (List.forall_mem_singleton.mpr rfl)

/-- A value that is an object is written up to its closing brace. -/
theorem getLast?_pretty_object (fields : List (String × Json)) :
    (Json.object fields).pretty.toList.getLast? = some '\x7d' := by
  rw [Json.pretty, String.toList_ofList, Json.write]
  cases Json.writeFields .pretty 1 fields with
  | nil => rfl
  | cons part parts =>
    show (('\x7b' :: _) ++ ['\x7d']).getLast? = some '\x7d'
    exact List.getLast?_concat

/-- **A JSON report decodes to the issues.** It is one JSON text with one line feed behind it. The
text is an object of one field, whose value has an entry for each issue in their order, and the
record of an issue on one line of its own decodes to that same entry. -/
theorem read_json (issues : List Issue) :
    ∃ body entries, json issues = body ++ "\n" ∧ body.toList.getLast? = some '\x7d' ∧
      Json.read? body = some (.object [("issues", .array entries)]) ∧
      Json.read? (json issues) = some (.object [("issues", .array entries)]) ∧
      List.Forall₂ (fun entry issue =>
        Records entry issue ∧ Json.read? (record issue).compact = some entry) entries issues := by
  refine ⟨(Json.object [("issues", .array (issues.map record))]).pretty, issues.map record, rfl,
    getLast?_pretty_object _, read?_pretty _, read?_pretty_lineFeed _, ?_⟩
  rw [List.forall₂_map_left_iff, List.forall₂_same]
  intro issue hissue
  exact ⟨records_record issue, read?_compact (record issue)⟩

end Bottleneck.Report
