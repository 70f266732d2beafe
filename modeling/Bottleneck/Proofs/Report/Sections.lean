import Bottleneck.Proofs.Checks
import Bottleneck.Proofs.Config.Validation
import Bottleneck.Proofs.Number.Written
import Bottleneck.Proofs.Transcript
import Bottleneck.Report.Basic

/-!
The sections of a text report. A report takes the metric and the explanation of an issue over as
they are, so what keeps its lines apart is that neither ends a line or starts a section: a metric is
a histogram's name or two patterns and has no blank in it, and an explanation is fixed but for its
figures (`Issue.confined_of_mem_analyze`). Main statement: in the report on any snapshot each issue
has nine lines with its header at a place of its own, and there are no other headers
(`Report.sectioned_analyze`).
-/

namespace Bottleneck

open Number (oneDecimal)
open Text (isBlank)

namespace Report

/-! ## Texts between the marks -/

/-- A text in which no line ends and no issue is numbered. -/
def Unmarked (s : String) : Prop := ∀ c ∈ s.toList, c ≠ '\n' ∧ c ≠ '#'

/-- The hypothesis is a test, which is run wherever a text is written out. -/
theorem unmarked_ofList {cs : List Char}
    (h : (cs.all fun c => c != '\n' && c != '#') = true) : Unmarked (.ofList cs) := by
  rw [Unmarked, String.toList_ofList]
  intro c hc
  simpa using List.all_eq_true.mp h c hc

theorem unmarked_append {a b : String} : Unmarked (a ++ b) ↔ Unmarked a ∧ Unmarked b := by
  simp only [Unmarked, String.toList_append, List.forall_mem_append]

theorem unmarked_toString (n : Nat) : Unmarked (toString n) := by
  intro c hc
  have hdigit := Number.isDigit_of_mem_toString hc
  constructor
  · rintro rfl
    exact absurd hdigit (by decide)
  · rintro rfl
    exact absurd hdigit (by decide)

theorem unmarked_signText (negative : Bool) : Unmarked (Number.signText negative) := by
  cases negative with
  | true => exact unmarked_ofList rfl
  | false => exact unmarked_ofList rfl

theorem unmarked_of_written {x : Float} {text : String} (h : Number.Written x text) :
    Unmarked text := by
  cases h with
  | notANumber => exact unmarked_ofList rfl
  | infinite _ negative =>
    exact unmarked_append.mpr ⟨unmarked_signText negative, unmarked_ofList rfl⟩
  | finite _ hdecimal =>
    obtain ⟨negative, whole, tenth, -, rfl⟩ := hdecimal
    simp only [unmarked_append, unmarked_signText, unmarked_toString, true_and, and_true]
    exact unmarked_ofList rfl

/-- Whatever the number is, its text is made of digits, a point, a sign and letters. -/
theorem unmarked_oneDecimal (x : Float) : Unmarked (oneDecimal x) :=
  unmarked_of_written (Number.written_oneDecimal x)

theorem unmarked_percentText (percent : Float) : Unmarked (Figures.percentText percent) :=
  unmarked_append.mpr ⟨unmarked_oneDecimal percent, unmarked_ofList rfl⟩

theorem unmarked_millisecondsText (seconds : Float) :
    Unmarked (Figures.millisecondsText seconds) :=
  unmarked_append.mpr ⟨unmarked_oneDecimal _, unmarked_ofList rfl⟩

theorem unmarked_of_ratioText? {p50 p95 : Float} {ratio : String}
    (h : Figures.ratioText? p50 p95 = some ratio) : Unmarked ratio := by
  unfold Figures.ratioText? at h
  split at h
  · cases h
    exact unmarked_append.mpr ⟨unmarked_oneDecimal _, unmarked_ofList rfl⟩
  · cases h

theorem unmarked_ratioText (p50 p95 : Float) : Unmarked (Figures.ratioText p50 p95) := by
  unfold Figures.ratioText
  cases hratio : Figures.ratioText? p50 p95 with
  | none => exact unmarked_ofList rfl
  | some ratio => exact unmarked_of_ratioText? hratio

end Report

/-! ## What an issue says -/

open Report

theorem PoolUsage.unmarked_summary (u : PoolUsage) {unit : String} (h : Unmarked unit) :
    Unmarked (u.summary unit) := by
  unfold summary
  simp only [unmarked_append, unmarked_oneDecimal, h, true_and, and_true]
  and_intros
  all_goals exact unmarked_ofList rfl

theorem unmarked_explainThreadPool (u : PoolUsage) : Unmarked (explainThreadPool u) := by
  have hsummary : Unmarked (u.summary "threads") := u.unmarked_summary (unmarked_ofList rfl)
  unfold explainThreadPool
  simp only [unmarked_append, hsummary, and_true]
  and_intros
  all_goals exact unmarked_ofList rfl

theorem unmarked_explainConnectionPool (u : PoolUsage) : Unmarked (explainConnectionPool u) := by
  have hsummary : Unmarked (u.summary "connections") :=
    u.unmarked_summary (unmarked_ofList rfl)
  unfold explainConnectionPool
  simp only [unmarked_append, hsummary, and_true]
  and_intros
  all_goals exact unmarked_ofList rfl

theorem unmarked_explainTail (p50 p95 : Float) : Unmarked (explainTail p50 p95) := by
  unfold explainTail
  cases hratio : Figures.ratioText? p50 p95 with
  | none =>
    simp only [unmarked_append, unmarked_millisecondsText, and_true]
    and_intros
    all_goals exact unmarked_ofList rfl
  | some ratio =>
    have hunmarked : Unmarked ratio := unmarked_of_ratioText? hratio
    simp only [unmarked_append, unmarked_millisecondsText, hunmarked, true_and, and_true]
    and_intros
    all_goals exact unmarked_ofList rfl

/-- An issue whose texts end no line and start no section of a report. -/
structure Issue.Confined (issue : Issue) : Prop where
  metric : ∀ c ∈ issue.metric.toList, isBlank c = false
  explanation : Unmarked issue.explanation

theorem Snapshot.isName_of_mem_histogramNames {text name : String}
    (h : name ∈ (parse text).histogramNames) : DataLine.isName name.toList = true := by
  rw [histogramNames_parse, List.mem_eraseDups] at h
  obtain ⟨line, hline, rfl⟩ := List.mem_map.mp h
  exact (DataLine.writable_of_mem_all (List.mem_filter.mp hline).1).isName

theorem Snapshot.mem_histogramNames_of_latencyHistogram? {s : Snapshot} {patterns : List String}
    {name : String} (h : s.latencyHistogram? patterns = some name) : name ∈ s.histogramNames := by
  obtain ⟨pattern, -, hfind⟩ := List.exists_of_findSome?_eq_some h
  exact List.mem_of_find?_eq_some hfind

theorem unblank_of_isName {name : List Char} (h : DataLine.isName name = true) :
    ∀ c ∈ name, isBlank c = false := fun c hc =>
  DataLine.isBlank_of_isNamePart (Text.part_of_isName DataLine.isNamePart_of_isNameStart h c hc)

theorem PoolPattern.unblank_label {pair : PoolPattern}
    (hcurrent : ∀ c ∈ pair.current.toList, isBlank c = false)
    (hmax : ∀ c ∈ pair.max.toList, isBlank c = false) :
    ∀ c ∈ pair.label.toList, isBlank c = false := by
  intro c hc
  rw [label, String.toList_append, String.toList_append, List.mem_append, List.mem_append] at hc
  rcases hc with (hc | hc) | hc
  · exact hcurrent c hc
  · rw [List.mem_singleton.mp hc]
    decide
  · exact hmax c hc

theorem confined_of_checkPool {kind : IssueKind} {explain : PoolUsage → String} {s : Snapshot}
    {patterns : List PoolPattern} {issue : Issue}
    (h : checkPool kind explain s patterns = some issue)
    (hpatterns : ∀ pair ∈ patterns, (∀ c ∈ pair.current.toList, isBlank c = false) ∧
      ∀ c ∈ pair.max.toList, isBlank c = false)
    (hexplain : ∀ usage, Unmarked (explain usage)) : issue.Confined := by
  obtain ⟨usage, severity, hfirst, -, rfl⟩ := checkPool_eq_some_iff.mp h
  obtain ⟨hcurrent, hmax⟩ := hpatterns _ (PoolUsage.pattern_mem_of_first? hfirst)
  exact ⟨PoolPattern.unblank_label hcurrent hmax, hexplain usage⟩

/-- **No text of an issue reaches beyond its place in a report**, whatever the snapshot says and
whatever patterns a configuration adds. -/
theorem Issue.confined_of_mem_analyze {rules : Rules} (hrules : rules.Available) {text : String}
    {issue : Issue} (h : issue ∈ analyze rules text) : issue.Confined := by
  rcases mem_diagnose_iff.mp h with h | h | h
  · refine confined_of_checkPool h (fun pair hpair => ?_) unmarked_explainThreadPool
    obtain ⟨hcurrent, hmax⟩ := Rules.patterns_of_mem_threadPool hpair
    exact ⟨hrules.unblank hcurrent, hrules.unblank hmax⟩
  · refine confined_of_checkPool h (fun pair hpair => ?_) unmarked_explainConnectionPool
    obtain ⟨hcurrent, hmax⟩ := Rules.patterns_of_mem_connectionPool hpair
    exact ⟨hrules.unblank hcurrent, hrules.unblank hmax⟩
  · obtain ⟨name, total, p50, p95, hname, -, -, -, -, rfl⟩ := checkLatencyTail_eq_some_iff.mp h
    have hmem := Snapshot.mem_histogramNames_of_latencyHistogram? hname
    exact ⟨unblank_of_isName (Snapshot.isName_of_mem_histogramNames hmem),
      unmarked_explainTail p50 p95⟩

/-! ## The lines of a report -/

namespace Report

/-- What announces the number of an issue in its header. -/
def sectionMark : String := "Issue #"

/-- A line that is one line and starts no section. -/
def Quiet (line : String) : Prop := '\n' ∉ line.toList ∧ ¬ sectionMark.toList <:+: line.toList

theorem Unmarked.quiet {line : String} (h : Unmarked line) : Quiet line := by
  refine ⟨fun hfeed => (h _ hfeed).1 rfl, fun hmark => ?_⟩
  have hnumber : '#' ∈ sectionMark.toList := by decide +kernel
  exact (h _ (hmark.subset hnumber)).2 rfl

/-- The mark has a blank in it and the metric has none, so the two could only share a part of the
mark that ends the title of the line. -/
theorem quiet_metricLine {metric : String} (h : ∀ c ∈ metric.toList, isBlank c = false) :
    Quiet ("Metric: " ++ metric) := by
  have hblank : ' ' ∉ metric.toList := fun hmem => absurd (h _ hmem) (by decide)
  constructor
  · rw [String.toList_append, List.mem_append, not_or]
    exact ⟨by decide +kernel, fun hfeed => absurd (h _ hfeed) (by decide)⟩
  · rw [String.toList_append, List.infix_append_iff, not_or, not_or]
    refine ⟨by decide +kernel, fun hmark => ?_, ?_⟩
    · exact hblank (hmark.subset (by decide +kernel))
    · rintro ⟨front, back, hmark, hfront, hback⟩
      have hcuts : ∀ k ≤ 7, sectionMark.toList.take k <:+ "Metric: ".toList →
          ' ' ∉ sectionMark.toList.take k := by
        decide +kernel
      have htake : sectionMark.toList.take front.length = front := by
        rw [hmark, List.take_left]
      have hlength : front.length ≤ 7 := by
        have : sectionMark.toList.length = 7 := by decide +kernel
        rw [hmark, List.length_append] at this
        omega
      have hshared : ' ' ∈ front ++ back := hmark ▸ (by decide +kernel : ' ' ∈ sectionMark.toList)
      rcases List.mem_append.mp hshared with hmem | hmem
      · exact hcuts front.length hlength (htake.symm ▸ hfront) (htake.symm ▸ hmem)
      · exact hblank (hback.subset hmem)

theorem unmarked_figuresLine (figures : Figures) : Unmarked (figuresLine figures) := by
  cases figures with
  | usage percent current max =>
    exact unmarked_append.mpr ⟨unmarked_ofList rfl, unmarked_percentText percent⟩
  | tail p50 p95 =>
    show Unmarked ("p50: " ++ Figures.millisecondsText p50 ++ ", p95: " ++
      Figures.millisecondsText p95 ++ " (ratio: " ++ Figures.ratioText p50 p95 ++ ")")
    simp only [unmarked_append, unmarked_millisecondsText, unmarked_ratioText, and_true]
    and_intros
    all_goals exact unmarked_ofList rfl

/-- The kind of an issue in words. -/
def kindWords : IssueKind → String
  | .threadPoolSaturation => "Thread Pool Saturation"
  | .connectionPoolSaturation => "Connection Pool Saturation"
  | .latencyTail => "Latency Tail"

theorem title_eq_kindWords (kind : IssueKind) : kind.title = kindWords kind := by
  cases kind <;> rfl

theorem header_eq (number : Nat) (issue : Issue) :
    header number issue = (if issue.severity = .high then "🔴" else "🟡") ++ " Issue #" ++
      toString number ++ ": " ++ kindWords issue.kind := by
  rw [header, title_eq_kindWords]
  cases issue.severity with
  | medium => rfl
  | high => rfl

theorem lineFeed_notMem_header (number : Nat) (issue : Issue) :
    '\n' ∉ (header number issue).toList := by
  have hnumber : '\n' ∉ (toString number).toList := fun h => (unmarked_toString number _ h).1 rfl
  have hmarker : '\n' ∉ (marker issue.severity).toList := by
    cases issue.severity <;> decide +kernel
  have htitle : '\n' ∉ issue.kind.title.toList := by
    rw [title_eq_kindWords]
    cases issue.kind <;> decide +kernel
  unfold header
  simp only [String.toList_append, List.mem_append, hnumber, hmarker, htitle, or_false, false_or]
  decide +kernel

/-- The lines of a section behind its header. -/
def bodyLines (issue : Issue) : List String :=
  [lightRule, figuresLine issue.figures, "Metric: " ++ issue.metric, "", "💡 Explanation:",
    "   " ++ issue.explanation, ""]

theorem sectionLines_eq (number : Nat) (issue : Issue) :
    sectionLines number issue = "" :: header number issue :: bodyLines issue := rfl

theorem quiet_of_mem_bodyLines {issue : Issue} (h : issue.Confined) {line : String}
    (hline : line ∈ bodyLines issue) : Quiet line := by
  have hexplanation : Unmarked ("   " ++ issue.explanation) :=
    unmarked_append.mpr ⟨unmarked_ofList rfl, h.explanation⟩
  simp only [bodyLines, List.mem_cons, List.not_mem_nil, or_false] at hline
  rcases hline with rfl | rfl | rfl | rfl | rfl | rfl | rfl
  · exact Unmarked.quiet (unmarked_ofList rfl)
  · exact (unmarked_figuresLine issue.figures).quiet
  · exact quiet_metricLine h.metric
  · exact Unmarked.quiet (unmarked_ofList rfl)
  · exact Unmarked.quiet (unmarked_ofList rfl)
  · exact hexplanation.quiet
  · exact Unmarked.quiet (unmarked_ofList rfl)

theorem unmarked_healthyLines : ∀ line ∈ healthyLines, Unmarked line := by
  simp only [healthyLines, List.forall_mem_cons]
  refine ⟨?_, ?_, ?_, ?_, List.forall_mem_nil _⟩
  all_goals exact unmarked_ofList rfl

theorem unmarked_openingLines (count : Nat) : ∀ line ∈ openingLines count, Unmarked line := by
  have hcount : Unmarked ("⚠️  Found " ++ toString count ++ " potential issue(s):") := by
    simp only [unmarked_append, unmarked_toString, and_true]
    and_intros
    all_goals exact unmarked_ofList rfl
  simp only [openingLines, List.forall_mem_cons]
  refine ⟨?_, hcount, ?_, ?_, List.forall_mem_nil _⟩
  all_goals exact unmarked_ofList rfl

theorem unmarked_closingLines : ∀ line ∈ closingLines, Unmarked line := by
  simp only [closingLines, List.forall_mem_cons]
  refine ⟨?_, ?_, ?_, ?_, ?_, ?_, ?_, List.forall_mem_nil _⟩
  all_goals exact unmarked_ofList rfl

/-! ## The place of a line -/

section Blocks

variable {α β : Type} {f : α → List β} {n : Nat} {xs : List α}

theorem length_flatMap_of_length (h : ∀ x ∈ xs, (f x).length = n) :
    (xs.flatMap f).length = n * xs.length := by
  induction xs with
  | nil => rfl
  | cons x xs ih =>
    obtain ⟨hx, hxs⟩ := List.forall_mem_cons.mp h
    rw [List.flatMap_cons, List.length_append, hx, ih hxs, List.length_cons, Nat.mul_succ,
      Nat.add_comm]

/-- In a sequence of blocks of one length a place is a block and a place in it. -/
theorem getElem?_flatMap_of_length (h : ∀ x ∈ xs, (f x).length = n) (i : Nat) {k : Nat}
    (hk : k < n) : (xs.flatMap f)[n * i + k]? = xs[i]?.bind fun x => (f x)[k]? := by
  induction xs generalizing i with
  | nil => rfl
  | cons x xs ih =>
    obtain ⟨hx, hxs⟩ := List.forall_mem_cons.mp h
    rw [List.flatMap_cons]
    cases i with
    | zero =>
      rw [Nat.mul_zero, Nat.zero_add, List.getElem?_append_left (by rw [hx]; exact hk)]
      rfl
    | succ i =>
      have hplace : n * (i + 1) + k = (f x).length + (n * i + k) := by
        rw [hx, Nat.mul_succ]
        omega
      rw [hplace, List.getElem?_append_right (Nat.le_add_right _ _), Nat.add_sub_cancel_left,
        ih hxs, List.getElem?_cons_succ]

end Blocks

variable {issues : List Issue}

/-- The sections of the issues, which are numbered from one. -/
def sections (issues : List Issue) : List String :=
  (issues.zipIdx 1).flatMap fun (issue, number) => sectionLines number issue

theorem lines_of_ne_nil (h : issues ≠ []) :
    lines issues = openingLines issues.length ++ (sections issues ++ closingLines) := by
  rw [← List.append_assoc]
  cases issues with
  | nil => exact absurd rfl h
  | cons issue issues => rfl

theorem length_sections (issues : List Issue) : (sections issues).length = 9 * issues.length := by
  rw [sections, length_flatMap_of_length (n := 9) fun _ _ => rfl, List.length_zipIdx]

theorem getElem?_sections (issues : List Issue) (i : Nat) {k : Nat} (hk : k < 9) :
    (sections issues)[9 * i + k]? =
      issues[i]?.bind fun issue => (sectionLines (i + 1) issue)[k]? := by
  rw [sections, getElem?_flatMap_of_length (n := 9) (fun _ _ => rfl) i hk, List.getElem?_zipIdx,
    Option.bind_map, Nat.add_comm 1 i]
  rfl

theorem length_lines (issues : List Issue) :
    (lines issues).length = if issues = [] then 4 else 11 + 9 * issues.length := by
  split
  · rename_i hnil
    rw [hnil]
    rfl
  · rename_i hne
    rw [lines_of_ne_nil hne, List.length_append, List.length_append, length_sections]
    simp only [openingLines, closingLines, List.length_cons, List.length_nil]
    omega

theorem getElem?_lines_header {i : Nat} {issue : Issue} (h : issues[i]? = some issue) :
    (lines issues)[5 + 9 * i]? = some (header (i + 1) issue) := by
  have hne : issues ≠ [] := by
    rintro rfl
    cases h
  have hsection : (sections issues)[9 * i + 1]? = some (header (i + 1) issue) := by
    rw [getElem?_sections issues i (by decide), h]
    rfl
  have hlength : (openingLines issues.length).length = 4 := rfl
  rw [lines_of_ne_nil hne, List.getElem?_append_right (by omega), hlength,
    List.getElem?_append_left ?_, ← hsection]
  · congr 1
    omega
  · obtain ⟨hlt, -⟩ := List.getElem?_eq_some_iff.mp h
    rw [length_sections]
    omega

/-- **A line of a report is a header at its place, or it is quiet.** -/
theorem quiet_or_header (h : ∀ issue ∈ issues, issue.Confined) {j : Nat} {line : String}
    (hline : (lines issues)[j]? = some line) :
    Quiet line ∨
      ∃ i issue, issues[i]? = some issue ∧ j = 5 + 9 * i ∧ line = header (i + 1) issue := by
  by_cases hnil : issues = []
  · rw [hnil] at hline
    exact .inl (unmarked_healthyLines line (List.mem_of_getElem? hline)).quiet
  · rw [lines_of_ne_nil hnil, List.getElem?_append] at hline
    split at hline
    · exact .inl (unmarked_openingLines _ line (List.mem_of_getElem? hline)).quiet
    · rename_i hopening
      rw [List.getElem?_append] at hline
      split at hline
      · -- the place behind the opening lines is the place `k` of section `i`
        have hlength : (openingLines issues.length).length = 4 := rfl
        rw [hlength] at hopening hline
        obtain ⟨i, k, hk, hplace⟩ : ∃ i k, k < 9 ∧ j - 4 = 9 * i + k :=
          ⟨(j - 4) / 9, (j - 4) % 9, Nat.mod_lt _ (by decide), (Nat.div_add_mod _ 9).symm⟩
        rw [hplace, getElem?_sections issues i hk] at hline
        obtain ⟨issue, hissue, hsection⟩ := Option.bind_eq_some_iff.mp hline
        rw [sectionLines_eq] at hsection
        match k, hsection with
        | 0, hsection =>
          cases hsection
          exact .inl (Unmarked.quiet (unmarked_ofList rfl))
        | 1, hsection =>
          cases hsection
          exact .inr ⟨i, issue, hissue, by omega, rfl⟩
        | k + 2, hsection =>
          have hconfined := h issue (List.mem_of_getElem? hissue)
          exact .inl (quiet_of_mem_bodyLines hconfined (List.mem_of_getElem? hsection))
      · exact .inl (unmarked_closingLines line (List.mem_of_getElem? hline)).quiet

theorem lineFeed_notMem_lines (h : ∀ issue ∈ issues, issue.Confined) :
    ∀ line ∈ lines issues, '\n' ∉ line.toList := by
  intro line hline
  obtain ⟨j, hj⟩ := List.mem_iff_getElem?.mp hline
  rcases quiet_or_header h hj with hquiet | ⟨i, issue, -, -, rfl⟩
  · exact hquiet.1
  · exact lineFeed_notMem_header (i + 1) issue

/-! ## The report as a text -/

theorem toList_text (issues : List Issue) :
    (text issues).toList = (lines issues).flatMap fun line => line.toList ++ ['\n'] := by
  rw [text, String.toList_join, List.flatMap_map]
  simp only [String.toList_append]
  rfl

theorem count_lineFeed_text (h : ∀ issue ∈ issues, issue.Confined) :
    (text issues).toList.count '\n' = (lines issues).length := by
  have hone : ∀ line ∈ lines issues, (line.toList ++ ['\n']).count '\n' = 1 := by
    intro line hline
    rw [List.count_append, List.count_eq_zero.mpr (lineFeed_notMem_lines h line hline)]
    rfl
  rw [toList_text]
  generalize lines issues = lines at hone
  induction lines with
  | nil => rfl
  | cons line lines ih =>
    obtain ⟨hline, hlines⟩ := List.forall_mem_cons.mp hone
    rw [List.flatMap_cons, List.count_append, hline, ih hlines, List.length_cons, Nat.add_comm]

/-- Behind the last line feed there is an empty piece. -/
theorem pieces_text (h : ∀ issue ∈ issues, issue.Confined) :
    Text.pieces (text issues) = (lines issues).map String.toList ++ [[]] := by
  have htext : text issues = Text.ofPieces ((lines issues).map String.toList ++ [[]]) := by
    rw [← String.toList_inj, toList_text, Text.ofPieces, String.toList_ofList]
    induction lines issues with
    | nil => rfl
    | cons line lines ih =>
      rw [List.flatMap_cons, ih, List.map_cons, List.cons_append, List.intercalate_cons_of_ne_nil
        (List.append_ne_nil_of_right_ne_nil _ (List.cons_ne_nil _ _))]
  rw [htext, Text.pieces_ofPieces (by simp)]
  rw [List.forall_mem_append, List.forall_mem_map]
  exact ⟨lineFeed_notMem_lines h, by simp⟩

/-- A text that is the report on these issues line by line: so many lines, the header of each issue
at its place, and no other line that reads like one. -/
structure Sectioned (report : String) (issues : List Issue) : Prop where
  lineFeeds : report.toList.count '\n' = if issues = [] then 4 else 11 + 9 * issues.length
  header : ∀ i issue, issues[i]? = some issue →
    (Text.pieces report)[5 + 9 * i]? =
      some ((if issue.severity = .high then "🔴" else "🟡") ++ " Issue #" ++ toString (i + 1) ++
        ": " ++ kindWords issue.kind).toList
  only : ∀ j line, (Text.pieces report)[j]? = some line → sectionMark.toList <:+: line →
    ∃ i < issues.length, j = 5 + 9 * i

/-- **Neither a snapshot nor a configuration can add, hide or split a section.** -/
theorem sectioned_analyze {rules : Rules} (hrules : rules.Available) (text : String) :
    Sectioned (Report.text (analyze rules text)) (analyze rules text) := by
  have hconfined : ∀ issue ∈ analyze rules text, issue.Confined :=
    fun issue hissue => Issue.confined_of_mem_analyze hrules hissue
  have hpieces := pieces_text hconfined
  exact {
    lineFeeds := by rw [count_lineFeed_text hconfined, length_lines]
    header := by
      intro i issue hissue
      have hline := getElem?_lines_header hissue
      have hlength := (List.getElem?_eq_some_iff.mp hline).1
      rw [hpieces, List.getElem?_append_left (by rw [List.length_map]; exact hlength),
        List.getElem?_map, hline, ← header_eq]
      rfl
    only := by
      intro j line hline hmark
      rw [hpieces, List.getElem?_append] at hline
      split at hline
      · rw [List.getElem?_map] at hline
        obtain ⟨said, hsaid, rfl⟩ := Option.map_eq_some_iff.mp hline
        rcases quiet_or_header hconfined hsaid with hquiet | ⟨i, issue, hissue, hj, -⟩
        · exact absurd hmark hquiet.2
        · exact ⟨i, (List.getElem?_eq_some_iff.mp hissue).1, hj⟩
      · rw [List.mem_singleton.mp (List.mem_of_getElem? hline)] at hmark
        exact absurd hmark (by decide +kernel) }

/-- Patterns that look like parts of a report. -/
def forging : Config where
  version := 1
  extension := ⟨[⟨"Issue#1:", "#"⟩, ⟨"Issue", "issues_max"⟩], [], []⟩

/-- A text whose comments and names look like the lines of a report. -/
def forgingText : String :=
  "🔴 Issue #1: Latency Tail\n# Issue #2:\nIssue 95 # Issue #3:\nissues_max 100"

theorem sectioned_analyze_forging :
    forging.validate = .ok () ∧
      (∃ issue ∈ analyze forging.rules forgingText, issue.metric = "Issue/issues_max") ∧
      Sectioned (Report.text (analyze forging.rules forgingText))
        (analyze forging.rules forgingText) := by
  have hvalid : forging.validate = .ok () := by decide +kernel
  have hissue : (checkThreadPool forging.rules (.parse forgingText)).map (·.metric) =
      some "Issue/issues_max" := by
    unfold checkThreadPool checkPool PoolUsage.first? PoolUsage.ofPattern?
    simp only [Snapshot.valueMatching?_parse_eq_collect]
    decide +kernel
  obtain ⟨issue, hfound, hmetric⟩ := Option.map_eq_some_iff.mp hissue
  refine ⟨hvalid, ⟨issue, mem_diagnose_iff.mpr (.inl hfound), hmetric⟩, ?_⟩
  exact sectioned_analyze (.inr ⟨forging, hvalid, rfl⟩) forgingText

end Report

end Bottleneck
