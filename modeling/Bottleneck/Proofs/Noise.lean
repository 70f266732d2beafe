import Bottleneck.Diagnosis
import Bottleneck.Proofs.LineParts
import Bottleneck.Proofs.Lines
import Mathlib.Data.List.Forall2

/-!
Noise and what it cannot reach. Noise is a line that is no data line, a blank at either end of a
line, a carriage return in front of a line feed, and whatever follows the value of a data line. One
edit that only moves noise leaves the data lines as they are, and so does any number of them
(`Edited.data?_all`); the lines that come and go are accounted for one by one (`Edited.perm_all`).
Main statement: after such edits a snapshot answers as before, and its counts differ by the lines
that were inserted and deleted (`Snapshot.parse_edited`).
-/

namespace Bottleneck

open Text (isBlank trim trimStart trimEnd)

namespace Text

/-- A carriage return in front of every line feed. -/
def withReturns (text : String) : String :=
  .ofList (text.toList.flatMap fun c => if c = '\n' then ['\r', '\n'] else [c])

theorem splitOn_withReturns (cs : List Char) :
    List.Forall₂ (fun new old => new = old ∨ new = old ++ ['\r'])
      ((cs.flatMap fun c => if c = '\n' then ['\r', '\n'] else [c]).splitOn '\n')
      (cs.splitOn '\n') := by
  induction cs with
  | nil => exact .cons (.inl rfl) .nil
  | cons c cs ih =>
    rw [List.flatMap_cons]
    by_cases hc : c = '\n'
    · subst hc
      have hnew (ds : List Char) : ('\r' :: '\n' :: ds).splitOn '\n' = ['\r'] :: ds.splitOn '\n' :=
        List.splitOn_append_cons_self ['\r'] ds
      have hold : ('\n' :: cs).splitOn '\n' = [] :: cs.splitOn '\n' :=
        List.splitOn_append_cons_self [] cs
      rw [if_pos rfl, List.cons_append, List.cons_append, List.nil_append, hnew, hold]
      exact .cons (.inr rfl) ih
    · have hcons (ds : List Char) : (c :: ds).splitOn '\n' = (ds.splitOn '\n').modifyHead (c :: ·) := by
        rw [List.splitOn_cons_eq_if_modifyHead, if_neg (by simpa using hc)]
      rw [if_neg hc, List.singleton_append, hcons, hcons]
      -- the character joins the first line of either text, and the other lines are not touched
      generalize cs.splitOn '\n' = olds, List.splitOn '\n' _ = news at ih
      cases ih with
      | nil => exact .nil
      | cons hfirst hrest =>
        refine .cons ?_ hrest
        rcases hfirst with rfl | rfl
        · exact .inl rfl
        · exact .inr rfl

end Text

namespace Line

variable {ending : List Char} (hending : ∀ c ∈ ending, isBlank c = true)
include hending

theorem read_ending (cs : List Char) : read (cs ++ ending) = read cs :=
  read_congr (Text.trim_append_of_blank hending cs)

theorem read_pad {front back : List Char} (hfront : ∀ c ∈ front, isBlank c = true)
    (hback : ∀ c ∈ back, isBlank c = true) (cs : List Char) :
    read (front ++ cs ++ back ++ ending) = read (cs ++ ending) := by
  refine read_congr ?_
  rw [Text.trim_append_of_blank hending, Text.trim_append_of_blank hback,
    Text.trim_append_left_of_blank hfront, Text.trim_append_of_blank hending]

theorem read_follow {cs suffix : List Char} {said : DataLine} (hline : read cs = .data said)
    (hsuffix : ∀ c ∈ suffix.head?, DataLine.isValuePart c = false) :
    read (cs ++ suffix ++ ending) = read (cs ++ ending) := by
  rw [read_ending hending, read_ending hending, read_append hline hsuffix, hline]

omit hending

theorem all_withReturns (text : String) : all (Text.withReturns text) = all text := by
  have hread : ∀ {news olds : List (List Char)},
      List.Forall₂ (fun new old => new = old ∨ new = old ++ ['\r']) news olds →
        news.map read = olds.map read := by
    intro news olds h
    induction h with
    | nil => rfl
    | cons hfirst _ ih =>
      rw [List.map_cons, List.map_cons, ih]
      rcases hfirst with rfl | rfl
      · rfl
      · have hreturn : ∀ c ∈ ['\r'], isBlank c = true := List.forall_mem_singleton.mpr (by decide)
        rw [read_ending hreturn]
  rw [all, all, Text.withReturns, String.toList_ofList]
  exact hread (Text.splitOn_withReturns text.toList)

end Line

/-! ## Edits -/

/-- What comes of a text by edits that only move noise, with the lines that were inserted and those
that were deleted. What goes to the end of a line may go in front of the carriage return or other
blanks that end it already. -/
inductive Edited (text : String) : String → List Line → List Line → Prop
  | start : Edited text text [] []
  /-- A line that is blank, a comment or unrecognised comes in, at any place. -/
  | insert {u v : String} {inserted deleted : List Line} {before after : List (List Char)}
      {noise : List Char} (h : Edited text u inserted deleted)
      (hu : Text.pieces u = before ++ after) (hv : Text.pieces v = before ++ noise :: after)
      (hnoise : (Line.read noise).data? = none) :
      Edited text v (Line.read noise :: inserted) deleted
  /-- Such a line goes. -/
  | delete {u v : String} {inserted deleted : List Line} {before after : List (List Char)}
      {noise : List Char} (h : Edited text u inserted deleted)
      (hu : Text.pieces u = before ++ noise :: after) (hv : Text.pieces v = before ++ after)
      (hnoise : (Line.read noise).data? = none) :
      Edited text v inserted (Line.read noise :: deleted)
  /-- A line gets blanks in front of it and behind it. -/
  | pad {u v : String} {inserted deleted : List Line} {before after : List (List Char)}
      {line front back ending : List Char} (h : Edited text u inserted deleted)
      (hu : Text.pieces u = before ++ (line ++ ending) :: after)
      (hv : Text.pieces v = before ++ (front ++ line ++ back ++ ending) :: after)
      (hfront : ∀ c ∈ front, isBlank c = true) (hback : ∀ c ∈ back, isBlank c = true)
      (hending : ∀ c ∈ ending, isBlank c = true) :
      Edited text v inserted deleted
  | returns {u : String} {inserted deleted : List Line} (h : Edited text u inserted deleted) :
      Edited text (Text.withReturns u) inserted deleted
  /-- Something that does not continue the value follows a data line. -/
  | follow {u v : String} {inserted deleted : List Line} {before after : List (List Char)}
      {line suffix ending : List Char} {said : DataLine} (h : Edited text u inserted deleted)
      (hu : Text.pieces u = before ++ (line ++ ending) :: after)
      (hv : Text.pieces v = before ++ (line ++ suffix ++ ending) :: after)
      (hline : Line.read line = .data said)
      (hsuffix : ∀ c ∈ suffix.head?, DataLine.isValuePart c = false)
      (hending : ∀ c ∈ ending, isBlank c = true) :
      Edited text v inserted deleted

namespace Edited

variable {text edited : String} {inserted deleted : List Line}

theorem all_eq_of_pieces {u v : String} {before after : List (List Char)} {old new : List Char}
    (hu : Text.pieces u = before ++ old :: after) (hv : Text.pieces v = before ++ new :: after)
    (hread : Line.read new = Line.read old) : Line.all v = Line.all u := by
  rw [Line.all_eq_map, Line.all_eq_map, hu, hv, List.map_append, List.map_append, List.map_cons,
    List.map_cons, hread]

/-- **The data lines stay as they are.** -/
theorem data?_all (h : Edited text edited inserted deleted) :
    (Line.all edited).filterMap Line.data? = (Line.all text).filterMap Line.data? := by
  induction h with
  | start => rfl
  | insert _ hu hv hnoise ih =>
    rw [← ih, Line.all_eq_map, Line.all_eq_map, hu, hv]
    simp [hnoise]
  | delete _ hu hv hnoise ih =>
    rw [← ih, Line.all_eq_map, Line.all_eq_map, hu, hv]
    simp [hnoise]
  | pad _ hu hv hfront hback hending ih =>
    rw [all_eq_of_pieces hu hv (Line.read_pad hending hfront hback _), ih]
  | returns _ ih => rw [Line.all_withReturns, ih]
  | follow _ hu hv hline hsuffix hending ih =>
    rw [all_eq_of_pieces hu hv (Line.read_follow hending hline hsuffix), ih]

/-- **Lines come and go one by one.** -/
theorem perm_all (h : Edited text edited inserted deleted) :
    (Line.all edited ++ deleted).Perm (Line.all text ++ inserted) := by
  induction h with
  | start => exact .refl _
  | @insert u v inserted deleted before after noise _ hu hv _ ih =>
    have hall : (Line.all v).Perm (Line.read noise :: Line.all u) := by
      rw [Line.all_eq_map, Line.all_eq_map, hu, hv, List.map_append, List.map_append, List.map_cons]
      exact List.perm_middle
    calc
      Line.all v ++ deleted
      _ |>.Perm (Line.read noise :: (Line.all u ++ deleted)) := hall.append_right deleted
      _ |>.Perm (Line.read noise :: (Line.all text ++ inserted)) := ih.cons _
      _ |>.Perm (Line.all text ++ Line.read noise :: inserted) := List.perm_middle.symm
  | @delete u v inserted deleted before after noise _ hu hv _ ih =>
    have hall : (Line.all u).Perm (Line.read noise :: Line.all v) := by
      rw [Line.all_eq_map, Line.all_eq_map, hu, hv, List.map_append, List.map_append, List.map_cons]
      exact List.perm_middle
    calc
      Line.all v ++ Line.read noise :: deleted
      _ |>.Perm (Line.read noise :: (Line.all v ++ deleted)) := List.perm_middle
      _ |>.Perm (Line.all u ++ deleted) := (hall.append_right deleted).symm
      _ |>.Perm (Line.all text ++ inserted) := ih
  | pad _ hu hv hfront hback hending ih =>
    rwa [all_eq_of_pieces hu hv (Line.read_pad hending hfront hback _)]
  | returns _ ih => rwa [Line.all_withReturns]
  | follow _ hu hv hline hsuffix hending ih =>
    rwa [all_eq_of_pieces hu hv (Line.read_follow hending hline hsuffix)]

end Edited

/-! ## What a snapshot answers -/

namespace Snapshot

/-- Two snapshots hold the same and answer alike whatever they are asked; their counts are left
aside. -/
structure AnswersAlike (s t : Snapshot) : Prop where
  samples : s.samples = t.samples
  histograms : s.histograms = t.histograms
  sample? : ∀ key, s.sample? key = t.sample? key
  sampleNamed? : ∀ name, s.sampleNamed? name = t.sampleNamed? name
  valueMatching? : ∀ pattern, s.valueMatching? pattern = t.valueMatching? pattern
  buckets : ∀ name, s.buckets name = t.buckets name
  histogramNames : s.histogramNames = t.histogramNames
  latencyHistogram? : ∀ patterns, s.latencyHistogram? patterns = t.latencyHistogram? patterns
  total? : ∀ histogram, s.total? histogram = t.total? histogram
  diagnose : ∀ rules, diagnose rules s = diagnose rules t

/-- No answer hangs on the counts. -/
theorem answersAlike_of_eq {s t : Snapshot}
    (h : ({ s with counts := {} } : Snapshot) = { t with counts := {} }) : s.AnswersAlike t := by
  obtain ⟨samples, histograms, counts⟩ := s
  obtain ⟨samples', histograms', counts'⟩ := t
  cases h
  exact {
    samples := rfl
    histograms := rfl
    sample? := fun _ => rfl
    sampleNamed? := fun _ => rfl
    valueMatching? := fun _ => rfl
    buckets := fun _ => rfl
    histogramNames := rfl
    latencyHistogram? := fun _ => rfl
    total? := fun _ => rfl
    diagnose := fun _ => rfl }

/-- **Noise does not reach the data.** After any edits that only move noise the snapshot answers
alike and the diagnosis is the same under all rules. Samples and buckets are as many as before, and
lines, comments and skipped lines differ by exactly those that were inserted and deleted. -/
theorem parse_edited {text edited : String} {inserted deleted : List Line}
    (h : Edited text edited inserted deleted) :
    (parse edited).AnswersAlike (parse text) ∧
      (∀ rules, analyze rules edited = analyze rules text) ∧
      let after := (parse edited).counts
      let before := (parse text).counts
      after.samples = before.samples ∧ after.buckets = before.buckets ∧
        after.lines + deleted.countP (· ≠ .blank) = before.lines + inserted.countP (· ≠ .blank) ∧
        after.comments + deleted.countP (· = .comment) =
          before.comments + inserted.countP (· = .comment) ∧
        after.skipped + deleted.countP (· = .unrecognised) =
          before.skipped + inserted.countP (· = .unrecognised) := by
  have hdata := h.data?_all
  have halike : (parse edited).AnswersAlike (parse text) := by
    refine answersAlike_of_eq ?_
    rw [parse_eq_ofLines, parse_eq_ofLines, ofLines_eq_foldl, ofLines_eq_foldl, hdata]
  have hcount (p : Line → Bool) : (Line.all edited).countP p + deleted.countP p =
      (Line.all text).countP p + inserted.countP p := by
    rw [← List.countP_append, ← List.countP_append]
    exact h.perm_all.countP_eq p
  refine ⟨halike, halike.diagnose, ?_⟩
  rw [parse_eq_ofLines, parse_eq_ofLines, counts_ofLines, counts_ofLines, hdata]
  exact ⟨rfl, rfl, hcount _, hcount _, hcount _⟩

def quiet : String := "up 1\n# note\nwait_bucket 5"

def noisy : String := "up 1 1700000000\r\n9 lives\r\n\twait_bucket 5\u00a0"

/-- One line comes, one goes, one is padded, one gets a timestamp, and lines end as in old files. -/
theorem edited_noisy : Edited quiet noisy [.unrecognised] [.comment] := by
  have hinsert : Edited quiet "up 1\n9 lives\n# note\nwait_bucket 5" [.unrecognised] [] :=
    .insert .start
      (show Text.pieces quiet =
        ["up 1".toList] ++ ["# note".toList, "wait_bucket 5".toList] by decide +kernel)
      (show Text.pieces _ =
        ["up 1".toList] ++ "9 lives".toList :: ["# note".toList, "wait_bucket 5".toList] by
          decide +kernel)
      (by decide +kernel)
  have hdelete : Edited quiet "up 1\n9 lives\nwait_bucket 5" [.unrecognised] [.comment] :=
    .delete hinsert
      (show Text.pieces _ =
        ["up 1".toList, "9 lives".toList] ++ "# note".toList :: ["wait_bucket 5".toList] by
          decide +kernel)
      (show Text.pieces _ =
        ["up 1".toList, "9 lives".toList] ++ ["wait_bucket 5".toList] by decide +kernel)
      (by decide +kernel)
  have hpad : Edited quiet "up 1\n9 lives\n\twait_bucket 5\u00a0" [.unrecognised] [.comment] :=
    .pad hdelete
      (show Text.pieces _ =
        ["up 1".toList, "9 lives".toList] ++ ("wait_bucket 5".toList ++ []) :: [] by
          decide +kernel)
      (show Text.pieces _ =
        ["up 1".toList, "9 lives".toList] ++
          (['\t'] ++ "wait_bucket 5".toList ++ ['\u00a0'] ++ []) :: [] by decide +kernel)
      (List.forall_mem_singleton.mpr (by decide)) (List.forall_mem_singleton.mpr (by decide))
      (List.forall_mem_nil _)
  have hsuffix : ∀ c ∈ (' ' :: "1700000000".toList).head?, DataLine.isValuePart c = false := by
    intro c hc
    cases hc
    decide
  exact .follow (.returns hpad)
    (show Text.pieces _ =
      [] ++ ("up 1".toList ++ ['\r']) ::
        ["9 lives\r".toList, "\twait_bucket 5\u00a0".toList] by decide +kernel)
    (show Text.pieces noisy =
      [] ++ ("up 1".toList ++ ' ' :: "1700000000".toList ++ ['\r']) ::
        ["9 lives\r".toList, "\twait_bucket 5\u00a0".toList] by decide +kernel)
    (show Line.read "up 1".toList = .data ⟨"up", none, 1⟩ by decide +kernel) hsuffix
    (List.forall_mem_singleton.mpr (by decide))

theorem parse_edited_noisy :
    Edited quiet noisy [.unrecognised] [.comment] ∧ (parse noisy).AnswersAlike (parse quiet) ∧
      analyze .builtIn noisy = analyze .builtIn quiet ∧
      (parse noisy).counts.skipped = (parse quiet).counts.skipped + 1 := by
  obtain ⟨halike, hanalyze, -, -, -, -, hskipped⟩ := parse_edited edited_noisy
  exact ⟨edited_noisy, halike, hanalyze .builtIn, hskipped⟩

end Snapshot

end Bottleneck
