import Bottleneck.Proofs.Lines

/-!
Two texts, one after the other. The line feed between them ends the last line of the first text, so
the lines of the whole are those of the two parts and no line is made or lost at the seam, whatever
the first text ends with. Main statement: the snapshot of the whole is the merge of the two
snapshots (`Snapshot.parse_append`).
-/

namespace Bottleneck

/-- No line reaches across the seam. -/
theorem Line.all_append (a b : String) : all (a ++ "\n" ++ b) = all a ++ all b := by
  rw [all_eq_map, all_eq_map, all_eq_map, Text.pieces_append, List.map_append]

/-- The log of the whole is the two logs, one after the other. -/
theorem DataLine.all_append (a b : String) : all (a ++ "\n" ++ b) = all a ++ all b := by
  rw [← Line.filterMap_data?_all, Line.all_append, List.filterMap_append,
    Line.filterMap_data?_all, Line.filterMap_data?_all]

namespace Snapshot

theorem parse_append_eq (a b : String) :
    parse (a ++ "\n" ++ b) = ofLines (Line.all a ++ Line.all b) := by
  rw [parse_eq_ofLines, Line.all_append]

variable (xs ys : List Line)

theorem counts_append :
    (ofLines (xs ++ ys)).counts =
      { lines := (ofLines xs).counts.lines + (ofLines ys).counts.lines
        comments := (ofLines xs).counts.comments + (ofLines ys).counts.comments
        samples := (ofLines xs).counts.samples + (ofLines ys).counts.samples
        buckets := (ofLines xs).counts.buckets + (ofLines ys).counts.buckets
        skipped := (ofLines xs).counts.skipped + (ofLines ys).counts.skipped } := by
  simp [counts_ofLines, DataLine.scalars, DataLine.bucketLines]

theorem buckets_append (name : String) :
    (ofLines (xs ++ ys)).buckets name = (ofLines xs).buckets name ++ (ofLines ys).buckets name := by
  simp [buckets_ofLines, DataLine.bucketLines]

theorem histogramNames_append :
    (ofLines (xs ++ ys)).histogramNames =
      (ofLines xs).histogramNames ++
        (ofLines ys).histogramNames.filter (· ∉ (ofLines xs).histogramNames) := by
  simp only [histogramNames_ofLines, DataLine.bucketLines, List.filterMap_append,
    List.filter_append, List.map_append, List.eraseDups_append]
  rw [List.removeAll, eraseDups_filter]
  simp only [List.elem_eq_mem, List.mem_eraseDups, decide_not]

theorem samples_append :
    (ofLines (xs ++ ys)).samples.toList =
      (ofLines xs).samples.toList.map (fun s => ((ofLines ys).sample? s.key).getD s) ++
        (ofLines ys).samples.toList.filter fun s =>
          s.key ∉ (ofLines xs).samples.toList.map (·.key) := by
  have hreplace : ∀ (s : Sample) (later : Option Sample), later.elim s (s.replace) = later.getD s :=
    fun s later => by cases later <;> rfl
  simp only [samples_ofLines, sample?_eq_find?, DataLine.scalars, List.filterMap_append,
    List.filter_append, List.map_append, ← hreplace]
  exact collect_append Sample.keepsKey_replace Sample.isAssoc_replace _ _

/-- One snapshot continues another. Counts add up, buckets follow those of their histogram, a later
sample of a series takes the place of the earlier one, and what is new comes last, in its order. -/
structure Merges (whole first second : Snapshot) : Prop where
  counts : whole.counts =
    { lines := first.counts.lines + second.counts.lines
      comments := first.counts.comments + second.counts.comments
      samples := first.counts.samples + second.counts.samples
      buckets := first.counts.buckets + second.counts.buckets
      skipped := first.counts.skipped + second.counts.skipped }
  buckets : ∀ name, whole.buckets name = first.buckets name ++ second.buckets name
  histogramNames : whole.histogramNames =
    first.histogramNames ++ second.histogramNames.filter (· ∉ first.histogramNames)
  samples : whole.samples.toList =
    first.samples.toList.map (fun s => (second.sample? s.key).getD s) ++
      second.samples.toList.filter fun s => s.key ∉ first.samples.toList.map (·.key)

theorem merges_ofLines (xs ys : List Line) :
    (ofLines (xs ++ ys)).Merges (ofLines xs) (ofLines ys) where
  counts := counts_append xs ys
  buckets := buckets_append xs ys
  histogramNames := histogramNames_append xs ys
  samples := samples_append xs ys

/-- **The snapshot of two texts is the merge of their snapshots.** -/
theorem parse_append (a b : String) : (parse (a ++ "\n" ++ b)).Merges (parse a) (parse b) := by
  rw [parse_append_eq]
  exact merges_ofLines (Line.all a) (Line.all b)

end Snapshot

end Bottleneck
