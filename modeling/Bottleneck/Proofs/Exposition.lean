import Bottleneck.Proofs.Line
import Bottleneck.Proofs.Lines
import Bottleneck.Proofs.SeriesIdentity
import Mathlib.Data.List.Forall2

/-!
Writing series out and reading them back. An entry is written as one line, its labels as they are
listed; neither a line feed nor a brace gets out of its label values, so each line of the text is
one entry again (`parse_render_eq`). Main statement: the snapshot of the text has a sample
for each entry and a bucket for each entry of a histogram, in the order of the entries
(`parse_render`).
-/

namespace Bottleneck.Exposition

open Label (canonical sort)
open Text (occursIn)

/-- A data line before it is written, with what the format asks of its parts. -/
structure Entry where
  name : String
  labels : List Label
  /-- The value as it is written. -/
  token : String
  value : Float
  isName : DataLine.isName name.toList = true := by decide
  named : Label.Named labels := by decide
  /-- The first closing brace of a line ends its block, escaped or not. -/
  unbraced : ∀ l ∈ labels, '}' ∉ l.value.toList := by decide
  valueParts : token.toList.all DataLine.isValuePart = true := by decide
  reads : Number.read? token.toList = some value := by rfl

namespace Entry

/-- The line `name{labels} token`. -/
def text (e : Entry) : List Char :=
  DataLine.written e.name.toList (canonical e.labels).toList e.token.toList

/-- What the line of an entry says. -/
def line (e : Entry) : DataLine := ⟨e.name, some (canonical e.labels), e.value⟩

def isBucket (e : Entry) : Bool := occursIn DataLine.bucketMarker e.name

/-- Two entries of one metric name that list the same labels, each as often. -/
def SameSeries (e f : Entry) : Prop := e.name = f.name ∧ e.labels.Perm f.labels

instance (e f : Entry) : Decidable (e.SameSeries f) :=
  inferInstanceAs (Decidable (e.name = f.name ∧ e.labels.Perm f.labels))

/-- The labels of an entry as a snapshot keeps them: the block as it was written, and its labels in
the order of their names, those of one name in the order of their values. -/
structure Labelled (e : Entry) (raw : String) (labels : List Label) : Prop where
  raw : raw = canonical e.labels
  perm : labels.Perm e.labels
  sorted : labels.Pairwise fun a b => a.name < b.name ∨ a.name = b.name ∧ a.value ≤ b.value

structure IsSample (e : Entry) (s : Sample) : Prop where
  name : s.key.name = e.name
  labels : e.Labelled s.rawLabels s.labels
  key : s.key.labels = canonical s.labels
  value : s.value = e.value

structure IsBucketOf (e : Entry) (b : Bucket) : Prop where
  labels : e.Labelled b.rawLabels b.labels
  count : b.count = e.value

/-! ## One entry -/

theorem closingBrace_notMem_canonical (e : Entry) : '}' ∉ (canonical e.labels).toList :=
  Label.notMem_canonical e.named (by decide) (by decide) fun l hl =>
    Label.notMem_escape (by decide) (by decide) (e.unbraced l hl)

theorem lineFeed_notMem_canonical (e : Entry) : '\n' ∉ (canonical e.labels).toList :=
  Label.notMem_canonical e.named (by decide) (by decide) fun l _ =>
    Label.lineFeed_notMem_escape l.value.toList

theorem isValuePart_of_mem (e : Entry) : ∀ c ∈ e.token.toList, DataLine.isValuePart c = true :=
  List.all_eq_true.mp e.valueParts

theorem lineFeed_notMem_text (e : Entry) : '\n' ∉ e.text := by
  rw [text, DataLine.written_eq_spelled]
  refine DataLine.lineFeed_notMem_spelled e.isName ?_ e.isValuePart_of_mem
  rintro _ ⟨⟩
  exact e.lineFeed_notMem_canonical

theorem read_text (e : Entry) : Line.read e.text = .data e.line := by
  have hblock : ∀ b ∈ some (canonical e.labels).toList, '}' ∉ b := by
    rintro _ ⟨⟩
    exact e.closingBrace_notMem_canonical
  rw [text, DataLine.written_eq_spelled,
    Line.read_spelled e.isName hblock e.isValuePart_of_mem e.reads, Option.map_some,
    String.ofList_toList, String.ofList_toList]
  rfl

theorem labelsOfBlock_canonical (e : Entry) :
    labelsOfBlock (canonical e.labels) = sort e.labels := by
  rw [labelsOfBlock, Label.parseBlock_canonical e.named]

theorem labelled_canonical (e : Entry) :
    e.Labelled (canonical e.labels) (labelsOfBlock (canonical e.labels)) := by
  rw [labelsOfBlock_canonical]
  have hsorted := Label.sortedForm_sort e.labels
  exact ⟨rfl, hsorted.perm, hsorted.ordered⟩

theorem isSample_toSample (e : Entry) : e.IsSample e.line.toSample := by
  have hkey : e.line.toSample.key = ⟨e.name, canonical (sort e.labels)⟩ :=
    SeriesKey.of_of_readPairs (Label.readPairs_canonical e.named) e.name
  exact {
    name := by rw [hkey]
    labels := e.labelled_canonical
    key := by rw [hkey, ← e.labelsOfBlock_canonical]; rfl
    value := rfl }

theorem isBucketOf_toBucket (e : Entry) : e.IsBucketOf e.line.toBucket :=
  ⟨e.labelled_canonical, rfl⟩

theorem key_eq_iff_sameSeries (e f : Entry) :
    e.line.toSample.key = f.line.toSample.key ↔ e.SameSeries f :=
  SeriesKey.of_eq_of_accepted (Label.readPairs_canonical e.named)
    (Label.readPairs_canonical f.named)

end Entry

/-! ## All entries -/

/-- The lines of the entries, with line feeds between them. -/
def render (entries : List Entry) : String := .ofList (['\n'].intercalate (entries.map Entry.text))

/-- The lines of the text are the entries; without entries the text is one blank line. -/
theorem parse_render_eq (entries : List Entry) :
    Snapshot.parse (render entries) = Snapshot.ofLines (entries.map fun e => .data e.line) := by
  have hfeed : ∀ line ∈ entries.map Entry.text, '\n' ∉ line := by
    intro line hline
    obtain ⟨e, -, rfl⟩ := List.mem_map.mp hline
    exact e.lineFeed_notMem_text
  change Snapshot.parse (Text.ofPieces (entries.map Entry.text)) = _
  rw [Snapshot.parse_ofPieces hfeed, List.map_map]
  exact congrArg Snapshot.ofLines (List.map_congr_left fun e _ => e.read_text)

theorem filterMap_data?_entries (entries : List Entry) :
    (entries.map fun e => Line.data e.line).filterMap Line.data? = entries.map Entry.line := by
  rw [List.filterMap_map]
  exact congrFun List.filterMap_eq_map entries

/-- **What was written is read back.** No line is lost, the scalar entries are the samples if no two
of them are one series, and the entries of a histogram are its buckets. -/
theorem parse_render (entries : List Entry) :
    let s := Snapshot.parse (render entries)
    let scalars := entries.filter (!·.isBucket)
    s.counts =
        { lines := entries.length
          comments := 0
          samples := scalars.length
          buckets := (entries.filter (·.isBucket)).length
          skipped := 0 } ∧
      (scalars.Pairwise (¬ ·.SameSeries ·) → List.Forall₂ Entry.IsSample scalars s.samples.toList) ∧
      ∀ name, occursIn DataLine.bucketMarker name = true →
        List.Forall₂ Entry.IsBucketOf (entries.filter (·.name = name)) (s.buckets name) := by
  intro s scalars
  have hs : s = Snapshot.ofLines (entries.map fun e => .data e.line) := parse_render_eq entries
  have hdata := filterMap_data?_entries entries
  have hscalars : DataLine.scalars (entries.map Entry.line) = scalars.map Entry.line :=
    List.filter_map
  have hbuckets : DataLine.bucketLines (entries.map Entry.line) =
      (entries.filter (·.isBucket)).map Entry.line := List.filter_map
  refine ⟨?_, fun hdistinct => ?_, fun name hname => ?_⟩
  · rw [hs, Snapshot.counts_ofLines, hdata, hscalars, hbuckets]
    simp
  · have hnodup : ((scalars.map fun e => e.line.toSample).map Sample.key).Nodup := by
      rw [List.map_map, List.Nodup, List.pairwise_map]
      exact hdistinct.imp fun {e f} hne heq => hne ((e.key_eq_iff_sameSeries f).mp heq)
    have hsamples : s.samples.toList = scalars.map fun e => e.line.toSample := by
      rw [hs, Snapshot.samples_ofLines, hdata, hscalars, List.map_map]
      exact collect_of_nodup hnodup
    rw [hsamples, List.forall₂_map_right_iff, List.forall₂_same]
    exact fun e _ => e.isSample_toSample
  · -- every entry of the name is a bucket, as the name alone decides it
    have hfilter : (entries.filter (·.isBucket)).filter (·.name = name) =
        entries.filter (·.name = name) := by
      rw [List.filter_filter]
      refine List.filter_congr fun e _ => ?_
      by_cases he : e.name = name
      · simp [Entry.isBucket, he, hname]
      · simp [he]
    have hlist : s.buckets name =
        (entries.filter (·.name = name)).map fun e => e.line.toBucket := by
      rw [hs, Snapshot.buckets_ofLines, hdata, hbuckets, List.filter_map, List.map_map, ← hfilter]
      rfl
    rw [hlist, List.forall₂_map_right_iff, List.forall₂_same]
    exact fun e _ => e.isBucketOf_toBucket

/-- Entries whose label values hold the marks of a block and of a text. -/
def awkward : List Entry :=
  [{ name := "queue:depth.max"
     labels := [⟨"path", "a\"b\\c\nd, e=f"⟩, ⟨"host", "\u00a0# \r\u2028"⟩, ⟨"host", ""⟩]
     token := "1.5e3", value := .ofScientific 15 false 2 },
   { name := "wait_bucket", labels := [⟨"le", "1"⟩]
     token := "7", value := .ofScientific 7 false 0 },
   { name := "queue:depth.max", labels := [⟨"host", ""⟩]
     token := "0", value := .ofScientific 0 false 0 },
   { name := "wait_bucket", labels := []
     token := "9.", value := .ofScientific 9 false 0 }]

theorem parse_render_awkward :
    let s := Snapshot.parse (render awkward)
    s.counts.skipped = 0 ∧
      List.Forall₂ Entry.IsSample (awkward.filter (!·.isBucket)) s.samples.toList ∧
      List.Forall₂ Entry.IsBucketOf (awkward.filter (·.name = "wait_bucket"))
        (s.buckets "wait_bucket") := by
  obtain ⟨hcounts, hsamples, hbuckets⟩ := parse_render awkward
  have hdistinct : (awkward.filter (!·.isBucket)).Pairwise (¬ ·.SameSeries ·) := by decide
  exact ⟨by rw [hcounts], hsamples hdistinct, hbuckets "wait_bucket" (by decide)⟩

end Bottleneck.Exposition
