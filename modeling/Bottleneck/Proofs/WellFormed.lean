import Bottleneck.Proofs.Number.Numeral
import Bottleneck.Proofs.SeriesIdentity
import Bottleneck.Proofs.Transcript

/-!
What every snapshot keeps to. Each line adds a sample or a bucket that is well formed by itself, a
sample takes the place of another one only whole, and a histogram only grows
(`Snapshot.WellFormed.add`). Main statement: the snapshot of every text is well formed, whatever its
lines are, but its values need not be finite (`Snapshot.wellFormed_parse`).
-/

namespace Bottleneck

open Label (canonical parseBlock Refused)
open Text (occursIn trim)

/-- A block as samples and buckets keep it, and the labels next to it. -/
structure Label.Kept (raw : String) (labels : List Label) : Prop where
  unbraced : '}' ∉ raw.toList
  unbroken : '\n' ∉ raw.toList
  sorted : labels.Pairwise fun a b => a.name < b.name ∨ a.name = b.name ∧ a.value ≤ b.value
  named : ∀ l ∈ labels, Label.isName l.name.toList = true

structure Sample.WellFormed (s : Sample) : Prop where
  isName : DataLine.isName s.key.name.toList = true
  scalar : occursIn DataLine.bucketMarker s.key.name = false
  block : Label.Kept s.rawLabels s.labels
  /-- The key has the labels in written form, or else the block itself. -/
  key : parseBlock s.rawLabels = .ok s.labels ∧ s.key.labels = canonical s.labels ∨
    Refused s.rawLabels ∧ s.labels = [] ∧
      s.key.labels = .ofList (trim s.rawLabels.toList) ∧ s.key.labels ≠ ""
  number : s.value.isNaN = false

structure Bucket.WellFormed (b : Bucket) : Prop where
  block : Label.Kept b.rawLabels b.labels
  number : b.count.isNaN = false

structure Histogram.WellFormed (h : Histogram) : Prop where
  isName : DataLine.isName h.name.toList = true
  marked : occursIn DataLine.bucketMarker h.name = true
  buckets_ne_nil : h.buckets.toList ≠ []
  buckets : ∀ b ∈ h.buckets.toList, b.WellFormed

structure Snapshot.WellFormed (s : Snapshot) : Prop where
  samples : ∀ sample ∈ s.samples.toList, sample.WellFormed
  histograms : ∀ histogram ∈ s.histograms.toList, histogram.WellFormed
  keys : (s.samples.toList.map Sample.key).Nodup
  names : (s.histograms.toList.map Histogram.name).Nodup

/-! ## One line -/

namespace DataLine

variable {line : DataLine}

theorem Writable.isNaN_value (h : line.Writable) : line.value.isNaN = false := by
  obtain ⟨token, hparts, hvalue⟩ := h.value
  exact Number.isNaN_of_read? hparts hvalue

theorem Writable.kept (h : line.Writable) :
    Label.Kept line.rawLabels (labelsOfBlock line.rawLabels) := by
  rcases Label.reads_or_refused line.rawLabels with ⟨listed, hread⟩ | hrefused
  · rw [labelsOfBlock_of_readPairs hread]
    exact {
      unbraced := h.unbraced
      unbroken := h.unbroken
      sorted := (Label.sortedForm_sort listed).ordered
      named := Label.named_sort (Label.named_of_readPairs hread) }
  · rw [labelsOfBlock_of_refused hrefused]
    exact ⟨h.unbraced, h.unbroken, List.Pairwise.nil, List.forall_mem_nil _⟩

/-- A block that was refused never makes the key of a line without labels. -/
theorem key_toSample (line : DataLine) :
    parseBlock line.rawLabels = .ok line.toSample.labels ∧
        line.toSample.key.labels = canonical line.toSample.labels ∨
      Refused line.rawLabels ∧ line.toSample.labels = [] ∧
        line.toSample.key.labels = .ofList (trim line.rawLabels.toList) ∧
        line.toSample.key.labels ≠ "" := by
  rcases Label.reads_or_refused line.rawLabels with ⟨listed, hread⟩ | hrefused
  · have hlabels : line.toSample.labels = Label.sort listed := labelsOfBlock_of_readPairs hread
    have hkey : line.toSample.key = ⟨line.name, canonical (Label.sort listed)⟩ :=
      SeriesKey.of_of_readPairs hread line.name
    rw [hlabels, hkey]
    exact .inl ⟨Label.parseBlock_eq_ok_iff.mpr ⟨listed, hread, rfl⟩, rfl⟩
  · have hlabels : line.toSample.labels = [] := labelsOfBlock_of_refused hrefused
    have hkey : line.toSample.key = ⟨line.name, .ofList (trim line.rawLabels.toList)⟩ :=
      SeriesKey.of_of_refused hrefused line.name
    have hempty : canonical [] ≠ .ofList (trim line.rawLabels.toList) :=
      Label.canonical_ne_trim (List.forall_mem_nil _) hrefused
    rw [hkey]
    exact .inr ⟨hrefused, hlabels, rfl, hempty.symm⟩

theorem Writable.wellFormed_toSample (h : line.Writable) (hscalar : line.isBucket = false) :
    line.toSample.WellFormed where
  isName := by
    rw [name_key_toSample]
    exact h.isName
  scalar := by
    rw [name_key_toSample]
    exact hscalar
  block := h.kept
  key := line.key_toSample
  number := h.isNaN_value

theorem Writable.wellFormed_toHistogram (h : line.Writable) (hbucket : line.isBucket = true) :
    line.toHistogram.WellFormed where
  isName := h.isName
  marked := hbucket
  buckets_ne_nil := List.cons_ne_nil _ _
  buckets := List.forall_mem_singleton.mpr ⟨h.kept, h.isNaN_value⟩

end DataLine

theorem Histogram.WellFormed.extend {old new : Histogram} (hold : old.WellFormed)
    (hnew : new.WellFormed) : (old.extend new).WellFormed where
  isName := hold.isName
  marked := hold.marked
  buckets_ne_nil := by
    rw [Histogram.extend, Array.toList_append]
    exact List.append_ne_nil_of_left_ne_nil hold.buckets_ne_nil _
  buckets := by
    rw [Histogram.extend, Array.toList_append]
    exact List.forall_mem_append.mpr ⟨hold.buckets, hnew.buckets⟩

/-! ## A run -/

namespace Snapshot

variable {s : Snapshot}

theorem wellFormed_empty : WellFormed {} where
  samples := List.forall_mem_nil _
  histograms := List.forall_mem_nil _
  keys := List.nodup_nil
  names := List.nodup_nil

theorem WellFormed.record (h : s.WellFormed) {line : DataLine} (hline : line.Writable) :
    (s.record line).WellFormed where
  samples := by
    rw [samples_record]
    split
    · exact h.samples
    · rename_i hscalar
      have hnew := hline.wellFormed_toSample (Bool.not_eq_true _ ▸ hscalar)
      exact forall_mem_mergeInto (fun _ _ _ => hnew) hnew h.samples
  histograms := by
    rw [histograms_record]
    split
    · rename_i hbucket
      have hnew := hline.wellFormed_toHistogram hbucket
      exact forall_mem_mergeInto (fun _ _ hold => hold.extend hnew) hnew h.histograms
    · exact h.histograms
  keys := (s.record line).samples.nodup_keys
  names := (s.record line).histograms.nodup_keys

/-- **No line breaks the form of a snapshot.** -/
theorem WellFormed.add (h : s.WellFormed) {line : Line}
    (hline : ∀ data ∈ line.data?, data.Writable) : (s.add line).WellFormed := by
  have hrecorded : (line.data?.elim s fun data => s.record data).WellFormed := by
    cases hdata : line.data? with
    | none => exact h
    | some data => exact h.record (hline data hdata)
  exact {
    samples := by
      rw [samples_add]
      exact hrecorded.samples
    histograms := by
      rw [histograms_add]
      exact hrecorded.histograms
    keys := (s.add line).samples.nodup_keys
    names := (s.add line).histograms.nodup_keys }

theorem wellFormed_ofLines {lines : List Line}
    (h : ∀ data ∈ lines.filterMap Line.data?, data.Writable) : (ofLines lines).WellFormed := by
  induction lines using List.reverseRecOn with
  | nil => exact wellFormed_empty
  | append_singleton lines line ih =>
    rw [List.filterMap_append, List.forall_mem_append] at h
    rw [ofLines_concat]
    refine (ih h.1).add fun data hdata => h.2 data ?_
    rw [List.filterMap_cons, Option.mem_def.mp hdata]
    exact List.mem_singleton_self data

/-- Two numerals that are too large for a double. -/
def overflowing : String := "up 1e400\nwait_bucket -1e400"

theorem all_overflowing : DataLine.all overflowing =
    [⟨"up", none, Number.infinity⟩, ⟨"wait_bucket", none, -Number.infinity⟩] := by
  decide +kernel

/-- **The snapshot of every text is well formed**, whatever its lines are. No value is NaN, but one
that is too large for its type is infinite. -/
theorem wellFormed_parse :
    (∀ text, (parse text).WellFormed) ∧
      (∃ text, ∃ sample ∈ (parse text).samples.toList, sample.value = Number.infinity) ∧
      ∃ text, ∃ histogram ∈ (parse text).histograms.toList,
        ∃ bucket ∈ histogram.buckets.toList, bucket.count = -Number.infinity := by
  refine ⟨fun text => ?_, ⟨overflowing, ?_⟩, ⟨overflowing, ?_⟩⟩
  · rw [parse_eq_ofLines]
    refine wellFormed_ofLines fun data hdata => ?_
    rw [Line.filterMap_data?_all] at hdata
    exact DataLine.writable_of_mem_all hdata
  · have hsamples : (parse overflowing).samples.toList =
        [DataLine.toSample ⟨"up", none, Number.infinity⟩] := by
      rw [samples_parse, all_overflowing]
      rfl
    rw [hsamples]
    exact ⟨_, List.mem_singleton_self _, rfl⟩
  · have hhistograms : (parse overflowing).histograms.toList =
        [DataLine.toHistogram ⟨"wait_bucket", none, -Number.infinity⟩] := by
      rw [histograms_parse, all_overflowing]
      rfl
    rw [hhistograms]
    exact ⟨_, List.mem_singleton_self _, _, List.mem_singleton_self _, rfl⟩

end Snapshot

end Bottleneck
