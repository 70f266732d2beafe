import Bottleneck.Proofs.Line
import Bottleneck.Proofs.Lines
import Mathlib.Data.List.Forall2

/-!
Writing down what a snapshot holds. A transcript has one line for each sample and then one for each
bucket: the name of the series with its block, a blank and any token that reads as the value. What a
snapshot got from a text can always be written so, whatever blocks the text has, because no block
holds a closing brace or a line feed (`DataLine.writable_of_mem_all`). Main statement: a transcript
reads as the very samples and histograms that were written (`Snapshot.parse_transcript`).
-/

namespace Bottleneck

/-- A metric name with its block in braces; an empty block is left out. -/
def compositeName (name raw : String) : String :=
  if raw = "" then name else .ofList (name.toList ++ '{' :: (raw.toList ++ ['}']))

/-- A line that writes a value under a composite name. -/
def Spells (record : String × Float) (line : List Char) : Prop :=
  ∃ token : List Char, (∀ c ∈ token, DataLine.isValuePart c = true) ∧
    Number.read? token = some record.2 ∧ line = record.1.toList ++ ' ' :: token

theorem Sample.composite_eq (s : Sample) : s.composite = compositeName s.key.name s.rawLabels := rfl

/-- The values of a snapshot under their composite names: the samples and then the buckets of each
histogram, all in their order. -/
def Snapshot.records (s : Snapshot) : List (String × Float) :=
  s.samples.toList.map (fun sample => (sample.composite, sample.value)) ++
    s.histograms.toList.flatMap fun histogram =>
      histogram.buckets.toList.map fun bucket =>
        (compositeName histogram.name bucket.rawLabels, bucket.count)

namespace DataLine

/-! ## One line -/

/-- What it takes to write a line once more. -/
structure Writable (line : DataLine) : Prop where
  isName : isName line.name.toList = true
  unbraced : '}' ∉ line.rawLabels.toList
  unbroken : '\n' ∉ line.rawLabels.toList
  value : ∃ token : List Char, (∀ c ∈ token, isValuePart c = true) ∧
    Number.read? token = some line.value

theorem exists_piece_of_mem_all {text : String} {line : DataLine} (h : line ∈ all text) :
    ∃ piece ∈ Text.pieces text, Line.read piece = .data line := by
  rw [← Line.filterMap_data?_all, Line.all_eq_map, List.filterMap_map, List.mem_filterMap] at h
  obtain ⟨piece, hpiece, hdata⟩ := h
  refine ⟨piece, hpiece, ?_⟩
  rw [Function.comp_apply] at hdata
  cases hread : Line.read piece with
  | data data =>
    rw [hread] at hdata
    cases hdata
    rfl
  | _ =>
    rw [hread] at hdata
    cases hdata

/-- **Every line that a text has can be written once more.** -/
theorem writable_of_mem_all {text : String} {line : DataLine} (h : line ∈ all text) :
    line.Writable := by
  obtain ⟨piece, hpiece, hread⟩ := exists_piece_of_mem_all h
  obtain ⟨p, hp, rfl⟩ := read?_eq_some_iff.mp (Line.read_eq_data_iff.mp hread)
  have hbroken : '\n' ∉ p.text := fun hmem =>
    Text.lineFeed_notMem_of_mem_pieces hpiece (Text.mem_of_mem_trim (hp ▸ hmem))
  have hraw : ∀ d : Char, (∀ b ∈ p.block, d ∉ b) → d ∉ p.line.rawLabels.toList := by
    intro d hd
    unfold Parts.line rawLabels
    cases hblock : p.block with
    | none => exact List.not_mem_nil
    | some block =>
      rw [Option.map_some, Option.getD_some, String.toList_ofList]
      exact hd block hblock
  refine ⟨?_, hraw '}' p.unbraced, hraw '\n' ?_, p.token, p.valueParts, p.reads⟩
  · rw [Parts.line, String.toList_ofList]
    exact p.isName
  · intro block hblock hmem
    refine hbroken ?_
    simp [Parts.text, braced, Option.mem_def.mp hblock, hmem]

/-- The line without an empty block. -/
def bare (name raw : String) (value : Float) : DataLine :=
  ⟨name, if raw = "" then none else some raw, value⟩

@[simp] theorem rawLabels_bare (name raw : String) (value : Float) :
    (bare name raw value).rawLabels = raw := by
  unfold bare rawLabels
  split
  · rename_i hraw
    exact hraw.symm
  · rfl

theorem toSample_bare (line : DataLine) :
    (bare line.name line.rawLabels line.value).toSample = line.toSample := by
  simp only [toSample, rawLabels_bare]
  rfl

theorem toBucket_bare (line : DataLine) :
    (bare line.name line.rawLabels line.value).toBucket = line.toBucket := by
  simp only [toBucket, rawLabels_bare]
  rfl

theorem Writable.of_bare {line : DataLine} (h : line.Writable) :
    (bare line.name line.rawLabels line.value).Writable :=
  ⟨h.isName, by rw [rawLabels_bare]; exact h.unbraced, by rw [rawLabels_bare]; exact h.unbroken,
    h.value⟩

end DataLine

theorem compositeName_append (name raw : String) (token : List Char) :
    (compositeName name raw).toList ++ ' ' :: token =
      DataLine.spelled name.toList (if raw = "" then none else some raw.toList) token := by
  unfold compositeName DataLine.spelled
  split
  · rfl
  · simp [DataLine.braced]

/-- **A line that was written is the line it was written for**, with an empty block left out. -/
theorem Line.read_of_spells {line : DataLine} (h : line.Writable) {text : List Char}
    (hspells : Spells (compositeName line.name line.rawLabels, line.value) text) :
    read text = .data (.bare line.name line.rawLabels line.value) ∧ '\n' ∉ text := by
  obtain ⟨token, hparts, hreads, rfl⟩ := hspells
  have hblock (d : Char) (hd : d ∉ line.rawLabels.toList) :
      ∀ b ∈ (if line.rawLabels = "" then none else some line.rawLabels.toList), d ∉ b := by
    intro b hb
    split at hb
    · cases hb
    · cases hb
      exact hd
  rw [compositeName_append]
  refine ⟨?_, DataLine.lineFeed_notMem_spelled h.isName (hblock '\n' h.unbroken) hparts⟩
  rw [read_spelled h.isName (hblock '}' h.unbraced) hparts hreads, DataLine.bare,
    String.ofList_toList]
  congr 2
  split
  · rfl
  · rw [Option.map_some, String.ofList_toList]

theorem Line.map_read_of_spells {said : List DataLine} {texts : List (List Char)}
    (hwritable : ∀ line ∈ said, line.Writable)
    (hbare : ∀ line ∈ said, .bare line.name line.rawLabels line.value = line)
    (h : List.Forall₂ (fun (line : DataLine) text =>
      Spells (compositeName line.name line.rawLabels, line.value) text) said texts) :
    texts.map read = said.map .data ∧ ∀ text ∈ texts, '\n' ∉ text := by
  induction h with
  | nil => exact ⟨rfl, fun _ hmem => absurd hmem List.not_mem_nil⟩
  | cons hspells _ ih =>
    obtain ⟨hfirst, hwritable⟩ := List.forall_mem_cons.mp hwritable
    obtain ⟨hsame, hbare⟩ := List.forall_mem_cons.mp hbare
    obtain ⟨hread, hbroken⟩ := read_of_spells hfirst hspells
    obtain ⟨hreads, hbrokens⟩ := ih hwritable hbare
    rw [List.map_cons, List.map_cons, hread, hreads, hsame]
    exact ⟨rfl, List.forall_mem_cons.mpr ⟨hbroken, hbrokens⟩⟩

/-! ## The lines of a snapshot -/

def Sample.line (s : Sample) : DataLine := .bare s.key.name s.rawLabels s.value

def Bucket.line (name : String) (b : Bucket) : DataLine := .bare name b.rawLabels b.count

def Histogram.lines (h : Histogram) : List DataLine := h.buckets.toList.map (Bucket.line h.name)

namespace Snapshot

/-- What a snapshot holds, said line by line. -/
def lines (s : Snapshot) : List DataLine :=
  s.samples.toList.map Sample.line ++ s.histograms.toList.flatMap Histogram.lines

theorem records_eq_map_lines (s : Snapshot) :
    s.records = s.lines.map fun line => (compositeName line.name line.rawLabels, line.value) := by
  simp only [records, lines, List.map_append, List.map_map, List.map_flatMap, Histogram.lines]
  congr 1
  · refine List.map_congr_left fun sample _ => ?_
    rw [Function.comp_apply, Sample.composite_eq, Sample.line, DataLine.rawLabels_bare]
    rfl
  · refine List.flatMap_congr fun histogram _ => List.map_congr_left fun bucket _ => ?_
    rw [Function.comp_apply, Bucket.line, DataLine.rawLabels_bare]
    rfl

end Snapshot

namespace DataLine

theorem line_toSample (line : DataLine) :
    line.toSample.line = bare line.name line.rawLabels line.value := by
  rw [Sample.line, name_key_toSample]
  rfl

theorem line_toBucket (line : DataLine) :
    line.toBucket.line line.name = bare line.name line.rawLabels line.value := rfl

end DataLine

namespace Snapshot

variable {text : String}

/-- A sample is what its line says, and its line is one that the text has. -/
theorem toSample_line {sample : Sample} (h : sample ∈ (parse text).samples.toList) :
    sample.line.toSample = sample ∧ sample.line.isBucket = false ∧ sample.line.Writable := by
  obtain ⟨line, hline, rfl⟩ := exists_line_of_mem_samples h
  obtain ⟨hmem, hscalar⟩ := List.mem_filter.mp hline
  have hbucket : line.isBucket = false := by simpa using hscalar
  rw [DataLine.line_toSample]
  exact ⟨DataLine.toSample_bare line, hbucket, (DataLine.writable_of_mem_all hmem).of_bare⟩

/-- A histogram is what its lines say, and its lines are ones that the text has. -/
theorem fuse_lines {histogram : Histogram} (h : histogram ∈ (parse text).histograms.toList) :
    fuse Histogram.extend (histogram.lines.map DataLine.toHistogram) = some histogram ∧
      ∀ line ∈ histogram.lines,
        line.name = histogram.name ∧ line.isBucket = true ∧ line.Writable := by
  obtain ⟨lines, hne, hbuckets, hlines⟩ := exists_lines_of_mem_histograms h
  have heq : histogram.lines = lines.map fun line => .bare line.name line.rawLabels line.value := by
    rw [Histogram.lines, hbuckets, List.map_map]
    refine List.map_congr_left fun line hline => ?_
    rw [Function.comp_apply, ← (hlines line hline).2, DataLine.line_toBucket]
  have htoBucket : histogram.lines.map DataLine.toBucket = histogram.buckets.toList := by
    rw [heq, hbuckets, List.map_map]
    exact List.map_congr_left fun line _ => line.toBucket_bare
  constructor
  · rw [fuse_extend, htoBucket, heq]
    obtain ⟨line, others, rfl⟩ := List.exists_cons_of_ne_nil hne
    have hname : line.name = histogram.name := (hlines line List.mem_cons_self).2
    simp [DataLine.bare, hname]
  · intro line hline
    rw [heq] at hline
    obtain ⟨original, horiginal, rfl⟩ := List.mem_map.mp hline
    obtain ⟨hmem, hname⟩ := hlines original horiginal
    obtain ⟨hall, hbucket⟩ := List.mem_filter.mp hmem
    exact ⟨hname, hbucket, (DataLine.writable_of_mem_all hall).of_bare⟩

/-- The samples make the scalar lines and the histograms the others. -/
theorem sorts_lines :
    DataLine.scalars (parse text).lines = (parse text).samples.toList.map Sample.line ∧
      DataLine.bucketLines (parse text).lines =
        (parse text).histograms.toList.flatMap Histogram.lines := by
  have hscalar : ∀ line ∈ (parse text).samples.toList.map Sample.line, line.isBucket = false := by
    intro line hline
    obtain ⟨sample, hsample, rfl⟩ := List.mem_map.mp hline
    exact (toSample_line hsample).2.1
  have hbucket : ∀ line ∈ (parse text).histograms.toList.flatMap Histogram.lines,
      line.isBucket = true := by
    intro line hline
    obtain ⟨histogram, hhistogram, hmem⟩ := List.mem_flatMap.mp hline
    exact ((fuse_lines hhistogram).2 line hmem).2.1
  exact DataLine.sorts_append hscalar hbucket

theorem writable_of_mem_lines {line : DataLine} (h : line ∈ (parse text).lines) :
    line.Writable := by
  rcases List.mem_append.mp h with h | h
  · obtain ⟨sample, hsample, rfl⟩ := List.mem_map.mp h
    exact (toSample_line hsample).2.2
  · obtain ⟨histogram, hhistogram, hmem⟩ := List.mem_flatMap.mp h
    exact ((fuse_lines hhistogram).2 line hmem).2.2

theorem bare_of_mem_lines {s : Snapshot} {line : DataLine} (h : line ∈ s.lines) :
    .bare line.name line.rawLabels line.value = line := by
  have hbare : ∃ name raw value, line = .bare name raw value := by
    rcases List.mem_append.mp h with h | h
    · obtain ⟨sample, -, rfl⟩ := List.mem_map.mp h
      exact ⟨_, _, _, rfl⟩
    · obtain ⟨histogram, -, hmem⟩ := List.mem_flatMap.mp h
      obtain ⟨bucket, -, rfl⟩ := List.mem_map.mp hmem
      exact ⟨_, _, _, rfl⟩
  obtain ⟨name, raw, value, rfl⟩ := hbare
  rw [DataLine.rawLabels_bare]
  rfl

/-! ## Reading the lines again -/

theorem filterMap_data?_map_data (lines : List DataLine) :
    (lines.map Line.data).filterMap Line.data? = lines := by
  rw [List.filterMap_map]
  exact List.filterMap_some

/-- **The lines of a snapshot say what it holds.** -/
theorem samples_ofLines_lines :
    (ofLines ((parse text).lines.map .data)).samples.toList = (parse text).samples.toList := by
  have hsamples : ((parse text).samples.toList.map Sample.line).map DataLine.toSample =
      (parse text).samples.toList := by
    rw [List.map_map]
    conv_rhs => rw [← List.map_id (parse text).samples.toList]
    exact List.map_congr_left fun sample hsample => (toSample_line hsample).1
  rw [samples_ofLines, filterMap_data?_map_data, sorts_lines.1, hsamples]
  exact collect_of_nodup (Roster.nodup_keys _)

theorem histograms_ofLines_lines :
    (ofLines ((parse text).lines.map .data)).histograms.toList = (parse text).histograms.toList := by
  rw [histograms_ofLines, filterMap_data?_map_data, sorts_lines.2,
    List.map_flatMap]
  refine collect_flatMap Histogram.keepsKey_extend Histogram.isAssoc_extend
    (fun histogram hmem => (fuse_lines hmem).1) ?_ (Roster.nodup_keys _)
  intro histogram hmem part hpart
  obtain ⟨line, hline, rfl⟩ := List.mem_map.mp hpart
  exact ((fuse_lines hmem).2 line hline).1

/-- Every line is counted as what it was written for. -/
theorem counts_ofLines_lines :
    (ofLines ((parse text).lines.map .data)).counts =
      { lines := (parse text).lines.length
        comments := 0
        samples := (parse text).samples.toList.length
        buckets := (parse text).counts.buckets
        skipped := 0 } := by
  have hbuckets : ((parse text).histograms.toList.flatMap Histogram.lines).length =
      (parse text).counts.buckets := by
    have hsize := size_histograms (Line.all text)
    rw [← parse_eq_ofLines] at hsize
    rw [List.length_flatMap, ← hsize]
    congr 1
    exact List.map_congr_left fun histogram _ => by simp [Histogram.lines]
  rw [counts_ofLines, filterMap_data?_map_data, sorts_lines.1, sorts_lines.2, hbuckets]
  simp

/-- Lines that spell the values of a snapshot are its lines. -/
theorem parse_eq_of_spells {lines : List (List Char)}
    (h : List.Forall₂ Spells (parse text).records lines) :
    parse (Text.ofPieces lines) = ofLines ((parse text).lines.map .data) := by
  rw [records_eq_map_lines, List.forall₂_map_left_iff] at h
  obtain ⟨hread, hbroken⟩ := Line.map_read_of_spells (fun _ => writable_of_mem_lines)
    (fun _ => bare_of_mem_lines) h
  rw [parse_ofPieces hbroken, hread]

/-- **What a snapshot holds can be written down, and what was written reads as the same.** A line
for each sample and then one for each bucket, in their order, with any tokens that read as their
values, hold the same samples and the same histograms, and no line of them is lost. A line feed may
follow the last line. -/
theorem parse_transcript (text : String) :
    (∃ lines, List.Forall₂ Spells (parse text).records lines) ∧
      ∀ lines, List.Forall₂ Spells (parse text).records lines →
        let again := parse (Text.ofPieces lines)
        parse (Text.ofPieces lines ++ "\n") = again ∧
          again.samples.toList = (parse text).samples.toList ∧
          again.histograms.toList = (parse text).histograms.toList ∧
          again.counts =
            { lines := lines.length
              comments := 0
              samples := (parse text).samples.toList.length
              buckets := (parse text).counts.buckets
              skipped := 0 } := by
  constructor
  · have hspells : ∀ record ∈ (parse text).records, ∃ line, Spells record line := by
      intro record hrecord
      rw [records_eq_map_lines] at hrecord
      obtain ⟨line, hline, rfl⟩ := List.mem_map.mp hrecord
      obtain ⟨token, hparts, hreads⟩ := (writable_of_mem_lines hline).value
      exact ⟨_, token, hparts, hreads, rfl⟩
    refine ⟨(parse text).records.map fun record => Classical.epsilon (Spells record), ?_⟩
    rw [List.forall₂_map_right_iff, List.forall₂_same]
    exact fun record hrecord => Classical.epsilon_spec (hspells record hrecord)
  · intro lines hlines again
    have hagain : again = ofLines ((parse text).lines.map .data) := parse_eq_of_spells hlines
    have hlength : lines.length = (parse text).lines.length := by
      rw [← hlines.length_eq, records_eq_map_lines, List.length_map]
    rw [hagain, hlength]
    exact ⟨(parse_append_lineFeed _).trans hagain, samples_ofLines_lines, histograms_ofLines_lines,
      counts_ofLines_lines⟩

/-- A text with an empty block, one of blanks, one that does not read, and a series that comes
twice. -/
def tolerated : String :=
  "up{} 1\nup{ } 2 # later\nqueue{not labels,} 1e3\n# note\nwait_bucket{le} 5\n" ++
    "  wait_bucket 7\nqueue\x7ba=\"1\"\x7d -0\nwait_bucket{le} 6"

def toleratedTranscript : List (List Char) :=
  ["up{ } 2.0".toList, "queue{not labels,} 1E+3".toList, "queue\x7ba=\"1\"\x7d -.0".toList,
    "wait_bucket{le} 5e0".toList, "wait_bucket +7".toList, "wait_bucket{le} 6.".toList]

theorem parse_toleratedTranscript :
    List.Forall₂ Spells (parse tolerated).records toleratedTranscript ∧
      let again := parse (Text.ofPieces toleratedTranscript)
      again.samples.toList = (parse tolerated).samples.toList ∧
        again.histograms.toList = (parse tolerated).histograms.toList ∧
        again.counts.skipped = 0 ∧ again.counts.comments = 0 := by
  have hrecords : (parse tolerated).records =
      [("up{ }", 2), ("queue{not labels,}", 1000), ("queue\x7ba=\"1\"\x7d", -0),
        ("wait_bucket{le}", 5), ("wait_bucket", 7), ("wait_bucket{le}", 6)] := by
    rw [records, samples_parse, histograms_parse]
    decide +kernel
  have hspells : List.Forall₂ Spells (parse tolerated).records toleratedTranscript := by
    rw [hrecords, toleratedTranscript]
    refine .cons ⟨"2.0".toList, ?_⟩ (.cons ⟨"1E+3".toList, ?_⟩ (.cons ⟨"-.0".toList, ?_⟩
      (.cons ⟨"5e0".toList, ?_⟩ (.cons ⟨"+7".toList, ?_⟩ (.cons ⟨"6.".toList, ?_⟩ .nil)))))
    all_goals
      exact ⟨List.all_eq_true.mp (by decide +kernel), by decide +kernel, by decide +kernel⟩
  obtain ⟨-, hagain⟩ := parse_transcript tolerated
  obtain ⟨-, hsamples, hhistograms, hcounts⟩ := hagain toleratedTranscript hspells
  exact ⟨hspells, hsamples, hhistograms, by rw [hcounts], by rw [hcounts]⟩

end Snapshot

end Bottleneck
