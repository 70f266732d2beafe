import Bottleneck.Proofs.Collect
import Bottleneck.Snapshot.Basic
import Mathlib.Data.List.Basic

/-!
A snapshot against the plain log of its data lines. The log knows neither slots nor indexes: it is
the list of the lines that say something, in their order. Main statement: a snapshot holds for each
series the last line of the log and for each histogram all of its lines, both in the order of first
occurrence, its look-ups are searches of those two lists, and its counts are those of the log
(`Snapshot.parse_reflects`). The run lemmas `samples_ofLines`, `histograms_ofLines` and
`counts_ofLines` say the same of any list of lines and carry the rest of the theory.
-/

namespace Bottleneck

open Text (isBlank trim)

/-! ## The log of a text -/

namespace Text

/-- A carriage return right in front of a line feed belongs to the end of the line. -/
def dropReturn (cs : List Char) : List Char :=
  if cs.getLast? = some '\r' then cs.dropLast else cs

/-- The lines among the pieces between line feeds: what follows the last line feed is a line only
if it is not empty. -/
def linesOfPieces : List (List Char) → List (List Char)
  | [] => []
  | [last] => if last = [] then [] else [last]
  | piece :: next :: rest => dropReturn piece :: linesOfPieces (next :: rest)

def lines (text : String) : List (List Char) := linesOfPieces (text.toList.splitOn '\n')

def entries (text : String) : List (List Char) := ((lines text).map trim).filter (· ≠ [])

def isComment (entry : List Char) : Bool := entry.head? = some '#'

theorem trim_dropReturn (cs : List Char) : trim (dropReturn cs) = trim cs := by
  have hreturn : ∀ c ∈ ['\r'], isBlank c = true := List.forall_mem_singleton.mpr (by decide)
  unfold dropReturn
  split
  · rename_i h
    obtain ⟨front, rfl⟩ := List.getLast?_eq_some_iff.mp h
    rw [List.dropLast_concat, trim_append_of_blank hreturn]
  · rfl

end Text

/-- The recognised data lines of a text: the log. -/
def DataLine.all (text : String) : List DataLine :=
  ((Text.entries text).filter (!Text.isComment ·)).filterMap DataLine.read?

def DataLine.scalars (log : List DataLine) : List DataLine := log.filter (!·.isBucket)

def DataLine.bucketLines (log : List DataLine) : List DataLine := log.filter (·.isBucket)

theorem DataLine.scalars_append (xs ys : List DataLine) :
    scalars (xs ++ ys) = scalars xs ++ scalars ys := List.filter_append ..

theorem DataLine.bucketLines_append (xs ys : List DataLine) :
    bucketLines (xs ++ ys) = bucketLines xs ++ bucketLines ys := List.filter_append ..

theorem DataLine.sorts_append {xs ys : List DataLine} (hxs : ∀ line ∈ xs, line.isBucket = false)
    (hys : ∀ line ∈ ys, line.isBucket = true) :
    scalars (xs ++ ys) = xs ∧ bucketLines (xs ++ ys) = ys := by
  have hscalars : scalars xs = xs ∧ scalars ys = [] :=
    ⟨List.filter_eq_self.mpr fun line h => by simp [hxs line h],
      List.filter_eq_nil_iff.mpr fun line h => by simp [hys line h]⟩
  have hbuckets : bucketLines xs = [] ∧ bucketLines ys = ys :=
    ⟨List.filter_eq_nil_iff.mpr fun line h => by simp [hxs line h],
      List.filter_eq_self.mpr fun line h => by simp [hys line h]⟩
  rw [scalars_append, bucketLines_append, hscalars.1, hscalars.2, hbuckets.1, hbuckets.2]
  exact ⟨List.append_nil xs, List.nil_append ys⟩

/-! ## Reading lines -/

namespace Line

theorem read_eq (cs : List Char) :
    read cs =
      if trim cs = [] then .blank
      else if Text.isComment (trim cs) then .comment
      else (DataLine.read? (trim cs)).elim .unrecognised .data := by
  unfold read Text.isComment
  split
  · rename_i h
    simp [h]
  · rename_i h
    simp [h]
  · rename_i hblank hcomment
    rw [if_neg hblank, if_neg]
    · cases DataLine.read? (trim cs) <;> rfl
    · intro hhead
      obtain ⟨rest, hrest⟩ := List.head?_eq_some_iff.mp (of_decide_eq_true hhead)
      exact hcomment rest hrest

theorem read_dropReturn (cs : List Char) : read (Text.dropReturn cs) = read cs := by
  rw [read_eq, read_eq, Text.trim_dropReturn]

/-- Lines that end at carriage returns too, and end in none that is empty, read the same but for
one blank line. -/
theorem map_read_linesOfPieces (pieces : List (List Char)) :
    ((Text.linesOfPieces pieces).map read).filter (· ≠ .blank) =
      (pieces.map read).filter (· ≠ .blank) := by
  induction pieces using Text.linesOfPieces.induct with
  | case1 => rfl
  | case2 => rfl
  | case3 last hlast => rw [Text.linesOfPieces, if_neg hlast]
  | case4 piece next rest ih =>
    rw [Text.linesOfPieces, List.map_cons, List.map_cons, read_dropReturn, List.filter_cons,
      List.filter_cons, ih]

theorem filter_all (text : String) :
    (all text).filter (· ≠ .blank) = (Text.entries text).map fun entry =>
      if Text.isComment entry then .comment
      else (DataLine.read? entry).elim .unrecognised .data := by
  rw [all, ← map_read_linesOfPieces, Text.entries, Text.lines]
  generalize Text.linesOfPieces (text.toList.splitOn '\n') = pieces
  induction pieces with
  | nil => rfl
  | cons piece rest ih =>
    rw [List.map_cons, List.map_cons, List.filter_cons, List.filter_cons, read_eq, ih]
    by_cases hblank : trim piece = []
    · simp [hblank]
    · by_cases hcomment : Text.isComment (trim piece)
      · simp [hblank, hcomment]
      · cases hread : DataLine.read? (trim piece) <;> simp [hblank, hcomment, hread]

/-- Blank lines say nothing. -/
theorem filterMap_data?_filter (lines : List Line) :
    (lines.filter (· ≠ .blank)).filterMap data? = lines.filterMap data? := by
  rw [List.filterMap_filter]
  refine List.filterMap_congr fun line _ => ?_
  cases line <;> rfl

theorem filterMap_data?_all (text : String) : (all text).filterMap data? = DataLine.all text := by
  rw [← filterMap_data?_filter, filter_all, List.filterMap_map, DataLine.all, List.filterMap_filter]
  refine List.filterMap_congr fun entry _ => ?_
  by_cases hcomment : Text.isComment entry
  · simp [hcomment, data?]
  · cases hread : DataLine.read? entry <;> simp [hcomment, hread, data?]

/-- The log is what the lines say. -/
theorem filterMap_data?_lines (text : String) :
    ((Text.lines text).map read).filterMap data? = DataLine.all text := by
  rw [← filterMap_data?_filter, Text.lines, map_read_linesOfPieces, filterMap_data?_filter,
    ← filterMap_data?_all, all]

end Line

/-! ## One more line -/

def Sample.replace (_ new : Sample) : Sample := new

/-- The buckets of a later line follow those that are there. -/
def Histogram.extend (old new : Histogram) : Histogram :=
  { old with buckets := old.buckets ++ new.buckets }

def DataLine.toHistogram (line : DataLine) : Histogram := ⟨line.name, #[line.toBucket]⟩

theorem Sample.keepsKey_replace : KeepsKey Sample.key Sample.replace := fun _ _ _ => rfl

theorem Sample.isAssoc_replace : IsAssoc Sample.replace := fun _ _ _ => rfl

theorem Histogram.keepsKey_extend : KeepsKey Histogram.name Histogram.extend := fun _ _ h => h

theorem Histogram.isAssoc_extend : IsAssoc Histogram.extend := fun a b c => by
  simp only [extend, Array.append_assoc]

namespace Snapshot

theorem samples_record (s : Snapshot) (line : DataLine) :
    (s.record line).samples.toList =
      if line.isBucket then s.samples.toList
      else mergeInto Sample.key Sample.replace line.toSample s.samples.toList := by
  unfold record
  split
  · rfl
  · exact Roster.toList_add ..

theorem histograms_record (s : Snapshot) (line : DataLine) :
    (s.record line).histograms.toList =
      if line.isBucket then
        mergeInto Histogram.name Histogram.extend line.toHistogram s.histograms.toList
      else s.histograms.toList := by
  unfold record
  split
  · exact Roster.toList_add ..
  · rfl

theorem counts_record (s : Snapshot) (line : DataLine) : (s.record line).counts = s.counts := by
  unfold record
  split <;> rfl

theorem samples_add (s : Snapshot) (line : Line) :
    (s.add line).samples.toList =
      (line.data?.elim s fun data => s.record data).samples.toList := by
  cases line <;> rfl

theorem histograms_add (s : Snapshot) (line : Line) :
    (s.add line).histograms.toList =
      (line.data?.elim s fun data => s.record data).histograms.toList := by
  cases line <;> rfl

theorem counts_add (s : Snapshot) (line : Line) : (s.add line).counts = s.counts.add line := by
  cases line with
  | data data => exact congrArg (Counts.add · (.data data)) (counts_record s data)
  | _ => rfl

/-! ## A run over lines -/

def ofLines (lines : List Line) : Snapshot := lines.foldl add {}

theorem parse_eq_ofLines (text : String) : parse text = ofLines (Line.all text) := rfl

theorem ofLines_concat (lines : List Line) (line : Line) :
    ofLines (lines ++ [line]) = (ofLines lines).add line := by
  simp [ofLines]

/-- **The samples of a run** are its scalar lines, collected by their series. -/
theorem samples_ofLines (lines : List Line) :
    (ofLines lines).samples.toList =
      collect Sample.key Sample.replace
        ((DataLine.scalars (lines.filterMap Line.data?)).map DataLine.toSample) := by
  induction lines using List.reverseRecOn with
  | nil => rfl
  | append_singleton lines line ih =>
    rw [ofLines_concat, samples_add, List.filterMap_append]
    cases hdata : line.data? with
    | none => simp [hdata, ih]
    | some data =>
      rw [Option.elim_some, samples_record, ih]
      by_cases hbucket : data.isBucket
      · simp [hdata, hbucket, DataLine.scalars]
      · simp [hdata, hbucket, DataLine.scalars, collect_concat]

/-- **The histograms of a run** are its bucket lines, collected by their names. -/
theorem histograms_ofLines (lines : List Line) :
    (ofLines lines).histograms.toList =
      collect Histogram.name Histogram.extend
        ((DataLine.bucketLines (lines.filterMap Line.data?)).map DataLine.toHistogram) := by
  induction lines using List.reverseRecOn with
  | nil => rfl
  | append_singleton lines line ih =>
    rw [ofLines_concat, histograms_add, List.filterMap_append]
    cases hdata : line.data? with
    | none => simp [hdata, ih]
    | some data =>
      rw [Option.elim_some, histograms_record, ih]
      by_cases hbucket : data.isBucket
      · simp [hdata, hbucket, DataLine.bucketLines, collect_concat]
      · simp [hdata, hbucket, DataLine.bucketLines]

/-- **The counts of a run** are the numbers of its lines of each sort. -/
theorem counts_ofLines (lines : List Line) :
    (ofLines lines).counts =
      { lines := lines.countP (· ≠ .blank)
        comments := lines.countP (· = .comment)
        samples := (DataLine.scalars (lines.filterMap Line.data?)).length
        buckets := (DataLine.bucketLines (lines.filterMap Line.data?)).length
        skipped := lines.countP (· = .unrecognised) } := by
  induction lines using List.reverseRecOn with
  | nil => rfl
  | append_singleton lines line ih =>
    rw [ofLines_concat, counts_add, ih, List.filterMap_append, DataLine.scalars,
      DataLine.bucketLines, DataLine.scalars, DataLine.bucketLines]
    cases line with
    | data data =>
      by_cases hbucket : data.isBucket <;> simp [Counts.add, Line.data?, hbucket]
    | _ => simp [Counts.add, Line.data?]

/-! ## Grouping the log -/

theorem fuse_replace (samples : List Sample) : fuse Sample.replace samples = samples.getLast? := by
  induction samples using List.reverseRecOn with
  | nil => rfl
  | append_singleton samples sample ih =>
    rw [fuse_concat, ih, List.getLast?_concat]
    cases samples.getLast? <;> rfl

theorem fuse_extend (lines : List DataLine) :
    fuse Histogram.extend (lines.map DataLine.toHistogram) =
      lines.head?.map fun first => ⟨first.name, (lines.map DataLine.toBucket).toArray⟩ := by
  induction lines using List.reverseRecOn with
  | nil => rfl
  | append_singleton lines line ih =>
    rw [List.map_append, List.map_cons, List.map_nil, fuse_concat, ih]
    cases lines <;> simp [DataLine.toHistogram, Histogram.extend]

/-- What a log says of a series: the last of its scalar lines. -/
theorem fuse_samples (log : List DataLine) (k : SeriesKey) :
    fuse Sample.replace ((log.map DataLine.toSample).filter (Sample.key · = k)) =
      ((log.filter (·.toSample.key = k)).getLast?).map DataLine.toSample := by
  rw [fuse_replace, List.filter_map, List.getLast?_map]
  rfl

/-- What a log says of a histogram: all of its lines. -/
theorem fuse_histograms (log : List DataLine) (n : String) :
    fuse Histogram.extend ((log.map DataLine.toHistogram).filter (Histogram.name · = n)) =
      if n ∈ log.map (·.name) then
        some ⟨n, ((log.filter (·.name = n)).map DataLine.toBucket).toArray⟩
      else none := by
  have hfilter : (log.map DataLine.toHistogram).filter (Histogram.name · = n) =
      (log.filter (·.name = n)).map DataLine.toHistogram := List.filter_map
  rw [hfilter, fuse_extend]
  cases hlines : log.filter (·.name = n) with
  | nil =>
    have : n ∉ log.map (·.name) := by
      intro hn
      obtain ⟨line, hmem, hname⟩ := List.mem_map.mp hn
      simpa [hname] using List.filter_eq_nil_iff.mp hlines line hmem
    rw [if_neg this]
    rfl
  | cons first rest =>
    have hfirst : first ∈ log.filter (·.name = n) := hlines ▸ List.mem_cons_self
    have hname : first.name = n := by simpa using (List.mem_filter.mp hfirst).2
    rw [if_pos (List.mem_map.mpr ⟨first, List.mem_of_mem_filter hfirst, hname⟩)]
    simp [hname]

theorem samples_eq_filterMap (lines : List Line) :
    let scalars := DataLine.scalars (lines.filterMap Line.data?)
    (ofLines lines).samples.toList =
      (scalars.map (·.toSample.key)).eraseDups.filterMap fun k =>
        ((scalars.filter (·.toSample.key = k)).getLast?).map DataLine.toSample := by
  intro scalars
  rw [samples_ofLines, collect_eq_filterMap Sample.keepsKey_replace, List.map_map]
  exact List.filterMap_congr fun k _ => fuse_samples scalars k

theorem keys_samples_ofLines (lines : List Line) :
    (ofLines lines).samples.toList.map (·.key) =
      ((DataLine.scalars (lines.filterMap Line.data?)).map (·.toSample.key)).eraseDups := by
  rw [samples_ofLines, keys_collect Sample.keepsKey_replace, List.map_map]
  rfl

theorem histograms_eq_map (lines : List Line) :
    let bucketLines := DataLine.bucketLines (lines.filterMap Line.data?)
    (ofLines lines).histograms.toList =
      (bucketLines.map (·.name)).eraseDups.map fun n =>
        ⟨n, ((bucketLines.filter (·.name = n)).map DataLine.toBucket).toArray⟩ := by
  intro bucketLines
  have hgroup : ∀ n ∈ (bucketLines.map (·.name)).eraseDups,
      fuse Histogram.extend ((bucketLines.map DataLine.toHistogram).filter (·.name = n)) =
        some ⟨n, ((bucketLines.filter (·.name = n)).map DataLine.toBucket).toArray⟩ :=
    fun n hn => by rw [fuse_histograms, if_pos (List.mem_eraseDups.mp hn)]
  rw [histograms_ofLines, collect_eq_filterMap Histogram.keepsKey_extend, List.map_map]
  exact (List.filterMap_congr hgroup).trans (congrFun List.filterMap_eq_map _)

theorem samples_parse (text : String) :
    (parse text).samples.toList = collect Sample.key Sample.replace
      ((DataLine.scalars (DataLine.all text)).map DataLine.toSample) := by
  rw [parse_eq_ofLines, samples_ofLines, Line.filterMap_data?_all]

theorem histograms_parse (text : String) :
    (parse text).histograms.toList = collect Histogram.name Histogram.extend
      ((DataLine.bucketLines (DataLine.all text)).map DataLine.toHistogram) := by
  rw [parse_eq_ofLines, histograms_ofLines, Line.filterMap_data?_all]

/-! ## What is held comes from the log -/

theorem exists_line_of_mem_samples {text : String} {sample : Sample}
    (h : sample ∈ (parse text).samples.toList) :
    ∃ line ∈ DataLine.scalars (DataLine.all text), line.toSample = sample := by
  have hlines : ∀ x ∈ (DataLine.scalars (DataLine.all text)).map DataLine.toSample,
      ∃ line ∈ DataLine.scalars (DataLine.all text), line.toSample = x :=
    fun x hx => List.mem_map.mp hx
  rw [samples_parse] at h
  exact forall_mem_collect (fun _ _ _ _ hnew => hnew) hlines sample h

/-- A histogram is its lines: it has some, and each of its buckets stands for one. -/
theorem exists_lines_of_mem_histograms {text : String} {histogram : Histogram}
    (h : histogram ∈ (parse text).histograms.toList) :
    ∃ lines : List DataLine, lines ≠ [] ∧ histogram.buckets.toList = lines.map DataLine.toBucket ∧
      ∀ line ∈ lines, line ∈ DataLine.bucketLines (DataLine.all text) ∧
        line.name = histogram.name := by
  rw [parse_eq_ofLines, histograms_eq_map, Line.filterMap_data?_all] at h
  obtain ⟨name, hname, rfl⟩ := List.mem_map.mp h
  obtain ⟨line, hline, rfl⟩ := List.mem_map.mp (List.mem_eraseDups.mp hname)
  refine ⟨(DataLine.bucketLines (DataLine.all text)).filter (·.name = line.name), ?_, rfl, ?_⟩
  · exact List.ne_nil_of_mem (List.mem_filter.mpr ⟨hline, by simp⟩)
  · intro other hother
    obtain ⟨hmem, heq⟩ := List.mem_filter.mp hother
    exact ⟨hmem, by simpa using heq⟩

/-! ## Looking things up -/

/-- A pattern is looked for in what the samples are collected from. -/
theorem valueMatching?_parse_eq_collect (text pattern : String) :
    (parse text).valueMatching? pattern = ((collect Sample.key Sample.replace
      ((DataLine.scalars (DataLine.all text)).map DataLine.toSample)).find? fun sample =>
        Text.occursIn pattern sample.composite).map (·.value) := by
  rw [valueMatching?, samples_parse]

theorem sample?_eq_find? (s : Snapshot) (k : SeriesKey) :
    s.sample? k = s.samples.toList.find? (·.key = k) := Roster.get?_eq_find? ..

theorem buckets_eq_find? (s : Snapshot) (name : String) :
    s.buckets name =
      ((s.histograms.toList.find? (·.name = name)).map (·.buckets.toList)).getD [] := by
  unfold buckets
  rw [Roster.get?_eq_find?]
  cases s.histograms.toList.find? (·.name = name) <;> rfl

theorem histogramNames_ofLines (lines : List Line) :
    (ofLines lines).histogramNames =
      ((DataLine.bucketLines (lines.filterMap Line.data?)).map (·.name)).eraseDups := by
  rw [histogramNames, histograms_ofLines, keys_collect Histogram.keepsKey_extend, List.map_map]
  rfl

theorem histogramNames_parse (text : String) :
    (parse text).histogramNames =
      ((DataLine.bucketLines (DataLine.all text)).map (·.name)).eraseDups := by
  rw [parse_eq_ofLines, histogramNames_ofLines, Line.filterMap_data?_all]

theorem buckets_ofLines (lines : List Line) (name : String) :
    (ofLines lines).buckets name =
      ((DataLine.bucketLines (lines.filterMap Line.data?)).filter (·.name = name)).map
        DataLine.toBucket := by
  rw [buckets_eq_find?, histograms_ofLines, find?_collect Histogram.keepsKey_extend,
    fuse_histograms]
  split
  · simp
  · rename_i hname
    have hnone :
        (DataLine.bucketLines (lines.filterMap Line.data?)).filter (·.name = name) = [] := by
      refine List.filter_eq_nil_iff.mpr fun line hline heq => hname ?_
      exact List.mem_map.mpr ⟨line, hline, by simpa using heq⟩
    simp [hnone]

theorem buckets_parse (text : String) (name : String) :
    (parse text).buckets name =
      ((DataLine.bucketLines (DataLine.all text)).filter (·.name = name)).map DataLine.toBucket := by
  rw [parse_eq_ofLines, buckets_ofLines, Line.filterMap_data?_all]

/-! ## Counting lines -/

/-- Every line that is not blank is counted under exactly one other sort. -/
theorem counts_total (lines : List Line) :
    let c := (ofLines lines).counts
    c.lines = c.comments + c.samples + c.buckets + c.skipped := by
  induction lines using List.reverseRecOn with
  | nil => rfl
  | append_singleton lines line ih =>
    rw [ofLines_concat, counts_add]
    cases line with
    | data data =>
      by_cases hbucket : data.isBucket <;> (simp [Counts.add, hbucket]; omega)
    | _ =>
      simp only [Counts.add]
      omega

theorem size_histograms (lines : List Line) :
    ((ofLines lines).histograms.toList.map (·.buckets.size)).sum =
      (ofLines lines).counts.buckets := by
  rw [histograms_ofLines, sum_collect fun old new => by simp [Histogram.extend], counts_ofLines,
    List.map_map]
  simp [Function.comp_def, DataLine.toHistogram]

theorem counts_lines_parse (text : String) :
    (parse text).counts.lines = (Text.entries text).length := by
  rw [parse_eq_ofLines, counts_ofLines, List.countP_eq_length_filter, Line.filter_all,
    List.length_map]

theorem counts_comments_parse (text : String) :
    (parse text).counts.comments = (Text.entries text).countP Text.isComment := by
  have hblank : (Line.all text).countP (· = .comment) =
      ((Line.all text).filter (· ≠ .blank)).countP (· = .comment) := by
    rw [List.countP_filter]
    exact List.countP_congr fun line _ => by cases line <;> simp
  rw [parse_eq_ofLines, counts_ofLines]
  simp only
  rw [hblank, Line.filter_all, List.countP_map]
  refine List.countP_congr fun entry _ => ?_
  by_cases hcomment : Text.isComment entry
  · simp [hcomment]
  · cases hread : DataLine.read? entry <;> simp [hcomment, hread]

/-- What the snapshot of a text must hold, told from the log of the text alone. -/
structure Reflects (s : Snapshot) (text : String) : Prop where
  /-- One sample for each series, in the order of first occurrence, and each is its last line. -/
  samples :
    let scalars := DataLine.scalars (DataLine.all text)
    let key := fun line : DataLine => SeriesKey.of line.name line.rawLabels
    s.samples.toList = (scalars.map key).eraseDups.filterMap fun k =>
      ((scalars.filter (key · = k)).getLast?).map fun line =>
        { key := key line
          rawLabels := line.rawLabels
          labels := labelsOfBlock line.rawLabels
          value := line.value }
  sampleKeys : s.samples.toList.map (·.key) = ((DataLine.scalars (DataLine.all text)).map
    fun line => SeriesKey.of line.name line.rawLabels).eraseDups
  /-- One histogram for each name, in the order of first occurrence, with all of its lines. -/
  histograms :
    let bucketLines := DataLine.bucketLines (DataLine.all text)
    s.histograms.toList = (bucketLines.map (·.name)).eraseDups.map fun n =>
      { name := n
        buckets := ((bucketLines.filter (·.name = n)).map fun line =>
          { rawLabels := line.rawLabels
            labels := labelsOfBlock line.rawLabels
            count := line.value }).toArray }
  sample? : ∀ k, s.sample? k = s.samples.toList.find? (·.key = k)
  buckets : ∀ name, s.buckets name =
    ((s.histograms.toList.find? (·.name = name)).map (·.buckets.toList)).getD []
  sampleNamed? : ∀ name, s.sampleNamed? name = s.samples.toList.find? (·.key.name = name)
  /-- The indexes lead to the slot of their key and to nothing else. -/
  sampleIndex : ∀ k i, s.samples.index[k]? = some i ↔ s.samples.toList[i]?.map Sample.key = some k
  histogramIndex : ∀ name i,
    s.histograms.index[name]? = some i ↔ s.histograms.toList[i]?.map Histogram.name = some name
  lines : s.counts.lines = (Text.entries text).length
  comments : s.counts.comments = (Text.entries text).countP Text.isComment
  scalars : s.counts.samples = (DataLine.scalars (DataLine.all text)).length
  bucketLines : s.counts.buckets = (DataLine.bucketLines (DataLine.all text)).length
  bucketTotal : s.counts.buckets = (s.histograms.toList.map (·.buckets.size)).sum
  total : s.counts.lines =
    s.counts.comments + s.counts.samples + s.counts.buckets + s.counts.skipped

/-- **A snapshot is its log, grouped.** -/
theorem parse_reflects (text : String) : (parse text).Reflects text := by
  have hlog : (Line.all text).filterMap Line.data? = DataLine.all text :=
    Line.filterMap_data?_all text
  exact {
    samples := by
      rw [parse_eq_ofLines, samples_eq_filterMap, hlog]
      rfl
    sampleKeys := by
      rw [parse_eq_ofLines, keys_samples_ofLines, hlog]
      rfl
    histograms := by
      rw [parse_eq_ofLines, histograms_eq_map, hlog]
      rfl
    sample? := sample?_eq_find? _
    buckets := buckets_eq_find? _
    sampleNamed? := fun _ => rfl
    sampleIndex := fun _ _ => Roster.index_eq_some_iff _
    histogramIndex := fun _ _ => Roster.index_eq_some_iff _
    lines := counts_lines_parse text
    comments := counts_comments_parse text
    scalars := by rw [parse_eq_ofLines, counts_ofLines, hlog]
    bucketLines := by rw [parse_eq_ofLines, counts_ofLines, hlog]
    bucketTotal := by rw [parse_eq_ofLines, size_histograms]
    total := counts_total (Line.all text) }

end Snapshot

end Bottleneck
