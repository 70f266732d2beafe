import Bottleneck.Proofs.Pool
import Bottleneck.Proofs.Tail

/-!
The total of a histogram. It is looked for among the unbounded buckets first, and the first of these
decides whatever its count is: a zero there sends the search on to the count series, past any later
unbounded bucket that could be used (`Snapshot.total?_parse_iff`). Main statements: the first usable
bucket gives the total unless an unbounded one without observations stands before it
(`Snapshot.total?_usable`), and where no bucket is usable the count series does, unless its name is
that of a histogram (`Snapshot.total?_counted`).
-/

namespace Bottleneck

open Text (occursIn)

namespace DataLine

/-- The lines of one histogram, in their order. -/
def bucketsNamed (text histogram : String) : List DataLine :=
  (bucketLines (all text)).filter (·.name = histogram)

/-- The line is the bucket that counts every observation. -/
def IsUnbounded (line : DataLine) : Prop := line.toBucket.isInf = true

instance : DecidablePred IsUnbounded := fun line =>
  inferInstanceAs (Decidable (line.toBucket.isInf = true))

/-- A bucket that can give the total: it counts every observation, and there are some. -/
structure Usable (line : DataLine) : Prop where
  unbounded : line.IsUnbounded
  nonzero : ¬ (line.value = 0 ∨ line.value = -0)

/-- The labels of a block are told by its written form. -/
theorem isUnbounded_of_written {line : DataLine} (labels : List Label)
    (hblock : line.rawLabels = Label.canonical labels) (hnamed : Label.Named labels)
    (hsorted : Label.SortedForm labels labels)
    (hbound : Label.find? labels Label.le = some "+Inf") : line.IsUnbounded := by
  have hlabels : line.toBucket.labels = labels := by
    rw [toBucket, labelsOfBlock, hblock, Label.parseBlock_canonical_of_sorted hnamed hsorted]
  have hne : labels ≠ [] := by
    intro hnil
    rw [hnil] at hbound
    cases hbound
  have hle : line.toBucket.le? = some "+Inf" := by
    rw [Bucket.le?, hlabels, if_neg hne, hbound]
  rw [IsUnbounded, Bucket.isInf, hle]
  decide +kernel

/-- The value that was last written to the first series of a name. -/
def IsCurrent (text name : String) (value : Float) : Prop :=
  ∃ line, First (fun line : DataLine => line.name = name) line (current text) ∧ line.value = value

end DataLine

namespace Snapshot

variable {text histogram name : String} {value total : Float}

theorem total?_parse (text histogram : String) :
    (parse text).total? histogram =
      ((((DataLine.bucketsNamed text histogram).find? (·.toBucket.isInf)).map (·.value)).filter
        nonzero).or ((((DataLine.current text).find? (·.name = countSeriesName histogram)).map
          (·.value)).filter nonzero) := by
  have hname (line : DataLine) : line.toSample.key.name = line.name := line.name_key_toSample
  rw [total?, Option.orElse_eq_orElse, Option.orElse_eq_or, buckets_parse, List.find?_map,
    Option.map_map, sampleNamed?, samples_parse_eq_current, List.find?_map, Option.map_map]
  simp only [Function.comp_def, hname]
  rfl

/-- **The first unbounded bucket decides.** Its count is the total if it is not zero, and otherwise
the count series has it; no other unbounded bucket is looked at. -/
theorem total?_parse_iff :
    (parse text).total? histogram = some total ↔ ¬ (total = 0 ∨ total = -0) ∧
      ((∃ line, First DataLine.IsUnbounded line (DataLine.bucketsNamed text histogram) ∧
          line.value = total) ∨
        (∀ line, First DataLine.IsUnbounded line (DataLine.bucketsNamed text histogram) →
          line.value = 0 ∨ line.value = -0) ∧
        DataLine.IsCurrent text (countSeriesName histogram) total) := by
  have hunbounded (line : DataLine) :
      (DataLine.bucketsNamed text histogram).find? (·.toBucket.isInf) = some line ↔
        First DataLine.IsUnbounded line (DataLine.bucketsNamed text histogram) :=
    find?_eq_some_iff_first
  rw [total?_parse, Option.or_eq_some_iff]
  simp only [Option.filter_eq_some_iff, Option.filter_eq_none_iff, Option.map_eq_some_iff,
    hunbounded, find?_eq_some_iff_first, decide_eq_true_eq, nonzero_iff, not_not,
    forall_exists_index, and_imp, forall_apply_eq_imp_iff₂, DataLine.IsCurrent]
  constructor
  · rintro (⟨hfirst, htotal⟩ | ⟨hidle, hcurrent, htotal⟩)
    · exact ⟨htotal, .inl hfirst⟩
    · exact ⟨htotal, .inr ⟨hidle, hcurrent⟩⟩
  · rintro ⟨htotal, hfirst | ⟨hidle, hcurrent⟩⟩
    · exact .inl ⟨hfirst, htotal⟩
    · exact .inr ⟨hidle, hcurrent, htotal⟩

/-- Where the first unbounded bucket counts nothing the count series has the total. -/
theorem total?_of_idle (hidle : ∀ line,
    First DataLine.IsUnbounded line (DataLine.bucketsNamed text histogram) →
      line.value = 0 ∨ line.value = -0) :
    (parse text).total? histogram = some total ↔ ¬ (total = 0 ∨ total = -0) ∧
      DataLine.IsCurrent text (countSeriesName histogram) total := by
  rw [total?_parse_iff]
  refine and_congr_right fun htotal => ⟨fun h => ?_, fun hcurrent => .inr ⟨hidle, hcurrent⟩⟩
  rcases h with ⟨line, hfirst, rfl⟩ | ⟨-, hcurrent⟩
  · exact absurd (hidle line hfirst) htotal
  · exact hcurrent

/-- **The first usable bucket gives the total**, unless an unbounded bucket that counts nothing
stands before it: then all of them are passed over, and the count series has the total or there is
none. -/
theorem total?_usable {text histogram : String}
    (h : ∃ line ∈ DataLine.bucketsNamed text histogram, line.Usable) :
    ∃ line, First DataLine.Usable line (DataLine.bucketsNamed text histogram) ∧
      (First DataLine.IsUnbounded line (DataLine.bucketsNamed text histogram) ∧
          (parse text).total? histogram = some line.value ∨
        ∃ idle, First DataLine.IsUnbounded idle (DataLine.bucketsNamed text histogram) ∧
          (idle.value = 0 ∨ idle.value = -0) ∧
          ∀ total, (parse text).total? histogram = some total ↔
            ¬ (total = 0 ∨ total = -0) ∧
              DataLine.IsCurrent text (countSeriesName histogram) total) := by
  obtain ⟨line, husable⟩ := exists_first h
  obtain ⟨unbounded, hfirst⟩ : ∃ unbounded,
      First DataLine.IsUnbounded unbounded (DataLine.bucketsNamed text histogram) :=
    exists_first ⟨line, husable.mem, husable.1.unbounded⟩
  by_cases hidle : unbounded.value = 0 ∨ unbounded.value = -0
  · refine ⟨line, husable, .inr ⟨unbounded, hfirst, hidle, fun total => total?_of_idle ?_⟩⟩
    intro other hother
    rwa [hother.unique hfirst]
  · have hboth : First DataLine.Usable unbounded (DataLine.bucketsNamed text histogram) := by
      obtain ⟨hunbounded, before, after, hsplit, hbefore⟩ := hfirst
      exact ⟨⟨hunbounded, hidle⟩, before, after, hsplit,
        fun other hother husable => hbefore other hother husable.unbounded⟩
    exact ⟨unbounded, hboth, .inl ⟨hfirst, total?_parse_iff.mpr ⟨hidle, .inl ⟨_, hfirst, rfl⟩⟩⟩⟩

/-- A bucket in a spoiled block gives the total, in front of another one and of a count series. -/
def spoiledTotal : String :=
  "lat_bucket\x7ble=\"0.1\"\x7d 5\nlat_bucket\x7ble=\" +iNF\",path=/a\x7d 9\n" ++
    "lat_bucket\x7ble=\"+Inf\",path=\"/b\"\x7d 4\nlat_count 12"

theorem total?_usable_spoiled :
    (∃ line ∈ DataLine.bucketsNamed spoiledTotal "lat_bucket", line.Usable) ∧
      (parse spoiledTotal).total? "lat_bucket" = some 9 := by
  have hfirst : First DataLine.IsUnbounded ⟨"lat_bucket", some "le=\" +iNF\",path=/a", 9⟩
      (DataLine.bucketsNamed spoiledTotal "lat_bucket") := by
    decide +kernel
  have husable : ∃ line ∈ DataLine.bucketsNamed spoiledTotal "lat_bucket", line.Usable :=
    ⟨_, hfirst.mem, hfirst.1, by decide +kernel⟩
  refine ⟨husable, ?_⟩
  obtain ⟨line, -, ⟨hline, htotal⟩ | ⟨idle, hidle, hzero, -⟩⟩ := total?_usable husable
  · rw [htotal, hline.unique hfirst]
  · rw [hidle.unique hfirst] at hzero
    exact absurd hzero (by decide +kernel)

/-- Two series of one histogram, the first of which has counted nothing. -/
def idleFirst : String :=
  "lat_bucket\x7ble=\"+Inf\",path=\"/a\"\x7d 0\nlat_bucket\x7ble=\"+Inf\",path=\"/b\"\x7d 5"

theorem total?_idleFirst :
    (∃ line, First DataLine.Usable line (DataLine.bucketsNamed idleFirst "lat_bucket") ∧
      line.value = 5) ∧ (parse idleFirst).total? "lat_bucket" = none := by
  have hlines : DataLine.bucketsNamed idleFirst "lat_bucket" =
      [⟨"lat_bucket", some "le=\"+Inf\",path=\"/a\"", 0⟩,
        ⟨"lat_bucket", some "le=\"+Inf\",path=\"/b\"", 5⟩] := by
    decide +kernel
  have hidle : DataLine.IsUnbounded ⟨"lat_bucket", some "le=\"+Inf\",path=\"/a\"", 0⟩ :=
    DataLine.isUnbounded_of_written [⟨"le", "+Inf"⟩, ⟨"path", "/a"⟩] rfl (by decide)
      ⟨List.Perm.refl _, by decide⟩ rfl
  have husable : DataLine.IsUnbounded ⟨"lat_bucket", some "le=\"+Inf\",path=\"/b\"", 5⟩ :=
    DataLine.isUnbounded_of_written [⟨"le", "+Inf"⟩, ⟨"path", "/b"⟩] rfl (by decide)
      ⟨List.Perm.refl _, by decide⟩ rfl
  constructor
  · refine ⟨_, ⟨⟨husable, by decide +kernel⟩, [_], [], hlines, ?_⟩, rfl⟩
    intro line hline hgood
    rw [List.mem_singleton.mp hline] at hgood
    exact hgood.nonzero (.inl rfl)
  · have hfind : (DataLine.bucketsNamed idleFirst "lat_bucket").find? (·.toBucket.isInf) =
        some ⟨"lat_bucket", some "le=\"+Inf\",path=\"/a\"", 0⟩ := by
      rw [hlines]
      exact List.find?_cons_of_pos hidle
    rw [total?_parse, hfind]
    decide +kernel

/-! ## The count series -/

/-- A final `_bucket` becomes `_count`. -/
theorem countSeriesName_append (base : String) :
    countSeriesName (base ++ "_bucket") = base ++ "_count" := by
  have hsuffix : DataLine.bucketMarker.toList.isSuffixOf (base ++ "_bucket").toList = true := by
    rw [List.isSuffixOf_iff_suffix, String.toList_append]
    exact List.suffix_append _ _
  have hlength : (base ++ "_bucket").toList.length - DataLine.bucketMarker.toList.length =
      base.toList.length := by
    rw [String.toList_append, List.length_append]
    exact Nat.add_sub_cancel _ _
  rw [countSeriesName, if_pos hsuffix, hlength, String.toList_append, List.take_left,
    String.ofList_append, String.ofList_toList]
  rfl

/-- The new ending makes no marker and takes none away: what it starts with ends no marker. -/
theorem occursIn_bucketMarker_append (base : String) :
    occursIn DataLine.bucketMarker (base ++ "_count") = occursIn DataLine.bucketMarker base := by
  rw [Bool.eq_iff_iff, Text.occursIn_iff, Text.occursIn_iff, String.toList_append,
    List.infix_append_iff]
  refine ⟨fun h => ?_, .inl⟩
  rcases h with hbase | hending | ⟨front, back, hmarker, hfront, hback⟩
  · exact hbase
  · exact absurd hending (by decide +kernel)
  · have hcuts : ∀ k ≤ 7, DataLine.bucketMarker.toList.drop k <+: "_count".toList →
        DataLine.bucketMarker.toList.drop k = [] := by
      decide +kernel
    have hdrop : DataLine.bucketMarker.toList.drop front.length = back := by
      rw [hmarker, List.drop_left]
    have hlength : front.length ≤ 7 := by
      have hsize : DataLine.bucketMarker.toList.length = 7 := by decide +kernel
      rw [hmarker, List.length_append] at hsize
      omega
    have hnil : back = [] := hdrop ▸ hcuts front.length hlength (hdrop ▸ hback)
    rw [hmarker, hnil, List.append_nil]
    exact hfront.isInfix

end Snapshot

/-! ## Lines that are current -/

namespace DataLine

theorem mem_scalars_of_mem_current {text : String} {line : DataLine} (h : line ∈ current text) :
    line ∈ scalars (all text) := by
  obtain ⟨key, -, hlast⟩ := List.mem_filterMap.mp h
  exact (List.mem_filter.mp (List.mem_of_getLast? hlast)).1

/-- The series of a scalar line has a current line. -/
theorem exists_current {text : String} {line : DataLine} (h : line ∈ scalars (all text)) :
    ∃ last ∈ current text, last.toSample.key = line.toSample.key := by
  have hkey : line.toSample.key ∈ ((scalars (all text)).map (·.toSample.key)).eraseDups :=
    List.mem_eraseDups.mpr (List.mem_map_of_mem h)
  have hseries : line ∈ (scalars (all text)).filter (·.toSample.key = line.toSample.key) :=
    List.mem_filter.mpr ⟨h, by simp⟩
  cases hlast : ((scalars (all text)).filter (·.toSample.key = line.toSample.key)).getLast? with
  | none =>
    rw [List.getLast?_eq_none_iff.mp hlast] at hseries
    cases hseries
  | some last =>
    have hsame := (List.mem_filter.mp (List.mem_of_getLast? hlast)).2
    exact ⟨last, List.mem_filterMap.mpr ⟨_, hkey, hlast⟩, of_decide_eq_true hsame⟩

theorem name_eq_of_key_eq {line other : DataLine} (h : line.toSample.key = other.toSample.key) :
    line.name = other.name := by
  rw [← line.name_key_toSample, ← other.name_key_toSample, h]

end DataLine

namespace Snapshot

theorem isCurrent_of_mem_all {text name : String} {line : DataLine}
    (h : line ∈ DataLine.all text) (hname : line.name = name)
    (hscalar : occursIn DataLine.bucketMarker name = false) :
    ∃ last, First (fun line : DataLine => line.name = name) last (DataLine.current text) ∧
      last ∈ DataLine.all text := by
  have hline : line ∈ DataLine.scalars (DataLine.all text) := by
    refine List.mem_filter.mpr ⟨h, ?_⟩
    rw [DataLine.isBucket, hname, hscalar]
    rfl
  obtain ⟨other, hother, hkey⟩ := DataLine.exists_current hline
  have hnamed : ∃ last ∈ DataLine.current text, last.name = name :=
    ⟨other, hother, (DataLine.name_eq_of_key_eq hkey).trans hname⟩
  obtain ⟨last, hlast⟩ := exists_first hnamed
  exact ⟨last, hlast, (List.mem_filter.mp (DataLine.mem_scalars_of_mem_current hlast.mem)).1⟩

/-- **Without a usable bucket the count series gives the total**: what was last written to the first
series of its name, if no line of that name says zero. A name that has the marker in front of its
ending is the exception: its count series would have the marker as well, so there is only a
histogram of that name, and there is no total. -/
theorem total?_counted {text base : String}
    (h : ∀ line ∈ DataLine.bucketsNamed text (base ++ "_bucket"), ¬ line.Usable) :
    (occursIn DataLine.bucketMarker base = false →
      (∃ line ∈ DataLine.all text, line.name = base ++ "_count") →
      (∀ line ∈ DataLine.all text, line.name = base ++ "_count" →
        ¬ (line.value = 0 ∨ line.value = -0)) →
      ∃ line, First (fun line : DataLine => line.name = base ++ "_count") line
          (DataLine.current text) ∧
        (parse text).total? (base ++ "_bucket") = some line.value) ∧
      (occursIn DataLine.bucketMarker base = true →
        (parse text).total? (base ++ "_bucket") = none) := by
  have hidle : ∀ line,
      First DataLine.IsUnbounded line (DataLine.bucketsNamed text (base ++ "_bucket")) →
        line.value = 0 ∨ line.value = -0 := by
    intro line hfirst
    by_contra hnonzero
    exact h line hfirst.mem ⟨hfirst.1, hnonzero⟩
  constructor
  · intro hbase hwritten hnonzero
    obtain ⟨written, hmem, hname⟩ := hwritten
    obtain ⟨line, hfirst, hline⟩ :=
      isCurrent_of_mem_all hmem hname ((occursIn_bucketMarker_append base).trans hbase)
    refine ⟨line, hfirst, (total?_of_idle hidle).mpr ⟨hnonzero line hline hfirst.1, ?_⟩⟩
    rw [countSeriesName_append]
    exact ⟨line, hfirst, rfl⟩
  · intro hbase
    rw [Option.eq_none_iff_forall_ne_some]
    intro total htotal
    obtain ⟨-, line, hfirst, -⟩ := (total?_of_idle hidle).mp htotal
    obtain ⟨-, hscalar⟩ := List.mem_filter.mp (DataLine.mem_scalars_of_mem_current hfirst.mem)
    rw [DataLine.isBucket, hfirst.1, countSeriesName_append, occursIn_bucketMarker_append,
      hbase] at hscalar
    cases hscalar

/-- A histogram without a total of its own, whose count series is written twice. -/
def rewrittenCount : String :=
  "lat_bucket\x7ble=\"+Inf\"\x7d 0\nlat_count\x7bpath=\"/a\"\x7d 7\nlat_count 3\n" ++
    "lat_count\x7bpath=\"/a\"\x7d 8"

theorem total?_counted_rewritten :
    (∀ line ∈ DataLine.bucketsNamed rewrittenCount ("lat" ++ "_bucket"), ¬ line.Usable) ∧
      occursIn DataLine.bucketMarker "lat" = false ∧
      (∃ line ∈ DataLine.all rewrittenCount, line.name = "lat" ++ "_count") ∧
      (∀ line ∈ DataLine.all rewrittenCount, line.name = "lat" ++ "_count" →
        ¬ (line.value = 0 ∨ line.value = -0)) ∧
      (parse rewrittenCount).total? ("lat" ++ "_bucket") = some 8 := by
  have hbuckets : DataLine.bucketsNamed rewrittenCount ("lat" ++ "_bucket") =
      [⟨"lat_bucket", some "le=\"+Inf\"", 0⟩] := by
    decide +kernel
  have hlines : DataLine.all rewrittenCount =
      [⟨"lat_bucket", some "le=\"+Inf\"", 0⟩, ⟨"lat_count", some "path=\"/a\"", 7⟩,
        ⟨"lat_count", none, 3⟩, ⟨"lat_count", some "path=\"/a\"", 8⟩] := by
    decide +kernel
  have hlast : First (fun line : DataLine => line.name = "lat" ++ "_count")
      ⟨"lat_count", some "path=\"/a\"", 8⟩ (DataLine.current rewrittenCount) := by
    decide +kernel
  have hunusable : ∀ line ∈ DataLine.bucketsNamed rewrittenCount ("lat" ++ "_bucket"),
      ¬ line.Usable := by
    intro line hline husable
    rw [hbuckets, List.mem_singleton] at hline
    subst hline
    exact husable.nonzero (.inl rfl)
  have hwritten : ∃ line ∈ DataLine.all rewrittenCount, line.name = "lat" ++ "_count" := by
    rw [hlines]
    decide +kernel
  have hnonzero : ∀ line ∈ DataLine.all rewrittenCount, line.name = "lat" ++ "_count" →
      ¬ (line.value = 0 ∨ line.value = -0) := by
    rw [hlines]
    decide +kernel
  obtain ⟨hcounted, -⟩ := total?_counted hunusable
  obtain ⟨line, hfirst, htotal⟩ := hcounted (by decide) hwritten hnonzero
  refine ⟨hunusable, by decide, hwritten, hnonzero, ?_⟩
  rw [htotal, hfirst.unique hlast]

/-- The name of this histogram has the marker twice, and what would be its count series is a
histogram itself. -/
def markedTwice : String := "a_bucket_bucket\x7ble=\"1\"\x7d 5\na_bucket_count 7"

theorem total?_markedTwice :
    (∀ line ∈ DataLine.bucketsNamed markedTwice ("a_bucket" ++ "_bucket"), ¬ line.Usable) ∧
      (∃ line ∈ DataLine.all markedTwice, line.name = "a_bucket" ++ "_count") ∧
      (∀ line ∈ DataLine.all markedTwice, line.name = "a_bucket" ++ "_count" →
        ¬ (line.value = 0 ∨ line.value = -0)) ∧
      (parse markedTwice).total? ("a_bucket" ++ "_bucket") = none := by
  have hbuckets : DataLine.bucketsNamed markedTwice ("a_bucket" ++ "_bucket") =
      [⟨"a_bucket_bucket", some "le=\"1\"", 5⟩] := by
    decide +kernel
  have hlines : DataLine.all markedTwice =
      [⟨"a_bucket_bucket", some "le=\"1\"", 5⟩, ⟨"a_bucket_count", none, 7⟩] := by
    decide +kernel
  refine ⟨?_, ?_, ?_, ?_⟩
  · intro line hline husable
    rw [hbuckets, List.mem_singleton] at hline
    subst hline
    exact absurd husable.unbounded (by decide +kernel)
  · rw [hlines]
    decide +kernel
  · rw [hlines]
    decide +kernel
  · rw [total?_parse]
    decide +kernel

end Snapshot

end Bottleneck
