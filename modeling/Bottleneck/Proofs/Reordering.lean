import Bottleneck.Proofs.Checks
import Bottleneck.Proofs.Lines
import Bottleneck.Proofs.Percentiles

/-!
Lines in another order. The order of the lines decides which histogram is seen first, which of two
unbounded buckets comes first and which of two values stays; where a text says each of these things
once, nothing is left for it to decide, since estimates sort the bounds themselves. Main statement:
if the patterns of the latencies have one histogram to choose, with at most one unbounded bucket and
at most one line for its count series, then the check for a latency tail gives the same result for
every order of the lines (`checkLatencyTail_reorder`).
-/

namespace Bottleneck

open Text (occursIn)

/-- What the order of its lines could decide about a text, the text says once. -/
structure Unambiguous (rules : Rules) (text histogram : String) : Prop where
  seen : histogram ∈ (Snapshot.parse text).histogramNames
  matched : ∃ pattern ∈ rules.latencyHistograms, occursIn pattern histogram = true
  /-- No pattern occurs in the name of another histogram. -/
  alone : ∀ name ∈ (Snapshot.parse text).histogramNames, ∀ pattern ∈ rules.latencyHistograms,
    occursIn pattern name = true → name = histogram
  unbounded : ((Snapshot.parse text).buckets histogram).countP Bucket.isInf ≤ 1
  counted : (DataLine.scalars (DataLine.all text)).countP
    (·.name = Snapshot.countSeriesName histogram) ≤ 1

/-! ## Searching a list in another order -/

/-- The only item of its kind is found wherever it stands. -/
theorem find?_eq_of_perm {α : Type} {p : α → Bool} {xs ys : List α} (h : xs.Perm ys)
    (hone : ys.countP p ≤ 1) : xs.find? p = ys.find? p := by
  have hperm := h.filter p
  rw [List.countP_eq_length_filter] at hone
  rw [← List.head?_filter, ← List.head?_filter]
  generalize xs.filter p = found, ys.filter p = wanted at hperm hone
  match wanted with
  | [] => rw [List.perm_nil.mp hperm]
  | [item] => rw [List.perm_singleton.mp hperm]
  | _ :: _ :: _ => simp at hone

theorem findSome?_eq_some_of_forall {α β : Type} {f : α → Option β} {xs : List α} {y : β}
    (hsome : ∃ x ∈ xs, f x ≠ none) (h : ∀ x ∈ xs, ∀ z, f x = some z → z = y) :
    xs.findSome? f = some y := by
  obtain ⟨x, hx, hfx⟩ := hsome
  cases hfound : xs.findSome? f with
  | none => exact absurd (List.findSome?_eq_none_iff.mp hfound x hx) hfx
  | some z =>
    obtain ⟨x', hx', hz⟩ := List.exists_of_findSome?_eq_some hfound
    rw [h x' hx' z hz]

namespace Snapshot

/-- A series that has one line has the value of this line. -/
theorem sampleNamed?_eq_find? {lines : List Line} {name : String}
    (hone : (DataLine.scalars (lines.filterMap Line.data?)).countP (·.name = name) ≤ 1) :
    (ofLines lines).sampleNamed? name =
      ((DataLine.scalars (lines.filterMap Line.data?)).find? (·.name = name)).map
        DataLine.toSample := by
  have hnamed : ((DataLine.scalars (lines.filterMap Line.data?)).map DataLine.toSample).filter
      (·.key.name = name) = ((DataLine.scalars (lines.filterMap Line.data?)).filter
        (·.name = name)).map DataLine.toSample := by
    simp only [List.filter_map, Function.comp_def, DataLine.name_key_toSample]
  have hnodup : ((((DataLine.scalars (lines.filterMap Line.data?)).filter (·.name = name)).map
      DataLine.toSample).map Sample.key).Nodup := by
    rw [List.countP_eq_length_filter] at hone
    generalize (DataLine.scalars _).filter _ = found at hone
    match found with
    | [] => exact List.nodup_nil
    | [_] => simp
    | _ :: _ :: _ => simp at hone
  rw [sampleNamed?, ← List.head?_filter, samples_ofLines,
    filter_collect Sample.keepsKey_replace fun key => key.name = name, hnamed,
    collect_of_nodup hnodup, List.head?_map, List.head?_filter]

end Snapshot

/-! ## The check -/

namespace Unambiguous

variable {rules : Rules} {text histogram : String} (h : Unambiguous rules text histogram)
  {lines : List Line} (hperm : (lines.filterMap Line.data?).Perm (DataLine.all text))
include h hperm

omit h in
theorem mem_histogramNames_iff (name : String) :
    name ∈ (Snapshot.ofLines lines).histogramNames ↔
      name ∈ (Snapshot.parse text).histogramNames := by
  rw [Snapshot.histogramNames_ofLines, Snapshot.histogramNames_parse, List.mem_eraseDups,
    List.mem_eraseDups]
  exact ((hperm.filter _).map _).mem_iff

omit h in
theorem buckets_perm (name : String) :
    ((Snapshot.ofLines lines).buckets name).Perm ((Snapshot.parse text).buckets name) := by
  rw [Snapshot.buckets_ofLines, Snapshot.buckets_parse]
  exact ((hperm.filter _).filter _).map _

/-- Every pattern that finds a histogram finds this one. -/
theorem latencyHistogram?_eq :
    (Snapshot.ofLines lines).latencyHistogram? rules.latencyHistograms = some histogram := by
  obtain ⟨pattern, hpattern, hoccurs⟩ := h.matched
  have hseen := (mem_histogramNames_iff hperm histogram).mpr h.seen
  refine findSome?_eq_some_of_forall ⟨pattern, hpattern, ?_⟩ fun pattern hpattern name hname => ?_
  · rw [Ne, List.find?_eq_none]
    exact fun hnone => hnone histogram hseen hoccurs
  · have hmem := (mem_histogramNames_iff hperm name).mp (List.mem_of_find?_eq_some hname)
    exact h.alone name hmem pattern hpattern (List.find?_some hname)

theorem total?_eq :
    (Snapshot.ofLines lines).total? histogram = (Snapshot.parse text).total? histogram := by
  have hunbounded : ((Snapshot.ofLines lines).buckets histogram).find? Bucket.isInf =
      ((Snapshot.parse text).buckets histogram).find? Bucket.isInf :=
    find?_eq_of_perm (buckets_perm hperm histogram) h.unbounded
  have hscalars : (DataLine.scalars (lines.filterMap Line.data?)).Perm
      (DataLine.scalars (DataLine.all text)) := hperm.filter _
  have hcount : (Snapshot.ofLines lines).sampleNamed? (Snapshot.countSeriesName histogram) =
      (Snapshot.parse text).sampleNamed? (Snapshot.countSeriesName histogram) := by
    have hone := h.counted
    rw [Snapshot.sampleNamed?_eq_find? (hscalars.countP_eq _ ▸ hone),
      find?_eq_of_perm hscalars hone]
    rw [← Line.filterMap_data?_all] at hone ⊢
    exact (Snapshot.sampleNamed?_eq_find? hone).symm
  rw [Snapshot.total?, Snapshot.total?, hunbounded, hcount]

theorem checkLatencyTail_ofLines :
    checkLatencyTail rules (.ofLines lines) = checkLatencyTail rules (.parse text) := by
  have hsame : ((Line.all text).filterMap Line.data?).Perm (DataLine.all text) := by
    rw [Line.filterMap_data?_all]
  have hchosen : (Snapshot.parse text).latencyHistogram? rules.latencyHistograms =
      some histogram := h.latencyHistogram?_eq hsame
  refine checkLatencyTail_congr ((h.latencyHistogram?_eq hperm).trans hchosen.symm) ?_
  intro name hname
  obtain rfl : histogram = name := Option.some.inj (hchosen.symm.trans hname)
  exact ⟨h.total?_eq hperm,
    Percentiles.estimate_congr_mem fun _ => (buckets_perm hperm histogram).mem_iff⟩

end Unambiguous

/-- **The check for a latency tail does not depend on the order of the lines**, neither of lines
that are put together in another order nor of another text that has the same lines. -/
theorem checkLatencyTail_reorder {rules : Rules} {text histogram : String}
    (h : Unambiguous rules text histogram) :
    (∀ lines : List (List Char), lines.Perm (Text.lines text) →
      checkLatencyTail rules (.parse (Text.ofPieces lines)) =
        checkLatencyTail rules (.parse text)) ∧
      ∀ other : String, (Text.lines other).Perm (Text.lines text) →
        checkLatencyTail rules (.parse other) = checkLatencyTail rules (.parse text) := by
  have hdata {lines : List (List Char)} (hperm : lines.Perm (Text.lines text)) :
      ((lines.map Line.read).filterMap Line.data?).Perm (DataLine.all text) := by
    rw [← Line.filterMap_data?_lines]
    exact (hperm.map _).filterMap _
  constructor
  · intro lines hperm
    have hfeed : ∀ line ∈ lines, '\n' ∉ line :=
      fun line hline => Text.lineFeed_notMem_of_mem_lines (hperm.mem_iff.mp hline)
    rw [Snapshot.parse_ofPieces hfeed]
    exact h.checkLatencyTail_ofLines (hdata hperm)
  · intro other hperm
    have hother := hdata hperm
    rw [Line.filterMap_data?_lines, ← Line.filterMap_data?_all] at hother
    exact h.checkLatencyTail_ofLines hother

/-- Buckets of one bound with two counts, both zeros as bounds, and another histogram among them. -/
def scattered : String :=
  "a_bucket\x7ble=\"0\"\x7d 5\na_count 9\nb_bucket 7\na_bucket\x7ble=\"-0\"\x7d 6\n" ++
    "a_bucket\x7ble=\"2\"\x7d 9\na_bucket\x7ble=\"2\"\x7d 8"

/-- Two patterns for one histogram. -/
def scatteredRules : Rules := ⟨[], [], ["c_bucket", "a_bucket", "a"]⟩

theorem checkLatencyTail_reorder_scattered :
    Unambiguous scatteredRules scattered "a_bucket" ∧
      (Text.lines scattered).reverse.Perm (Text.lines scattered) ∧
      checkLatencyTail scatteredRules (.parse (Text.ofPieces (Text.lines scattered).reverse)) =
        checkLatencyTail scatteredRules (.parse scattered) := by
  have hlog : DataLine.all scattered =
      [⟨"a_bucket", some "le=\"0\"", 5⟩, ⟨"a_count", none, 9⟩, ⟨"b_bucket", none, 7⟩,
        ⟨"a_bucket", some "le=\"-0\"", 6⟩, ⟨"a_bucket", some "le=\"2\"", 9⟩,
        ⟨"a_bucket", some "le=\"2\"", 8⟩] := by decide +kernel
  have h : Unambiguous scatteredRules scattered "a_bucket" := {
    seen := by
      rw [Snapshot.histogramNames_parse, hlog]
      decide +kernel
    matched := by decide +kernel
    alone := by
      rw [Snapshot.histogramNames_parse, hlog]
      decide +kernel
    unbounded := by
      rw [Snapshot.buckets_parse, hlog]
      decide +kernel
    counted := by
      rw [hlog]
      decide +kernel }
  have hperm := List.reverse_perm (Text.lines scattered)
  exact ⟨h, hperm, (checkLatencyTail_reorder h).1 _ hperm⟩

end Bottleneck
