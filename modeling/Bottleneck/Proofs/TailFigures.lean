import Bottleneck.Proofs.Number.Written
import Bottleneck.Proofs.RankOrder
import Bottleneck.Proofs.Tail

/-!
The figures of a latency tail and the texts that a report shows of them. A bound is whatever finite
number a label says, so a median can be zero or negative, and then there is no ratio. A product or a
quotient of such numbers is never NaN (`Figures.clear_of_isFinite`), but it can be too large for a
double; what is in range is written in figures, and nothing else is (`Figures.InRange.clear`). Main
statement: `analyze_latencyTail_figures`.
-/

namespace Bottleneck

open Number (IsDecimal isFigure oneDecimal)
open Text (occursIn)

/-! ## Words in texts -/

namespace Text

/-- A text that does not have the word and that no word can reach into from the front. -/
structure Clear (word : List Char) (text : String) : Prop where
  absent : ¬ word <:+: text.toList
  start : text.toList.head?.any word.contains = false

variable {word cs : List Char} {a b text : String}

theorem Clear.occursIn_eq (h : Clear word text) : occursIn (.ofList word) text = false := by
  rw [← Bool.not_eq_true, occursIn_iff, String.toList_ofList]
  exact h.absent

theorem clear_ofList (h : (!isInfix word cs && !cs.head?.any word.contains) = true) :
    Clear word (.ofList cs) := by
  rw [Bool.and_eq_true, Bool.not_eq_true', Bool.not_eq_true'] at h
  obtain ⟨habsent, hstart⟩ := h
  constructor
  · rwa [String.toList_ofList, ← isInfix_iff, Bool.not_eq_true]
  · rwa [String.toList_ofList]

/-- The word could only be made where the texts meet, and the second one starts with no letter of
it. -/
theorem Clear.append (ha : Clear word a) (hb : Clear word b) : Clear word (a ++ b) := by
  constructor
  · rw [String.toList_append, List.infix_append_iff, not_or, not_or]
    refine ⟨ha.absent, hb.absent, ?_⟩
    rintro ⟨front, back, rfl, hfront, hback⟩
    cases back with
    | nil =>
      have habsent := ha.absent
      rw [List.append_nil] at habsent
      exact habsent hfront.isInfix
    | cons c rest =>
      obtain ⟨after, hafter⟩ := hback
      have hstart := hb.start
      rw [← hafter] at hstart
      simp at hstart
  · rw [String.toList_append, List.head?_append]
    cases hhead : a.toList.head? with
    | none => exact hb.start
    | some c =>
      have hstart := ha.start
      rwa [hhead] at hstart

end Text

open Text (Clear clear_ofList)

/-- What is written for a number that cannot be written in figures. -/
def Number.words : List (List Char) := [['i', 'n', 'f'], ['N', 'a', 'N']]

open Number (words)

/-- The hypothesis is a test, which is run wherever a text is written out. -/
theorem Text.clear_of_all {word cs : List Char} (hword : word ∈ words)
    (h : (words.all fun word => !isInfix word cs && !cs.head?.any word.contains) = true) :
    Clear word (.ofList cs) :=
  clear_ofList (List.all_eq_true.mp h word hword)

theorem Number.IsDecimal.clear {word : List Char} {text : String} (hword : word ∈ words)
    (h : IsDecimal text) : Clear word text := by
  have hletters : ∀ word ∈ words, word ≠ [] ∧ word.any isFigure = false := by decide
  obtain ⟨hne, hfigures⟩ := hletters word hword
  have hapart : ∀ c ∈ text.toList, c ∉ word := fun c hc hcword =>
    List.any_eq_false.mp hfigures c hcword (h.isFigure_of_mem hc)
  constructor
  · intro hinside
    obtain ⟨c, hc⟩ := List.exists_mem_of_ne_nil _ hne
    exact hapart c (hinside.subset hc) hc
  · cases hhead : text.toList.head? with
    | none => rfl
    | some c =>
      have := hapart c (List.mem_of_mem_head? hhead)
      simpa using this

/-- What is not NaN is not written like it. -/
theorem Number.Written.clear {x : Float} {text : String} (h : Number.Written x text)
    (hnan : x.isNaN = false) : Clear ['N', 'a', 'N'] text := by
  cases h with
  | notANumber h => rw [hnan] at h; cases h
  | infinite _ negative =>
    cases negative with
    | true => exact .append (clear_ofList rfl) (clear_ofList rfl)
    | false => exact .append (clear_ofList rfl) (clear_ofList rfl)
  | finite _ hdecimal => exact hdecimal.clear (.tail _ (.head _))

/-! ## What is shown of a tail -/

/-- The texts of a tail and its explanation. -/
def TailTexts.shown (texts : TailTexts) (explanation : String) : List String :=
  [texts.p50, texts.p95, texts.ratio, explanation]

open Text (clear_of_all)

namespace Figures

variable {p50 p95 : Float} {word : List Char}

theorem ratioText?_of_pos (h : p50 > 0) :
    ratioText? p50 p95 = some (oneDecimal (p95 / p50) ++ "x") := if_pos h

theorem ratioText?_of_not_pos (h : ¬ p50 > 0) : ratioText? p50 p95 = none := if_neg h

/-- Only a median that is not positive has no ratio: what ends in an `x` is not the other text. -/
theorem ratioText_eq_unbounded_iff : ratioText p50 p95 = "unbounded" ↔ ¬ p50 > 0 := by
  refine ⟨fun h hpos => ?_, fun h => ?_⟩
  · rw [ratioText, ratioText?_of_pos hpos, Option.getD_some] at h
    have hlast := congrArg (·.toList.getLast?) h
    rw [String.toList_append, List.getLast?_append_of_ne_nil _ (by decide)] at hlast
    exact absurd hlast (by decide)
  · rw [ratioText, ratioText?_of_not_pos h]
    rfl

theorem clear_ratioText (hword : word ∈ words)
    (hratio : p50 > 0 → Clear word (oneDecimal (p95 / p50))) : Clear word (ratioText p50 p95) := by
  by_cases hpos : p50 > 0
  · rw [ratioText, ratioText?_of_pos hpos]
    exact (hratio hpos).append (clear_of_all hword rfl)
  · rw [ratioText, ratioText?_of_not_pos hpos]
    exact clear_of_all hword rfl

theorem clear_explainTail (hword : word ∈ words) (h50 : Clear word (millisecondsText p50))
    (h95 : Clear word (millisecondsText p95))
    (hratio : p50 > 0 → Clear word (oneDecimal (p95 / p50))) :
    Clear word (explainTail p50 p95) := by
  -- the comparison may start like the word, but not with a blank before it
  have hgroup (front comparison : String) :
      front ++ ") is " ++ comparison = front ++ (") is " ++ comparison) := String.append_assoc
  have hstart : Clear word "Latency tail detected: p95 (" := clear_of_all hword rfl
  have hmiddle : Clear word " p50 (" := clear_of_all hword rfl
  unfold explainTail
  dsimp only
  rw [hgroup]
  iterate 5 refine .append ?_ (clear_of_all hword rfl)
  refine (((hstart.append h95).append ?_).append hmiddle).append h50
  by_cases hpos : p50 > 0
  · have hx : Clear word (oneDecimal (p95 / p50) ++ "x") :=
      (hratio hpos).append (clear_of_all hword rfl)
    rw [ratioText?_of_pos hpos]
    exact .append (clear_of_all hword rfl) (.append hx (clear_of_all hword rfl))
  · have hfar : Clear word ") is far above" := clear_of_all hword rfl
    rw [ratioText?_of_not_pos hpos]
    exact hfar

/-- A word is in what is shown only if it is in the text of a number. -/
theorem clear_of_mem_shown (hword : word ∈ words) (h50 : Clear word (oneDecimal (p50 * 1000)))
    (h95 : Clear word (oneDecimal (p95 * 1000)))
    (hratio : p50 > 0 → Clear word (oneDecimal (p95 / p50))) :
    ∀ text ∈ (TailTexts.of p50 p95).shown (explainTail p50 p95), Clear word text := by
  have hmedian : Clear word (millisecondsText p50) := h50.append (clear_of_all hword rfl)
  have hninetyFifth : Clear word (millisecondsText p95) := h95.append (clear_of_all hword rfl)
  simp only [TailTexts.shown, List.forall_mem_cons]
  exact ⟨hmedian, hninetyFifth, clear_ratioText hword hratio,
    clear_explainTail hword hmedian hninetyFifth hratio, List.forall_mem_nil _⟩

/-- Nothing that is shown of a tail is too large for a double. -/
structure InRange (p50 p95 : Float) : Prop where
  median : (p50 * 1000).isFinite = true
  ninetyFifth : (p95 * 1000).isFinite = true
  ratio : p50 > 0 → (p95 / p50).isFinite = true

/-- A decimal number in front of its unit. -/
def InFigures (unit text : String) : Prop := ∃ number, IsDecimal number ∧ text = number ++ unit

theorem isDecimal_oneDecimal {x : Float} (h : x.isFinite = true) : IsDecimal (oneDecimal x) :=
  (Number.written_oneDecimal x).isDecimal h

theorem inFigures_ratioText (hpos : p50 > 0) (h : (p95 / p50).isFinite = true) :
    InFigures "x" (ratioText p50 p95) := by
  refine ⟨oneDecimal (p95 / p50), isDecimal_oneDecimal h, ?_⟩
  rw [ratioText, ratioText?_of_pos hpos, Option.getD_some]

theorem InRange.clear (h : InRange p50 p95) :
    ∀ text ∈ (TailTexts.of p50 p95).shown (explainTail p50 p95), Clear ['i', 'n', 'f'] text := by
  have hword : ['i', 'n', 'f'] ∈ words := .head _
  exact clear_of_mem_shown hword ((isDecimal_oneDecimal h.median).clear hword)
    ((isDecimal_oneDecimal h.ninetyFifth).clear hword)
    fun hpos => (isDecimal_oneDecimal (h.ratio hpos)).clear hword

/-- **No figure is NaN**: a product of a finite number is not, and neither is a quotient of two. -/
theorem clear_of_isFinite (h50 : p50.isFinite = true) (h95 : p95.isFinite = true) :
    ∀ text ∈ (TailTexts.of p50 p95).shown (explainTail p50 p95), Clear ['N', 'a', 'N'] text := by
  have hword : ['N', 'a', 'N'] ∈ words := .tail _ (.head _)
  have hclear (x : Float) (hnan : x.isNaN = false) : Clear ['N', 'a', 'N'] (oneDecimal x) :=
    (Number.written_oneDecimal x).clear hnan
  have hproduct (x : Float) (hx : x.isFinite = true) : (x * 1000).isNaN = false :=
    (Number.isNaN_scaled (by decide +kernel)).1.trans (Number.isNaN_of_isFinite hx)
  refine clear_of_mem_shown hword (hclear _ (hproduct p50 h50)) (hclear _ (hproduct p95 h95))
    fun hpos => hclear _ ?_
  rw [Bool.eq_false_iff, Ne, Number.isNaN_div_of_pos (Number.isNaN_of_isFinite h95) hpos]
  rintro ⟨hinf, -⟩
  rw [Number.isFinite_eq, hinf, Bool.not_true, Bool.and_false] at h95
  cases h95

end Figures

/-! ## The figures of an issue -/

open Figures (InFigures InRange isDecimal_oneDecimal)

/-- Three times what is not negative is not less. -/
theorem lt_of_tail {p50 p95 : Float} (h : p95 > tailRatio * p50) (hmedian : p50 ≥ 0) :
    p95 > p50 := by
  rcases Number.pos_or_eq_zero hmedian with hpos | rfl | rfl
  · exact Number.lt_of_le_of_lt (Number.le_mul_of_one_le (by decide +kernel) hpos) h
  · have hzero : tailRatio * 0 = 0 := by decide +kernel
    rwa [hzero] at h
  · have hzero : tailRatio * -0 = -0 := by decide +kernel
    rwa [hzero] at h

/-- The numbers of a tail by this total. A negative median can be the p95 as well. -/
structure SensibleTail (total p50 p95 : Float) : Prop where
  finite : p50.isFinite = true ∧ p95.isFinite = true
  apart : p95 > tailRatio * p50
  above : p50 ≥ 0 → p95 > p50
  ordered : total > 0 → p50 ≤ p95

/-- What the texts of a tail and its explanation say: no ratio if the median is not positive, and
otherwise figures for every number that is not too large for a double. -/
structure TailTexts.Tell (texts : TailTexts) (explanation : String) (p50 p95 : Float) : Prop where
  unbounded : texts.ratio = "unbounded" ↔ p50 ≤ 0
  ratio : p50 > 0 → (p95 / p50).isFinite = true → InFigures "x" texts.ratio
  median : (p50 * 1000).isFinite = true → InFigures "ms" texts.p50
  ninetyFifth : (p95 * 1000).isFinite = true → InFigures "ms" texts.p95
  noInfinity : InRange p50 p95 → ∀ text ∈ texts.shown explanation, occursIn "inf" text = false
  noNaN : ∀ text ∈ texts.shown explanation, occursIn "NaN" text = false

theorem tell_of_isFinite {p50 p95 : Float} (h50 : p50.isFinite = true)
    (h95 : p95.isFinite = true) :
    (TailTexts.of p50 p95).Tell (explainTail p50 p95) p50 p95 where
  unbounded := by
    have hle : ¬ p50 > 0 ↔ p50 ≤ 0 := by
      rw [GT.gt, ← Number.not_le (Number.isNaN_of_isFinite h50) (by decide), not_not]
    exact Figures.ratioText_eq_unbounded_iff.trans hle
  ratio := Figures.inFigures_ratioText
  median h := ⟨_, isDecimal_oneDecimal h, rfl⟩
  ninetyFifth h := ⟨_, isDecimal_oneDecimal h, rfl⟩
  noInfinity hrange text htext := (hrange.clear text htext).occursIn_eq
  noNaN text htext := (Figures.clear_of_isFinite h50 h95 text htext).occursIn_eq

theorem sensibleTail_of_isTail {buckets : List Bucket} {total p50 p95 : Float}
    (htotal : ¬ (total = 0 ∨ total = -0)) (h : IsTail buckets total p50 p95) :
    SensibleTail total p50 p95 where
  finite := h.finite
  apart := h.apart
  above := lt_of_tail h.apart
  ordered hpos := by
    obtain ⟨hmedian, hninetyFifth, -⟩ := (isTail_iff htotal).mp h
    have hshare : Percentiles.Rank.p50.share ≤ Percentiles.Rank.p95.share := by decide +kernel
    obtain ⟨x, hx, hle, -⟩ := Percentiles.get?_below buckets hpos hshare p95 hninetyFifth
    cases hmedian.symm.trans hx
    exact hle

/-- **The figures of every latency tail are sensible**, for all bounds, counts and rules: the p95 is
above three times the median, hence above a median that is not negative; the tail is unbounded where
the median is not positive; and the texts are in figures where the numbers are in range. -/
theorem analyze_latencyTail_figures {rules : Rules} {text : String} {issue : Issue}
    (h : issue ∈ analyze rules text) (hkind : issue.kind = .latencyTail) :
    ∃ total p50 p95 texts, (Snapshot.parse text).total? issue.metric = some total ∧
      issue.figures = .tail p50 p95 ∧ SensibleTail total p50 p95 ∧
      issue.figures.tailTexts? = some texts ∧ issue.explanation = explainTail p50 p95 ∧
      texts.Tell issue.explanation p50 p95 := by
  have hcheck := mem_diagnose_latencyTail_iff.mp ⟨h, hkind⟩
  obtain ⟨name, p50, p95, -, ⟨total, htotal, htail⟩, rfl⟩ := checkLatencyTail_parse_iff.mp hcheck
  obtain ⟨h50, h95⟩ := htail.finite
  exact ⟨total, p50, p95, .of p50 p95, htotal, rfl,
    sensibleTail_of_isTail (Snapshot.total?_ne_zero htotal) htail, rfl, rfl,
    tell_of_isFinite h50 h95⟩

/-- The issue of a tail by the count of an unbounded bucket, from the lines of the text. -/
theorem mem_analyze_of_isTail {rules : Rules} {text : String} {lines : List DataLine}
    (name : String) (total p50 p95 : Float) (hlines : DataLine.all text = lines)
    (hchosen : IsChosen ((DataLine.bucketLines lines).map (·.name)).eraseDups
      rules.latencyHistograms name)
    (htotal : (((((DataLine.bucketLines lines).filter (·.name = name)).map (·.toBucket)).find?
      Bucket.isInf).map (·.count)).filter Snapshot.nonzero = some total)
    (htail : IsTail (((DataLine.bucketLines lines).filter (·.name = name)).map (·.toBucket))
      total p50 p95) :
    ⟨.latencyTail, .high, name, .tail p50 p95, explainTail p50 p95⟩ ∈ analyze rules text := by
  subst hlines
  rw [← Snapshot.buckets_parse] at htotal htail
  have hfound : (Snapshot.parse text).total? name = some total := by
    rw [Snapshot.total?, htotal]
    rfl
  have hcheck := checkLatencyTail_parse_iff.mpr
    ⟨name, p50, p95, hchosen, ⟨total, hfound, htail⟩, rfl⟩
  exact (mem_diagnose_latencyTail_iff.mpr hcheck).1

/-- A tail with a ratio, in front of a pool that is in use. -/
def slowTail : String :=
  "api_bucket\x7ble=\"0.25\"\x7d 60\napi_bucket\x7ble=\"2\"\x7d 96\n" ++
    "api_bucket\x7ble=\"+Inf\"\x7d 100\nthreads_active 95"

def tailRules : Rules := ⟨[⟨"threads_active", "threads_max"⟩], [], ["api_bucket"]⟩

theorem analyze_latencyTail_figures_slow :
    ∃ issue ∈ analyze tailRules slowTail, issue.kind = .latencyTail ∧
      issue.figures.tailTexts? = some ⟨"250.0ms", "2000.0ms", "8.0x"⟩ ∧
      ∃ total, (Snapshot.parse slowTail).total? issue.metric = some total ∧
        SensibleTail total 0.25 2 ∧ occursIn "inf" issue.explanation = false := by
  have hlines : DataLine.all slowTail =
      [⟨"api_bucket", some "le=\"0.25\"", 60⟩, ⟨"api_bucket", some "le=\"2\"", 96⟩,
        ⟨"api_bucket", some "le=\"+Inf\"", 100⟩, ⟨"threads_active", none, 95⟩] := by
    decide +kernel
  have hissue : ⟨.latencyTail, .high, "api_bucket", .tail 0.25 2, explainTail 0.25 2⟩ ∈
      analyze tailRules slowTail :=
    mem_analyze_of_isTail _ 100 _ _ hlines (by decide +kernel) (by decide +kernel)
      (by decide +kernel)
  have htexts : (Figures.tail 0.25 2).tailTexts? = some ⟨"250.0ms", "2000.0ms", "8.0x"⟩ := by
    decide +kernel
  have hrange : InRange 0.25 2 := ⟨by decide +kernel, by decide +kernel, by decide +kernel⟩
  obtain ⟨total, p50, p95, texts, htold, hfigures, hsensible, -, -, htell⟩ :=
    analyze_latencyTail_figures hissue rfl
  obtain ⟨rfl, rfl⟩ := Figures.tail.inj hfigures
  exact ⟨_, hissue, rfl, htexts, total, htold, hsensible,
    htell.noInfinity hrange _ (.tail _ (.tail _ (.tail _ (.head _))))⟩

/-- A histogram whose only bound is negative. -/
def negativeTail : String :=
  "api_bucket\x7ble=\"-1\"\x7d 100\napi_bucket\x7ble=\"+Inf\"\x7d 100"

/-- A histogram whose bounds are too far apart for a ratio. -/
def vastTail : String :=
  "api_bucket\x7ble=\"0.5\"\x7d 60\napi_bucket\x7ble=\"1e308\"\x7d 100\n" ++
    "api_bucket\x7ble=\"+Inf\"\x7d 100"

theorem analyze_latencyTail_unsensible :
    (∃ issue ∈ analyze tailRules negativeTail, issue.kind = .latencyTail ∧
      issue.figures = .tail (-1) (-1) ∧ ¬ (-1 : Float) > -1 ∧ ¬ ((-1 : Float) == 0) = true ∧
      issue.figures.tailTexts? = some ⟨"-1000.0ms", "-1000.0ms", "unbounded"⟩) ∧
    ∃ issue ∈ analyze tailRules vastTail, issue.kind = .latencyTail ∧
      issue.figures.tailTexts? = some ⟨"500.0ms", "infms", "infx"⟩ := by
  constructor
  · have hlines : DataLine.all negativeTail =
        [⟨"api_bucket", some "le=\"-1\"", 100⟩, ⟨"api_bucket", some "le=\"+Inf\"", 100⟩] := by
      decide +kernel
    have hissue : ⟨.latencyTail, .high, "api_bucket", .tail (-1) (-1), explainTail (-1) (-1)⟩ ∈
        analyze tailRules negativeTail :=
      mem_analyze_of_isTail _ 100 _ _ hlines (by decide +kernel) (by decide +kernel)
        (by decide +kernel)
    exact ⟨_, hissue, rfl, rfl, by decide +kernel, by decide +kernel, by decide +kernel⟩
  · have hlines : DataLine.all vastTail =
        [⟨"api_bucket", some "le=\"0.5\"", 60⟩, ⟨"api_bucket", some "le=\"1e308\"", 100⟩,
          ⟨"api_bucket", some "le=\"+Inf\"", 100⟩] := by
      decide +kernel
    have hissue : ⟨.latencyTail, .high, "api_bucket", .tail 0.5 1e308, explainTail 0.5 1e308⟩ ∈
        analyze tailRules vastTail :=
      mem_analyze_of_isTail _ 100 _ _ hlines (by decide +kernel) (by decide +kernel)
        (by decide +kernel)
    exact ⟨_, hissue, rfl, by decide +kernel⟩

end Bottleneck
