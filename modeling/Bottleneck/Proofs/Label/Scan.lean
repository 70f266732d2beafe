import Bottleneck.Proofs.LineParts
import Bottleneck.Proofs.SeriesIdentity

/-!
Searching a block as text. A candidate ends with a quote and has no other quote in it, so a text can
be searched from quote to quote: of the piece in front of a quote only the end can be the name that
is looked for, and a candidate that is passed over hides nothing behind that quote
(`scanFrom_piece`). In a written set the pieces are names and values in turn. Main statement: the
search of a written set gives what looking the name up gives, whatever stands behind the set, unless
a value ends like a label of that name (`scan_canonical`). A name that the set does not have can
still be found behind it.
-/

namespace Bottleneck

namespace Label

open Text (isBlank)

/-! ## From quote to quote -/

/-- The piece ends with the text, and the character in front of the text there is a boundary.
`before` is the character in front of the piece. -/
def endsBounded (text : List Char) (before : Option Char) : List Char → Bool
  | [] => false
  | c :: cs => decide (c :: cs = text) && isBoundary before || endsBounded text (some c) cs

/-- The character in front of what follows a text. -/
theorem getLast?_cons_or (c : Char) (cs : List Char) (before : Option Char) :
    (c :: cs).getLast?.or before = cs.getLast?.or (some c) := by
  rw [List.getLast?_cons]
  cases cs.getLast? <;> rfl

theorem endsBounded_iff {text piece : List Char} (htext : text ≠ []) {before : Option Char} :
    endsBounded text before piece = true ↔
      ∃ front, piece = front ++ text ∧ isBoundary (front.getLast?.or before) = true := by
  induction piece generalizing before with
  | nil =>
    refine iff_of_false Bool.false_ne_true ?_
    rintro ⟨front, hsplit, -⟩
    exact htext (List.append_eq_nil_iff.mp hsplit.symm).2
  | cons c cs ih =>
    rw [endsBounded, Bool.or_eq_true, Bool.and_eq_true, decide_eq_true_eq, ih]
    constructor
    · rintro (⟨rfl, hbefore⟩ | ⟨front, rfl, hfront⟩)
      · exact ⟨[], rfl, hbefore⟩
      · exact ⟨c :: front, rfl, (congrArg isBoundary (getLast?_cons_or ..)).trans hfront⟩
    · rintro ⟨front, hsplit, hfront⟩
      cases front with
      | nil => exact .inl ⟨hsplit, hfront⟩
      | cons d front =>
        obtain ⟨rfl, rfl⟩ := List.cons.inj hsplit
        rw [getLast?_cons_or] at hfront
        exact .inr ⟨front, rfl, hfront⟩

theorem endsBounded_of_length_lt {text piece : List Char} (h : piece.length < text.length)
    (before : Option Char) : endsBounded text before piece = false := by
  induction piece generalizing before with
  | nil => rfl
  | cons c cs ih =>
    have hne : c :: cs ≠ text := fun heq => Nat.lt_irrefl _ (heq ▸ h)
    rw [endsBounded, decide_eq_false hne, ih (Nat.lt_of_succ_lt h)]
    rfl

/-- One step of a search that is not inside a candidate. -/
theorem scanFrom_cons (needle : List Char) (before : Option Char) (c : Char) (cs : List Char) :
    scanFrom needle before 0 (c :: cs) =
      if needle <+: c :: cs then
        (if isBoundary before then upToQuote ((c :: cs).drop needle.length) else none).or
          (scanFrom needle (some c) (needle.length - 1) cs)
      else scanFrom needle (some c) 0 cs := by
  rw [scanFrom]
  simp only [List.isPrefixOf_iff_prefix, Option.orElse_eq_orElse, Option.orElse_eq_or]

/-- The rest of a candidate is passed over. -/
theorem scanFrom_skip (needle front rest : List Char) (before : Option Char) :
    scanFrom needle before front.length (front ++ rest) =
      scanFrom needle (front.getLast?.or before) 0 rest := by
  induction front generalizing before with
  | nil => rfl
  | cons c front ih => rw [List.length_cons, List.cons_append, scanFrom, ih, getLast?_cons_or]

/-- Where the search meets a candidate it goes on behind it. -/
theorem scanFrom_needle {needle : List Char} (hne : needle ≠ []) (before : Option Char)
    (rest : List Char) : scanFrom needle before 0 (needle ++ rest) =
      (if isBoundary before then upToQuote rest else none).or
        (scanFrom needle (needle.getLast?.or before) 0 rest) := by
  obtain ⟨c, cs, rfl⟩ := List.exists_cons_of_ne_nil hne
  have hskip : (c :: cs).length - 1 = cs.length := rfl
  rw [List.cons_append, scanFrom_cons, ← List.cons_append, if_pos (List.prefix_append _ _),
    List.drop_left, hskip, scanFrom_skip, getLast?_cons_or]

theorem upToQuote_append {piece : List Char} (h : '"' ∉ piece) (rest : List Char) :
    upToQuote (piece ++ '"' :: rest) = some piece := by
  rw [upToQuote, if_pos (List.mem_append_right _ List.mem_cons_self), Text.takeWhile_split h]

section Pieces

variable {text : List Char} (hquote : '"' ∉ text)
include hquote

/-- A text without a quote that one follows is all that stands in front of the first quote. -/
theorem quoted_prefix_iff {piece : List Char} (hpiece : '"' ∉ piece) (rest : List Char) :
    text ++ ['"'] <+: piece ++ '"' :: rest ↔ piece = text := by
  constructor
  · rintro ⟨tail, hsplit⟩
    rw [List.append_assoc, List.singleton_append] at hsplit
    exact (Text.split_inj hpiece hsplit.symm hquote).1
  · rintro rfl
    exact ⟨rest, by rw [List.append_assoc, List.singleton_append]⟩

/-- **A search goes on from quote to quote.** In front of a quote there is a candidate if the piece
ends with the wanted text; whether it counts or not, the search goes on behind the quote. -/
theorem scanFrom_piece (htext : text ≠ []) {piece : List Char} (hpiece : '"' ∉ piece)
    (before : Option Char) (rest : List Char) :
    scanFrom (text ++ ['"']) before 0 (piece ++ '"' :: rest) =
      (if endsBounded text before piece then upToQuote rest else none).or
        (scanFrom (text ++ ['"']) (some '"') 0 rest) := by
  induction piece generalizing before with
  | nil =>
    have hno := mt (quoted_prefix_iff hquote hpiece rest).mp htext.symm
    rw [List.nil_append] at hno ⊢
    rw [scanFrom_cons, if_neg hno, endsBounded]
    rfl
  | cons c cs ih =>
    have hcs : '"' ∉ cs := fun h => hpiece (List.mem_cons_of_mem c h)
    by_cases heq : c :: cs = text
    · have hsplit : c :: cs ++ '"' :: rest = text ++ ['"'] ++ rest := by
        rw [heq, List.append_assoc, List.singleton_append]
      have hshort : endsBounded text (some c) cs = false :=
        endsBounded_of_length_lt (heq ▸ Nat.lt_succ_self _) _
      rw [hsplit, scanFrom_needle (List.append_ne_nil_of_right_ne_nil _ (List.cons_ne_nil _ _)),
        List.getLast?_concat, endsBounded, decide_eq_true heq, hshort, Bool.true_and, Bool.or_false]
      rfl
    · have hno := mt (quoted_prefix_iff hquote hpiece rest).mp heq
      rw [List.cons_append] at hno ⊢
      rw [scanFrom_cons, endsBounded, if_neg hno, ih hcs, decide_eq_false heq, Bool.false_and,
        Bool.false_or]

omit hquote in
/-- Without a quote there is no candidate. -/
theorem scanFrom_of_notMem {cs : List Char} (hcs : '"' ∉ cs) (before : Option Char) :
    scanFrom (text ++ ['"']) before 0 cs = none := by
  induction cs generalizing before with
  | nil => rfl
  | cons c cs ih =>
    have hno : ¬ text ++ ['"'] <+: c :: cs := fun hcandidate =>
      hcs (hcandidate.subset (List.mem_append_right _ List.mem_cons_self))
    rw [scanFrom_cons, if_neg hno, ih fun h => hcs (List.mem_cons_of_mem c h)]

end Pieces

/-! ## Written sets -/

/-- The value ends like a label of that name: with the name and an equals sign, and in front of them
with a character that a label may follow. -/
def Mimics (value name : String) : Prop :=
  ∃ c, isBoundary (some c) = true ∧ c :: (name.toList ++ ['=']) <:+ value.toList

instance (value name : String) : Decidable (Mimics value name) :=
  decidable_of_iff ((value.toList.any fun c =>
    isBoundary (some c) && decide (c :: (name.toList ++ ['=']) <:+ value.toList)) = true) <| by
  simp only [List.any_eq_true, Bool.and_eq_true, decide_eq_true_eq]
  refine exists_congr fun c => and_iff_right_of_imp fun h => ?_
  exact h.2.subset List.mem_cons_self

/-- A value in which nothing is escaped. -/
def Verbatim (value : List Char) : Prop := '"' ∉ value ∧ '\\' ∉ value ∧ '\n' ∉ value

instance (value : List Char) : Decidable (Verbatim value) :=
  inferInstanceAs (Decidable (_ ∧ _ ∧ _))

/-- A set that a search by that name can take at its word: its values are written as they are, and
none of them looks like a label of that name from behind. -/
structure Searchable (labels : List Label) (name : String) : Prop where
  isName : isName name.toList = true
  named : Named labels
  verbatim : ∀ l ∈ labels, Verbatim l.value.toList
  unlike : ∀ l ∈ labels, ¬ Mimics l.value name

theorem escape_of_verbatim {value : List Char} (h : Verbatim value) : escape value = value := by
  obtain ⟨hquote, hslash, hfeed⟩ := h
  have hplain : ∀ c ∈ value, escapeChar c = [c] := by
    intro c hc
    have hne {d : Char} (hd : d ∉ value) : c ≠ d := fun heq => hd (heq ▸ hc)
    rw [escapeChar, if_neg (hne hslash), if_neg (hne hquote), if_neg (hne hfeed)]
  rw [escape_eq_flatMap, List.flatMap_congr hplain, List.flatMap_singleton']

theorem isBoundary_of_isNamePart {c : Char} (h : isNamePart c = true) :
    isBoundary (some c) = false := by
  have hcomma : c ≠ ',' := by
    rintro rfl
    exact absurd h (by decide)
  rw [isBoundary, isBlank_of_isNamePart h, Bool.or_false, beq_eq_false_iff_ne.mpr hcomma]

/-- A label starts with its name and an equals sign, and then its value is quoted. -/
def start (name : String) : List Char := name.toList ++ ['=']

theorem start_ne_nil (name : String) : start name ≠ [] :=
  List.append_ne_nil_of_right_ne_nil _ (List.cons_ne_nil _ _)

theorem quote_notMem_start {name : String} (h : '"' ∉ name.toList) : '"' ∉ start name := by
  simp [start, h]

theorem scan_eq_map (raw name : String) :
    scan raw name = (scanFrom (start name ++ ['"']) none 0 raw.toList).map .ofList := by
  rw [scan, start, List.append_assoc]
  rfl

/-- Where a label starts it is the one that is wanted if it has the name. -/
theorem endsBounded_start {label : Label} (hlabel : isName label.name.toList = true) (name : String)
    {before : Option Char} (hbefore : isBoundary before = true) :
    endsBounded (start name) before (start label.name) = decide (label.name = name) := by
  rw [Bool.eq_iff_iff, endsBounded_iff (start_ne_nil name), decide_eq_true_iff]
  constructor
  · rintro ⟨front, hsplit, hfront⟩
    rw [start, start, ← List.append_assoc, List.append_cancel_right_eq] at hsplit
    cases front using List.reverseRecOn with
    | nil => exact String.toList_inj.mp hsplit
    | append_singleton front c =>
      have hc : c ∈ label.name.toList := by
        rw [hsplit]
        simp
      have hpart := Text.part_of_isName isNamePart_of_isNameStart hlabel c hc
      rw [List.getLast?_concat, Option.some_or, isBoundary_of_isNamePart hpart] at hfront
      cases hfront
  · intro heq
    exact ⟨[], by rw [heq, List.nil_append], hbefore⟩

/-- The quote in front of a value is no boundary. -/
theorem endsBounded_value (value name : String) :
    endsBounded (start name) (some '"') value.toList = true ↔ Mimics value name := by
  rw [endsBounded_iff (start_ne_nil name)]
  constructor
  · rintro ⟨front, hsplit, hfront⟩
    cases front using List.reverseRecOn with
    | nil => exact absurd hfront (by decide)
    | append_singleton front c =>
      rw [List.getLast?_concat, Option.some_or] at hfront
      exact ⟨c, hfront, front, by rw [hsplit, start]; simp⟩
  · rintro ⟨c, hc, front, hsplit⟩
    refine ⟨front ++ [c], by rw [← hsplit, start]; simp, ?_⟩
    rw [List.getLast?_concat, Option.some_or]
    exact hc

theorem find?_cons (label : Label) (rest : List Label) (name : String) :
    find? (label :: rest) name =
      if label.name = name then some label.value else find? rest name := by
  rw [find?, List.find?_cons]
  by_cases heq : label.name = name
  · rw [if_pos heq, beq_iff_eq.mpr heq]
    rfl
  · rw [if_neg heq, beq_eq_false_iff_ne.mpr heq]
    rfl

namespace Searchable

variable {label : Label} {labels : List Label} {name : String}

theorem tail (h : Searchable (label :: labels) name) : Searchable labels name where
  isName := h.isName
  named := (List.forall_mem_cons.mp h.named).2
  verbatim := (List.forall_mem_cons.mp h.verbatim).2
  unlike := (List.forall_mem_cons.mp h.unlike).2

theorem quote_notMem_start (h : Searchable labels name) : '"' ∉ start name :=
  Label.quote_notMem_start (notMem_of_isName h.isName (by decide))

/-- No name starts with a comma. -/
theorem scanFrom_comma (h : Searchable labels name) (before : Option Char) (rest : List Char) :
    scanFrom (start name ++ ['"']) before 0 (',' :: rest) =
      scanFrom (start name ++ ['"']) (some ',') 0 rest := by
  obtain ⟨first, parts, hname, hfirst, -⟩ := Text.isName_iff.mp h.isName
  have hno : ¬ start name ++ ['"'] <+: ',' :: rest := by
    rw [start, hname, List.cons_append, List.cons_append, List.cons_prefix_cons]
    rintro ⟨rfl, -⟩
    exact absurd hfirst (by decide)
  rw [scanFrom_cons, if_neg hno]

/-- One label: its name is a piece and its value is another. -/
theorem scanFrom_written (h : Searchable (label :: labels) name) {before : Option Char}
    (hbefore : isBoundary before = true) (rest : List Char) :
    scanFrom (start name ++ ['"']) before 0 (written label ++ rest) =
      (if label.name = name then some label.value.toList else none).or
        (scanFrom (start name ++ ['"']) (some '"') 0 rest) := by
  obtain ⟨hlabel, -⟩ := List.forall_mem_cons.mp h.named
  obtain ⟨hverbatim, -⟩ := List.forall_mem_cons.mp h.verbatim
  obtain ⟨hunlike, -⟩ := List.forall_mem_cons.mp h.unlike
  have hstart : '"' ∉ start label.name :=
    Label.quote_notMem_start (notMem_of_isName hlabel (by decide))
  have hvalue : '"' ∉ label.value.toList := hverbatim.1
  have htext : written label ++ rest =
      start label.name ++ '"' :: (label.value.toList ++ '"' :: rest) := by
    simp [written, start, escape_of_verbatim hverbatim]
  have hend : endsBounded (start name) (some '"') label.value.toList = false :=
    Bool.eq_false_iff.mpr (mt (endsBounded_value _ _).mp hunlike)
  rw [htext, scanFrom_piece h.quote_notMem_start (start_ne_nil name) hstart,
    scanFrom_piece h.quote_notMem_start (start_ne_nil name) hvalue, hend,
    endsBounded_start hlabel name hbefore, upToQuote_append hvalue]
  simp only [decide_eq_true_eq, Bool.false_eq_true, if_false, Option.none_or]

/-- **A search of a written set looks the name up**, and then goes on behind the set. -/
theorem scanFrom_intercalate (h : Searchable labels name) (hlabels : labels ≠ [])
    {before : Option Char} (hbefore : isBoundary before = true) (junk : List Char) :
    scanFrom (start name ++ ['"']) before 0 ([','].intercalate (labels.map written) ++ junk) =
      ((find? labels name).map String.toList).or
        (scanFrom (start name ++ ['"']) (some '"') 0 junk) := by
  induction labels generalizing before with
  | nil => exact absurd rfl hlabels
  | cons label rest ih =>
    rw [find?_cons, List.map_cons]
    cases rest with
    | nil =>
      rw [List.map_nil, List.intercalate_singleton, h.scanFrom_written hbefore]
      split <;> rfl
    | cons next rest =>
      have hrest : (next :: rest).map written ≠ [] := List.cons_ne_nil _ _
      rw [List.intercalate_cons_of_ne_nil hrest, List.append_assoc, List.append_assoc,
        h.scanFrom_written hbefore, List.singleton_append, h.scanFrom_comma,
        ih h.tail (List.cons_ne_nil _ _) rfl]
      split <;> rfl

theorem scan_append (h : Searchable labels name) (hlabels : labels ≠ []) (junk : String) :
    scan (canonical labels ++ junk) name = (find? labels name).or
      ((scanFrom (start name ++ ['"']) (some '"') 0 junk.toList).map .ofList) := by
  rw [scan_eq_map, String.toList_append, canonical, String.toList_ofList,
    h.scanFrom_intercalate hlabels rfl]
  cases find? labels name with
  | none => rfl
  | some value => exact congrArg some String.ofList_toList

end Searchable

end Label

/-! ## Spoiled blocks -/

namespace Label

theorem scan_of_notMem {raw : String} (h : '"' ∉ raw.toList) (name : String) :
    scan raw name = none := by
  rw [scan_eq_map, scanFrom_of_notMem h]
  rfl

/-- A block that lists no labels is blank. -/
theorem quote_notMem_of_parseBlock_nil {raw : String} (h : parseBlock raw = .ok []) :
    '"' ∉ raw.toList := by
  obtain ⟨listed, hread, hsort⟩ := parseBlock_eq_ok_iff.mp h
  have hlisted : listed = [] := by
    have hperm := perm_sort listed
    rw [hsort] at hperm
    exact hperm.nil_eq.symm
  obtain ⟨s, htext, hlabels⟩ := readPairs_eq_ok_iff_spelled.mp hread
  cases s with
  | blank blanks =>
    rw [← htext]
    exact fun hquote => absurd (blanks.blank _ hquote) (by decide)
  | items first rest comma =>
    rw [hlisted] at hlabels
    cases hlabels

end Label

/-- The block of the second bucket is spoiled behind the labels of the first one: it starts with
them as they are written, and it does not read as a whole. -/
structure Bucket.Spoils (bucket spoiled : Bucket) (junk : String) : Prop where
  /-- A bucket without labels has a block that lists none. -/
  read : bucket.labels = [] → Label.parseBlock bucket.rawLabels = .ok []
  block : spoiled.rawLabels = Label.canonical bucket.labels ++ junk
  unread : spoiled.labels = []

/-- A line whose block reads and one with its labels in a block that is refused. -/
theorem DataLine.spoils_toBucket {line spoiled : DataLine} {labels : List Label} {junk : String}
    (hread : Label.parseBlock line.rawLabels = .ok labels)
    (hrefused : Label.Refused spoiled.rawLabels)
    (hblock : spoiled.rawLabels = Label.canonical labels ++ junk) :
    line.toBucket.Spoils spoiled.toBucket junk := by
  have hlabelled : line.toBucket.labels = labels := by
    rw [toBucket, labelsOfBlock, hread]
  exact {
    read := by
      rw [hlabelled]
      rintro rfl
      exact hread
    block := by rwa [hlabelled]
    unread := labelsOfBlock_of_refused hrefused }

/-- The bound is all that a bucket's block is searched for. -/
theorem Bucket.bound?_congr {b b' : Bucket} (h : b.le? = b'.le?) : b.bound? = b'.bound? := by
  rw [bound?, bound?, h]

theorem Bucket.isInf_congr {b b' : Bucket} (h : b.le? = b'.le?) : b.isInf = b'.isInf := by
  rw [isInf, isInf, h]

theorem Bucket.Spoils.le?_eq {bucket spoiled : Bucket} {junk : String}
    (h : bucket.Spoils spoiled junk) (hsearch : Label.Searchable bucket.labels Label.le)
    (hjunk : (Label.find? bucket.labels Label.le).isSome = true ∨ '"' ∉ junk.toList) :
    spoiled.le? = bucket.le? := by
  by_cases hlabels : bucket.labels = []
  · have hquiet : '"' ∉ junk.toList := by
      rcases hjunk with hfound | hquiet
      · rw [hlabels] at hfound
        cases hfound
      · exact hquiet
    have hblock : spoiled.rawLabels = junk := by
      rw [h.block, hlabels]
      exact String.empty_append
    rw [le?, le?, if_pos h.unread, if_pos hlabels, hblock, Label.scan_of_notMem hquiet,
      Label.scan_of_notMem (Label.quote_notMem_of_parseBlock_nil (h.read hlabels))]
  · rw [le?, le?, if_pos h.unread, if_neg hlabels, h.block, hsearch.scan_append hlabels]
    rcases hjunk with hfound | hquiet
    · exact Option.or_of_isSome hfound
    · rw [Label.scanFrom_of_notMem hquiet]
      exact Option.or_none

namespace Label

/-- **Searching a written set is looking up**, whatever follows the set, unless a value ends like a
label of that name. So a bucket keeps its bound when its block is spoiled behind its labels, and
where it has none, junk without a quote brings none in. -/
theorem scan_canonical {labels : List Label} {name : String} (h : Searchable labels name) :
    (∀ value, find? labels name = some value →
      ∀ junk, scan (canonical labels ++ junk) name = some value) ∧
    (find? labels name = none → scan (canonical labels) name = none) ∧
    ∀ (bucket spoiled : Bucket) (junk : String), name = le → bucket.labels = labels →
      bucket.Spoils spoiled junk →
      (find? labels name).isSome = true ∨ '"' ∉ junk.toList →
      spoiled.le? = bucket.le? ∧ spoiled.bound? = bucket.bound? ∧ spoiled.isInf = bucket.isInf := by
  refine ⟨?_, ?_, ?_⟩
  · intro value hvalue junk
    have hlabels : labels ≠ [] := by
      rintro rfl
      cases hvalue
    rw [h.scan_append hlabels, hvalue, Option.some_or]
  · intro hnone
    by_cases hlabels : labels = []
    · rw [hlabels]
      rfl
    · have hscan := h.scan_append hlabels ""
      rw [String.append_empty, hnone] at hscan
      exact hscan
  · rintro bucket spoiled junk rfl rfl hspoils hjunk
    have hle := hspoils.le?_eq h hjunk
    exact ⟨hle, Bucket.bound?_congr hle, Bucket.isInf_congr hle⟩

/-- A name that ends like the one that is looked for, and values that look like it. -/
def misleading : List Label := [⟨"handle", "le="⟩, ⟨"le", "+Inf"⟩, ⟨"path", "a, le"⟩]

/-- The same labels in a block that is spoiled by a value without quotes. -/
def misleadingSpoiled : String := canonical misleading ++ ",instance=host:1"

theorem parseBlock_misleading : parseBlock (canonical misleading) = .ok misleading :=
  parseBlock_canonical_of_sorted (by decide) ⟨List.Perm.refl _, by decide⟩

theorem refused_misleadingSpoiled : Refused misleadingSpoiled := by
  have hfirst : readItem misleadingSpoiled.toList = .ok (some (⟨"handle", "le="⟩,
      "le=\"+Inf\",path=\"a, le\",instance=host:1".toList)) := by rfl
  have hsecond : readItem "le=\"+Inf\",path=\"a, le\",instance=host:1".toList =
      .ok (some (⟨"le", "+Inf"⟩, "path=\"a, le\",instance=host:1".toList)) := by rfl
  have hthird : readItem "path=\"a, le\",instance=host:1".toList =
      .ok (some (⟨"path", "a, le"⟩, "instance=host:1".toList)) := by rfl
  have hlast : readItem "instance=host:1".toList = .error (.expected '"' (some 'h')) := by rfl
  rw [refused_iff, readPairs_of_some hfirst, readPairs_of_some hsecond, readPairs_of_some hthird,
    readPairs_of_error hlast]
  exact ⟨_, rfl⟩

theorem scan_canonical_misleading :
    Searchable misleading le ∧ scan misleadingSpoiled le = some "+Inf" ∧
      Searchable misleading "andle" ∧ scan (canonical misleading) "andle" = none ∧
      let line : DataLine := ⟨"lat_bucket", some (canonical misleading), 5⟩
      let spoiled : DataLine := ⟨"lat_bucket", some misleadingSpoiled, 5⟩
      line.toBucket.Spoils spoiled.toBucket ",instance=host:1" ∧
        spoiled.toBucket.le? = line.toBucket.le? ∧
        spoiled.toBucket.bound? = line.toBucket.bound? ∧
        spoiled.toBucket.isInf = line.toBucket.isInf := by
  have hle : Searchable misleading le := ⟨by decide, by decide, by decide, by decide⟩
  have handle : Searchable misleading "andle" := ⟨by decide, by decide, by decide, by decide⟩
  have hspoils : (⟨"lat_bucket", some (canonical misleading), 5⟩ : DataLine).toBucket.Spoils
      (⟨"lat_bucket", some misleadingSpoiled, 5⟩ : DataLine).toBucket ",instance=host:1" :=
    DataLine.spoils_toBucket parseBlock_misleading refused_misleadingSpoiled rfl
  obtain ⟨hfound, -, hbucket⟩ := scan_canonical hle
  have hlabels : labelsOfBlock (canonical misleading) = misleading := by
    rw [labelsOfBlock, parseBlock_misleading]
  refine ⟨hle, hfound "+Inf" (by decide) _, handle, (scan_canonical handle).2.1 (by decide),
    hspoils, ?_⟩
  exact hbucket _ _ _ rfl hlabels hspoils (.inl (by decide))

/-- A block without a bound. -/
def unbounded : List Label := [⟨"path", "x"⟩]

/-- The same labels in a block that is spoiled behind a bound of its own. -/
def unboundedSpoiled : String := canonical unbounded ++ ",le=\"5\",bad"

theorem parseBlock_unbounded : parseBlock (canonical unbounded) = .ok unbounded :=
  parseBlock_canonical_of_sorted (by decide) ⟨List.Perm.refl _, by decide⟩

theorem refused_unboundedSpoiled : Refused unboundedSpoiled := by
  have hfirst : readItem unboundedSpoiled.toList =
      .ok (some (⟨"path", "x"⟩, "le=\"5\",bad".toList)) := by rfl
  have hsecond : readItem "le=\"5\",bad".toList = .ok (some (⟨"le", "5"⟩, "bad".toList)) := by rfl
  have hlast : readItem "bad".toList = .error (.expected '=' none) := by rfl
  rw [refused_iff, readPairs_of_some hfirst, readPairs_of_some hsecond, readPairs_of_error hlast]
  exact ⟨_, rfl⟩

/-- Junk with a quote can bring a bound to a bucket that has none. -/
theorem le?_unboundedSpoiled :
    let line : DataLine := ⟨"lat_bucket", some (canonical unbounded), 1⟩
    let spoiled : DataLine := ⟨"lat_bucket", some unboundedSpoiled, 1⟩
    Searchable line.toBucket.labels le ∧
      line.toBucket.Spoils spoiled.toBucket ",le=\"5\",bad" ∧
      line.toBucket.le? = none ∧ spoiled.toBucket.le? = some "5" ∧
      line.toBucket.bound? = none ∧ spoiled.toBucket.bound? = some 5 := by
  intro line spoiled
  have hlabels : line.toBucket.labels = unbounded := by
    show labelsOfBlock (canonical unbounded) = unbounded
    rw [labelsOfBlock, parseBlock_unbounded]
  have hspoils : line.toBucket.Spoils spoiled.toBucket ",le=\"5\",bad" :=
    DataLine.spoils_toBucket parseBlock_unbounded refused_unboundedSpoiled rfl
  have hnone : line.toBucket.le? = none := by
    rw [Bucket.le?, hlabels]
    decide
  have hsome : spoiled.toBucket.le? = some "5" := by
    rw [Bucket.le?, if_pos hspoils.unread]
    show scan unboundedSpoiled le = some "5"
    decide
  refine ⟨hlabels ▸ ⟨by decide, by decide, by decide, by decide⟩, hspoils, hnone, hsome, ?_, ?_⟩
  · rw [Bucket.bound?, hnone]
    rfl
  · rw [Bucket.bound?, hsome]
    decide +kernel

end Label

end Bottleneck
