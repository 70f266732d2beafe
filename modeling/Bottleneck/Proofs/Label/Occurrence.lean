import Bottleneck.Proofs.Label.Scan
import Bottleneck.Proofs.Text.Bytes

/-!
What a search of a block finds. Main statement: it finds the value of the first place where the name
stands with a quoted value behind it and may start a label, and it finds nothing if there is no such
place (`scan_first`). Candidates in front of that place may lack a boundary or a closing quote; they
hide nothing. A search by offsets finds the same, and none of its cuts fails
(`scan_eq_findSome?`).
-/

namespace Bottleneck.Label

open Text (before? behind? bytes offsets offsetsFrom)

/-! ## Places of values -/

/-- The wanted text stands behind `front` with that value in quotes, and it is bounded there. -/
def OccursFrom (text : List Char) (before : Option Char) (cs front value : List Char) : Prop :=
  ∃ rest, cs = front ++ text ++ '"' :: (value ++ '"' :: rest) ∧ '"' ∉ value ∧
    isBoundary (front.getLast?.or before) = true

/-- No place is further to the left. -/
def OccursFirst (text : List Char) (before : Option Char) (cs front value : List Char) : Prop :=
  OccursFrom text before cs front value ∧
    ∀ front' value', OccursFrom text before cs front' value' → front.length ≤ front'.length

theorem upToQuote_eq_some_iff {cs value : List Char} :
    upToQuote cs = some value ↔ ∃ rest, cs = value ++ '"' :: rest ∧ '"' ∉ value := by
  constructor
  · intro h
    by_cases hmem : '"' ∈ cs
    · obtain ⟨front, rest, rfl, hfront⟩ := List.eq_append_cons_of_mem hmem
      rw [upToQuote_append hfront] at h
      cases h
      exact ⟨rest, rfl, hfront⟩
    · rw [upToQuote, if_neg hmem] at h
      cases h
  · intro h
    obtain ⟨rest, rfl, hvalue⟩ := h
    exact upToQuote_append hvalue rest

theorem quote_induction {P : List Char → Prop} (quiet : ∀ cs, '"' ∉ cs → P cs)
    (quoted : ∀ piece rest, '"' ∉ piece → P rest → P (piece ++ '"' :: rest)) (cs : List Char) :
    P cs := by
  induction hlength : cs.length using Nat.strongRecOn generalizing cs with
  | ind n ih =>
    by_cases hmem : '"' ∈ cs
    · obtain ⟨piece, rest, rfl, hpiece⟩ := List.eq_append_cons_of_mem hmem
      rw [List.length_append, List.length_cons] at hlength
      exact quoted piece rest hpiece (ih rest.length (by omega) rest rfl)
    · exact quiet cs hmem

section Pieces

variable {text : List Char}

/-- Two places that are equally far to the left are one. -/
theorem OccursFrom.value_unique {before before' : Option Char}
    {cs front front' value value' : List Char} (h : OccursFrom text before cs front value)
    (h' : OccursFrom text before' cs front' value') (hlength : front.length = front'.length) :
    value = value' := by
  obtain ⟨rest, hsplit, hvalue, -⟩ := h
  obtain ⟨rest', hsplit', hvalue', -⟩ := h'
  rw [hsplit, List.append_assoc, List.append_assoc] at hsplit'
  have hbehind := (List.append_inj hsplit' hlength).2
  have hvalues := List.cons.inj (List.append_cancel_left hbehind)
  exact (Text.split_inj hvalue hvalues.2 hvalue').1

theorem OccursFirst.value_unique {before : Option Char} {cs front front' value value' : List Char}
    (h : OccursFirst text before cs front value) (h' : OccursFirst text before cs front' value') :
    value = value' :=
  h.1.value_unique h'.1 (Nat.le_antisymm (h.2 _ _ h'.1) (h'.2 _ _ h.1))

theorem getLast?_quote_or (piece front : List Char) (before : Option Char) :
    (piece ++ '"' :: front).getLast?.or before = front.getLast?.or (some '"') := by
  rw [List.getLast?_append, Option.or_assoc, ← getLast?_cons_or, List.getLast?_cons]

variable (hquote : '"' ∉ text) {piece rest : List Char} (hpiece : '"' ∉ piece)
include hquote hpiece

/-- In front of the first quote of a text there is one place at most; the others are behind it. -/
theorem occursFrom_piece_iff {front value : List Char} {before : Option Char} :
    OccursFrom text before (piece ++ '"' :: rest) front value ↔
      (piece = front ++ text ∧ isBoundary (front.getLast?.or before) = true ∧
        upToQuote rest = some value) ∨
      ∃ front', front = piece ++ '"' :: front' ∧ OccursFrom text (some '"') rest front' value := by
  constructor
  · intro h
    obtain ⟨behind, hsplit, hvalue, hbound⟩ := h
    by_cases hfront : '"' ∈ front
    · obtain ⟨piece', front', rfl, hpiece'⟩ := List.eq_append_cons_of_mem hfront
      rw [List.append_assoc, List.append_assoc, List.cons_append] at hsplit
      obtain ⟨rfl, rfl⟩ := Text.split_inj hpiece hsplit hpiece'
      rw [getLast?_quote_or] at hbound
      exact .inr ⟨front', rfl, behind, (List.append_assoc ..).symm, hvalue, hbound⟩
    · have hfronts : '"' ∉ front ++ text := by
        rw [List.mem_append]
        exact fun h => h.elim hfront hquote
      obtain ⟨hpieces, hrest⟩ := Text.split_inj hpiece hsplit hfronts
      exact .inl ⟨hpieces, hbound, upToQuote_eq_some_iff.mpr ⟨behind, hrest, hvalue⟩⟩
  · intro h
    rcases h with ⟨rfl, hbound, hvalue⟩ | ⟨front', rfl, behind, rfl, hvalue, hbound⟩
    · obtain ⟨behind, rfl, hquiet⟩ := upToQuote_eq_some_iff.mp hvalue
      exact ⟨behind, rfl, hquiet, hbound⟩
    · refine ⟨behind, ?_, hvalue, (congrArg isBoundary (getLast?_quote_or ..)).trans hbound⟩
      rw [List.append_assoc, List.append_assoc, List.append_assoc, List.cons_append]

end Pieces

/-- The value that a search finds in front of a quote and behind it. -/
theorem ownValue_eq_some_iff {text : List Char} (htext : text ≠ []) {piece rest value : List Char}
    {before : Option Char} :
    (if endsBounded text before piece then upToQuote rest else none) = some value ↔
      ∃ front, piece = front ++ text ∧ isBoundary (front.getLast?.or before) = true ∧
        upToQuote rest = some value := by
  rw [Option.ite_none_right_eq_some, endsBounded_iff htext]
  simp only [← exists_and_right, and_assoc]

section Search

variable {text : List Char} (htext : text ≠ []) (hquote : '"' ∉ text) {cs : List Char}
include htext hquote

theorem scanFrom_eq_none_iff {before : Option Char} :
    scanFrom (text ++ ['"']) before 0 cs = none ↔
      ∀ front value, ¬ OccursFrom text before cs front value := by
  induction cs using quote_induction generalizing before with
  | quiet cs hquiet =>
    refine iff_of_true (scanFrom_of_notMem hquiet before) fun front value h => ?_
    obtain ⟨rest, rfl, -⟩ := h
    exact hquiet (List.mem_append_right _ List.mem_cons_self)
  | quoted piece rest hpiece ih =>
    rw [scanFrom_piece hquote htext hpiece, Option.or_eq_none_iff, ih]
    constructor
    · intro h front value hoccurs
      rcases (occursFrom_piece_iff hquote hpiece).mp hoccurs with hown | ⟨later, -, hlater⟩
      · rw [(ownValue_eq_some_iff htext).mpr ⟨front, hown⟩] at h
        cases h.1
      · exact h.2 later value hlater
    · intro h
      refine ⟨Option.eq_none_iff_forall_ne_some.mpr fun value hown => ?_, ?_⟩
      · obtain ⟨front, hown⟩ := (ownValue_eq_some_iff htext).mp hown
        exact h front value ((occursFrom_piece_iff hquote hpiece).mpr (.inl hown))
      · intro later value hlater
        exact h _ value ((occursFrom_piece_iff hquote hpiece).mpr (.inr ⟨later, rfl, hlater⟩))

theorem exists_of_scanFrom {before : Option Char} {value : List Char}
    (h : scanFrom (text ++ ['"']) before 0 cs = some value) :
    ∃ front, OccursFirst text before cs front value := by
  induction cs using quote_induction generalizing before with
  | quiet cs hquiet =>
    rw [scanFrom_of_notMem hquiet before] at h
    cases h
  | quoted piece rest hpiece ih =>
    rw [scanFrom_piece hquote htext hpiece, Option.or_eq_some_iff] at h
    rcases h with hown | ⟨hnone, hlater⟩
    · obtain ⟨front, rfl, hbound, hvalue⟩ := (ownValue_eq_some_iff htext).mp hown
      refine ⟨front, (occursFrom_piece_iff hquote hpiece).mpr (.inl ⟨rfl, hbound, hvalue⟩), ?_⟩
      intro front' value' h'
      rcases (occursFrom_piece_iff hquote hpiece).mp h' with ⟨hsame, -⟩ | ⟨later, rfl, -⟩
      · exact Nat.le_of_eq (congrArg List.length (List.append_cancel_right hsame))
      · simp only [List.length_append]
        omega
    · obtain ⟨front, hoccurs, hleast⟩ := ih hlater
      refine ⟨piece ++ '"' :: front,
        (occursFrom_piece_iff hquote hpiece).mpr (.inr ⟨front, rfl, hoccurs⟩), ?_⟩
      intro front' value' h'
      rcases (occursFrom_piece_iff hquote hpiece).mp h' with hown | ⟨later, rfl, hlater⟩
      · rw [(ownValue_eq_some_iff htext).mpr ⟨front', hown⟩] at hnone
        cases hnone
      · have hle := hleast later value' hlater
        simp only [List.length_append, List.length_cons]
        omega

theorem scanFrom_eq_some_iff {before : Option Char} {value : List Char} :
    scanFrom (text ++ ['"']) before 0 cs = some value ↔
      ∃ front, OccursFirst text before cs front value := by
  refine ⟨exists_of_scanFrom htext hquote, fun h => ?_⟩
  obtain ⟨front, hfirst⟩ := h
  cases hscan : scanFrom (text ++ ['"']) before 0 cs with
  | none => exact absurd hfirst.1 ((scanFrom_eq_none_iff htext hquote).mp hscan front value)
  | some found =>
    obtain ⟨front', hfound⟩ := exists_of_scanFrom htext hquote hscan
    rw [hfound.value_unique hfirst]

end Search

/-! ## Searching by offsets -/

/-- The value behind an occurrence of the needle at that offset. The text is cut at both ends of the
occurrence, and where a cut fails there is no value. -/
def valueAt? (raw needle : String) (offset : Nat) : Option String := do
  let front ← before? raw offset
  if isBoundary front.toList.getLast? then
    let rest ← behind? raw (offset + needle.utf8ByteSize)
    (upToQuote rest.toList).map .ofList
  else none

theorem valueAt?_append (front needle rest : String) :
    valueAt? (front ++ needle ++ rest) needle front.utf8ByteSize =
      (if isBoundary front.toList.getLast? then upToQuote rest.toList else none).map .ofList := by
  rw [valueAt?, Text.before?_occurrence, Text.behind?_occurrence]
  by_cases hbound : isBoundary front.toList.getLast? = true
  · rw [if_pos hbound]
    exact if_pos hbound
  · rw [if_neg hbound]
    exact if_neg hbound

/-- Both searches go through a text in step. -/
theorem findSome?_offsetsFrom {needle : String} (hne : needle ≠ "") (front rest : String) :
    (offsetsFrom (bytes needle) front.utf8ByteSize 0 (bytes rest)).findSome?
        (valueAt? (front ++ rest) needle) =
      (scanFrom needle.toList front.toList.getLast? 0 rest.toList).map .ofList := by
  induction rest using Text.occurrence_induction hne generalizing front with
  | empty => rfl
  | occurrence rest ih =>
    have hneedle : needle.toList ≠ [] := mt String.toList_eq_nil_iff.mp hne
    have hlater := ih (front ++ needle)
    rw [String.utf8ByteSize_append, String.toList_append, List.getLast?_append] at hlater
    rw [Text.offsetsFrom_occurrence hne, List.findSome?_cons, ← String.append_assoc, hlater,
      valueAt?_append, String.toList_append, scanFrom_needle hneedle]
    generalize (if isBoundary front.toList.getLast? then upToQuote rest.toList else none) = own
    cases own <;> rfl
  | character c rest hno ih =>
    have hprefix : ¬ needle.toList <+: c :: rest.toList := by
      intro hprefix
      obtain ⟨tail, htail⟩ := hprefix
      refine hno ⟨.ofList tail, String.toList_inj.mp ?_⟩
      rw [String.toList_append, String.toList_append, String.toList_ofList, htail,
        String.toList_singleton, List.singleton_append]
    have hlater := ih (front ++ String.singleton c)
    rw [String.utf8ByteSize_append, String.toList_append, String.toList_singleton,
      List.getLast?_concat] at hlater
    rw [Text.offsetsFrom_character hne hno, ← String.append_assoc, hlater, String.toList_append,
      String.toList_singleton, List.singleton_append, scanFrom_cons, if_neg hprefix]

theorem scan_eq_findSome? (raw name : String) :
    scan raw name = (offsets (name ++ "=\"") raw).findSome? (valueAt? raw (name ++ "=\"")) := by
  have hne : name ++ "=\"" ≠ "" := by simp
  have hsearch := findSome?_offsetsFrom hne "" raw
  rw [String.empty_append, String.utf8ByteSize_empty, String.toList_append] at hsearch
  rw [offsets, hsearch, scan]
  rfl

/-! ## The first label of a name -/

/-- The label stands in the block behind `front`, where a label may start, with that value in quotes
and without escapes. -/
def Occurs (raw name front value : String) : Prop :=
  ∃ rest, raw = front ++ name ++ "=\"" ++ value ++ "\"" ++ rest ∧ '"' ∉ value.toList ∧
    isBoundary front.toList.getLast? = true

theorem occurs_iff {raw name front value : String} : Occurs raw name front value ↔
    OccursFrom (start name) none raw.toList front.toList value.toList := by
  constructor
  · intro h
    obtain ⟨rest, rfl, hvalue, hbound⟩ := h
    refine ⟨rest.toList, by simp [start], hvalue, ?_⟩
    rwa [Option.or_none]
  · intro h
    obtain ⟨rest, hsplit, hvalue, hbound⟩ := h
    rw [Option.or_none] at hbound
    refine ⟨.ofList rest, String.toList_inj.mp ?_, hvalue, hbound⟩
    simp [hsplit, start]

theorem scan_eq_some_iff_scanFrom {raw name value : String} : scan raw name = some value ↔
    scanFrom (start name ++ ['"']) none 0 raw.toList = some value.toList := by
  rw [scan_eq_map, Option.map_eq_some_iff]
  constructor
  · intro h
    obtain ⟨cs, hcs, rfl⟩ := h
    rw [hcs, String.toList_ofList]
  · intro h
    exact ⟨value.toList, h, String.ofList_toList⟩

section First

variable {raw name : String} (h : '"' ∉ name.toList)
include h

theorem scan_eq_some_iff {value : String} :
    scan raw name = some value ↔ ∃ front, Occurs raw name front value ∧
      ∀ front' value', Occurs raw name front' value' → front.length ≤ front'.length := by
  rw [scan_eq_some_iff_scanFrom, scanFrom_eq_some_iff (start_ne_nil name) (quote_notMem_start h)]
  constructor
  · intro hfirst
    obtain ⟨front, hoccurs, hleast⟩ := hfirst
    refine ⟨.ofList front, occurs_iff.mpr (by rwa [String.toList_ofList]), ?_⟩
    intro front' value' h'
    have hle := hleast front'.toList value'.toList (occurs_iff.mp h')
    rwa [String.length_ofList, ← String.length_toList]
  · intro hfirst
    obtain ⟨front, hoccurs, hleast⟩ := hfirst
    refine ⟨front.toList, occurs_iff.mp hoccurs, ?_⟩
    intro front' value' h'
    have hle := hleast (.ofList front') (.ofList value')
      (occurs_iff.mpr (by rwa [String.toList_ofList, String.toList_ofList]))
    rwa [String.length_toList, ← String.length_ofList]

theorem scan_eq_none_iff : scan raw name = none ↔ ∀ front value, ¬ Occurs raw name front value := by
  rw [scan_eq_map, Option.map_eq_none_iff,
    scanFrom_eq_none_iff (start_ne_nil name) (quote_notMem_start h)]
  constructor
  · intro hno front value hoccurs
    exact hno front.toList value.toList (occurs_iff.mp hoccurs)
  · intro hno front value hoccurs
    refine hno (.ofList front) (.ofList value) (occurs_iff.mpr ?_)
    rwa [String.toList_ofList, String.toList_ofList]

end First

theorem isSome_cuts {raw needle : String} {offset : Nat} (hne : needle ≠ "")
    (h : offset ∈ offsets needle raw) : (before? raw offset).isSome = true ∧
      (behind? raw (offset + needle.utf8ByteSize)).isSome = true := by
  obtain ⟨front, rest, rfl, rfl⟩ := Text.exists_of_mem_offsets hne h
  rw [Text.before?_occurrence, Text.behind?_occurrence]
  exact ⟨rfl, rfl⟩

/-- **A search of a block finds the first label of that name.** -/
theorem scan_first (raw : String) {name : String} (h : '"' ∉ name.toList) :
    (∀ value, scan raw name = some value ↔ ∃ front, Occurs raw name front value ∧
      ∀ front' value', Occurs raw name front' value' → front.length ≤ front'.length) ∧
    (scan raw name = none ↔ ∀ front value, ¬ Occurs raw name front value) ∧
    scan raw name = (offsets (name ++ "=\"") raw).findSome? (valueAt? raw (name ++ "=\"")) ∧
    ∀ offset ∈ offsets (name ++ "=\"") raw,
      (before? raw offset).isSome = true ∧
        (behind? raw (offset + (name ++ "=\"").utf8ByteSize)).isSome = true := by
  refine ⟨fun value => scan_eq_some_iff h, scan_eq_none_iff h, scan_eq_findSome? raw name, ?_⟩
  intro offset hoffset
  exact isSome_cuts (by simp) hoffset

/-- Another name ends like the one that is looked for, and a no-break space stands in front of the
label. -/
def accented : String := "handle=\"ü\",\u00a0le=\"+Inf\""

theorem scan_first_accented :
    '"' ∉ le.toList ∧ scan accented le = some "+Inf" ∧
      (∃ front, Occurs accented le front "+Inf" ∧
        ∀ front' value', Occurs accented le front' value' → front.length ≤ front'.length) ∧
      offsets (le ++ "=\"") accented = [4, 14] ∧ (before? accented 14).isSome = true ∧
      (behind? accented (14 + (le ++ "=\"").utf8ByteSize)).isSome = true := by
  have hquote : '"' ∉ le.toList := by decide
  have hscan : scan accented le = some "+Inf" := by rfl
  have hoffsets : offsets (le ++ "=\"") accented = [4, 14] := by rfl
  obtain ⟨hfound, -, -, hcuts⟩ := scan_first accented hquote
  exact ⟨hquote, hscan, (hfound "+Inf").mp hscan, hoffsets, hcuts 14 (by simp [hoffsets])⟩

end Bottleneck.Label
