import Bottleneck.Label.Canonical
import Bottleneck.Proofs.Label.Grammar

/-!
Reading label blocks that were written. The written form of a set is one of its spellings, so a
written set reads back as it was listed (`readPairs_canonical`), and two sets of named labels are
written alike only if they are the same list (`canonical_inj`). Main statement: writing and reading
are inverse up to the order of the labels, so the written form of what was read is a normal form of
its block (`canonical_roundTrip`). What a reader has read does not hang on the blanks around it, so
a block that reads when it is trimmed reads as it stands (`readPairs_of_trim`).
-/

namespace Bottleneck.Label

open Text (isBlank trim trimStart trimEnd)

/-- Every label has a name that a block can hold. -/
def Named (labels : List Label) : Prop := ∀ l ∈ labels, isName l.name.toList = true

instance (labels : List Label) : Decidable (Named labels) :=
  inferInstanceAs (Decidable (∀ l ∈ labels, isName l.name.toList = true))

/-! ## What is written is spelled -/

/-- A character of a value as a part of a body. -/
def writtenPart (c : Char) : BodyPart :=
  if hslash : c = '\\' then .escape '\\'
  else if hquote : c = '"' then .escape '"'
  else if c = '\n' then .escape 'n'
  else .plain c hquote hslash

theorem text_writtenPart (c : Char) : (writtenPart c).text = escapeChar c := by
  unfold writtenPart escapeChar
  split
  · rfl
  split
  · rfl
  split <;> rfl

theorem meaning_writtenPart (c : Char) : (writtenPart c).meaning = c := by
  unfold writtenPart
  split
  · rename_i hc
    exact hc.symm
  split
  · rename_i hc
    exact hc.symm
  split
  · rename_i hc
    exact hc.symm
  · rfl

/-- A label in written form is an item without blanks. -/
theorem exists_item_written {label : Label} (h : isName label.name.toList = true) :
    ∃ i : Item, i.text = written label ∧ i.pair.label = label := by
  have hbody : (label.value.toList.map writtenPart).flatMap BodyPart.text =
      escape label.value.toList := by
    simp only [List.flatMap_map, text_writtenPart, escape_eq_flatMap]
  have hvalue : (label.value.toList.map writtenPart).map BodyPart.meaning =
      label.value.toList := by
    simp [Function.comp_def, meaning_writtenPart]
  refine ⟨⟨.none, ⟨label.name.toList, h, .none, .none, label.value.toList.map writtenPart⟩, .none⟩,
    ?_, ?_⟩
  · simp [Item.text, Pair.text, Blanks.none, hbody, written]
  · rw [Pair.label, hvalue, String.ofList_toList, String.ofList_toList]

theorem exists_items_written {labels : List Label} (h : Named labels) :
    ∃ items : List Item, items.map Item.text = labels.map written ∧
      items.map (·.pair.label) = labels := by
  induction labels with
  | nil => exact ⟨[], rfl, rfl⟩
  | cons label rest ih =>
    obtain ⟨hlabel, hrest⟩ := List.forall_mem_cons.mp h
    obtain ⟨item, htext, hitem⟩ := exists_item_written hlabel
    obtain ⟨items, htexts, hitems⟩ := ih hrest
    exact ⟨item :: items, by rw [List.map_cons, List.map_cons, htext, htexts],
      by rw [List.map_cons, hitem, hitems]⟩

theorem exists_spelling_canonical {labels : List Label} (h : Named labels) :
    ∃ s : Spelling, s.text = (canonical labels).toList ∧ s.labels = labels := by
  obtain ⟨items, htexts, rfl⟩ := exists_items_written h
  cases items with
  | nil => exact ⟨.blank .none, rfl, rfl⟩
  | cons first rest =>
    refine ⟨.items first rest none, ?_, rfl⟩
    rw [Spelling.text, htexts, canonical, String.toList_ofList, Option.elim_none, List.append_nil]

/-- **A written label set reads back as it was listed.** -/
theorem readPairs_canonical {labels : List Label} (h : Named labels) :
    readPairs (canonical labels).toList = .ok labels :=
  readPairs_eq_ok_iff_spelled.mpr (exists_spelling_canonical h)

theorem parseBlock_canonical {labels : List Label} (h : Named labels) :
    parseBlock (canonical labels) = .ok (sort labels) :=
  parseBlock_eq_ok_iff.mpr ⟨labels, readPairs_canonical h, rfl⟩

/-- A set that is sorted reads back as it is. -/
theorem parseBlock_canonical_of_sorted {labels : List Label} (h : Named labels)
    (hsorted : SortedForm labels labels) : parseBlock (canonical labels) = .ok labels := by
  rw [parseBlock_canonical h, ← sortedForm_iff.mp hsorted]

theorem canonical_inj {xs ys : List Label} (hx : Named xs) (hy : Named ys) :
    canonical xs = canonical ys ↔ xs = ys := by
  refine ⟨fun h => ?_, congrArg canonical⟩
  have hread := readPairs_canonical hx
  rw [h, readPairs_canonical hy] at hread
  exact (Except.ok.inj hread).symm

/-! ## Characters of a written set -/

/-- Escaping adds backslashes and the letter that stands for a line feed. -/
theorem eq_of_mem_escapeChar {c d : Char} (h : d ∈ escapeChar c) : d = c ∨ d = '\\' ∨ d = 'n' := by
  unfold escapeChar at h
  split at h
  · exact .inr (.inl (by simpa using h))
  split at h
  · rename_i hc
    obtain hslash | hquote : d = '\\' ∨ d = '"' := by simpa using h
    · exact .inr (.inl hslash)
    · exact .inl (hquote.trans hc.symm)
  split at h
  · exact .inr (by simpa using h)
  · exact .inl (by simpa using h)

theorem notMem_escape {d : Char} {value : List Char} (hslash : d ≠ '\\') (hletter : d ≠ 'n')
    (h : d ∉ value) : d ∉ escape value := by
  rw [escape_eq_flatMap, List.mem_flatMap]
  rintro ⟨c, hc, hd⟩
  rcases eq_of_mem_escapeChar hd with rfl | rfl | rfl
  · exact h hc
  · exact hslash rfl
  · exact hletter rfl

theorem mem_intercalate {d sep : Char} (hsep : d ≠ sep) {parts : List (List Char)} :
    d ∈ [sep].intercalate parts ↔ ∃ part ∈ parts, d ∈ part := by
  induction parts with
  | nil => simp
  | cons part rest ih =>
    cases rest with
    | nil => simp
    | cons next rest =>
      rw [List.intercalate_cons_of_ne_nil (List.cons_ne_nil next rest), List.mem_append,
        List.mem_append, List.mem_singleton, or_iff_left hsep, ih]
      simp

/-- A character that is no part of names, no mark of a block and in no value as it is escaped is
not in the written set. -/
theorem notMem_canonical {d : Char} {labels : List Label} (hnamed : Named labels)
    (hname : isNamePart d = false) (hmarks : d ∉ ['=', '"', ','])
    (hvalues : ∀ l ∈ labels, d ∉ escape l.value.toList) : d ∉ (canonical labels).toList := by
  simp only [List.mem_cons, List.not_mem_nil, or_false, not_or] at hmarks
  obtain ⟨hequals, hquote, hcomma⟩ := hmarks
  rw [canonical, String.toList_ofList, mem_intercalate hcomma]
  intro h
  obtain ⟨part, hpart, hd⟩ := h
  obtain ⟨l, hl, rfl⟩ := List.mem_map.mp hpart
  have hnot : d ∉ l.name.toList := notMem_of_isName (hnamed l hl) hname
  simp [written, hnot, hequals, hquote, hvalues l hl] at hd

/-! ## Blanks around a block -/

/-- What comes after the comma of a pair is left for the next one; after the last pair it has to
start with a comma of its own. -/
theorem readItem_append {cs rest : List Char} {label : Label}
    (h : readItem cs = .ok (some (label, rest))) (tail : List Char) :
    readItem (cs ++ tail) = .ok (some (label, rest ++ tail)) ∨
      rest = [] ∧
        readItem (cs ++ tail) = (fun rest => some (label, rest)) <$> skipComma tail := by
  obtain ⟨item, rfl, rfl | ⟨rfl, rfl⟩⟩ := readItem_eq_some_iff_spelled.mp h
  · refine .inl (readItem_eq_some_iff_spelled.mpr ⟨item, rfl, .inl ?_⟩)
    rw [List.append_assoc, List.cons_append]
  · refine .inr ⟨rfl, ?_⟩
    have hpair := item.readPair_text_append tail
    have hskip := item.after.skipComma_append tail
    cases htail : skipComma tail with
    | ok rest => exact readItem_eq_some_iff.mpr ⟨_, hpair, hskip.trans htail⟩
    | error e => exact readItem_eq_error hpair (hskip.trans htail)

theorem readPairs_of_blank {cs : List Char} (h : ∀ c ∈ cs, isBlank c = true) :
    readPairs cs = .ok [] :=
  readPairs_of_none (readItem_eq_none_iff.mpr (Text.trimStart_of_blank h))

/-- Blanks after a block that reads change nothing. -/
theorem readPairs_append_of_blank {cs tail : List Char} {labels : List Label}
    (h : readPairs cs = .ok labels) (htail : ∀ c ∈ tail, isBlank c = true) :
    readPairs (cs ++ tail) = .ok labels := by
  rw [readPairs_eq_ok_iff] at h ⊢
  induction h with
  | blank hblank =>
    refine .blank ?_
    rw [Text.trimStart_append, if_pos hblank, Text.trimStart_of_blank htail]
  | item hitem hrest ih =>
    rcases readItem_append hitem tail with hlonger | ⟨rfl, hlonger⟩
    · exact .item hlonger ih
    · have hskip : skipComma tail = .ok [] := by
        rw [skipComma, Text.trimStart_of_blank htail]
      rw [hskip] at hlonger
      exact .item hlonger hrest

theorem readPairs_trimStart (cs : List Char) : readPairs (trimStart cs) = readPairs cs := by
  have hitem : readItem (trimStart cs) = readItem cs := by
    unfold readItem
    rw [Text.trimStart_trimStart]
  cases h : readItem cs with
  | error e => rw [readPairs_of_error h, readPairs_of_error (hitem.trans h)]
  | ok item =>
    cases item with
    | none => rw [readPairs_of_none h, readPairs_of_none (hitem.trans h)]
    | some item => rw [readPairs_of_some h, readPairs_of_some (hitem.trans h)]

/-- **A block that reads when it is trimmed reads as it stands.** -/
theorem readPairs_of_trim {cs : List Char} {labels : List Label}
    (h : readPairs (trim cs) = .ok labels) : readPairs cs = .ok labels := by
  obtain ⟨tail, htail, hsplit⟩ := Text.exists_eq_trimEnd_append (trimStart cs)
  rw [← readPairs_trimStart, hsplit]
  exact readPairs_append_of_blank h htail

/-! ## Names of labels that were read -/

theorem Spelling.named (s : Spelling) : Named s.labels := by
  cases s with
  | blank => exact List.forall_mem_nil _
  | items first rest comma =>
    intro l hl
    obtain ⟨item, -, rfl⟩ := List.mem_map.mp hl
    rw [Pair.label, String.toList_ofList]
    exact item.pair.isName

theorem named_sort {labels : List Label} (h : Named labels) : Named (sort labels) :=
  fun l hl => h l ((perm_sort labels).mem_iff.mp hl)

theorem named_of_readPairs {cs : List Char} {labels : List Label}
    (h : readPairs cs = .ok labels) : Named labels := by
  obtain ⟨s, -, rfl⟩ := readPairs_eq_ok_iff_spelled.mp h
  exact s.named

theorem named_of_parseBlock {raw : String} {labels : List Label}
    (h : parseBlock raw = .ok labels) : Named labels := by
  obtain ⟨listed, hread, rfl⟩ := parseBlock_eq_ok_iff.mp h
  exact named_sort (named_of_readPairs hread)

theorem sort_of_parseBlock {raw : String} {labels : List Label}
    (h : parseBlock raw = .ok labels) : sort labels = labels := by
  obtain ⟨listed, -, rfl⟩ := parseBlock_eq_ok_iff.mp h
  exact sort_eq_sort_iff.mpr (perm_sort listed)

/-! ## The normal form of a block -/

/-- The written form of what was read reads back as it was read. -/
theorem parseBlock_canonical_of_parseBlock {raw : String} {labels : List Label}
    (h : parseBlock raw = .ok labels) : parseBlock (canonical labels) = .ok labels := by
  rw [parseBlock_canonical (named_of_parseBlock h), sort_of_parseBlock h]

/-- **Writing and reading are inverse** up to the order of the labels. So the written form of what a
block says is a normal form: it reads as the block does, writing what it says gives it again, and
two blocks share it exactly if they say the same. -/
theorem canonical_roundTrip :
    (∀ labels, Named labels →
      ∃ sorted, parseBlock (canonical labels) = .ok sorted ∧ SortedForm labels sorted) ∧
    ∀ raw labels, parseBlock raw = .ok labels →
      parseBlock (canonical labels) = .ok labels ∧
      canonical <$> parseBlock (canonical labels) = .ok (canonical labels) ∧
      ∀ other others, parseBlock other = .ok others →
        (canonical labels = canonical others ↔ labels = others) := by
  refine ⟨fun labels hnamed => ?_, fun raw labels hraw => ?_⟩
  · exact ⟨sort labels, parseBlock_canonical hnamed, sortedForm_sort labels⟩
  · have hback := parseBlock_canonical_of_parseBlock hraw
    refine ⟨hback, ?_, fun other others hother => ?_⟩
    · rw [hback]
      rfl
    · exact canonical_inj (named_of_parseBlock hraw) (named_of_parseBlock hother)

/-- Labels out of order, one of them twice, with a value that needs every escape. -/
def unsortedLabels : List Label :=
  [⟨"path", "\\n \\\" \n,"⟩, ⟨"le", "2"⟩, ⟨"path", "\\n \\\" \n,"⟩, ⟨"le", "10"⟩]

/-- Two pairs with blanks, escapes and a comma at the end. -/
def spacedPairs : String := " path = \"a\\\"b\" , le=\"\\1\","

def spacedLabels : List Label := [⟨"le", "1"⟩, ⟨"path", "a\"b"⟩]

theorem parseBlock_spacedPairs : parseBlock spacedPairs = .ok spacedLabels := by
  have hfirst : readItem spacedPairs.toList =
      .ok (some (⟨"path", "a\"b"⟩, " le=\"\\1\",".toList)) := by rfl
  have hsecond : readItem " le=\"\\1\",".toList = .ok (some (⟨"le", "1"⟩, [])) := by rfl
  have hread : readPairs spacedPairs.toList = .ok [⟨"path", "a\"b"⟩, ⟨"le", "1"⟩] := by
    rw [readPairs_of_some hfirst, readPairs_of_some hsecond, readPairs_of_none (by rfl)]
    rfl
  refine parseBlock_eq_ok_iff.mpr ⟨_, hread, Eq.symm (sortedForm_iff.mp ⟨?_, ?_⟩)⟩
  · exact List.Perm.swap _ _ _
  · decide

/-- The labels out of order read back sorted, and the block with the blanks has a normal form of its
own, which is not the one of the empty block. -/
theorem canonical_roundTrip_unsorted :
    Named unsortedLabels ∧
      (∃ sorted, parseBlock (canonical unsortedLabels) = .ok sorted ∧
        SortedForm unsortedLabels sorted) ∧
      parseBlock spacedPairs = .ok spacedLabels ∧
      canonical spacedLabels = "le=\"1\",path=\"a\\\"b\"" ∧
      parseBlock (canonical spacedLabels) = .ok spacedLabels ∧
      canonical <$> parseBlock (canonical spacedLabels) = .ok (canonical spacedLabels) ∧
      parseBlock "" = .ok [] ∧ canonical spacedLabels ≠ canonical [] := by
  have hnamed : Named unsortedLabels := by decide
  have hempty : parseBlock "" = .ok [] := parseBlock_eq_ok_iff.mpr
    ⟨[], readPairs_of_blank (List.forall_mem_nil _), List.mergeSort_nil⟩
  obtain ⟨hback, hnormal, hiff⟩ := canonical_roundTrip.2 _ _ parseBlock_spacedPairs
  refine ⟨hnamed, canonical_roundTrip.1 _ hnamed, parseBlock_spacedPairs, by decide, hback, hnormal,
    hempty, fun heq => ?_⟩
  exact absurd ((hiff "" [] hempty).mp heq) (by decide)

end Bottleneck.Label
