import Bottleneck.Label.Block
import Bottleneck.Proofs.Label.Order
import Mathlib.Data.List.TakeWhile

/-!
The grammar of label blocks. A block is blank, or it is a sequence of pairs `name="body"` with commas
between them and perhaps one after the last. Blanks may stand around every token, and a body is made
of characters that stand for themselves and of escapes. Each reader takes off exactly the text of its
part of the grammar (`readItem_eq_some_iff_spelled`). Main statement: a block reads exactly if the
grammar spells it, and then for the labels that the spelling means, sorted; any other text is
malformed (`parseBlock_spelling`).
-/

namespace Bottleneck.Label

open Text (isBlank trimStart)

/-! ## The grammar -/

/-- Any number of blanks. -/
structure Blanks where
  text : List Char
  blank : ∀ c ∈ text, isBlank c = true

/-- What a body is made of: a character that is neither a quote nor a backslash, or a backslash and
any character. -/
inductive BodyPart where
  | plain (c : Char) (notQuote : c ≠ '"') (notBackslash : c ≠ '\\')
  | escape (c : Char)

namespace BodyPart

def text : BodyPart → List Char
  | plain c _ _ => [c]
  | escape c => ['\\', c]

/-- The character that a part of a body stands for. -/
def meaning : BodyPart → Char
  | plain c _ _ => c
  | escape 'n' => '\n'
  | escape c => c

end BodyPart

/-- A pair from its name to its closing quote. -/
structure Pair where
  name : List Char
  isName : Label.isName name = true
  beforeEquals : Blanks
  beforeQuote : Blanks
  body : List BodyPart

namespace Pair

def text (p : Pair) : List Char :=
  p.name ++ (p.beforeEquals.text ++ '=' ::
    (p.beforeQuote.text ++ '"' :: (p.body.flatMap BodyPart.text ++ ['"'])))

def label (p : Pair) : Label := ⟨.ofList p.name, .ofList (p.body.map BodyPart.meaning)⟩

end Pair

/-- A pair with the blanks around it. -/
structure Item where
  before : Blanks
  pair : Pair
  after : Blanks

def Item.text (i : Item) : List Char := i.before.text ++ (i.pair.text ++ i.after.text)

/-- A way to spell a block. The last pair may have a comma, with blanks after it. -/
inductive Spelling where
  | blank (blanks : Blanks)
  | items (first : Item) (rest : List Item) (comma : Option Blanks)

namespace Spelling

def text : Spelling → List Char
  | blank blanks => blanks.text
  | items first rest comma =>
    [','].intercalate ((first :: rest).map Item.text) ++ comma.elim [] (',' :: ·.text)

/-- The labels in the order of their pairs. -/
def labels : Spelling → List Label
  | blank _ => []
  | items first rest _ => (first :: rest).map (·.pair.label)

theorem text_items_single (item : Item) (comma : Option Blanks) :
    (items item [] comma).text = item.text ++ comma.elim [] (',' :: ·.text) := by
  simp [text]

theorem text_items_cons (first next : Item) (rest : List Item) (comma : Option Blanks) :
    (items first (next :: rest) comma).text = first.text ++ ',' :: (items next rest comma).text := by
  simp [text]

end Spelling

/-! ## Characters of names -/

theorem isBlank_of_isNamePart {c : Char} (h : isNamePart c = true) : isBlank c = false := by
  simp only [isNamePart, Bool.or_eq_true, beq_iff_eq] at h
  rcases h with h | rfl
  · exact Text.isBlank_of_isAlphanum h
  · decide

theorem isNamePart_of_isBlank {c : Char} (h : isBlank c = true) : isNamePart c = false := by
  cases hc : isNamePart c with
  | false => rfl
  | true => rw [isBlank_of_isNamePart hc] at h; cases h

theorem isNamePart_of_isNameStart (c : Char) (h : isNameStart c = true) : isNamePart c = true := by
  simp only [isNameStart, isNamePart, Char.isAlphanum, Bool.or_eq_true] at *
  rcases h with h | h
  · exact .inl (.inl h)
  · exact .inr h

theorem notMem_of_isName {d : Char} {name : List Char} (hname : isName name = true)
    (hd : isNamePart d = false) : d ∉ name := fun hmem =>
  Bool.eq_false_iff.mp hd (Text.part_of_isName isNamePart_of_isNameStart hname d hmem)

/-! ## Blanks -/

theorem exists_blanks (cs : List Char) : ∃ blanks : Blanks, cs = blanks.text ++ trimStart cs :=
  ⟨⟨cs.takeWhile isBlank, fun _ h => List.mem_takeWhile_imp h⟩,
    List.takeWhile_append_dropWhile.symm⟩

namespace Blanks

def none : Blanks := ⟨[], List.forall_mem_nil _⟩

theorem trimStart_append (blanks : Blanks) (cs : List Char) :
    trimStart (blanks.text ++ cs) = trimStart cs := by
  rw [Text.trimStart_append, if_pos (Text.trimStart_of_blank blanks.blank)]

theorem trimStart_text (blanks : Blanks) : trimStart blanks.text = [] :=
  Text.trimStart_of_blank blanks.blank

theorem skipComma_append (blanks : Blanks) (cs : List Char) :
    skipComma (blanks.text ++ cs) = skipComma cs := by
  rw [skipComma, skipComma, blanks.trimStart_append]

end Blanks

theorem trimStart_eq_nil_iff {cs : List Char} :
    trimStart cs = [] ↔ ∃ blanks : Blanks, cs = blanks.text := by
  refine ⟨fun h => ?_, fun ⟨blanks, hcs⟩ => hcs ▸ blanks.trimStart_text⟩
  obtain ⟨blanks, hblanks⟩ := exists_blanks cs
  rw [h, List.append_nil] at hblanks
  exact ⟨blanks, hblanks⟩

/-! ## Each reader and its part of the grammar -/

theorem expect_eq_ok_iff {wanted : Char} (hwanted : isBlank wanted = false) {cs rest : List Char} :
    expect wanted cs = .ok rest ↔ ∃ blanks : Blanks, cs = blanks.text ++ wanted :: rest := by
  unfold expect
  refine ⟨fun h => ?_, fun ⟨blanks, hcs⟩ => ?_⟩
  · obtain ⟨blanks, hblanks⟩ := exists_blanks cs
    split at h
    · cases h
    · rename_i hcs
      split at h
      · rename_i hc
        cases h
        exact ⟨blanks, hblanks.trans (by rw [hcs, hc])⟩
      · cases h
  · rw [hcs, blanks.trimStart_append, Text.trimStart_cons_of_not_blank hwanted]
    exact if_pos rfl

theorem skipComma_eq_ok_iff {cs rest : List Char} :
    skipComma cs = .ok rest ↔
      ∃ blanks : Blanks, cs = blanks.text ++ ',' :: rest ∨ cs = blanks.text ∧ rest = [] := by
  unfold skipComma
  refine ⟨fun h => ?_, fun ⟨blanks, hcs⟩ => ?_⟩
  · obtain ⟨blanks, hblanks⟩ := exists_blanks cs
    split at h
    · rename_i hcs
      cases h
      exact ⟨blanks, .inr ⟨by rw [hblanks, hcs, List.append_nil], rfl⟩⟩
    · rename_i hcs
      split at h
      · rename_i hc
        cases h
        exact ⟨blanks, .inl (hblanks.trans (by rw [hcs, hc]))⟩
      · cases h
  · rcases hcs with hcs | ⟨hcs, hrest⟩
    · rw [hcs, blanks.trimStart_append, Text.trimStart_cons_of_not_blank (by decide)]
      exact if_pos rfl
    · rw [hcs, hrest, blanks.trimStart_text]

theorem BodyPart.meaning_escape (c : Char) : (escape c).meaning = unescapeChar c := by
  unfold unescapeChar
  split
  · rename_i hc
    subst hc
    rfl
  · rename_i hc
    rw [meaning]
    exact hc

theorem readValue_cons {c : Char} (hquote : c ≠ '"') (hslash : c ≠ '\\') (read cs : List Char) :
    readValue read (c :: cs) = readValue (c :: read) cs := by
  rw [readValue] <;> simp_all

/-- A character that is read by itself is no backslash. -/
theorem ne_backslash {c : Char} {cs : List Char} (hlast : c = '\\' → cs = [] → False)
    (hescape : ∀ next rest, c = '\\' → cs = next :: rest → False) : c ≠ '\\' := by
  cases cs with
  | nil => exact fun e => hlast e rfl
  | cons next rest => exact fun e => hescape next rest e rfl

theorem readValue_body (body : List BodyPart) (read rest : List Char) :
    readValue read (body.flatMap BodyPart.text ++ '"' :: rest) =
      .ok (read.reverse ++ body.map BodyPart.meaning, rest) := by
  induction body generalizing read with
  | nil => simp [readValue]
  | cons part body ih =>
    have hpart : readValue read (part.text ++ (body.flatMap BodyPart.text ++ '"' :: rest)) =
        readValue (part.meaning :: read) (body.flatMap BodyPart.text ++ '"' :: rest) := by
      cases part with
      | plain c hquote hslash => exact readValue_cons hquote hslash read _
      | escape c => rw [BodyPart.meaning_escape]; rfl
    rw [List.flatMap_cons, List.append_assoc, hpart, ih]
    simp

theorem exists_body_of_readValue {read cs value rest : List Char}
    (h : readValue read cs = .ok (value, rest)) :
    ∃ body : List BodyPart, cs = body.flatMap BodyPart.text ++ '"' :: rest := by
  induction read, cs using readValue.induct with
  | case1 => cases h
  | case2 read cs =>
    cases h
    exact ⟨[], rfl⟩
  | case3 => cases h
  | case4 read c cs ih =>
    obtain ⟨body, hbody⟩ := ih h
    exact ⟨.escape c :: body, by rw [hbody]; rfl⟩
  | case5 read c cs hquote hlast hescape ih =>
    have hslash := ne_backslash hlast hescape
    rw [readValue_cons hquote hslash] at h
    obtain ⟨body, hbody⟩ := ih h
    exact ⟨.plain c hquote hslash :: body, by rw [hbody]; rfl⟩

theorem readValue_eq_ok_iff {cs value rest : List Char} :
    readValue [] cs = .ok (value, rest) ↔ ∃ body : List BodyPart,
      cs = body.flatMap BodyPart.text ++ '"' :: rest ∧ value = body.map BodyPart.meaning := by
  refine ⟨fun h => ?_, fun ⟨body, hcs, hvalue⟩ => ?_⟩
  · obtain ⟨body, rfl⟩ := exists_body_of_readValue h
    rw [readValue_body] at h
    cases h
    exact ⟨body, rfl, rfl⟩
  · rw [hcs, hvalue]
    exact readValue_body body [] rest

theorem isName_of_readName {cs name rest : List Char} (h : readName cs = .ok (name, rest)) :
    isName name = true := Text.isName_of_readName? (readName_eq_ok_iff.mp h)

theorem eq_append_of_readName {cs name rest : List Char} (h : readName cs = .ok (name, rest)) :
    cs = name ++ rest := by
  obtain ⟨c, tail, rfl, -, rfl, rfl⟩ := Text.readName?_eq_some_iff.mp (readName_eq_ok_iff.mp h)
  rw [List.cons_append, List.takeWhile_append_dropWhile]

/-- A name ends where blanks or the equals sign follow it. -/
theorem readName_append {name : List Char} (hname : isName name = true) (blanks : Blanks)
    (rest : List Char) :
    readName (name ++ (blanks.text ++ '=' :: rest)) = .ok (name, blanks.text ++ '=' :: rest) := by
  rw [readName_eq_ok_iff]
  obtain ⟨text, hblank⟩ := blanks
  cases text with
  | nil => exact Text.readName?_append hname (by decide) rest
  | cons c text =>
    exact Text.readName?_append hname (isNamePart_of_isBlank (hblank c List.mem_cons_self)) _

theorem Pair.text_append (p : Pair) (rest : List Char) :
    p.text ++ rest = p.name ++ (p.beforeEquals.text ++ '=' ::
      (p.beforeQuote.text ++ '"' :: (p.body.flatMap BodyPart.text ++ '"' :: rest))) := by
  simp [text]

theorem readPair_eq_ok_iff_spelled {cs rest : List Char} {label : Label} :
    readPair cs = .ok (label, rest) ↔ ∃ p : Pair, cs = p.text ++ rest ∧ label = p.label := by
  simp only [readPair_eq_ok_iff, Pair.text_append]
  refine ⟨fun h => ?_, fun ⟨p, hcs, hlabel⟩ => ?_⟩
  · obtain ⟨name, cs₁, cs₂, cs₃, value, hname, hequals, hquote, hvalue, hlabel⟩ := h
    obtain ⟨beforeEquals, rfl⟩ := (expect_eq_ok_iff (by decide)).mp hequals
    obtain ⟨beforeQuote, rfl⟩ := (expect_eq_ok_iff (by decide)).mp hquote
    obtain ⟨body, rfl, rfl⟩ := readValue_eq_ok_iff.mp hvalue
    exact ⟨⟨name, isName_of_readName hname, beforeEquals, beforeQuote, body⟩,
      eq_append_of_readName hname, hlabel⟩
  · rw [hcs]
    exact ⟨_, _, _, _, _, readName_append p.isName _ _, (expect_eq_ok_iff (by decide)).mpr ⟨_, rfl⟩,
      (expect_eq_ok_iff (by decide)).mpr ⟨_, rfl⟩, readValue_eq_ok_iff.mpr ⟨_, rfl, rfl⟩, hlabel⟩

/-- A pair starts with its name. -/
theorem Pair.trimStart_text_append (p : Pair) (rest : List Char) :
    trimStart (p.text ++ rest) = p.text ++ rest := by
  obtain ⟨c, parts, hname, hc, -⟩ := Text.isName_iff.mp p.isName
  rw [text, hname, List.cons_append, List.cons_append]
  exact Text.trimStart_cons_of_not_blank (isBlank_of_isNamePart (isNamePart_of_isNameStart c hc)) _

/-- Only the comma after an item hangs on what follows it. -/
theorem Item.readPair_text_append (i : Item) (rest : List Char) :
    readPair (trimStart (i.text ++ rest)) = .ok (i.pair.label, i.after.text ++ rest) := by
  have htext : i.text ++ rest = i.before.text ++ (i.pair.text ++ (i.after.text ++ rest)) := by
    simp [text]
  rw [htext, i.before.trimStart_append, i.pair.trimStart_text_append]
  exact readPair_eq_ok_iff_spelled.mpr ⟨i.pair, rfl, rfl⟩

theorem readItem_eq_some_iff_spelled {cs rest : List Char} {label : Label} :
    readItem cs = .ok (some (label, rest)) ↔ ∃ i : Item, label = i.pair.label ∧
      (cs = i.text ++ ',' :: rest ∨ cs = i.text ∧ rest = []) := by
  rw [readItem_eq_some_iff]
  refine ⟨fun ⟨after, hpair, hcomma⟩ => ?_, fun ⟨i, hlabel, hcs⟩ => ?_⟩
  · obtain ⟨before, hbefore⟩ := exists_blanks cs
    obtain ⟨pair, htext, hlabel⟩ := readPair_eq_ok_iff_spelled.mp hpair
    rw [htext] at hbefore
    obtain ⟨blanks, hafter⟩ := skipComma_eq_ok_iff.mp hcomma
    refine ⟨⟨before, pair, blanks⟩, hlabel, ?_⟩
    rcases hafter with hafter | ⟨hafter, hrest⟩
    · exact .inl (by simp [hbefore, hafter, Item.text])
    · exact .inr ⟨by rw [hbefore, hafter, Item.text], hrest⟩
  · rcases hcs with hcs | ⟨hcs, hrest⟩
    · refine ⟨i.after.text ++ ',' :: rest, ?_, skipComma_eq_ok_iff.mpr ⟨i.after, .inl rfl⟩⟩
      rw [hcs, hlabel, i.readPair_text_append]
    · refine ⟨i.after.text, ?_, skipComma_eq_ok_iff.mpr ⟨i.after, .inr ⟨rfl, hrest⟩⟩⟩
      have hpair := i.readPair_text_append []
      rwa [List.append_nil, List.append_nil, ← hcs, ← hlabel] at hpair

/-! ## Whole blocks -/

/-- A block that reads is one pair after another and then blanks. -/
inductive Lists : List Char → List Label → Prop where
  | blank {cs : List Char} (hblank : trimStart cs = []) : Lists cs []
  | item {cs rest : List Char} {label : Label} {labels : List Label}
      (hitem : readItem cs = .ok (some (label, rest))) (hrest : Lists rest labels) :
      Lists cs (label :: labels)

theorem Lists.of_readPairs {cs : List Char} {labels : List Label}
    (h : readPairs cs = .ok labels) : Lists cs labels := by
  induction cs using readPairs.induct generalizing labels with
  | case1 cs e herror =>
    rw [readPairs_of_error herror] at h
    cases h
  | case2 cs hnone =>
    rw [readPairs_of_none hnone] at h
    cases h
    exact .blank (readItem_eq_none_iff.mp hnone)
  | case3 cs label rest hsome _ ih =>
    rw [readPairs_of_some hsome] at h
    cases hrest : readPairs rest with
    | error e => rw [hrest] at h; cases h
    | ok others =>
      rw [hrest] at h
      cases h
      exact .item hsome (ih hrest)

theorem readPairs_eq_ok_iff {cs : List Char} {labels : List Label} :
    readPairs cs = .ok labels ↔ Lists cs labels := by
  refine ⟨Lists.of_readPairs, fun h => ?_⟩
  induction h with
  | blank hblank => exact readPairs_of_none (readItem_eq_none_iff.mpr hblank)
  | item hitem _ ih =>
    rw [readPairs_of_some hitem, ih]
    rfl

theorem Lists.eq_nil {labels : List Label} (h : Lists [] labels) : labels = [] := by
  cases h with
  | blank => rfl
  | item hitem _ => exact absurd (length_of_readItem hitem) (Nat.not_lt_zero _)

theorem Lists.exists_spelling {cs : List Char} {labels : List Label} (h : Lists cs labels) :
    ∃ s : Spelling, s.text = cs ∧ s.labels = labels := by
  induction h with
  | blank hblank =>
    obtain ⟨blanks, rfl⟩ := trimStart_eq_nil_iff.mp hblank
    exact ⟨.blank blanks, rfl, rfl⟩
  | item hitem hrest ih =>
    obtain ⟨item, rfl, hcs⟩ := readItem_eq_some_iff_spelled.mp hitem
    rcases hcs with rfl | ⟨rfl, rfl⟩
    · obtain ⟨s, rfl, rfl⟩ := ih
      -- the comma is the last one if only blanks follow it
      cases s with
      | blank blanks =>
        exact ⟨.items item [] (some blanks), Spelling.text_items_single item _, rfl⟩
      | items next rest comma =>
        exact ⟨.items item (next :: rest) comma, Spelling.text_items_cons item next rest comma, rfl⟩
    · refine ⟨.items item [] none, ?_, by rw [hrest.eq_nil]; rfl⟩
      rw [Spelling.text_items_single, Option.elim_none, List.append_nil]

theorem Spelling.lists (s : Spelling) : Lists s.text s.labels := by
  cases s with
  | blank blanks => exact .blank blanks.trimStart_text
  | items first rest comma =>
    induction rest generalizing first with
    | nil =>
      rw [text_items_single]
      cases comma with
      | none =>
        have hitem : readItem first.text = .ok (some (first.pair.label, [])) :=
          readItem_eq_some_iff_spelled.mpr ⟨first, rfl, .inr ⟨rfl, rfl⟩⟩
        rw [Option.elim_none, List.append_nil]
        exact .item hitem (.blank rfl)
      | some blanks =>
        exact .item (readItem_eq_some_iff_spelled.mpr ⟨first, rfl, .inl rfl⟩)
          (.blank blanks.trimStart_text)
    | cons next rest ih =>
      rw [text_items_cons]
      exact .item (readItem_eq_some_iff_spelled.mpr ⟨first, rfl, .inl rfl⟩) (ih next)

theorem readPairs_eq_ok_iff_spelled {cs : List Char} {labels : List Label} :
    readPairs cs = .ok labels ↔ ∃ s : Spelling, s.text = cs ∧ s.labels = labels := by
  rw [readPairs_eq_ok_iff]
  exact ⟨Lists.exists_spelling, fun ⟨s, htext, hlabels⟩ => htext ▸ hlabels ▸ s.lists⟩

theorem parseBlock_eq_ok_iff {raw : String} {labels : List Label} :
    parseBlock raw = .ok labels ↔ ∃ listed, readPairs raw.toList = .ok listed ∧
      sort listed = labels := by
  unfold parseBlock
  cases readPairs raw.toList <;> simp [Functor.map, Except.map]

/-- **What a block spells**: it reads exactly if the grammar has a spelling for it, and then for the
labels of the spelling, sorted. Any other text is malformed. -/
theorem parseBlock_spelling (raw : String) :
    (∀ labels, parseBlock raw = .ok labels ↔
      ∃ s : Spelling, s.text = raw.toList ∧ SortedForm s.labels labels) ∧
    ((¬ ∃ s : Spelling, s.text = raw.toList) ↔
      ∃ e reason, parseBlock raw = .error e ∧ e.failure = .malformed reason) := by
  have hreads (labels : List Label) : parseBlock raw = .ok labels ↔
      ∃ s : Spelling, s.text = raw.toList ∧ SortedForm s.labels labels := by
    rw [parseBlock_eq_ok_iff]
    refine ⟨fun ⟨listed, hlisted, hsort⟩ => ?_, fun ⟨s, htext, hsorted⟩ => ?_⟩
    · obtain ⟨s, htext, rfl⟩ := readPairs_eq_ok_iff_spelled.mp hlisted
      exact ⟨s, htext, sortedForm_iff.mpr hsort.symm⟩
    · exact ⟨s.labels, readPairs_eq_ok_iff_spelled.mpr ⟨s, htext, rfl⟩,
        (sortedForm_iff.mp hsorted).symm⟩
  refine ⟨hreads, fun hnone => ?_, fun ⟨e, _, herror, _⟩ ⟨s, htext⟩ => ?_⟩
  · cases hparse : parseBlock raw with
    | ok labels =>
      obtain ⟨s, htext, -⟩ := (hreads labels).mp hparse
      exact absurd ⟨s, htext⟩ hnone
    | error e => exact ⟨e, _, rfl, rfl⟩
  · have hok := (hreads _).mpr ⟨s, htext, sortedForm_sort s.labels⟩
    rw [herror] at hok
    cases hok

end Bottleneck.Label
