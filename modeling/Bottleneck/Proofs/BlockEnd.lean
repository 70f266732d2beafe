import Bottleneck.Proofs.Line
import Bottleneck.Proofs.Number.Numeral
import Bottleneck.Proofs.SeriesIdentity

/-!
Where a block ends. The reader of a line takes a block up to the first closing brace; the reader of
labels knows quotes, so a brace inside a value is no end for it. In a block that reads a brace
stands nowhere but in a value (`Label.Plain.mem_of_parseBlock`), and the text in front of it does not
read (`Label.refused_of_append`). Main statement: a line with a block that reads and a value that
reads is itself read back exactly if no label value holds a closing brace and the value is no word
(`DataLine.read?_written`).
-/

namespace Bottleneck

open Text (isBlank trimStart)

namespace Label

/-- A character that a block can hold in its values only, where it stands for itself. -/
structure Plain (d : Char) : Prop where
  notBlank : isBlank d = false
  notName : isNamePart d = false
  notMark : d ∉ ['=', '"', ',', '\\']

theorem plain_closingBrace : Plain '}' := ⟨by decide, by decide, by decide⟩

theorem Plain.ne {d mark : Char} (hd : Plain d) (h : mark ∈ ['=', '"', ',', '\\']) : d ≠ mark :=
  fun heq => hd.notMark (heq ▸ h)

/-! ## Where the plain characters of a block go -/

section

variable {d : Char} (hd : Plain d)
include hd

theorem Plain.notMem_blanks (blanks : Blanks) : d ∉ blanks.text := fun hmem =>
  Bool.eq_false_iff.mp hd.notBlank (blanks.blank d hmem)

/-- No escape makes a plain character or takes one away. -/
theorem Plain.eq_unescapeChar_iff (c : Char) : d = unescapeChar c ↔ d = c := by
  unfold unescapeChar
  split
  · rename_i hc
    have hfeed : d ≠ '\n' := by
      rintro rfl
      exact absurd hd.notBlank (by decide)
    have hletter : d ≠ c := by
      rintro rfl
      exact absurd hd.notName (by rw [hc]; decide)
    exact iff_of_false hfeed hletter
  · rfl

theorem Plain.mem_text_iff (part : BodyPart) : d ∈ part.text ↔ d = part.meaning := by
  cases part with
  | plain c _ _ => exact List.mem_singleton
  | escape c =>
    have hslash : d ≠ '\\' := hd.ne (by decide)
    rw [BodyPart.meaning_escape, hd.eq_unescapeChar_iff]
    simp [BodyPart.text, hslash]

theorem Plain.mem_item_iff (item : Item) : d ∈ item.text ↔ d ∈ item.pair.label.value.toList := by
  have hname := notMem_of_isName item.pair.isName hd.notName
  have hequals : d ≠ '=' := hd.ne (by decide)
  have hquote : d ≠ '"' := hd.ne (by decide)
  simp [Item.text, Pair.text, Pair.label, hd.notMem_blanks, hname, hequals, hquote,
    hd.mem_text_iff, eq_comm]

theorem Plain.mem_spelling_iff (s : Spelling) :
    d ∈ s.text ↔ ∃ l ∈ s.labels, d ∈ l.value.toList := by
  have hcomma : d ≠ ',' := hd.ne (by decide)
  cases s with
  | blank blanks => simp [Spelling.text, Spelling.labels, hd.notMem_blanks]
  | items first rest comma =>
    have htail : d ∉ comma.elim [] (',' :: ·.text) := by
      cases comma <;> simp [hcomma, hd.notMem_blanks]
    rw [Spelling.text, List.mem_append, or_iff_left htail, mem_intercalate hcomma, Spelling.labels]
    simp only [List.mem_map, exists_exists_and_eq_and, hd.mem_item_iff]

/-- **In a block that reads a plain character stands in the values and nowhere else.** -/
theorem Plain.mem_of_parseBlock {raw : String} {labels : List Label}
    (h : parseBlock raw = .ok labels) : d ∈ raw.toList ↔ ∃ l ∈ labels, d ∈ l.value.toList := by
  obtain ⟨listed, hread, rfl⟩ := parseBlock_eq_ok_iff.mp h
  obtain ⟨s, htext, rfl⟩ := readPairs_eq_ok_iff_spelled.mp hread
  rw [← htext, hd.mem_spelling_iff]
  simp only [sort, List.mem_mergeSort]

/-! ## What a block cannot go on with -/

/-- No name starts with it. -/
theorem Plain.readItem_cons (post : List Char) : readItem (d :: post) = .error .nameMissing := by
  have hstart : ¬ isNameStart d = true :=
    fun h => Bool.eq_false_iff.mp hd.notName (isNamePart_of_isNameStart d h)
  rw [readItem, Text.trimStart_cons_of_not_blank hd.notBlank]
  simp [readPair, readName, Text.readName?, hstart, bind, Except.bind]

/-- It is no comma. -/
theorem Plain.skipComma_cons (post : List Char) :
    skipComma (d :: post) = .error (.unexpected d) := by
  rw [skipComma, Text.trimStart_cons_of_not_blank hd.notBlank]
  exact if_neg (hd.ne (by decide))

/-- **A block that reads cannot go on with a plain character**: each of its values is closed, so the
character would stand between the pairs. -/
theorem Plain.readPairs_append {cs : List Char} {labels : List Label}
    (h : readPairs cs = .ok labels) (post : List Char) :
    ∃ e, readPairs (cs ++ d :: post) = .error e := by
  replace h := Lists.of_readPairs h
  induction h with
  | @blank cs hblank =>
    have hstart : trimStart (cs ++ d :: post) = d :: post := by
      rw [Text.trimStart_append, if_pos hblank, Text.trimStart_cons_of_not_blank hd.notBlank]
    rw [← readPairs_trimStart, hstart]
    exact ⟨_, readPairs_of_error (hd.readItem_cons post)⟩
  | item hitem _ ih =>
    rcases readItem_append hitem (d :: post) with hlonger | ⟨-, hlonger⟩
    · obtain ⟨e, herror⟩ := ih
      rw [readPairs_of_some hlonger, herror]
      exact ⟨e, rfl⟩
    · rw [hd.skipComma_cons] at hlonger
      exact ⟨_, readPairs_of_error hlonger⟩

end

/-- The text in front of a closing brace is refused if the block that holds the brace reads. -/
theorem refused_of_append {front post : List Char} {labels : List Label}
    (h : parseBlock (.ofList (front ++ '}' :: post)) = .ok labels) : Refused (.ofList front) := by
  obtain ⟨listed, hread, -⟩ := parseBlock_eq_ok_iff.mp h
  rw [String.toList_ofList] at hread
  refine (reads_or_refused (.ofList front)).resolve_left ?_
  rintro ⟨others, hfront⟩
  rw [String.toList_ofList] at hfront
  obtain ⟨e, herror⟩ := plain_closingBrace.readPairs_append hfront post
  rw [hread] at herror
  cases herror

theorem parseBlock_of_written {raw : String} {label : Label}
    (hname : isName label.name.toList = true) (h : raw.toList = written label) :
    parseBlock raw = .ok [label] := by
  have hraw : raw = canonical [label] := by
    rw [canonical, List.map_singleton, List.intercalate_singleton, ← h, String.ofList_toList]
  rw [hraw, parseBlock_canonical (List.forall_mem_singleton.mpr hname), sort,
    List.mergeSort_singleton]

end Label

namespace DataLine

open Label (parseBlock)

/-! ## Written lines -/

/-- A line with a brace after its name has its value behind the first closing brace. -/
theorem read?_braced {name front : List Char} (hname : isName name = true) (hfront : '}' ∉ front)
    (after : List Char) :
    read? (name ++ '{' :: (front ++ '}' :: after)) =
      (readValue? after).map fun value => ⟨.ofList name, some (.ofList front), value⟩ := by
  have hsplit : readName? (name ++ '{' :: (front ++ '}' :: after)) =
      some (name, '{' :: (front ++ '}' :: after)) := Text.readName?_append hname (by decide) _
  simp only [read?, hsplit, readBlock?_cons hfront, Option.bind_eq_bind, Option.bind_some]
  cases readValue? after <;> rfl

/-- A number starts with a visible character. -/
theorem trimStart_of_read? {token : List Char} {value : Float}
    (h : Number.read? token = some value) : trimStart token = token := by
  rcases Number.read?_eq_some h with ⟨sign, hsign, c, rest, rfl, hc⟩ | ⟨hparts, -⟩
  · cases sign with
    | nil =>
      have hletters : Number.wordStarts.all (fun c => !isBlank c) = true := by decide
      have hblank : isBlank c = false := by simpa using List.all_eq_true.mp hletters c hc
      exact Text.trimStart_cons_of_not_blank hblank rest
    | cons first sign =>
      have hpart := Number.valueParts_of_mem_signs hsign first List.mem_cons_self
      exact Text.trimStart_cons_of_not_blank (isBlank_of_isValuePart hpart) _
  · obtain ⟨first, rest, rfl⟩ := List.exists_cons_of_ne_nil (ne_nil_of_read? h)
    exact Text.trimStart_cons_of_not_blank
      (isBlank_of_isValuePart (hparts first List.mem_cons_self)) rest

/-- A number after a blank is the value of its line, but a word is not. -/
theorem readValue?_blank {token : List Char} {value : Float}
    (h : Number.read? token = some value) :
    readValue? (' ' :: token) = if token.all isValuePart then some value else none := by
  rw [readValue?, if_pos (by decide), trimStart_of_read? h]
  split
  · rename_i hparts
    rw [List.takeWhile_eq_self_iff.mpr (List.all_eq_true.mp hparts), h]
  · rename_i hother
    exact Number.read?_takeWhile_eq_none h (mt List.all_eq_true.mpr hother)

/-- A written line whose block holds no closing brace. -/
theorem read?_written_of_unbraced {name block token : List Char} {value : Float}
    (hname : isName name = true) (hblock : '}' ∉ block) (hvalue : Number.read? token = some value) :
    read? (written name block token) =
      if token.all isValuePart then some ⟨.ofList name, some (.ofList block), value⟩ else none := by
  rw [written, read?_braced hname hblock, readValue?_blank hvalue]
  split <;> rfl

/-- A written line whose block holds a closing brace: the block ends there, and the value is looked
for in what follows. -/
theorem read?_written_of_braced {name front : List Char} (hname : isName name = true)
    (hfront : '}' ∉ front) (post token : List Char) :
    read? (written name (front ++ '}' :: post) token) =
      (readValue? (post ++ '}' :: ' ' :: token)).map fun value =>
        ⟨.ofList name, some (.ofList front), value⟩ := by
  rw [written, List.append_assoc, List.cons_append, read?_braced hname hfront]

/-- **When a written line reads back.** The block has to hold no closing brace, which a block that
reads holds in its values only, and the value has to be no word, for then it is not found. A block
that holds a brace is cut in front of it, so that no labels are read, and the value is looked for in
what the brace leaves of the block. -/
theorem read?_written {name block token : List Char} {labels : List Label} {value : Float}
    (hname : isName name = true) (hblock : parseBlock (.ofList block) = .ok labels)
    (hvalue : Number.read? token = some value) :
    (read? (written name block token) = some ⟨.ofList name, some (.ofList block), value⟩ ↔
        (∀ l ∈ labels, '}' ∉ l.value.toList) ∧ ∀ c ∈ token, isValuePart c = true) ∧
      ('}' ∉ block ↔ ∀ l ∈ labels, '}' ∉ l.value.toList) ∧
      ('}' ∉ block → ¬ (∀ c ∈ token, isValuePart c = true) →
        read? (written name block token) = none) ∧
      ∀ front post, block = front ++ '}' :: post → '}' ∉ front →
        Label.Refused (.ofList front) ∧
          read? (written name block token) =
            (readValue? (post ++ '}' :: ' ' :: token)).map fun value =>
              ⟨.ofList name, some (.ofList front), value⟩ := by
  have hmem : '}' ∉ block ↔ ∀ l ∈ labels, '}' ∉ l.value.toList := by
    have := Label.plain_closingBrace.mem_of_parseBlock hblock
    rw [String.toList_ofList] at this
    rw [this]
    simp
  refine ⟨?_, hmem, fun hunbraced hother => ?_, ?_⟩
  · rw [← hmem]
    by_cases hbraced : '}' ∈ block
    · -- what is read has the text in front of the brace for its block
      obtain ⟨front, post, rfl, hfront⟩ := List.eq_append_cons_of_mem hbraced
      rw [read?_written_of_braced hname hfront]
      refine iff_of_false (fun hread => ?_) fun h => h.1 hbraced
      obtain ⟨other, -, hline⟩ := Option.map_eq_some_iff.mp hread
      have hsame : String.ofList front = .ofList (front ++ '}' :: post) := by
        simpa using congrArg DataLine.block hline
      exact hfront (String.ofList_inj.mp hsame ▸ hbraced)
    · rw [read?_written_of_unbraced hname hbraced hvalue]
      simp [hbraced]
  · rw [read?_written_of_unbraced hname hunbraced hvalue,
      if_neg (mt List.all_eq_true.mp hother)]
  · rintro front post rfl hfront
    exact ⟨Label.refused_of_append hblock, read?_written_of_braced hname hfront post token⟩

/-- A block with blanks, escapes, an opening brace and a comma after its last pair. -/
def spacedBlock : List Char := " path = \"/a \\\"b\\\" \x7bid\" , ".toList

theorem parseBlock_spacedBlock :
    parseBlock (.ofList spacedBlock) = .ok [⟨"path", "/a \"b\" \x7bid"⟩] := by
  refine Label.parseBlock_eq_ok_iff.mpr ⟨[⟨"path", "/a \"b\" \x7bid"⟩], ?_, ?_⟩
  · have hitem : Label.readItem (String.ofList spacedBlock).toList =
        .ok (some (⟨"path", "/a \"b\" \x7bid"⟩, [' '])) := by rfl
    have hblank : ∀ c ∈ [' '], isBlank c = true := List.forall_mem_singleton.mpr (by decide)
    rw [Label.readPairs_of_some hitem, Label.readPairs_of_blank hblank]
    rfl
  · exact List.mergeSort_singleton _

/-- One line that reads back, and one that is cut at the brace in its label value. -/
theorem read?_written_spacedBlock :
    read? (written "http:requests.total".toList spacedBlock "-1.5E3".toList) =
        some ⟨"http:requests.total", some (.ofList spacedBlock), -.ofScientific 15 false 2⟩ ∧
      Label.Refused "a=\"" ∧
      read? (written "n".toList "a=\"\x7d 5\"".toList "1".toList) =
        some ⟨"n", some "a=\"", .ofScientific 5 false 0⟩ := by
  have hname : isName "http:requests.total".toList = true := by decide
  have hvalue : Number.read? "-1.5E3".toList = some (-.ofScientific 15 false 2) := by rfl
  have hshort : isName "n".toList = true := by decide
  have hone : Number.read? "1".toList = some (.ofScientific 1 false 0) := by rfl
  have hbraced : parseBlock (.ofList "a=\"\x7d 5\"".toList) = .ok [⟨"a", "\x7d 5"⟩] :=
    Label.parseBlock_of_written (by decide) (by decide)
  obtain ⟨hback, -⟩ := read?_written hname parseBlock_spacedBlock hvalue
  obtain ⟨-, -, -, hcut⟩ := read?_written hshort hbraced hone
  obtain ⟨hrefused, hread⟩ := hcut "a=\"".toList " 5\"".toList (by decide) (by decide)
  refine ⟨hback.mpr ⟨?_, ?_⟩, hrefused, ?_⟩
  · exact List.forall_mem_singleton.mpr (by decide)
  · exact List.all_eq_true.mp (by decide)
  · rw [hread]
    rfl

/-- Three lines with a block that reads and a value that reads: a brace in the value of a label drops
the first and leaves the second with another block and another value; the third ends with a word. -/
theorem not_read_back :
    isName "n".toList = true ∧
      (parseBlock "a=\"\x7d\"" = .ok [⟨"a", "\x7d"⟩] ∧
        Number.read? "1".toList = some (.ofScientific 1 false 0) ∧
        read? (written "n".toList "a=\"\x7d\"".toList "1".toList) = none) ∧
      (parseBlock "a=\"\x7d 5\"" = .ok [⟨"a", "\x7d 5"⟩] ∧
        read? (written "n".toList "a=\"\x7d 5\"".toList "1".toList) =
          some ⟨"n", some "a=\"", .ofScientific 5 false 0⟩) ∧
      parseBlock "a=\"b\"" = .ok [⟨"a", "b"⟩] ∧
        Number.read? "inf".toList = some Number.infinity ∧
        read? (written "n".toList "a=\"b\"".toList "inf".toList) = none := by
  refine ⟨by decide, ⟨?_, ?_, ?_⟩, ⟨?_, ?_⟩, ?_, ?_, ?_⟩
  · exact Label.parseBlock_of_written (by decide) (by decide)
  · rfl
  · rfl
  · exact Label.parseBlock_of_written (by decide) (by decide)
  · rfl
  · exact Label.parseBlock_of_written (by decide) (by decide)
  · rfl
  · rfl

end DataLine

end Bottleneck
