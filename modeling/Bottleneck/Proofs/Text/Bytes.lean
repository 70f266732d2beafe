/-!
Texts by their bytes. A text can be searched byte by byte, but where it is cut the offset has to be
checked: it may lie behind the end or inside a character. Main statement: where the bytes of another
text occur a character starts, so an occurrence can be cut out at both ends
(`exists_of_prefix_drop`).
-/

namespace Bottleneck.Text

/-- The bytes of a text in UTF-8. -/
def bytes (text : String) : List UInt8 := text.toByteArray.data.toList

/-! ## Checked cuts -/

/-- The text in front of an offset, unless the offset is outside the text or inside a character. -/
def before? (text : String) (offset : Nat) : Option String :=
  if h : String.Pos.Raw.IsValid text ⟨offset⟩ then some (text.sliceTo ⟨⟨offset⟩, h⟩).copy else none

/-- The text behind an offset, under the same condition. -/
def behind? (text : String) (offset : Nat) : Option String :=
  if h : String.Pos.Raw.IsValid text ⟨offset⟩ then some (text.sliceFrom ⟨⟨offset⟩, h⟩).copy
  else none

/-- The size of the front is an offset between two characters. -/
theorem splits_append (front rest : String) :
    ∃ h : String.Pos.Raw.IsValid (front ++ rest) ⟨front.utf8ByteSize⟩,
      String.Pos.Splits ⟨⟨front.utf8ByteSize⟩, h⟩ front rest :=
  ⟨String.Pos.Raw.isValid_iff_exists_append.mpr ⟨front, rest, rfl, rfl⟩, rfl, rfl⟩

theorem before?_append (front rest : String) :
    before? (front ++ rest) front.utf8ByteSize = some front := by
  obtain ⟨hvalid, hsplits⟩ := splits_append front rest
  rw [before?, dif_pos hvalid, hsplits.copy_sliceTo_eq]

theorem behind?_append (front rest : String) :
    behind? (front ++ rest) front.utf8ByteSize = some rest := by
  obtain ⟨hvalid, hsplits⟩ := splits_append front rest
  rw [behind?, dif_pos hvalid, hsplits.copy_sliceFrom_eq]

example : before? "é" 1 = none ∧ before? "é" 2 = some "é" ∧ before? "é" 3 = none := by decide

section Occurrence

variable (front needle rest : String)

theorem before?_occurrence :
    before? (front ++ needle ++ rest) front.utf8ByteSize = some front := by
  rw [String.append_assoc, before?_append]

theorem behind?_occurrence :
    behind? (front ++ needle ++ rest) (front.utf8ByteSize + needle.utf8ByteSize) = some rest := by
  rw [← String.utf8ByteSize_append, behind?_append]

end Occurrence

/-! ## Bytes of characters -/

theorem bytes_append (front rest : String) : bytes (front ++ rest) = bytes front ++ bytes rest := by
  rw [bytes, bytes, bytes, String.toByteArray_append, ByteArray.data_append, Array.toList_append]

theorem length_bytes (text : String) : (bytes text).length = text.utf8ByteSize := by
  rw [bytes, Array.length_toList]
  rfl

theorem bytes_ne_nil {text : String} (h : text ≠ "") : bytes text ≠ [] := by
  rw [← List.length_pos_iff, length_bytes]
  exact Nat.pos_of_ne_zero (mt String.utf8ByteSize_eq_zero_iff.mp h)

/-- A text starts with another if its bytes do. -/
theorem exists_of_bytes_prefix {needle text : String} (h : bytes needle <+: bytes text) :
    ∃ rest, text = needle ++ rest := by
  obtain ⟨tail, htail⟩ := h
  have hencode : needle.toList.utf8Encode ++ tail.toByteArray = text.toList.utf8Encode := by
    rw [String.utf8Encode_toList, String.utf8Encode_toList]
    refine ByteArray.ext (Array.toList_inj.mp ?_)
    rw [ByteArray.data_append, Array.toList_append, List.toList_data_toByteArray]
    exact htail
  obtain ⟨rest, hrest⟩ := List.isPrefix_of_utf8Encode_append_eq_utf8Encode _ hencode
  refine ⟨.ofList rest, String.toList_inj.mp ?_⟩
  rw [String.toList_append, String.toList_ofList, hrest]

/-- The bytes of a text start with the first byte of a character. -/
theorem isUTF8FirstByte_head {text : String} (h : 0 < (bytes text).length) :
    (bytes text)[0].IsUTF8FirstByte :=
  text.isValidUTF8.isUTF8FirstByte_getElem_zero h

/-- A byte in the middle of a character starts no text, so occurrences start with characters. -/
theorem isValid_of_prefix_drop {needle text : String} {offset : Nat} (hne : needle ≠ "")
    (h : bytes needle <+: (bytes text).drop offset) : String.Pos.Raw.IsValid text ⟨offset⟩ := by
  have hpos : 0 < (bytes needle).length := List.length_pos_iff.mpr (bytes_ne_nil hne)
  have hlength := h.length_le
  rw [List.length_drop] at hlength
  have hlt : offset < (bytes text).length := by omega
  have hbyte : (bytes needle)[0] = (bytes text)[offset] := by
    rw [h.getElem hpos, List.getElem_drop]
    rfl
  have hfirst := hbyte ▸ isUTF8FirstByte_head hpos
  exact String.Pos.Raw.isValid_iff_isUTF8FirstByte.mpr (.inr ⟨hlt, hfirst⟩)

/-- **Where the bytes of a text occur the text occurs.** -/
theorem exists_of_prefix_drop {needle text : String} {offset : Nat} (hne : needle ≠ "")
    (h : bytes needle <+: (bytes text).drop offset) :
    ∃ front rest, text = front ++ needle ++ rest ∧ offset = front.utf8ByteSize := by
  obtain ⟨front, tail, rfl, hoffset⟩ :=
    String.Pos.Raw.isValid_iff_exists_append.mp (isValid_of_prefix_drop hne h)
  have hsize : offset = front.utf8ByteSize := congrArg String.Pos.Raw.byteIdx hoffset
  rw [hsize, bytes_append, ← length_bytes, List.drop_left] at h
  obtain ⟨rest, rfl⟩ := exists_of_bytes_prefix h
  exact ⟨front, rest, (String.append_assoc ..).symm, hsize⟩

/-! ## Occurrences -/

/-- The offsets at which a needle stands, from left to right. An occurrence starts behind the one
before: `skip` counts the bytes that still belong to that one. -/
def offsetsFrom (needle : List UInt8) (offset skip : Nat) : List UInt8 → List Nat
  | [] => []
  | b :: bs =>
    match skip with
    | skip + 1 => offsetsFrom needle (offset + 1) skip bs
    | 0 =>
      if needle.isPrefixOf (b :: bs) then
        offset :: offsetsFrom needle (offset + 1) (needle.length - 1) bs
      else offsetsFrom needle (offset + 1) 0 bs

def offsets (needle text : String) : List Nat := offsetsFrom (bytes needle) 0 0 (bytes text)

section Steps

variable {needle : List UInt8}

theorem offsetsFrom_skip (front rest : List UInt8) (offset : Nat) :
    offsetsFrom needle offset front.length (front ++ rest) =
      offsetsFrom needle (offset + front.length) 0 rest := by
  induction front generalizing offset with
  | nil => rfl
  | cons b front ih =>
    rw [List.length_cons, List.cons_append, offsetsFrom, ih, Nat.add_assoc, Nat.add_comm 1]

theorem offsetsFrom_needle (hne : needle ≠ []) (rest : List UInt8) (offset : Nat) :
    offsetsFrom needle offset 0 (needle ++ rest) =
      offset :: offsetsFrom needle (offset + needle.length) 0 rest := by
  obtain ⟨b, bs, rfl⟩ := List.exists_cons_of_ne_nil hne
  rw [List.cons_append, offsetsFrom, ← List.cons_append,
    if_pos (List.isPrefixOf_iff_prefix.mpr (List.prefix_append _ _)), List.length_cons,
    Nat.add_sub_cancel, offsetsFrom_skip, Nat.add_assoc, Nat.add_comm 1]

/-- Without occurrences a front is passed over. -/
theorem offsetsFrom_append {front rest : List UInt8} (offset : Nat)
    (h : ∀ k < front.length, ¬ needle <+: (front ++ rest).drop k) :
    offsetsFrom needle offset 0 (front ++ rest) =
      offsetsFrom needle (offset + front.length) 0 rest := by
  induction front generalizing offset with
  | nil => rfl
  | cons b front ih =>
    have hno := mt List.isPrefixOf_iff_prefix.mp (h 0 (Nat.zero_lt_succ _))
    have hrest : ∀ k < front.length, ¬ needle <+: (front ++ rest).drop k :=
      fun k hk => h (k + 1) (Nat.succ_lt_succ hk)
    rw [List.cons_append, List.drop_zero] at hno
    rw [List.cons_append, offsetsFrom, if_neg hno, ih _ hrest, List.length_cons, Nat.add_assoc,
      Nat.add_comm 1]

theorem exists_of_mem_offsetsFrom {text : List UInt8} {offset skip found : Nat}
    (h : found ∈ offsetsFrom needle offset skip text) :
    ∃ k, found = offset + k ∧ needle <+: text.drop k := by
  induction text generalizing offset skip with
  | nil => cases h
  | cons b bs ih =>
    have hrest {skip : Nat} (h : found ∈ offsetsFrom needle (offset + 1) skip bs) :
        ∃ k, found = offset + k ∧ needle <+: (b :: bs).drop k := by
      obtain ⟨k, rfl, hk⟩ := ih h
      exact ⟨k + 1, by omega, hk⟩
    cases skip with
    | succ skip => exact hrest h
    | zero =>
      rw [offsetsFrom] at h
      split at h
      · rename_i hprefix
        rcases List.mem_cons.mp h with rfl | h
        · exact ⟨0, rfl, List.isPrefixOf_iff_prefix.mp hprefix⟩
        · exact hrest h
      · exact hrest h

end Steps

theorem exists_eq_singleton_append {text : String} (h : text ≠ "") :
    ∃ c rest, text = String.singleton c ++ rest :=
  ⟨_, String.eq_singleton_append (mt String.startPos_eq_endPos_iff.mp h)⟩

section Walk

variable {needle : String} (hne : needle ≠ "")
include hne

/-- An offset that is found is the size of what stands in front of the occurrence. -/
theorem exists_of_mem_offsets {text : String} {offset : Nat} (h : offset ∈ offsets needle text) :
    ∃ front rest, text = front ++ needle ++ rest ∧ offset = front.utf8ByteSize := by
  obtain ⟨k, hk, hprefix⟩ := exists_of_mem_offsetsFrom h
  rw [Nat.zero_add] at hk
  exact exists_of_prefix_drop hne (hk ▸ hprefix)

/-- A text is gone through in characters and occurrences. -/
theorem occurrence_induction {P : String → Prop} (empty : P "")
    (occurrence : ∀ rest, P rest → P (needle ++ rest))
    (character : ∀ c rest, (¬ ∃ tail, String.singleton c ++ rest = needle ++ tail) → P rest →
      P (String.singleton c ++ rest)) (text : String) : P text := by
  induction hlength : text.length using Nat.strongRecOn generalizing text with
  | ind n ih =>
    by_cases htext : text = ""
    · rw [htext]
      exact empty
    · by_cases hneedle : ∃ rest, text = needle ++ rest
      · obtain ⟨rest, rfl⟩ := hneedle
        have hpos : 0 < needle.length := Nat.pos_of_ne_zero (mt String.length_eq_zero_iff.mp hne)
        rw [String.length_append] at hlength
        exact occurrence rest (ih rest.length (by omega) rest rfl)
      · obtain ⟨c, rest, rfl⟩ := exists_eq_singleton_append htext
        rw [String.length_append, String.length_singleton] at hlength
        exact character c rest hneedle (ih rest.length (by omega) rest rfl)

/-- Where no occurrence starts the search goes on behind the character. -/
theorem offsetsFrom_character {c : Char} {rest : String}
    (h : ¬ ∃ tail, String.singleton c ++ rest = needle ++ tail) (offset : Nat) :
    offsetsFrom (bytes needle) offset 0 (bytes (String.singleton c ++ rest)) =
      offsetsFrom (bytes needle) (offset + (String.singleton c).utf8ByteSize) 0 (bytes rest) := by
  rw [bytes_append, offsetsFrom_append, length_bytes]
  intro k hk hprefix
  rw [← bytes_append] at hprefix
  obtain ⟨front, tail, hsplit, rfl⟩ := exists_of_prefix_drop hne hprefix
  by_cases hfront : front = ""
  · subst hfront
    exact h ⟨tail, by rw [hsplit, String.empty_append]⟩
  · obtain ⟨d, front, rfl⟩ := exists_eq_singleton_append hfront
    rw [String.append_assoc, String.append_assoc] at hsplit
    obtain ⟨rfl, -⟩ := String.singleton_append_inj.mp hsplit
    rw [length_bytes, String.utf8ByteSize_append] at hk
    omega

theorem offsetsFrom_occurrence (rest : String) (offset : Nat) :
    offsetsFrom (bytes needle) offset 0 (bytes (needle ++ rest)) =
      offset :: offsetsFrom (bytes needle) (offset + needle.utf8ByteSize) 0 (bytes rest) := by
  rw [bytes_append, offsetsFrom_needle (bytes_ne_nil hne), length_bytes]

end Walk

end Bottleneck.Text
