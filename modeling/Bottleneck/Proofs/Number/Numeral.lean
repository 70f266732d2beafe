import Bottleneck.Proofs.Number.NotANumber
import Bottleneck.Snapshot.Line
import Mathlib.Data.List.TakeWhile

/-!
The characters of a number. A text that reads as a number is either a numeral, which has nothing but
the characters of a value, or a word, whose first letter is none of them (`read?_eq_some`). So a run
of value characters that reads is a numeral and no NaN (`isNaN_of_read?`), and what is left of any
other number when it is cut at the first other character does not read at all
(`read?_takeWhile_eq_none`).
-/

namespace Bottleneck.Number

open DataLine (isValuePart)

/-! ## Numerals -/

theorem isValuePart_of_isDigit {c : Char} (h : c.isDigit = true) : isValuePart c = true := by
  simp [isValuePart, h]

/-- Either sign, or none. -/
def signs : List (List Char) := [[], ['-'], ['+']]

theorem exists_sign (cs : List Char) : ∃ sign ∈ signs, cs = sign ++ (readSign cs).2 := by
  unfold readSign
  split
  · exact ⟨['-'], by decide, rfl⟩
  · exact ⟨['+'], by decide, rfl⟩
  · exact ⟨[], by decide, rfl⟩

theorem valueParts_of_mem_signs {sign : List Char} (h : sign ∈ signs) :
    ∀ c ∈ sign, isValuePart c = true := by
  have hsigns : signs.all (·.all isValuePart) = true := by decide
  exact List.all_eq_true.mp (List.all_eq_true.mp hsigns sign h)

theorem valueParts_of_readSign {cs : List Char}
    (h : ∀ c ∈ (readSign cs).2, isValuePart c = true) : ∀ c ∈ cs, isValuePart c = true := by
  obtain ⟨sign, hsign, hcs⟩ := exists_sign cs
  rw [hcs]
  exact List.forall_mem_append.mpr ⟨valueParts_of_mem_signs hsign, h⟩

theorem valueParts_of_dropDigits {cs : List Char}
    (h : ∀ c ∈ cs.dropWhile Char.isDigit, isValuePart c = true) :
    ∀ c ∈ cs, isValuePart c = true := by
  intro c hc
  rw [← List.takeWhile_append_dropWhile (p := Char.isDigit) (l := cs), List.mem_append] at hc
  rcases hc with hc | hc
  · exact isValuePart_of_isDigit (List.mem_takeWhile_imp hc)
  · exact h c hc

theorem valueParts_of_readFraction {cs : List Char}
    (h : ∀ c ∈ (readFraction cs).2, isValuePart c = true) : ∀ c ∈ cs, isValuePart c = true := by
  unfold readFraction at h
  split at h
  · exact List.forall_mem_cons.mpr ⟨by decide, valueParts_of_dropDigits h⟩
  · exact h

theorem valueParts_of_readExponent? {cs : List Char} {exponent : Int}
    (h : readExponent? cs = some exponent) : ∀ c ∈ cs, isValuePart c = true := by
  cases cs with
  | nil => exact List.forall_mem_nil _
  | cons mark cs =>
    simp only [readExponent?] at h
    split at h
    · rename_i hexponent
      obtain ⟨hmark, -, hdigits⟩ := hexponent
      refine List.forall_mem_cons.mpr ⟨?_, valueParts_of_readSign fun c hc => ?_⟩
      · rcases hmark with rfl | rfl <;> decide
      · exact isValuePart_of_isDigit (List.all_eq_true.mp hdigits c hc)
    · cases h

/-- **A numeral has only characters of a value**, and it is not NaN. -/
theorem valueParts_of_readNumeral? {cs : List Char} {x : Float} (h : readNumeral? cs = some x) :
    (∀ c ∈ cs, isValuePart c = true) ∧ x.isNaN = false := by
  simp only [readNumeral?] at h
  split at h
  · cases h
  · obtain ⟨exponent, hexponent, rfl⟩ := Option.map_eq_some_iff.mp h
    have hfraction := valueParts_of_readFraction (valueParts_of_readExponent? hexponent)
    exact ⟨valueParts_of_dropDigits hfraction, isNaN_ofScientific ..⟩

/-! ## Words -/

/-- A letter comes from itself or from its capital. -/
theorem eq_or_eq_of_toLower {c lower : Char} (upper : Char)
    (hcase : upper.val + ('a'.val - 'A'.val) = lower.val) (h : c.toLower = lower) :
    c = lower ∨ c = upper := by
  unfold Char.toLower at h
  split at h
  · have hval := congrArg Char.val h
    rw [← hcase] at hval
    exact .inr (Char.ext ((UInt32.add_left_inj _).mp hval))
  · exact .inl h

/-- The letters that `inf`, `infinity` and `nan` start with. -/
def wordStarts : List Char := ['i', 'I', 'n', 'N']

theorem exists_of_readWord? {cs : List Char} {x : Float} (h : readWord? cs = some x) :
    ∃ c rest, cs = c :: rest ∧ c ∈ wordStarts := by
  have hword (word : String) (heq : String.ofList (cs.map Char.toLower) = word) :
      (cs.head?).map Char.toLower = word.toList.head? := by
    rw [← heq, String.toList_ofList, List.head?_map]
  have hhead : (cs.head?).map Char.toLower = some 'i' ∨ (cs.head?).map Char.toLower = some 'n' := by
    simp only [readWord?] at h
    split at h
    · rename_i hinf
      rcases hinf with heq | heq <;> exact .inl (hword _ heq)
    split at h
    · rename_i heq
      exact .inr (hword _ heq)
    · cases h
  cases cs with
  | nil => simp at hhead
  | cons c rest =>
    refine ⟨c, rest, rfl, ?_⟩
    rw [List.head?_cons, Option.map_some, Option.some.injEq, Option.some.injEq] at hhead
    rcases hhead with hi | hn
    · rcases eq_or_eq_of_toLower 'I' (by decide) hi with rfl | rfl <;> decide
    · rcases eq_or_eq_of_toLower 'N' (by decide) hn with rfl | rfl <;> decide

/-! ## Numbers -/

/-- A sign and a word: the first letter of the word is no character of a value. -/
def IsSignedWord (cs : List Char) : Prop :=
  ∃ sign ∈ signs, ∃ c rest, cs = sign ++ c :: rest ∧ c ∈ wordStarts

/-- **What reads as a number is a signed word or a numeral.** -/
theorem read?_eq_some {cs : List Char} {x : Float} (h : read? cs = some x) :
    IsSignedWord cs ∨ (∀ c ∈ cs, isValuePart c = true) ∧ x.isNaN = false := by
  simp only [read?] at h
  obtain ⟨magnitude, hmagnitude, rfl⟩ := Option.map_eq_some_iff.mp h
  cases hword : readWord? (readSign cs).2 with
  | some y =>
    obtain ⟨c, rest, hrest, hc⟩ := exists_of_readWord? hword
    obtain ⟨sign, hsign, hcs⟩ := exists_sign cs
    exact .inl ⟨sign, hsign, c, rest, hrest ▸ hcs, hc⟩
  | none =>
    rw [hword] at hmagnitude
    obtain ⟨hparts, hnan⟩ := valueParts_of_readNumeral? hmagnitude
    refine .inr ⟨valueParts_of_readSign hparts, ?_⟩
    split
    · rw [isNaN_neg, hnan]
    · exact hnan

theorem isValuePart_of_mem_wordStarts {c : Char} (h : c ∈ wordStarts) : isValuePart c = false := by
  have hletters : wordStarts.all (fun c => !isValuePart c) = true := by decide
  simpa using List.all_eq_true.mp hletters c h

/-- **A run of value characters that reads is no NaN.** -/
theorem isNaN_of_read? {cs : List Char} {x : Float} (hparts : ∀ c ∈ cs, isValuePart c = true)
    (h : read? cs = some x) : x.isNaN = false := by
  rcases read?_eq_some h with ⟨sign, -, c, rest, rfl, hc⟩ | ⟨-, hnan⟩
  · have hpart := hparts c (by simp)
    rw [isValuePart_of_mem_wordStarts hc] at hpart
    cases hpart
  · exact hnan

/-- **A number with other characters is lost where it is cut** at the first of them: its sign is all
that is left. -/
theorem read?_takeWhile_eq_none {cs : List Char} {x : Float} (h : read? cs = some x)
    (hother : ¬ ∀ c ∈ cs, isValuePart c = true) : read? (cs.takeWhile isValuePart) = none := by
  rcases read?_eq_some h with ⟨sign, hsign, c, rest, rfl, hc⟩ | ⟨hparts, -⟩
  · have hsigns : ∀ sign ∈ signs, read? sign = none := by decide
    rw [List.takeWhile_append_of_pos (valueParts_of_mem_signs hsign),
      List.takeWhile_cons_of_neg (by simp [isValuePart_of_mem_wordStarts hc]), List.append_nil,
      hsigns sign hsign]
  · exact absurd hparts hother

end Bottleneck.Number
