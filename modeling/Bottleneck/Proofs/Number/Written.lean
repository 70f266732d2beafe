import Bottleneck.Number.Fixed

/-!
The texts of numbers. With one decimal place a number is written in figures, without an exponent
however large or small it is; only what is infinite or NaN is a word (`written_oneDecimal`).
-/

namespace Bottleneck.Number

theorem isDigit_of_mem_toString {n : Nat} {c : Char} (h : c ∈ (toString n).toList) :
    c.isDigit = true := by
  rw [Nat.toString_eq_ofList_toDigits, String.toList_ofList] at h
  exact Nat.isDigit_of_mem_toDigits (by decide) (by decide) h

/-- The sign in front of a text, which is left out for a positive number. -/
def signText (negative : Bool) : String := if negative then "-" else ""

/-- A decimal number with one decimal place. -/
def IsDecimal (text : String) : Prop :=
  ∃ (negative : Bool) (whole tenth : Nat), tenth < 10 ∧
    text = signText negative ++ (toString whole ++ "." ++ toString tenth)

/-- What the text of a number can be. -/
inductive Written (x : Float) : String → Prop where
  | notANumber (h : x.isNaN = true) : Written x "NaN"
  | infinite (h : x.isInf = true) (negative : Bool) : Written x (signText negative ++ "inf")
  | finite (h : x.isFinite = true) {text : String} (hdecimal : IsDecimal text) : Written x text

/-- A double is finite, infinite or NaN, and never two of these. -/
theorem isFinite_eq (x : Float) : x.isFinite = (!x.isNaN && !x.isInf) := by
  change x.toModel.unpack.isFinite = (!x.toModel.unpack.isNaN && !x.toModel.unpack.isInf)
  cases x.toModel.unpack <;> rfl

theorem written_oneDecimal (x : Float) : Written x (oneDecimal x) := by
  cases hnan : x.isNaN with
  | true =>
    rw [oneDecimal, if_pos hnan]
    exact .notANumber hnan
  | false =>
    have hsign (magnitude : String) : (if isNegative x then "-" ++ magnitude else magnitude) =
        signText (isNegative x) ++ magnitude := by
      cases isNegative x with
      | true => rfl
      | false => exact (String.empty_append).symm
    have htext : oneDecimal x = signText (isNegative x) ++ (if x.isInf then "inf"
        else toString (tenths x / 10) ++ "." ++ toString (tenths x % 10)) := by
      rw [oneDecimal, if_neg (Bool.eq_false_iff.mp hnan)]
      exact hsign _
    rw [htext]
    cases hinf : x.isInf with
    | true => exact .infinite hinf (isNegative x)
    | false =>
      refine .finite ?_ ⟨isNegative x, tenths x / 10, tenths x % 10, Nat.mod_lt _ (by decide), rfl⟩
      rw [isFinite_eq, hnan, hinf]
      rfl

/-- **A finite number is written in figures.** -/
theorem Written.isDecimal {x : Float} {text : String} (h : Written x text)
    (hfinite : x.isFinite = true) : IsDecimal text := by
  rw [isFinite_eq, Bool.and_eq_true, Bool.not_eq_true', Bool.not_eq_true'] at hfinite
  obtain ⟨hnan, hinf⟩ := hfinite
  cases h with
  | notANumber h => rw [hnan] at h; cases h
  | infinite h => rw [hinf] at h; cases h
  | finite _ hdecimal => exact hdecimal

theorem toList_signText (negative : Bool) :
    (signText negative).toList = if negative then ['-'] else [] := by
  cases negative <;> rfl

/-- What a number in figures is made of. -/
def isFigure (c : Char) : Bool := c.isDigit || c == '.' || c == '-'

theorem IsDecimal.isFigure_of_mem {text : String} (h : IsDecimal text) {c : Char}
    (hc : c ∈ text.toList) : isFigure c = true := by
  obtain ⟨negative, whole, tenth, -, rfl⟩ := h
  have hdigit {n : Nat} (hc : c ∈ (toString n).toList) : isFigure c = true := by
    rw [isFigure, isDigit_of_mem_toString hc]
    rfl
  simp only [String.toList_append, List.mem_append, toList_signText] at hc
  rcases hc with hsign | (hwhole | hpoint) | htenth
  · cases negative with
    | true => rw [List.mem_singleton.mp hsign]; rfl
    | false => cases hsign
  · exact hdigit hwhole
  · rw [List.mem_singleton.mp hpoint]
    rfl
  · exact hdigit htenth

end Bottleneck.Number
