/-!
Blank characters and trimming. A blank is a character with the Unicode property White_Space, so a
no-break space is blank and a zero-width space is not.
-/

namespace Bottleneck.Text

/-- The code points with the property White_Space, as closed ranges in ascending order. -/
def blankRanges : List (Nat × Nat) :=
  [(0x09, 0x0D), (0x20, 0x20), (0x85, 0x85), (0xA0, 0xA0), (0x1680, 0x1680), (0x2000, 0x200A),
    (0x2028, 0x2029), (0x202F, 0x202F), (0x205F, 0x205F), (0x3000, 0x3000)]

def isBlank (c : Char) : Bool :=
  blankRanges.any fun (lo, hi) => lo ≤ c.toNat && c.toNat ≤ hi

def trimStart (cs : List Char) : List Char := cs.dropWhile isBlank

def trimEnd (cs : List Char) : List Char := (cs.reverse.dropWhile isBlank).reverse

/-- Both ends are trimmed; blanks inside stay. -/
def trim (cs : List Char) : List Char := trimEnd (trimStart cs)

example : isBlank '\u00a0' = true ∧ isBlank '\u200b' = false := by decide

/-! ## Lengths -/

theorem length_trimStart_le (cs : List Char) : (trimStart cs).length ≤ cs.length :=
  (List.dropWhile_sublist isBlank).length_le

/-! ## Trimming -/

/-- The visible characters of ASCII are no blanks. -/
theorem isBlank_eq_false {c : Char} (h : 0x21 ≤ c.toNat) (h' : c.toNat < 0x7F) :
    isBlank c = false := by
  simp only [isBlank, blankRanges, List.any_cons, List.any_nil, Bool.or_false, Bool.or_eq_false_iff,
    Bool.and_eq_false_iff, decide_eq_false_iff_not]
  omega

theorem isBlank_of_isAlphanum {c : Char} (h : c.isAlphanum = true) : isBlank c = false := by
  have hranges : ((decide (65 ≤ c.val ∧ c.val ≤ 90) ||
      (decide (97 ≤ c.val) && decide (c.val ≤ 122))) ||
      (decide (48 ≤ c.val) && decide (c.val ≤ 57))) = true := h
  simp only [Bool.or_eq_true, Bool.and_eq_true, decide_eq_true_eq,
    UInt32.le_iff_toNat_le] at hranges
  have hnat : c.toNat = c.val.toNat := rfl
  apply isBlank_eq_false <;> simp at hranges <;> omega

theorem trimStart_cons_of_blank {c : Char} (h : isBlank c = true) (cs : List Char) :
    trimStart (c :: cs) = trimStart cs := List.dropWhile_cons_of_pos h

theorem trimStart_cons_of_not_blank {c : Char} (h : isBlank c = false) (cs : List Char) :
    trimStart (c :: cs) = c :: cs := List.dropWhile_cons_of_neg (by simp [h])

theorem trimStart_of_blank {cs : List Char} (h : ∀ c ∈ cs, isBlank c = true) :
    trimStart cs = [] := by
  induction cs with
  | nil => rfl
  | cons c cs ih =>
    rw [List.forall_mem_cons] at h
    rw [trimStart_cons_of_blank h.1, ih h.2]

/-- What trimming the start leaves is nothing or starts with a visible character. -/
theorem trimStart_eq (cs : List Char) :
    trimStart cs = [] ∨ ∃ c rest, trimStart cs = c :: rest ∧ isBlank c = false := by
  induction cs with
  | nil => exact .inl rfl
  | cons c cs ih =>
    cases hc : isBlank c with
    | true =>
      rw [trimStart_cons_of_blank hc]
      exact ih
    | false => exact .inr ⟨c, cs, trimStart_cons_of_not_blank hc cs, hc⟩

@[simp] theorem trimStart_trimStart (cs : List Char) :
    trimStart (trimStart cs) = trimStart cs := by
  rcases trimStart_eq cs with h | ⟨c, rest, h, hc⟩
  · rw [h]
    rfl
  · rw [h, trimStart_cons_of_not_blank hc]

theorem trimStart_append (cs tail : List Char) :
    trimStart (cs ++ tail) =
      if trimStart cs = [] then trimStart tail else trimStart cs ++ tail := by
  unfold trimStart
  rw [List.dropWhile_append]
  cases List.dropWhile isBlank cs <;> rfl

theorem trimEnd_append_of_blank {tail : List Char} (h : ∀ c ∈ tail, isBlank c = true)
    (cs : List Char) : trimEnd (cs ++ tail) = trimEnd cs := by
  have hback : tail.reverse.dropWhile isBlank = [] := trimStart_of_blank (by simpa using h)
  unfold trimEnd
  rw [List.reverse_append, List.dropWhile_append, hback]
  rfl

theorem trimEnd_concat_of_not_blank {c : Char} (h : isBlank c = false) (cs : List Char) :
    trimEnd (cs ++ [c]) = cs ++ [c] := by
  simp [trimEnd, h]

theorem trimEnd_append (cs tail : List Char) :
    trimEnd (cs ++ tail) = if trimEnd tail = [] then trimEnd cs else cs ++ trimEnd tail := by
  unfold trimEnd
  rw [List.reverse_append, List.dropWhile_append]
  cases List.dropWhile isBlank tail.reverse with
  | nil => rfl
  | cons c rest => simp

theorem trim_trimStart (cs : List Char) : trim (trimStart cs) = trim cs := by
  rw [trim, trimStart_trimStart, trim]

/-- Blanks in front of a text are no part of it when it is trimmed. -/
theorem trim_append_left_of_blank {front : List Char} (h : ∀ c ∈ front, isBlank c = true)
    (cs : List Char) : trim (front ++ cs) = trim cs := by
  rw [trim, trimStart_append, if_pos (trimStart_of_blank h), trim]

/-- Blanks at the end of a text are no part of it when it is trimmed. -/
theorem trim_append_of_blank {tail : List Char} (h : ∀ c ∈ tail, isBlank c = true)
    (cs : List Char) : trim (cs ++ tail) = trim cs := by
  unfold trim
  rw [trimStart_append, trimStart_of_blank h]
  split
  · rename_i hcs
    rw [hcs]
  · exact trimEnd_append_of_blank h _

/-- A text is what trimming its end leaves, and blanks after it. -/
theorem exists_eq_trimEnd_append (cs : List Char) :
    ∃ tail, (∀ c ∈ tail, isBlank c = true) ∧ cs = trimEnd cs ++ tail := by
  refine ⟨(cs.reverse.takeWhile isBlank).reverse, fun c hc => ?_, ?_⟩
  · exact List.all_eq_true.mp (List.all_takeWhile (l := cs.reverse)) c (List.mem_reverse.mp hc)
  · rw [trimEnd, ← List.reverse_append, List.takeWhile_append_dropWhile, List.reverse_reverse]

theorem trimEnd_isPrefix (cs : List Char) : trimEnd cs <+: cs := by
  obtain ⟨tail, -, hsplit⟩ := exists_eq_trimEnd_append cs
  exact ⟨tail, hsplit.symm⟩

end Bottleneck.Text
