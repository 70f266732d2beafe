import Bottleneck.Text.Blank

/-!
Names: one start character and then parts. Which characters these are depends on what is named. The
longest name in front of a text is read, so a name that was written is read to its end where no part
follows it.
-/

namespace Bottleneck.Text

def isName (start part : Char → Bool) : List Char → Bool
  | [] => false
  | c :: cs => start c && cs.all part

/-- The longest name in front, and the text after it. -/
def readName? (start part : Char → Bool) : List Char → Option (List Char × List Char)
  | [] => none
  | c :: cs => if start c then some (c :: cs.takeWhile part, cs.dropWhile part) else none

variable {start part : Char → Bool}

theorem isName_iff {cs : List Char} :
    isName start part cs = true ↔ ∃ c rest, cs = c :: rest ∧ start c = true ∧
      ∀ d ∈ rest, part d = true := by
  cases cs with
  | nil => simp [isName]
  | cons c rest =>
    rw [isName, Bool.and_eq_true, List.all_eq_true]
    constructor
    · rintro ⟨hc, hrest⟩
      exact ⟨c, rest, rfl, hc, hrest⟩
    · rintro ⟨_, _, heq, hc, hrest⟩
      cases heq
      exact ⟨hc, hrest⟩

theorem part_of_isName (h : ∀ c, start c = true → part c = true) {cs : List Char}
    (hname : isName start part cs = true) : ∀ c ∈ cs, part c = true := by
  obtain ⟨c, rest, rfl, hc, hrest⟩ := isName_iff.mp hname
  exact List.forall_mem_cons.mpr ⟨h c hc, hrest⟩

theorem readName?_eq_some_iff {cs name rest : List Char} :
    readName? start part cs = some (name, rest) ↔ ∃ c tail, cs = c :: tail ∧ start c = true ∧
      name = c :: tail.takeWhile part ∧ rest = tail.dropWhile part := by
  cases cs with
  | nil => simp [readName?]
  | cons c tail =>
    rw [readName?]
    split
    · rename_i hc
      simp only [Option.some.injEq, Prod.mk.injEq]
      constructor
      · rintro ⟨rfl, rfl⟩
        exact ⟨c, tail, rfl, hc, rfl, rfl⟩
      · rintro ⟨_, _, heq, -, rfl, rfl⟩
        cases heq
        exact ⟨rfl, rfl⟩
    · rename_i hc
      simp only [reduceCtorEq, false_iff]
      rintro ⟨_, _, heq, hstart, -⟩
      cases heq
      exact hc hstart

theorem isName_of_readName? {cs name rest : List Char}
    (h : readName? start part cs = some (name, rest)) : isName start part name = true := by
  obtain ⟨c, tail, -, hc, rfl, -⟩ := readName?_eq_some_iff.mp h
  rw [isName, hc, List.all_takeWhile]
  rfl

theorem length_of_readName? {cs name rest : List Char}
    (h : readName? start part cs = some (name, rest)) : rest.length < cs.length := by
  obtain ⟨c, tail, rfl, -, -, rfl⟩ := readName?_eq_some_iff.mp h
  exact Nat.lt_succ_of_le (List.dropWhile_sublist part).length_le

/-- A written name is read to its end. -/
theorem readName?_append {name : List Char} {c : Char} (hname : isName start part name = true)
    (hc : part c = false) (rest : List Char) :
    readName? start part (name ++ c :: rest) = some (name, c :: rest) := by
  obtain ⟨first, parts, rfl, hfirst, hparts⟩ := isName_iff.mp hname
  rw [List.cons_append, readName?, if_pos hfirst, List.takeWhile_append_of_pos hparts,
    List.dropWhile_append_of_pos hparts]
  simp [hc]

end Bottleneck.Text
