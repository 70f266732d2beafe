import Bottleneck.Proofs.Log
import Mathlib.Data.List.TakeWhile

/-!
The parts of a data line: a name, a block, a gap of blanks, a value and what is not looked at.
Main statement: a trimmed line reads exactly if it falls into such parts, and it says what they say
(`DataLine.read?_eq_some_iff`). What follows the value may be anything that does not continue it
(`Parts.follow`), and trimming takes nothing off but what follows the value (`Parts.trim_text`).
-/

namespace Bottleneck

open Text (isBlank trim trimStart trimEnd)

namespace Text

variable {part : Char → Bool} {run rest : List Char}

/-- A run of characters of one class is taken as a whole where none of them follows it. -/
theorem takeWhile_run (hrun : ∀ c ∈ run, part c = true) (hends : ∀ c ∈ rest.head?, part c = false) :
    (run ++ rest).takeWhile part = run := by
  rw [List.takeWhile_append_of_pos hrun]
  cases rest with
  | nil => simp
  | cons c rest => simp [hends c rfl]

/-- Such a run can end in one place only. -/
theorem run_inj {run' rest' : List Char} (h : run ++ rest = run' ++ rest')
    (hrun : ∀ c ∈ run, part c = true) (hends : ∀ c ∈ rest.head?, part c = false)
    (hrun' : ∀ c ∈ run', part c = true) (hends' : ∀ c ∈ rest'.head?, part c = false) :
    run = run' ∧ rest = rest' := by
  have heq : run = run' := by
    rw [← takeWhile_run hrun hends, h, takeWhile_run hrun' hends']
  subst heq
  exact ⟨rfl, List.append_cancel_left h⟩

section Split

variable {c : Char} {front : List Char} (hfront : c ∉ front)
include hfront

theorem forall_mem_ne : ∀ d ∈ front, decide (d ≠ c) = true :=
  fun _ hd => decide_eq_true (ne_of_mem_of_not_mem hd hfront)

theorem takeWhile_split (rest : List Char) : (front ++ c :: rest).takeWhile (· ≠ c) = front :=
  takeWhile_run (forall_mem_ne hfront) (by simp)

theorem dropWhile_split (rest : List Char) :
    (front ++ c :: rest).dropWhile (· ≠ c) = c :: rest := by
  rw [List.dropWhile_append_of_pos (forall_mem_ne hfront)]
  exact List.dropWhile_cons_of_neg (by simp)

/-- What stands in front of the first of a character and what stands behind it are determined. -/
theorem split_inj {rest front' rest' : List Char} (h : front ++ c :: rest = front' ++ c :: rest')
    (hfront' : c ∉ front') : front = front' ∧ rest = rest' := by
  have heq : front = front' := by
    rw [← takeWhile_split hfront rest, h, takeWhile_split hfront']
  subst heq
  exact ⟨rfl, (List.cons.inj (List.append_cancel_left h)).2⟩

end Split

end Text

namespace DataLine

/-! ## Characters of names and values -/

theorem isBlank_of_isNamePart {c : Char} (h : isNamePart c = true) : isBlank c = false := by
  simp only [isNamePart, Bool.or_eq_true, beq_iff_eq] at h
  rcases h with ((h | rfl) | rfl) | rfl
  · exact Text.isBlank_of_isAlphanum h
  all_goals decide

theorem isNamePart_of_isNameStart (c : Char) (h : isNameStart c = true) : isNamePart c = true := by
  simp only [isNameStart, isNamePart, Char.isAlphanum, Bool.or_eq_true] at *
  rcases h with (h | h) | h
  · exact .inl (.inl (.inl (.inl h)))
  · exact .inl (.inl (.inr h))
  · exact .inl (.inr h)

theorem isBlank_of_isValuePart {c : Char} (h : isValuePart c = true) : isBlank c = false := by
  simp only [isValuePart, Bool.or_eq_true, beq_iff_eq] at h
  rcases h with ((((h | rfl) | rfl) | rfl) | rfl) | rfl
  · exact Text.isBlank_of_isAlphanum (by simp [Char.isAlphanum, h])
  all_goals decide

theorem isNamePart_of_isBlank {c : Char} (h : isBlank c = true) : isNamePart c = false := by
  cases hc : isNamePart c with
  | false => rfl
  | true => rw [isBlank_of_isNamePart hc] at h; cases h

theorem isValuePart_of_isBlank {c : Char} (h : isBlank c = true) : isValuePart c = false := by
  cases hc : isValuePart c with
  | false => rfl
  | true => rw [isBlank_of_isValuePart hc] at h; cases h

theorem ne_nil_of_read? {token : List Char} {value : Float}
    (h : Number.read? token = some value) : token ≠ [] := by
  rintro rfl
  cases h

/-! ## The parts -/

/-- The block as a line has it. -/
def braced : Option (List Char) → List Char
  | none => []
  | some block => '{' :: (block ++ ['}'])

/-- A data line cut into its parts. -/
structure Parts where
  name : List Char
  block : Option (List Char)
  gap : List Char
  token : List Char
  /-- What follows the value. -/
  rest : List Char
  value : Float
  isName : DataLine.isName name = true
  unbraced : ∀ b ∈ block, '}' ∉ b
  gap_ne_nil : gap ≠ []
  blank : ∀ c ∈ gap, isBlank c = true
  valueParts : ∀ c ∈ token, isValuePart c = true
  reads : Number.read? token = some value
  ends : ∀ c ∈ rest.head?, isValuePart c = false

namespace Parts

def text (p : Parts) : List Char := p.name ++ (braced p.block ++ (p.gap ++ (p.token ++ p.rest)))

/-- What a line of these parts says. -/
def line (p : Parts) : DataLine := ⟨.ofList p.name, p.block.map .ofList, p.value⟩

end Parts

/-! ## Reading the parts -/

/-- A block ends at the first closing brace. -/
theorem readBlock?_cons {block : List Char} (h : '}' ∉ block) (rest : List Char) :
    readBlock? ('{' :: (block ++ '}' :: rest)) = some (some block, rest) := by
  rw [readBlock?, if_pos (by simp), Text.takeWhile_split h, Text.dropWhile_split h]
  rfl

theorem readBlock?_braced {block : Option (List Char)} (h : ∀ b ∈ block, '}' ∉ b)
    {rest : List Char} (hrest : rest.head? ≠ some '{') :
    readBlock? (braced block ++ rest) = some (block, rest) := by
  cases block with
  | none =>
    unfold braced readBlock?
    split
    · rename_i hcons
      rw [List.nil_append] at hcons
      exact absurd (by rw [hcons]; rfl) hrest
    · rfl
  | some block =>
    have htext : braced (some block) ++ rest = '{' :: (block ++ '}' :: rest) := by simp [braced]
    rw [htext, readBlock?_cons (h block rfl)]

theorem eq_braced_of_readBlock? {cs rest : List Char} {block : Option (List Char)}
    (h : readBlock? cs = some (block, rest)) :
    cs = braced block ++ rest ∧ ∀ b ∈ block, '}' ∉ b := by
  unfold readBlock? at h
  split at h
  · rename_i body
    split at h
    · rename_i hmem
      obtain ⟨front, after, rfl, hfront⟩ := List.eq_append_cons_of_mem hmem
      rw [Text.takeWhile_split hfront, Text.dropWhile_split hfront] at h
      cases h
      exact ⟨by simp [braced], fun b hb => Option.some.inj hb ▸ hfront⟩
    · cases h
  · cases h
    exact ⟨rfl, fun b hb => by cases hb⟩

/-- The value is the longest run of its characters behind the gap. -/
theorem readValue?_gap {gap token rest : List Char} (hgap : gap ≠ [])
    (hblank : ∀ c ∈ gap, isBlank c = true) (htoken : token ≠ [])
    (hparts : ∀ c ∈ token, isValuePart c = true)
    (hends : ∀ c ∈ rest.head?, isValuePart c = false) :
    readValue? (gap ++ (token ++ rest)) = Number.read? token := by
  obtain ⟨c, gap', rfl⟩ := List.exists_cons_of_ne_nil hgap
  obtain ⟨d, token', rfl⟩ := List.exists_cons_of_ne_nil htoken
  have hc : isBlank c = true := hblank c List.mem_cons_self
  have hd : isBlank d = false := isBlank_of_isValuePart (hparts d List.mem_cons_self)
  have hstart : trimStart (gap' ++ (d :: token' ++ rest)) = d :: token' ++ rest := by
    have hgap' := Text.trimStart_of_blank fun e he => hblank e (List.mem_cons_of_mem c he)
    rw [Text.trimStart_append, if_pos hgap']
    exact Text.trimStart_cons_of_not_blank hd _
  rw [List.cons_append, readValue?, if_pos hc, hstart, Text.takeWhile_run hparts hends]

theorem exists_of_readValue? {cs : List Char} {value : Float} (h : readValue? cs = some value) :
    ∃ gap token rest, cs = gap ++ (token ++ rest) ∧ gap ≠ [] ∧ (∀ c ∈ gap, isBlank c = true) ∧
      (∀ c ∈ token, isValuePart c = true) ∧ Number.read? token = some value ∧
      ∀ c ∈ rest.head?, isValuePart c = false := by
  cases cs with
  | nil => cases h
  | cons c cs =>
    rw [readValue?] at h
    split at h
    · rename_i hc
      refine ⟨c :: cs.takeWhile isBlank, (trimStart cs).takeWhile isValuePart,
        (trimStart cs).dropWhile isValuePart, ?_, List.cons_ne_nil _ _, ?_, ?_, h, ?_⟩
      · rw [List.takeWhile_append_dropWhile, trimStart, List.cons_append,
          List.takeWhile_append_dropWhile]
      · exact List.forall_mem_cons.mpr ⟨hc, fun d hd => List.mem_takeWhile_imp hd⟩
      · exact fun d hd => List.mem_takeWhile_imp hd
      · intro d hd
        have := List.head?_dropWhile_not isValuePart (trimStart cs)
        rw [Option.mem_def.mp hd] at this
        simpa using this
    · cases h

namespace Parts

theorem readName?_text (p : Parts) :
    readName? p.text = some (p.name, braced p.block ++ (p.gap ++ (p.token ++ p.rest))) := by
  obtain ⟨c, gap, hgap⟩ := List.exists_cons_of_ne_nil p.gap_ne_nil
  have hc : isBlank c = true := p.blank c (hgap ▸ List.mem_cons_self)
  rw [text]
  cases p.block with
  | none =>
    rw [hgap]
    exact Text.readName?_append p.isName (isNamePart_of_isBlank hc) _
  | some block => exact Text.readName?_append p.isName (by decide) _

theorem readBlock?_afterName (p : Parts) :
    readBlock? (braced p.block ++ (p.gap ++ (p.token ++ p.rest))) =
      some (p.block, p.gap ++ (p.token ++ p.rest)) := by
  obtain ⟨c, gap, hgap⟩ := List.exists_cons_of_ne_nil p.gap_ne_nil
  have hc : isBlank c = true := p.blank c (hgap ▸ List.mem_cons_self)
  refine readBlock?_braced p.unbraced ?_
  rw [hgap]
  rintro ⟨⟩
  exact absurd hc (by decide)

theorem read?_text (p : Parts) : read? p.text = some p.line := by
  have hvalue : readValue? (p.gap ++ (p.token ++ p.rest)) = some p.value := by
    rw [readValue?_gap p.gap_ne_nil p.blank (ne_nil_of_read? p.reads) p.valueParts p.ends, p.reads]
  simp only [read?, p.readName?_text, p.readBlock?_afterName, hvalue, Option.bind_eq_bind,
    Option.bind_some]
  rfl

theorem exists_of_read? {cs : List Char} {line : DataLine} (h : read? cs = some line) :
    ∃ p : Parts, p.text = cs ∧ p.line = line := by
  simp only [read?, Option.bind_eq_bind, Option.bind_eq_some_iff, Prod.exists] at h
  obtain ⟨name, after, hname, block, rest', hblock, value, hvalue, hline⟩ := h
  obtain ⟨c, tail, rfl, hc, rfl, rfl⟩ := Text.readName?_eq_some_iff.mp hname
  obtain ⟨hafter, hunbraced⟩ := eq_braced_of_readBlock? hblock
  obtain ⟨gap, token, rest, rfl, hgap, hblank, hparts, hreads, hends⟩ := exists_of_readValue? hvalue
  refine ⟨⟨_, block, gap, token, rest, value, Text.isName_of_readName? hname, hunbraced, hgap,
    hblank, hparts, hreads, hends⟩, ?_, ?_⟩
  · rw [text, ← hafter, List.cons_append, List.takeWhile_append_dropWhile]
  · cases hline
    rfl

end Parts

/-- **A line reads exactly if it falls into parts**, and then it says what they say. -/
theorem read?_eq_some_iff {cs : List Char} {line : DataLine} :
    read? cs = some line ↔ ∃ p : Parts, p.text = cs ∧ p.line = line := by
  refine ⟨Parts.exists_of_read?, ?_⟩
  rintro ⟨p, rfl, rfl⟩
  exact p.read?_text

/-! ## The line in a text -/

namespace Parts

/-- A line starts with a letter, an underscore or a colon. -/
theorem text_eq_cons (p : Parts) : ∃ c tail, p.text = c :: tail ∧ isNameStart c = true := by
  obtain ⟨c, parts, hname, hc, -⟩ := Text.isName_iff.mp p.isName
  refine ⟨c, parts ++ (braced p.block ++ (p.gap ++ (p.token ++ p.rest))), ?_, hc⟩
  rw [text, hname, List.cons_append]

theorem isComment_text (p : Parts) : Text.isComment p.text = false := by
  obtain ⟨c, tail, htext, hc⟩ := p.text_eq_cons
  have : c ≠ '#' := by
    rintro rfl
    exact absurd hc (by decide)
  simpa [Text.isComment, htext] using this

theorem trimStart_text (p : Parts) : trimStart p.text = p.text := by
  obtain ⟨c, tail, htext, hc⟩ := p.text_eq_cons
  have hblank : isBlank c = false := isBlank_of_isNamePart (isNamePart_of_isNameStart c hc)
  rw [htext, Text.trimStart_cons_of_not_blank hblank]

/-- The same parts with another text behind the value. -/
def follow (p : Parts) (rest : List Char) (h : ∀ c ∈ rest.head?, DataLine.isValuePart c = false) :
    Parts := { p with rest := rest, ends := h }

/-- The text of the parts up to the value ends where the value ends. -/
theorem trimEnd_front (p : Parts) :
    trimEnd (p.name ++ (braced p.block ++ (p.gap ++ p.token))) =
      p.name ++ (braced p.block ++ (p.gap ++ p.token)) := by
  have hne : p.token ≠ [] := ne_nil_of_read? p.reads
  have hlast := isBlank_of_isValuePart (p.valueParts _ (List.getLast_mem hne))
  have htoken : trimEnd p.token = p.token := by
    have := Text.trimEnd_concat_of_not_blank hlast p.token.dropLast
    rwa [List.dropLast_concat_getLast] at this
  simp only [Text.trimEnd_append, htoken, if_neg hne]
  simp [hne]

theorem ends_trimEnd (p : Parts) :
    ∀ c ∈ (trimEnd p.rest).head?, DataLine.isValuePart c = false := by
  intro c hc
  obtain ⟨tail, hsplit⟩ := Text.trimEnd_isPrefix p.rest
  refine p.ends c ?_
  rw [← hsplit, List.head?_append, Option.mem_def.mp hc]
  rfl

/-- **Trimming takes nothing off a line** but what follows the value. -/
theorem trim_text (p : Parts) : trim p.text = (p.follow (trimEnd p.rest) p.ends_trimEnd).text := by
  have hsplit (rest : List Char) : p.name ++ (braced p.block ++ (p.gap ++ (p.token ++ rest))) =
      p.name ++ (braced p.block ++ (p.gap ++ p.token)) ++ rest := by simp
  rw [trim, trimStart_text, text, text, hsplit, Text.trimEnd_append, trimEnd_front]
  change _ = p.name ++ (braced p.block ++ (p.gap ++ (p.token ++ trimEnd p.rest)))
  rw [hsplit]
  split
  · rename_i hrest
    rw [hrest, List.append_nil]
  · rfl

end Parts

end DataLine

namespace Line

theorem read_eq_data_iff {cs : List Char} {line : DataLine} :
    read cs = .data line ↔ DataLine.read? (trim cs) = some line := by
  rw [read_eq]
  constructor
  · intro h
    split at h
    · cases h
    split at h
    · cases h
    cases hread : DataLine.read? (trim cs) with
    | none => rw [hread] at h; cases h
    | some line => rw [hread] at h; cases h; rfl
  · intro h
    obtain ⟨p, hp, hline⟩ := DataLine.read?_eq_some_iff.mp h
    obtain ⟨c, tail, htext, -⟩ := p.text_eq_cons
    have hne : trim cs ≠ [] := by
      rw [← hp, htext]
      exact List.cons_ne_nil c tail
    have hcomment : ¬ Text.isComment (trim cs) = true := by
      rw [← hp, p.isComment_text]
      exact Bool.false_ne_true
    rw [if_neg hne, if_neg hcomment, h]
    rfl

/-- **A line made of parts is read for what they say.** -/
theorem read_text (p : DataLine.Parts) : read p.text = .data p.line := by
  rw [read_eq_data_iff, p.trim_text, DataLine.Parts.read?_text]
  rfl

theorem read_congr {cs ds : List Char} (h : trim cs = trim ds) : read cs = read ds := by
  rw [read_eq, read_eq, h]

/-- **What follows the value of a line is not looked at** if it does not continue the value. -/
theorem read_append {cs suffix : List Char} {line : DataLine} (h : read cs = .data line)
    (hsuffix : ∀ c ∈ suffix.head?, DataLine.isValuePart c = false) :
    read (cs ++ suffix) = .data line := by
  obtain ⟨p, hp, rfl⟩ := DataLine.read?_eq_some_iff.mp (read_eq_data_iff.mp h)
  obtain ⟨blanks, hblanks, hsplit⟩ := Text.exists_eq_trimEnd_append (trimStart cs)
  -- blanks that trimming took off the line stand between its rest and the suffix now
  have hends : ∀ c ∈ (p.rest ++ (blanks ++ suffix)).head?, DataLine.isValuePart c = false := by
    intro c hc
    rw [List.head?_append, List.head?_append, Option.mem_def, Option.or_eq_some_iff] at hc
    rcases hc with hc | ⟨-, hc⟩
    · exact p.ends c hc
    rw [Option.or_eq_some_iff] at hc
    rcases hc with hc | ⟨-, hc⟩
    · exact DataLine.isValuePart_of_isBlank (hblanks c (List.mem_of_head? hc))
    · exact hsuffix c hc
  have hstart : trimStart cs = p.text ++ blanks := by
    rw [hsplit, hp]
    rfl
  have hne : trimStart cs ≠ [] := by
    obtain ⟨c, tail, htext, -⟩ := p.text_eq_cons
    rw [hstart, htext]
    exact List.cons_ne_nil _ _
  have htext : trimStart (cs ++ suffix) = (p.follow _ hends).text := by
    rw [Text.trimStart_append, if_neg hne, hstart]
    simp [DataLine.Parts.text, DataLine.Parts.follow]
  have hread : read (cs ++ suffix) = read (p.follow _ hends).text := by
    rw [← htext]
    exact read_congr (Text.trim_trimStart _).symm
  rw [hread, read_text]
  rfl

end Line

end Bottleneck
