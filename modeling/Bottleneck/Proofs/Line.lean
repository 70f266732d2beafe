import Bottleneck.Proofs.LineParts

/-!
Data lines that were written: a metric name, a block in braces if there is one, a blank and a value.
Such a line holds nothing but its parts, so it reads back as these (`Line.read_spelled`), and it is
one line of a text as long as its block has no line feed (`DataLine.lineFeed_notMem_spelled`).
-/

namespace Bottleneck

namespace DataLine

def spelled (name : List Char) (block : Option (List Char)) (token : List Char) : List Char :=
  name ++ (braced block ++ ' ' :: token)

/-- A line with a block. -/
def written (name block token : List Char) : List Char :=
  name ++ '{' :: (block ++ '}' :: ' ' :: token)

variable {name token : List Char} {block : Option (List Char)}

theorem written_eq_spelled (name block token : List Char) :
    written name block token = spelled name (some block) token := by
  simp [written, spelled, braced]

theorem lineFeed_notMem_braced (h : ∀ b ∈ block, '\n' ∉ b) : '\n' ∉ braced block := by
  cases block with
  | none => exact List.not_mem_nil
  | some block => simp [braced, h block rfl]

theorem lineFeed_notMem_spelled (hname : isName name = true) (hblock : ∀ b ∈ block, '\n' ∉ b)
    (htoken : ∀ c ∈ token, isValuePart c = true) : '\n' ∉ spelled name block token := by
  have hname' : '\n' ∉ name := fun h =>
    absurd (Text.part_of_isName isNamePart_of_isNameStart hname _ h) (by decide)
  have htoken' : '\n' ∉ token := fun h => absurd (htoken _ h) (by decide)
  simp [spelled, hname', lineFeed_notMem_braced hblock, htoken']

end DataLine

/-- **A written line is read for what it says.** -/
theorem Line.read_spelled {name token : List Char} {block : Option (List Char)} {value : Float}
    (hname : DataLine.isName name = true) (hblock : ∀ b ∈ block, '}' ∉ b)
    (htoken : ∀ c ∈ token, DataLine.isValuePart c = true)
    (hvalue : Number.read? token = some value) :
    read (DataLine.spelled name block token) =
      .data ⟨.ofList name, block.map .ofList, value⟩ := by
  let parts : DataLine.Parts :=
    { name, block, token, value
      gap := [' ']
      rest := []
      isName := hname
      unbraced := hblock
      gap_ne_nil := List.cons_ne_nil _ _
      blank := List.forall_mem_singleton.mpr (by decide)
      valueParts := htoken
      reads := hvalue
      ends := fun c hc => by cases hc }
  have htext : parts.text = DataLine.spelled name block token := by
    simp [parts, DataLine.Parts.text, DataLine.spelled]
  rw [← htext, read_text]
  rfl

end Bottleneck
