import Bottleneck.Proofs.LineParts

/-!
The shape of a data line. A name ends where a brace or a blank follows it, a block at its first
closing brace, a gap where a value starts, and a value where no character of values follows it; so a
line falls into its parts in one way only (`Parts.eq_of_text_eq`). Main statement: the lines that
read are the lines that fall into parts, and each says what its parts say (`DataLine.read?_shape`).
-/

namespace Bottleneck.DataLine

open Text (isBlank)

namespace Parts

/-- The gap ends where the value starts. -/
theorem isBlank_afterGap (p : Parts) : ∀ c ∈ (p.token ++ p.rest).head?, isBlank c = false := by
  obtain ⟨d, token, htoken⟩ := List.exists_cons_of_ne_nil (ne_nil_of_read? p.reads)
  intro c hc
  rw [htoken, List.cons_append, List.head?_cons, Option.mem_some] at hc
  subst hc
  exact isBlank_of_isValuePart (p.valueParts d (htoken ▸ List.mem_cons_self))

/-- **A line falls into parts in one way only.** -/
theorem eq_of_text_eq {p q : Parts} (h : p.text = q.text) : p = q := by
  have hnames := p.readName?_text
  rw [h, q.readName?_text, Option.some.injEq, Prod.mk.injEq] at hnames
  obtain ⟨hname, hblocks⟩ := hnames
  have hreads := p.readBlock?_afterName
  rw [← hblocks, q.readBlock?_afterName, Option.some.injEq, Prod.mk.injEq] at hreads
  obtain ⟨hblock, hgaps⟩ := hreads
  obtain ⟨hgap, htokens⟩ :=
    Text.run_inj hgaps q.blank q.isBlank_afterGap p.blank p.isBlank_afterGap
  obtain ⟨htoken, hrest⟩ := Text.run_inj htokens q.valueParts q.ends p.valueParts p.ends
  have hvalue : q.value = p.value := by
    have hread := q.reads
    rw [htoken, p.reads, Option.some.injEq] at hread
    exact hread.symm
  cases p
  cases q
  simp_all

end Parts

/-- **The shape of a data line**: a name, a block in braces directly after it or none, at least one
blank, a value, and anything that does not continue the value. Exactly the lines of this shape read;
a line has it in one way only, and what it says is what its parts say. -/
theorem read?_shape (cs : List Char) :
    (∀ line, read? cs = some line ↔ ∃ p : Parts, p.text = cs ∧ p.line = line) ∧
    (∀ p q : Parts, p.text = cs → q.text = cs → p = q) ∧
    (read? cs = none ↔ ∀ p : Parts, p.text ≠ cs) := by
  refine ⟨fun line => read?_eq_some_iff, fun p q hp hq => ?_, fun hnone p htext => ?_,
    fun hparts => ?_⟩
  · exact Parts.eq_of_text_eq (hp.trans hq.symm)
  · rw [← htext, p.read?_text] at hnone
    cases hnone
  · cases hread : read? cs with
    | none => rfl
    | some line =>
      obtain ⟨p, htext, -⟩ := read?_eq_some_iff.mp hread
      exact absurd htext (hparts p)

end Bottleneck.DataLine
