import Bottleneck.Proofs.Label.RoundTrip
import Bottleneck.Snapshot.Basic

/-!
When two lines belong to one series. A key is the metric name with either the written form of the
sorted labels or, for a block that the grammar does not spell, its trimmed text. The first is
injective because a written set reads back; the two never meet because a written set reads, and a
block that reads when it is trimmed reads as it stands. Main statement: `DataLine.key_eq_iff`.
-/

namespace Bottleneck

open Text (isBlank trim)

namespace Label

/-- The grammar spells both blocks, and they list the same labels, each as often. -/
def SameLabels (r₁ r₂ : String) : Prop :=
  ∃ s₁ s₂ : Spelling, s₁.text = r₁.toList ∧ s₂.text = r₂.toList ∧ s₁.labels.Perm s₂.labels

/-- The grammar has no spelling for the block. -/
def Refused (raw : String) : Prop := ¬ ∃ s : Spelling, s.text = raw.toList

/-- The grammar spells neither block, and both have the same text between the blanks around it. -/
def SameSpoiled (r₁ r₂ : String) : Prop :=
  Refused r₁ ∧ Refused r₂ ∧ trim r₁.toList = trim r₂.toList

theorem not_refused_of_reads {raw : String} {labels : List Label}
    (h : readPairs raw.toList = .ok labels) : ¬ Refused raw := by
  obtain ⟨s, htext, -⟩ := readPairs_eq_ok_iff_spelled.mp h
  exact not_not_intro ⟨s, htext⟩

theorem refused_iff {raw : String} : Refused raw ↔ ∃ e, readPairs raw.toList = .error e := by
  cases hread : readPairs raw.toList with
  | ok labels => simp [not_refused_of_reads hread]
  | error e =>
    refine iff_of_true ?_ ⟨e, rfl⟩
    rintro ⟨s, htext⟩
    have hspelled := readPairs_eq_ok_iff_spelled.mpr ⟨s, htext, rfl⟩
    rw [hread] at hspelled
    cases hspelled

/-- What the grammar does not spell is malformed. -/
theorem refused_iff_parseBlock {raw : String} : Refused raw ↔ ∃ e, parseBlock raw = .error e := by
  rw [refused_iff, parseBlock]
  cases readPairs raw.toList <;> simp [Functor.map, Except.map]

theorem reads_or_refused (raw : String) :
    (∃ labels, readPairs raw.toList = .ok labels) ∨ Refused raw := by
  rw [refused_iff]
  cases readPairs raw.toList with
  | ok labels => exact .inl ⟨labels, rfl⟩
  | error e => exact .inr ⟨e, rfl⟩

theorem sameLabels_iff {r₁ r₂ : String} {xs ys : List Label} (hxs : readPairs r₁.toList = .ok xs)
    (hys : readPairs r₂.toList = .ok ys) : SameLabels r₁ r₂ ↔ xs.Perm ys := by
  have hunique {raw : String} {labels : List Label} {s : Spelling}
      (hread : readPairs raw.toList = .ok labels) (htext : s.text = raw.toList) :
      s.labels = labels := by
    have hspelled := readPairs_eq_ok_iff_spelled.mpr ⟨s, htext, rfl⟩
    rwa [hread, Except.ok.injEq, eq_comm] at hspelled
  constructor
  · rintro ⟨s₁, s₂, htext₁, htext₂, h⟩
    rwa [hunique hxs htext₁, hunique hys htext₂] at h
  · intro h
    obtain ⟨s₁, htext₁, rfl⟩ := readPairs_eq_ok_iff_spelled.mp hxs
    obtain ⟨s₂, htext₂, rfl⟩ := readPairs_eq_ok_iff_spelled.mp hys
    exact ⟨s₁, s₂, htext₁, htext₂, h⟩

theorem not_sameLabels_of_refused {r₁ r₂ : String} (h : Refused r₁ ∨ Refused r₂) :
    ¬ SameLabels r₁ r₂ := by
  rintro ⟨s₁, s₂, htext₁, htext₂, -⟩
  rcases h with h | h
  · exact h ⟨s₁, htext₁⟩
  · exact h ⟨s₂, htext₂⟩

theorem sameSpoiled_iff {r₁ r₂ : String} (h₁ : Refused r₁) (h₂ : Refused r₂) :
    SameSpoiled r₁ r₂ ↔ trim r₁.toList = trim r₂.toList :=
  ⟨fun h => h.2.2, fun h => ⟨h₁, h₂, h⟩⟩

/-- The text of a refused block is no written form, not even when it is trimmed. -/
theorem canonical_ne_trim {labels : List Label} {raw : String} (h : Named labels)
    (hraw : Refused raw) : canonical labels ≠ .ofList (trim raw.toList) := by
  intro heq
  obtain ⟨e, herror⟩ := refused_iff.mp hraw
  have hread := readPairs_canonical h
  rw [heq, String.toList_ofList] at hread
  have := readPairs_of_trim hread
  rw [herror] at this
  cases this

end Label

theorem labelsOfBlock_of_readPairs {raw : String} {listed : List Label}
    (h : Label.readPairs raw.toList = .ok listed) : labelsOfBlock raw = Label.sort listed := by
  rw [labelsOfBlock, Label.parseBlock_eq_ok_iff.mpr ⟨listed, h, rfl⟩]

theorem labelsOfBlock_of_refused {raw : String} (h : Label.Refused raw) :
    labelsOfBlock raw = [] := by
  obtain ⟨e, herror⟩ := Label.refused_iff_parseBlock.mp h
  rw [labelsOfBlock, herror]

namespace SeriesKey

open Label (readPairs Refused sort canonical)

theorem of_of_readPairs {raw : String} {labels : List Label}
    (h : readPairs raw.toList = .ok labels) (name : String) :
    of name raw = ⟨name, canonical (sort labels)⟩ := by
  have hparse := Label.parseBlock_eq_ok_iff.mpr ⟨labels, h, rfl⟩
  rw [of, hparse]

theorem of_of_refused {raw : String} (h : Refused raw) (name : String) :
    of name raw = ⟨name, .ofList (trim raw.toList)⟩ := by
  obtain ⟨e, herror⟩ := Label.refused_iff_parseBlock.mp h
  rw [of, herror]

theorem of_eq_of_accepted {n₁ n₂ r₁ r₂ : String} {xs ys : List Label}
    (hxs : readPairs r₁.toList = .ok xs) (hys : readPairs r₂.toList = .ok ys) :
    of n₁ r₁ = of n₂ r₂ ↔ n₁ = n₂ ∧ xs.Perm ys := by
  have hx := Label.named_sort (Label.named_of_readPairs hxs)
  have hy := Label.named_sort (Label.named_of_readPairs hys)
  rw [of_of_readPairs hxs, of_of_readPairs hys, SeriesKey.mk.injEq, Label.canonical_inj hx hy,
    Label.sort_eq_sort_iff]

theorem of_eq_of_refused {n₁ n₂ r₁ r₂ : String} (h₁ : Refused r₁) (h₂ : Refused r₂) :
    of n₁ r₁ = of n₂ r₂ ↔ n₁ = n₂ ∧ trim r₁.toList = trim r₂.toList := by
  rw [of_of_refused h₁, of_of_refused h₂, SeriesKey.mk.injEq, String.ofList_inj]

theorem of_ne_of_accepted_of_refused {n₁ n₂ r₁ r₂ : String} {xs : List Label}
    (hxs : readPairs r₁.toList = .ok xs) (h₂ : Refused r₂) : of n₁ r₁ ≠ of n₂ r₂ := by
  rw [of_of_readPairs hxs, of_of_refused h₂]
  intro h
  have hx := Label.named_sort (Label.named_of_readPairs hxs)
  exact Label.canonical_ne_trim hx h₂ (SeriesKey.mk.inj h).2

theorem of_eq_iff (n₁ n₂ r₁ r₂ : String) :
    of n₁ r₁ = of n₂ r₂ ↔ n₁ = n₂ ∧ (Label.SameLabels r₁ r₂ ∨ Label.SameSpoiled r₁ r₂) := by
  rcases Label.reads_or_refused r₁ with ⟨xs, hxs⟩ | h₁
  · have hspoiled : ¬ Label.SameSpoiled r₁ r₂ := fun h => Label.not_refused_of_reads hxs h.1
    rcases Label.reads_or_refused r₂ with ⟨ys, hys⟩ | h₂
    · rw [of_eq_of_accepted hxs hys, Label.sameLabels_iff hxs hys, or_iff_left hspoiled]
    · have hlabels : ¬ Label.SameLabels r₁ r₂ := Label.not_sameLabels_of_refused (.inr h₂)
      simp [of_ne_of_accepted_of_refused hxs h₂, hspoiled, hlabels]
  · have hlabels : ¬ Label.SameLabels r₁ r₂ := Label.not_sameLabels_of_refused (.inl h₁)
    rcases Label.reads_or_refused r₂ with ⟨ys, hys⟩ | h₂
    · have hspoiled : ¬ Label.SameSpoiled r₁ r₂ := fun h => Label.not_refused_of_reads hys h.2.1
      simp [(of_ne_of_accepted_of_refused hys h₁).symm, hspoiled, hlabels]
    · rw [of_eq_of_refused h₁ h₂, Label.sameSpoiled_iff h₁ h₂, or_iff_right hlabels]

end SeriesKey

/-- **When two lines belong to one series**: they have one metric name, and their blocks either are
spelled and list the same labels or are not spelled and are the same text when trimmed. So a
spoiled block never passes for a set of labels, and with no block, an empty one or one of blanks the
name alone is the series. -/
theorem DataLine.key_eq_iff (a b : DataLine) :
    (a.toSample.key = b.toSample.key ↔
        a.name = b.name ∧ (Label.SameLabels a.rawLabels b.rawLabels ∨
          Label.SameSpoiled a.rawLabels b.rawLabels)) ∧
      (Label.Refused a.rawLabels → ¬ Label.Refused b.rawLabels →
        a.toSample.key ≠ b.toSample.key) ∧
      ((∀ c ∈ a.rawLabels.toList, isBlank c = true) →
        (∀ c ∈ b.rawLabels.toList, isBlank c = true) →
        (a.toSample.key = b.toSample.key ↔ a.name = b.name)) := by
  refine ⟨SeriesKey.of_eq_iff .., fun ha hb => ?_, fun ha hb => ?_⟩
  · obtain ⟨ys, hys⟩ := (Label.reads_or_refused b.rawLabels).resolve_right hb
    exact (SeriesKey.of_ne_of_accepted_of_refused hys ha).symm
  · have hkeys : a.toSample.key = b.toSample.key ↔ a.name = b.name ∧ ([] : List Label).Perm [] :=
      SeriesKey.of_eq_of_accepted (Label.readPairs_of_blank ha) (Label.readPairs_of_blank hb)
    exact hkeys.trans (and_iff_left (List.Perm.refl []))

end Bottleneck
