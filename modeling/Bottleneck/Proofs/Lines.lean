import Bottleneck.Proofs.Log

/-!
Texts as lists of lines. A text is the lines between its line feeds, and any lines without line feeds
make a text (`Text.pieces_ofPieces`), whose snapshot is that of the lines (`Snapshot.parse_ofPieces`).
What a snapshot holds comes from its data lines alone (`Snapshot.ofLines_eq_foldl`).
-/

namespace Bottleneck

open Text (trim trimStart trimEnd)

namespace Text

/-- The lines of a text. They end at line feeds, so that a text without any is one line. -/
def pieces (text : String) : List (List Char) := text.toList.splitOn '\n'

/-- The text of these lines, with line feeds between them. -/
def ofPieces (lines : List (List Char)) : String := .ofList (['\n'].intercalate lines)

theorem pieces_ofPieces {lines : List (List Char)} (hne : lines ≠ [])
    (h : ∀ line ∈ lines, '\n' ∉ line) : pieces (ofPieces lines) = lines := by
  rw [pieces, ofPieces, String.toList_ofList, List.splitOn_intercalate _ h hne]

theorem pieces_append (a b : String) : pieces (a ++ "\n" ++ b) = pieces a ++ pieces b := by
  have htext : (a ++ "\n" ++ b).toList = a.toList ++ '\n' :: b.toList := by simp
  rw [pieces, htext, List.splitOn_append_cons_self]
  rfl

theorem lineFeed_notMem_of_mem_splitOn {cs line : List Char} (h : line ∈ cs.splitOn '\n') :
    '\n' ∉ line := by
  induction cs generalizing line with
  | nil =>
    rw [List.splitOn_nil, List.mem_singleton] at h
    exact h ▸ List.not_mem_nil
  | cons c cs ih =>
    obtain ⟨first, others, hcs⟩ := List.exists_cons_of_ne_nil (List.splitOn_ne_nil '\n' cs)
    rw [List.splitOn_cons_eq_if_modifyHead, hcs, List.modifyHead_cons] at h
    rw [hcs] at ih
    split at h
    · rcases List.mem_cons.mp h with rfl | h
      · exact List.not_mem_nil
      · exact ih h
    · rename_i hc
      rcases List.mem_cons.mp h with rfl | h
      · have hfirst := ih List.mem_cons_self
        rw [List.mem_cons, not_or]
        exact ⟨fun heq => hc (beq_iff_eq.mpr heq.symm), hfirst⟩
      · exact ih (List.mem_cons_of_mem first h)

theorem lineFeed_notMem_of_mem_pieces {text : String} {line : List Char} (h : line ∈ pieces text) :
    '\n' ∉ line := lineFeed_notMem_of_mem_splitOn h

theorem lineFeed_notMem_of_mem_lines {text : String} {line : List Char} (h : line ∈ lines text) :
    '\n' ∉ line := by
  have hpieces : ∀ piece ∈ text.toList.splitOn '\n', '\n' ∉ piece :=
    fun _ hpiece => lineFeed_notMem_of_mem_splitOn hpiece
  rw [lines] at h
  generalize text.toList.splitOn '\n' = pieces at h hpieces
  induction pieces using linesOfPieces.induct with
  | case1 => cases h
  | case2 => cases h
  | case3 last hlast =>
    rw [linesOfPieces, if_neg hlast] at h
    exact hpieces line h
  | case4 piece next rest ih =>
    obtain ⟨hpiece, hrest⟩ := List.forall_mem_cons.mp hpieces
    rcases List.mem_cons.mp h with rfl | hmem
    · intro hfeed
      unfold dropReturn at hfeed
      split at hfeed
      · exact hpiece (List.dropLast_subset piece hfeed)
      · exact hpiece hfeed
    · exact ih hmem hrest

theorem mem_of_mem_trim {c : Char} {cs : List Char} (h : c ∈ trim cs) : c ∈ cs :=
  (List.dropWhile_sublist isBlank).mem ((trimEnd_isPrefix (trimStart cs)).mem h)

end Text

theorem Line.all_eq_map (text : String) : all text = (Text.pieces text).map read := rfl

namespace Snapshot

/-- The snapshot of a text that was made of lines is that of the lines. -/
theorem parse_ofPieces {lines : List (List Char)} (h : ∀ line ∈ lines, '\n' ∉ line) :
    parse (Text.ofPieces lines) = ofLines (lines.map Line.read) := by
  cases lines with
  | nil => rfl
  | cons line lines =>
    rw [parse_eq_ofLines, Line.all_eq_map, Text.pieces_ofPieces (List.cons_ne_nil line lines) h]

/-- A line feed after the last line makes no difference. -/
theorem parse_append_lineFeed (text : String) : parse (text ++ "\n") = parse text := by
  have hpieces : Text.pieces (text ++ "\n") = Text.pieces text ++ [[]] := by
    have := Text.pieces_append text ""
    rwa [String.append_empty] at this
  rw [parse_eq_ofLines, Line.all_eq_map, hpieces, List.map_append, List.map_singleton,
    ofLines_concat]
  rfl

/-- What a run holds comes from its data lines. -/
theorem ofLines_eq_foldl (lines : List Line) :
    { ofLines lines with counts := {} } = (lines.filterMap Line.data?).foldl record {} := by
  induction lines using List.reverseRecOn with
  | nil => rfl
  | append_singleton lines line ih =>
    rw [ofLines_concat, List.filterMap_append, List.foldl_append, ← ih]
    cases line with
    | data data =>
      change { (ofLines lines).record data with counts := {} } = _
      simp only [record, List.filterMap_cons, List.filterMap_nil, Line.data?, List.foldl_cons,
        List.foldl_nil]
      split <;> rfl
    | _ => rfl

end Snapshot

end Bottleneck
