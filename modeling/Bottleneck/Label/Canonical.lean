import Bottleneck.Label.Basic

/-!
The written form of a label set: `a="1",b="2"`. Inside a value the backslash, the quote and the line
feed are escaped, so a value ends at the first quote that no backslash precedes.
-/

namespace Bottleneck.Label

/-- Put a text in the place of every occurrence of a character. -/
def substitute (c : Char) (text value : List Char) : List Char :=
  value.flatMap fun d => if d = c then text else [d]

/-- The backslashes come first, for the other two substitutions bring in more. -/
def escape (value : List Char) : List Char :=
  substitute '\n' ['\\', 'n'] (substitute '"' ['\\', '"'] (substitute '\\' ['\\', '\\'] value))

def escapeChar (c : Char) : List Char :=
  if c = '\\' then ['\\', '\\']
  else if c = '"' then ['\\', '"']
  else if c = '\n' then ['\\', 'n']
  else [c]

/-- What an escape stands for is decided by one character. -/
theorem escape_eq_flatMap (value : List Char) : escape value = value.flatMap escapeChar := by
  simp only [escape, substitute, List.flatMap_assoc]
  congr 1
  funext c
  unfold escapeChar
  by_cases hslash : c = '\\'
  · subst hslash
    rfl
  by_cases hquote : c = '"'
  · subst hquote
    rfl
  by_cases hfeed : c = '\n'
  · subst hfeed
    rfl
  · simp [hslash, hquote, hfeed]

/-- One pair in written form. -/
def written (label : Label) : List Char :=
  label.name.toList ++ '=' :: '"' :: (escape label.value.toList ++ ['"'])

/-- The labels in the order given, separated by commas. -/
def canonical (labels : List Label) : String :=
  .ofList ([','].intercalate (labels.map written))

/-- No written value holds a line feed. -/
theorem lineFeed_notMem_escape (value : List Char) : '\n' ∉ escape value := by
  simp only [escape_eq_flatMap, List.mem_flatMap, not_exists, not_and]
  intro c _
  unfold escapeChar
  split
  · decide
  · split
    · decide
    · split
      · decide
      · simpa using fun h => (by assumption : ¬ c = '\n') h.symm

end Bottleneck.Label
