/-!
Looking for one text inside another. A pattern occurs in a text when it stands there as one piece;
patterns have no wildcards.
-/

namespace Bottleneck.Text

/-- A pattern occurs if it starts the text or occurs further on. -/
def isInfix (pattern : List Char) : List Char → Bool
  | [] => pattern.isEmpty
  | c :: cs => pattern.isPrefixOf (c :: cs) || isInfix pattern cs

/-- The empty pattern occurs in every text. -/
def occursIn (pattern text : String) : Bool := isInfix pattern.toList text.toList

theorem isInfix_iff {pattern text : List Char} :
    isInfix pattern text = true ↔ pattern <:+: text := by
  induction text with
  | nil => simp [isInfix]
  | cons c cs ih => simp [isInfix, ih, List.infix_cons_iff]

theorem occursIn_iff {pattern text : String} :
    occursIn pattern text = true ↔ pattern.toList <:+: text.toList := isInfix_iff

/-- The first occurrence gives way to the replacement; without one the text stays as it is. -/
def replaceFirst (pattern replacement : List Char) : List Char → List Char
  | [] => if pattern.isEmpty then replacement else []
  | c :: cs =>
    if pattern.isPrefixOf (c :: cs) then replacement ++ (c :: cs).drop pattern.length
    else c :: replaceFirst pattern replacement cs

end Bottleneck.Text
