import Bottleneck.Text.Blank

/-!
Searching a label block that does not read as a whole. The text `name="` counts where it starts the
block or follows a comma or a blank, and its value runs to the next quote; escapes are not known
here. Candidates are tried from left to right, and each starts after the end of the one before.
-/

namespace Bottleneck.Label

open Text (isBlank)

/-- A name may start the block or follow a comma or a blank. -/
def isBoundary : Option Char → Bool
  | none => true
  | some c => c == ',' || isBlank c

/-- The text up to the next quote, if there is one. -/
def upToQuote (cs : List Char) : Option (List Char) :=
  if '"' ∈ cs then some (cs.takeWhile (· ≠ '"')) else none

/-- The value at the first candidate that has one. `before` is the character in front of the text,
and `skip` counts the characters that still belong to the last candidate. -/
def scanFrom (needle : List Char) (before : Option Char) (skip : Nat) :
    List Char → Option (List Char)
  | [] => none
  | c :: cs =>
    match skip with
    | skip + 1 => scanFrom needle (some c) skip cs
    | 0 =>
      if needle.isPrefixOf (c :: cs) then
        let value := if isBoundary before then upToQuote ((c :: cs).drop needle.length) else none
        value <|> scanFrom needle (some c) (needle.length - 1) cs
      else scanFrom needle (some c) 0 cs

/-- The value that a spoiled block gives to a name. -/
def scan (raw name : String) : Option String :=
  (scanFrom (name.toList ++ ['=', '"']) none 0 raw.toList).map .ofList

end Bottleneck.Label
