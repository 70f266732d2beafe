import Bottleneck.Number.Decimal
import Bottleneck.Text.Name

/-!
The lines of a snapshot. After trimming, a data line is a metric name, a label block in braces
directly after it if there is one, at least one blank, and a value; what follows the value, such as
a timestamp, is not looked at. Any other line is blank, a comment or unrecognised, and no line is
an error.
-/

namespace Bottleneck

open Text (isBlank trim trimStart)

/-- What a data line says. -/
structure DataLine where
  name : String
  /-- The text between the braces, if there are any. -/
  block : Option String
  value : Float
deriving DecidableEq

/-- A line that is not blank starts a comment with `#`. -/
inductive Line where
  | blank
  | comment
  | data (line : DataLine)
  | unrecognised
deriving DecidableEq

namespace DataLine

def isNameStart (c : Char) : Bool := c.isAlpha || c == '_' || c == ':'

def isNamePart (c : Char) : Bool := c.isAlphanum || c == '_' || c == ':' || c == '.'

/-- A metric name is one start character and then parts; both classes are ASCII. -/
def isName (cs : List Char) : Bool := Text.isName isNameStart isNamePart cs

/-- The characters that a value is made of; a value is the longest run of them. -/
def isValuePart (c : Char) : Bool :=
  c.isDigit || c == '.' || c == '+' || c == '-' || c == 'e' || c == 'E'

/-- The longest metric name in front, and the text after it. -/
def readName? (cs : List Char) : Option (List Char × List Char) :=
  Text.readName? isNameStart isNamePart cs

/-- The label block in front, which runs to the first closing brace, and the text after it. An
opening brace that nothing closes spoils the line. -/
def readBlock? : List Char → Option (Option (List Char) × List Char)
  | '{' :: cs =>
    if '}' ∈ cs then some (some (cs.takeWhile (· ≠ '}')), (cs.dropWhile (· ≠ '}')).drop 1) else none
  | cs => some (none, cs)

/-- The value after at least one blank. -/
def readValue? : List Char → Option Float
  | [] => none
  | c :: cs =>
    if isBlank c then Number.read? ((trimStart cs).takeWhile isValuePart) else none

/-- What a trimmed line says, if it is a data line. -/
def read? (cs : List Char) : Option DataLine := do
  let (name, cs) ← readName? cs
  let (block, cs) ← readBlock? cs
  let value ← readValue? cs
  return ⟨.ofList name, block.map .ofList, value⟩

/-- The label block; a line without one counts as one with an empty block. -/
def rawLabels (line : DataLine) : String := line.block.getD ""

end DataLine

namespace Line

/-- The sort of a line, which is first trimmed. -/
def read (cs : List Char) : Line :=
  match trim cs with
  | [] => .blank
  | '#' :: _ => .comment
  | cs =>
    match DataLine.read? cs with
    | some line => .data line
    | none => .unrecognised

/-- The lines of a text. They end at line feeds only: a carriage return before one is a blank at
the end of its line, which trimming removes. -/
def all (text : String) : List Line := (text.toList.splitOn '\n').map read

def data? : Line → Option DataLine
  | .data line => some line
  | _ => none

end Line

end Bottleneck
