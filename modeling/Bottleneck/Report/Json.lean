/-!
The JSON texts that a report is made of: strings, arrays and objects, written on one line or over
several. Both layouts write the same value; they differ only in the blanks between its parts.
-/

namespace Bottleneck.Report

inductive Json where
  | string (s : String)
  | array (items : List Json)
  /-- The fields in the order in which they are written. -/
  | object (fields : List (String × Json))

namespace Json

/-- A character inside quotes. The quote, the backslash and the controls are escaped, and of the
controls those with a letter of their own by that letter. -/
def quoteChar (c : Char) : List Char :=
  if c = '"' then ['\\', '"']
  else if c = '\\' then ['\\', '\\']
  else if c = '\x08' then ['\\', 'b']
  else if c = '\t' then ['\\', 't']
  else if c = '\n' then ['\\', 'n']
  else if c = '\x0c' then ['\\', 'f']
  else if c = '\r' then ['\\', 'r']
  else if c.toNat < 0x20 then
    ['\\', 'u', '0', '0', Nat.digitChar (c.toNat / 16), Nat.digitChar (c.toNat % 16)]
  else [c]

def quote (s : String) : List Char := '"' :: (s.toList.flatMap quoteChar ++ ['"'])

/-- How the parts of a value are set apart. -/
structure Layout where
  /-- What stands before a part at that depth. -/
  margin : Nat → List Char
  afterColon : List Char

/-- Everything on one line without blanks. -/
def Layout.compact : Layout := ⟨fun _ => [], []⟩

/-- Every part on a line of its own, two more spaces in front at each depth. -/
def Layout.pretty : Layout := ⟨fun depth => '\n' :: List.replicate (2 * depth) ' ', [' ']⟩

/-- Written parts between brackets. Without parts the brackets stand together. -/
def enclose (l : Layout) (depth : Nat) (opening closing : Char) : List (List Char) → List Char
  | [] => [opening, closing]
  | parts =>
    opening :: (l.margin (depth + 1) ++ (',' :: l.margin (depth + 1)).intercalate parts ++
      l.margin depth ++ [closing])

mutual

def write (l : Layout) (depth : Nat) : Json → List Char
  | .string s => quote s
  | .array items => enclose l depth '[' ']' (writeItems l (depth + 1) items)
  | .object fields => enclose l depth '{' '}' (writeFields l (depth + 1) fields)

def writeItems (l : Layout) (depth : Nat) : List Json → List (List Char)
  | [] => []
  | item :: items => write l depth item :: writeItems l depth items

def writeFields (l : Layout) (depth : Nat) : List (String × Json) → List (List Char)
  | [] => []
  | (key, value) :: fields =>
    (quote key ++ ':' :: l.afterColon ++ write l depth value) :: writeFields l depth fields

end

def compact (j : Json) : String := .ofList (j.write .compact 0)

def pretty (j : Json) : String := .ofList (j.write .pretty 0)

end Json

end Bottleneck.Report
