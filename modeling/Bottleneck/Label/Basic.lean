import Bottleneck.Text.Name

/-!
Labels: the `name="value"` pairs that tell the series of one metric apart. A label set is a list in
which names may repeat; looking a name up finds its first pair.
-/

namespace Bottleneck

structure Label where
  name : String
  value : String
deriving DecidableEq, Repr, Inhabited

namespace Label

def isNameStart (c : Char) : Bool := c.isAlpha || c == '_'

def isNamePart (c : Char) : Bool := c.isAlphanum || c == '_'

/-- A label name is one start character and then parts; both classes are ASCII. -/
def isName (cs : List Char) : Bool := Text.isName isNameStart isNamePart cs

/-- The label that carries a bucket's upper bound. -/
def le : String := "le"

/-- Labels are ordered by name, those of one name by value, both by code point. -/
def precedes (a b : Label) : Bool :=
  decide (a.name < b.name) || (a.name == b.name && decide (a.value ≤ b.value))

/-- Sorting makes two blocks that list the same labels in different orders equal. -/
def sort (labels : List Label) : List Label := labels.mergeSort precedes

/-- The value of the first label of that name. -/
def find? (labels : List Label) (name : String) : Option String :=
  (labels.find? (·.name == name)).map (·.value)

theorem perm_sort (labels : List Label) : (sort labels).Perm labels :=
  List.mergeSort_perm labels precedes

end Label

end Bottleneck
