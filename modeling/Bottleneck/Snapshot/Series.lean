import Bottleneck.Label.Block
import Bottleneck.Label.Canonical
import Bottleneck.Label.Scan
import Bottleneck.Number.Decimal

/-!
What a snapshot holds: samples, which are single values of a series, and histograms, which are lists
of cumulative buckets. A series is known by its metric name and the written form of its sorted
labels. A label block that cannot be read does not lose its line: the trimmed block takes the place
of the labels, and a bucket's bound is looked up in the block as text.
-/

namespace Bottleneck

open Text (trim)

/-- The identity of a series. -/
structure SeriesKey where
  name : String
  /-- The sorted labels in written form, or the trimmed block if it could not be read. -/
  labels : String
deriving DecidableEq, Hashable, Repr

/-- The labels of a block; a block that cannot be read has none. -/
def labelsOfBlock (raw : String) : List Label :=
  match Label.parseBlock raw with
  | .ok labels => labels
  | .error _ => []

/-- The series that a line with this metric name and label block belongs to. -/
def SeriesKey.of (name raw : String) : SeriesKey :=
  match Label.parseBlock raw with
  | .ok labels => ⟨name, Label.canonical labels⟩
  | .error _ => ⟨name, .ofList (trim raw.toList)⟩

@[simp] theorem SeriesKey.name_of (name raw : String) : (SeriesKey.of name raw).name = name := by
  unfold SeriesKey.of
  split <;> rfl

/-- The value of a series, with the labels as the line gives them. -/
structure Sample where
  key : SeriesKey
  /-- The label block exactly as the line has it; empty if it has none. -/
  rawLabels : String
  labels : List Label
  value : Float
deriving DecidableEq

/-- The name of a series as patterns are matched against it: the metric name and, if there is
one, the label block in braces. -/
def Sample.composite (s : Sample) : String :=
  if s.rawLabels = "" then s.key.name
  else .ofList (s.key.name.toList ++ '{' :: (s.rawLabels.toList ++ ['}']))

/-- A bucket of a histogram: the count of observations up to its bound. -/
structure Bucket where
  rawLabels : String
  labels : List Label
  count : Float
deriving DecidableEq

namespace Bucket

/-- The text of the bound. Without labels the block is searched as text. -/
def le? (b : Bucket) : Option String :=
  if b.labels = [] then Label.scan b.rawLabels Label.le else Label.find? b.labels Label.le

/-- The bound as a finite number. -/
def bound? (b : Bucket) : Option Float :=
  (b.le?.bind fun le => Number.read? (trim le.toList)).filter (·.isFinite)

/-- The bucket that counts every observation says so in its bound, in any case. -/
def isInf (b : Bucket) : Bool :=
  match b.le? with
  | some le => (trim le.toList).map Char.toLower = ['+', 'i', 'n', 'f']
  | none => false

end Bucket

/-- The buckets of one metric name, in the order of their lines. -/
structure Histogram where
  name : String
  buckets : Array Bucket
deriving DecidableEq

end Bottleneck
