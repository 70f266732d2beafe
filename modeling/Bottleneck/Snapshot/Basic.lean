import Bottleneck.Roster
import Bottleneck.Snapshot.Line
import Bottleneck.Snapshot.Series
import Bottleneck.Text.Search

/-!
A snapshot of metrics: its samples and its histograms, each in the order in which they were first
seen. A data line whose metric name contains `_bucket` adds a bucket to the histogram of that name.
Any other is a sample, and a later sample of a series takes the place of the earlier one.
-/

namespace Bottleneck

open Text (occursIn)

namespace DataLine

/-- A metric name that contains it names a histogram. -/
def bucketMarker : String := "_bucket"

def isBucket (line : DataLine) : Bool := occursIn bucketMarker line.name

def toSample (line : DataLine) : Sample :=
  { key := .of line.name line.rawLabels
    rawLabels := line.rawLabels
    labels := labelsOfBlock line.rawLabels
    value := line.value }

@[simp] theorem name_key_toSample (line : DataLine) : line.toSample.key.name = line.name :=
  SeriesKey.name_of line.name line.rawLabels

def toBucket (line : DataLine) : Bucket :=
  { rawLabels := line.rawLabels
    labels := labelsOfBlock line.rawLabels
    count := line.value }

end DataLine

/-- How many lines of each sort a text has. Blank lines do not count at all. -/
structure Counts where
  lines : Nat := 0
  comments : Nat := 0
  samples : Nat := 0
  buckets : Nat := 0
  skipped : Nat := 0
deriving DecidableEq, Repr

def Counts.add (c : Counts) : Line → Counts
  | .blank => c
  | .comment => { c with lines := c.lines + 1, comments := c.comments + 1 }
  | .data line =>
    if line.isBucket then { c with lines := c.lines + 1, buckets := c.buckets + 1 }
    else { c with lines := c.lines + 1, samples := c.samples + 1 }
  | .unrecognised => { c with lines := c.lines + 1, skipped := c.skipped + 1 }

structure Snapshot where
  samples : Roster Sample.key := ∅
  histograms : Roster Histogram.name := ∅
  counts : Counts := {}

namespace Snapshot

/-- The data of one line. A sample replaces the one of its series; a bucket joins its histogram. -/
def record (s : Snapshot) (line : DataLine) : Snapshot :=
  if line.isBucket then
    { s with
      histograms := s.histograms.add ⟨line.name, #[line.toBucket]⟩
        (fun old new => { old with buckets := old.buckets ++ new.buckets }) fun _ h => h }
  else
    { s with samples := s.samples.add line.toSample (fun _ new => new) fun _ _ => rfl }

def add (s : Snapshot) (line : Line) : Snapshot :=
  let recorded := match line.data? with
    | some data => s.record data
    | none => s
  { recorded with counts := recorded.counts.add line }

/-- The snapshot that a text describes. -/
def parse (text : String) : Snapshot := (Line.all text).foldl add {}

/-! ## Looking things up -/

/-- The value of the first sample whose composite name contains the pattern. -/
def valueMatching? (s : Snapshot) (pattern : String) : Option Float :=
  (s.samples.toList.find? fun sample => occursIn pattern sample.composite).map (·.value)

/-- The sample of exactly this series. -/
def sample? (s : Snapshot) (key : SeriesKey) : Option Sample := s.samples.get? key

/-- The first sample of that metric name, whatever its labels. -/
def sampleNamed? (s : Snapshot) (name : String) : Option Sample :=
  s.samples.toList.find? fun sample => sample.key.name = name

/-- The buckets of the histogram of exactly this name; none if there is no such histogram. -/
def buckets (s : Snapshot) (name : String) : List Bucket :=
  match s.histograms.get? name with
  | some histogram => histogram.buckets.toList
  | none => []

def histogramNames (s : Snapshot) : List String := s.histograms.toList.map (·.name)

end Snapshot

end Bottleneck
