import Bottleneck.Number.Order
import Bottleneck.Snapshot.Basic

/-!
Latency percentiles of a histogram. An estimate is a nearest rank: the least finite bound whose
cumulative count reaches the rank, so it is always one of the histogram's own bounds. Nothing is
assumed about the order of the buckets or about their counts.
-/

namespace Bottleneck

open Text (occursIn replaceFirst)

/-- Estimates in the unit of the bounds. Without a bound that reaches the rank there is none. -/
structure Percentiles where
  p50 : Option Float := none
  p95 : Option Float := none
  p99 : Option Float := none
deriving DecidableEq

namespace Percentiles

def isEmpty (p : Percentiles) : Bool := p.p50.isNone && p.p95.isNone && p.p99.isNone

/-- The finite bounds with their counts, in the total order of the bounds. Buckets of one bound
keep their order. -/
def sortedBounds (buckets : List Bucket) : List (Float × Float) :=
  (buckets.filterMap fun b => b.bound?.map (·, b.count)).mergeSort
    fun a b => Number.place a.1 ≤ Number.place b.1

/-- The first bound whose count reaches the target. -/
def reach? (bounds : List (Float × Float)) (target : Float) : Option Float :=
  (bounds.find? fun bound => bound.2 ≥ target).map (·.1)

/-- The estimates for a total count of observations; a total of zero gives none. -/
def estimate (buckets : List Bucket) (total : Float) : Percentiles :=
  if buckets.isEmpty || total == 0 then {}
  else
    let bounds := sortedBounds buckets
    { p50 := reach? bounds (total * 0.50)
      p95 := reach? bounds (total * 0.95)
      p99 := reach? bounds (total * 0.99) }

end Percentiles

namespace Snapshot

/-- The histogram to look at. Patterns come first in order of priority, and for the first pattern
that any name contains the first such name counts. -/
def latencyHistogram? (s : Snapshot) (patterns : List String) : Option String :=
  patterns.findSome? fun pattern => s.histogramNames.find? (occursIn pattern)

/-- The name of the series that counts a histogram's observations: a final `_bucket` becomes
`_count`, and in any other name the first `_bucket` does. -/
def countSeriesName (histogram : String) : String :=
  let name := histogram.toList
  let marker := DataLine.bucketMarker.toList
  let ending := "_count".toList
  if marker.isSuffixOf name then .ofList (name.take (name.length - marker.length) ++ ending)
  else .ofList (replaceFirst marker ending name)

def nonzero (x : Float) : Bool := x != 0

/-- The number of observations of a histogram: the count of its first unbounded bucket or else the
value of its count series, whichever comes first and is not zero. -/
def total? (s : Snapshot) (histogram : String) : Option Float :=
  (((s.buckets histogram).find? Bucket.isInf).map (·.count)).filter nonzero <|>
    ((s.sampleNamed? (countSeriesName histogram)).map (·.value)).filter nonzero

end Snapshot

end Bottleneck
