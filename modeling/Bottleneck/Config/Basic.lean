import Bottleneck.Failure
import Bottleneck.Rules
import Bottleneck.Text.Blank

/-!
The configuration: a version and patterns to add to the rule tables. Thresholds cannot be
configured. A configuration is usable if its version is the supported one and every pattern is a
text without blanks; `validate` names the first pattern that is not, in the order of the tables.
-/

namespace Bottleneck

open Text (isBlank)

structure Config where
  version : UInt32
  /-- What to add to the built-in tables. -/
  extension : Rules := ⟨[], [], []⟩
deriving DecidableEq, Repr

namespace Config

/-- The empty pattern would match everything, and one with a blank in it matches no metric name. -/
def isUsable (pattern : String) : Bool :=
  pattern ≠ "" && pattern.toList.all fun c => !isBlank c

/-- The name of an entry of a table. -/
def entryName (table : String) (i : Nat) : String :=
  "rules." ++ table ++ "[" ++ toString i ++ "]"

/-- The patterns of a pool table with their names, current before max. -/
def poolFields (table current : String) (entries : List PoolPattern) : List (String × String) :=
  entries.zipIdx.flatMap fun (entry, i) =>
    [(entryName table i ++ "." ++ current, entry.current),
      (entryName table i ++ ".max", entry.max)]

/-- All patterns with their names, in the order in which they are checked. -/
def fields (extension : Rules) : List (String × String) :=
  poolFields "thread_pool" "busy" extension.threadPool ++
    poolFields "connection_pool" "active" extension.connectionPool ++
    extension.latencyHistograms.zipIdx.map fun (pattern, i) =>
      (entryName "latency_histograms" i, pattern)

/-- The version comes before the patterns. -/
def validate (config : Config) : Except Failure Unit :=
  if config.version ≠ 1 then .error .unsupportedVersion
  else
    match (fields config.extension).find? fun field => !isUsable field.2 with
    | some (name, _) =>
      .error (.badConfig (name ++ " must be a non-empty pattern without whitespace"))
    | none => .ok ()

/-- The built-in tables with the entries of the configuration behind them. -/
def rules (config : Config) : Rules := Rules.builtIn.extend config.extension

end Config

end Bottleneck
