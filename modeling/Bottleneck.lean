import Bottleneck.Command.Run
import Bottleneck.Proofs.Collect
import Bottleneck.Proofs.First
import Bottleneck.Proofs.Log
import Bottleneck.Proofs.Concatenation
import Bottleneck.Proofs.Label.Order
import Bottleneck.Proofs.Label.RoundTrip
import Bottleneck.Proofs.SeriesIdentity
import Bottleneck.Proofs.Line
import Bottleneck.Proofs.Exposition
import Bottleneck.Proofs.LineParts
import Bottleneck.Proofs.Lines
import Bottleneck.Proofs.Transcript
import Bottleneck.Proofs.Noise
import Bottleneck.Proofs.Precedence
import Bottleneck.Proofs.Unrelated
import Bottleneck.Proofs.Percentiles
import Bottleneck.Proofs.Repetition
import Bottleneck.Proofs.Reordering
import Bottleneck.Proofs.Number.NotANumber
import Bottleneck.Proofs.Number.Numeral
import Bottleneck.Proofs.BlockEnd
import Bottleneck.Proofs.WellFormed
import Bottleneck.Proofs.Config.Validation
import Bottleneck.Proofs.Config.Refusal
import Bottleneck.Proofs.Report.Sections
import Bottleneck.Proofs.Report.JsonReader
import Bottleneck.Proofs.Report.Records
import Bottleneck.Proofs.Config.Schema
import Bottleneck.Proofs.Config.Strictness
import Bottleneck.Proofs.Config.File
import Bottleneck.Proofs.Command.Outcome
import Bottleneck.Proofs.Label.Grammar
import Bottleneck.Proofs.LineShape
import Bottleneck.Proofs.NearestRank
import Bottleneck.Proofs.Number.Level
import Bottleneck.Proofs.Number.Product
import Bottleneck.Proofs.Number.Written
import Bottleneck.Proofs.RankOrder
import Bottleneck.Proofs.Tail
import Bottleneck.Proofs.Pool
import Bottleneck.Proofs.Saturation
import Bottleneck.Proofs.Label.Scan
import Bottleneck.Proofs.Text.Bytes
import Bottleneck.Proofs.Label.Occurrence
import Bottleneck.Proofs.Total
import Bottleneck.Proofs.TailFigures
