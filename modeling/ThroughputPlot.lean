import ThroughputPlot.CommandLine.Json
import ThroughputPlot.FileTree
import ThroughputPlot.Job.Json
import ThroughputPlot.Main
import ThroughputPlot.Proofs.Layout
import ThroughputPlot.Proofs.NumericOrder
import ThroughputPlot.Proofs.AxisRange
import ThroughputPlot.Proofs.PlottableAxes
import ThroughputPlot.Proofs.ChartAxes
import ThroughputPlot.Proofs.Effects
import ThroughputPlot.Proofs.Calls
import ThroughputPlot.Proofs.FailFast
import ThroughputPlot.Proofs.DryRun
import ThroughputPlot.Proofs.Numerals
import ThroughputPlot.Proofs.TableColumns
import ThroughputPlot.Proofs.ChartOutcome
import ThroughputPlot.Proofs.InBounds
import ThroughputPlot.Proofs.SeriesDiscovery
import ThroughputPlot.Proofs.References
import ThroughputPlot.Proofs.Checks
import ThroughputPlot.Proofs.OutputPlaces
import ThroughputPlot.Proofs.ByteOrderMark
import ThroughputPlot.Proofs.TreeRuns
import ThroughputPlot.Proofs.SessionOutcome
import ThroughputPlot.Proofs.Precedence
import ThroughputPlot.Proofs.Losses
import ThroughputPlot.Proofs.OwnSeries
import ThroughputPlot.Proofs.Validity
import ThroughputPlot.Proofs.SteadyReaders
import ThroughputPlot.Proofs.SteadyDocuments
import ThroughputPlot.Proofs.OneString
import ThroughputPlot.Proofs.StringPlaces
import ThroughputPlot.Proofs.PlainStrings
import ThroughputPlot.Proofs.TextFields
import ThroughputPlot.Proofs.ReferenceValues
import ThroughputPlot.Proofs.AxisLength
import ThroughputPlot.Proofs.OutputNames
import ThroughputPlot.Proofs.WrittenCommandLine
import ThroughputPlot.Proofs.WrittenConfiguration
import ThroughputPlot.Proofs.Placeholders
import ThroughputPlot.Proofs.ReferenceScan
import ThroughputPlot.Proofs.ColumnOrder
import ThroughputPlot.Proofs.AxisValues
import ThroughputPlot.Proofs.Literals
import ThroughputPlot.Proofs.BrokenBytes
import ThroughputPlot.Proofs.PlanTexts
import ThroughputPlot.Proofs.JobTexts
