import SweepCharts.Cell.Basic
import SweepCharts.Cell.Reading
import SweepCharts.Chart.Basic
import SweepCharts.Chart.Colormap
import SweepCharts.Chart.KindJson
import SweepCharts.Chart.Page
import SweepCharts.Chart.Script
import SweepCharts.Chart.Slice
import SweepCharts.Chart.Sweep
import SweepCharts.Chart.Text
import SweepCharts.Cli.Args
import SweepCharts.Cli.Parser
import SweepCharts.Columns
import SweepCharts.Csv.Scanner
import SweepCharts.Csv.Table
import SweepCharts.Files.Access
import SweepCharts.Files.Discovery
import SweepCharts.Files.Path
import SweepCharts.Files.Tree
import SweepCharts.Json.Numeral
import SweepCharts.Json.Printer
import SweepCharts.Json.Reader
import SweepCharts.Json.Value
import SweepCharts.Main
import SweepCharts.Number.Binary64
import SweepCharts.Number.Count
import SweepCharts.Number.Decimal
import SweepCharts.Number.Layout
import SweepCharts.Number.Rounding
import SweepCharts.Number.Shortest
import SweepCharts.Proofs.Cell.Coercion
import SweepCharts.Proofs.Cell.RoundTrip
import SweepCharts.Proofs.Chart.ColorScales
import SweepCharts.Proofs.Chart.ColumnsRead
import SweepCharts.Proofs.Chart.Heatmap
import SweepCharts.Proofs.Chart.Page
import SweepCharts.Proofs.Chart.Parts
import SweepCharts.Proofs.Chart.Tags
import SweepCharts.Proofs.Cli.Arrangement
import SweepCharts.Proofs.Columns
import SweepCharts.Proofs.Csv.ColumnOrder
import SweepCharts.Proofs.Csv.LineNumber
import SweepCharts.Proofs.Csv.RoundTrip
import SweepCharts.Proofs.Files.Access
import SweepCharts.Proofs.Files.Directories
import SweepCharts.Proofs.Files.Discovery
import SweepCharts.Proofs.Files.Listing
import SweepCharts.Proofs.Files.Outputs
import SweepCharts.Proofs.Files.Path
import SweepCharts.Proofs.Json.Numeral
import SweepCharts.Proofs.Json.RoundTrip
import SweepCharts.Proofs.Json.Spacing
import SweepCharts.Proofs.Number.Layout
import SweepCharts.Proofs.Run.Actions
import SweepCharts.Proofs.Run.ColumnOrder
import SweepCharts.Proofs.Run.Loading
import SweepCharts.Proofs.Run.Repetition
import SweepCharts.Proofs.Run.Reporting
import SweepCharts.Proofs.Run.Rereading
import SweepCharts.Proofs.Run.Script
import SweepCharts.Proofs.Run.Success
import SweepCharts.Proofs.Run.WriteOrder
import SweepCharts.Proofs.Slice.Acceptance
import SweepCharts.Proofs.Slice.Agreement
import SweepCharts.Proofs.Slice.ColumnOrder
import SweepCharts.Proofs.Slice.Faults
import SweepCharts.Proofs.Slice.Numbers
import SweepCharts.Proofs.Slice.Sheet
import SweepCharts.Proofs.Sweep.Accounting
import SweepCharts.Proofs.Sweep.DumpNull
import SweepCharts.Proofs.Sweep.LineOrder
import SweepCharts.Proofs.Sweep.Placement
import SweepCharts.Proofs.Sweep.Reordering
import SweepCharts.Proofs.Sweep.RowUsability
import SweepCharts.Proofs.Sweep.SummaryNames
import SweepCharts.Proofs.Sweep.SummaryParts
import SweepCharts.Proofs.Sweep.Survey
import SweepCharts.Proofs.Sweep.WholeColumns
import SweepCharts.Proofs.Text.Occurrences
import SweepCharts.Run.Basic
import SweepCharts.Run.Loading
import SweepCharts.Run.Plot
import SweepCharts.Slice.Row
import SweepCharts.Slice.Table
import SweepCharts.Sweep.Axis
import SweepCharts.Sweep.Column
import SweepCharts.Sweep.Configuration
import SweepCharts.Sweep.Dump
import SweepCharts.Sweep.Grid
import SweepCharts.Sweep.Lines
import SweepCharts.Sweep.Loading
import SweepCharts.Sweep.Record
import SweepCharts.Sweep.Scatter
import SweepCharts.Sweep.Summary
import SweepCharts.Sweep.SummaryText
import SweepCharts.Sweep.Usability
import SweepCharts.Text.Message
import SweepCharts.Text.Quoted
import SweepCharts.Text.Shown
import SweepCharts.Text.Utf8
