import Passwise.Archive
import Passwise.Command.Arguments
import Passwise.Command.Fit
import Passwise.Command.Report
import Passwise.Command.Summary
import Passwise.Conjugate
import Passwise.Decimal.Dyadic
import Passwise.Decimal.Layout
import Passwise.Decimal.Plain
import Passwise.Decimal.Reading
import Passwise.Decimal.Rounding
import Passwise.Decimal.Shortest
import Passwise.Error
import Passwise.Estimate
import Passwise.Example
import Passwise.Figure
import Passwise.Files
import Passwise.History
import Passwise.Incremental
import Passwise.Linear.Matrix
import Passwise.Linear.Solver
import Passwise.Linear.Vector
import Passwise.Literal
import Passwise.Machine
import Passwise.Main
import Passwise.Newton
import Passwise.Objective
import Passwise.Optimizer
import Passwise.Penalty
import Passwise.Proofs.Agreement
import Passwise.Proofs.Alongside
import Passwise.Proofs.Archived
import Passwise.Proofs.Averaging
import Passwise.Proofs.Balanced
import Passwise.Proofs.BestTrial
import Passwise.Proofs.Blocks
import Passwise.Proofs.Bookkeeping
import Passwise.Proofs.Breslow
import Passwise.Proofs.Candidates
import Passwise.Proofs.Chains
import Passwise.Proofs.Cleaning
import Passwise.Proofs.Confined
import Passwise.Proofs.Convergence
import Passwise.Proofs.Coordinates
import Passwise.Proofs.Counting
import Passwise.Proofs.Cox
import Passwise.Proofs.Curvature
import Passwise.Proofs.Damping
import Passwise.Proofs.Descending
import Passwise.Proofs.Descent
import Passwise.Proofs.Differences
import Passwise.Proofs.Diverging
import Passwise.Proofs.Doubles
import Passwise.Proofs.Downhill
import Passwise.Proofs.Elimination
import Passwise.Proofs.Exact
import Passwise.Proofs.FileNames
import Passwise.Proofs.Filed
import Passwise.Proofs.Findings
import Passwise.Proofs.Following
import Passwise.Proofs.Forward
import Passwise.Proofs.Heads
import Passwise.Proofs.Intake
import Passwise.Proofs.Iterations
import Passwise.Proofs.Jointly
import Passwise.Proofs.Latest
import Passwise.Proofs.Layout
import Passwise.Proofs.LineSearch
import Passwise.Proofs.Lowest
import Passwise.Proofs.Objective
import Passwise.Proofs.OnePass
import Passwise.Proofs.Order
import Passwise.Proofs.Partition
import Passwise.Proofs.Parts
import Passwise.Proofs.Pass
import Passwise.Proofs.Pooling
import Passwise.Proofs.Proximal
import Passwise.Proofs.Quadratic
import Passwise.Proofs.Raising
import Passwise.Proofs.Ranks
import Passwise.Proofs.Reachable
import Passwise.Proofs.Readings
import Passwise.Proofs.Reals
import Passwise.Proofs.Recording
import Passwise.Proofs.Records
import Passwise.Proofs.Reduction
import Passwise.Proofs.Rejection
import Passwise.Proofs.Reopening
import Passwise.Proofs.Reporting
import Passwise.Proofs.Restart
import Passwise.Proofs.Resume
import Passwise.Proofs.RiskSet
import Passwise.Proofs.Rounding
import Passwise.Proofs.RowCount
import Passwise.Proofs.Running
import Passwise.Proofs.Scoring
import Passwise.Proofs.Selection
import Passwise.Proofs.Shares
import Passwise.Proofs.Shifted
import Passwise.Proofs.Shrinking
import Passwise.Proofs.Sizes
import Passwise.Proofs.Skipping
import Passwise.Proofs.Solving
import Passwise.Proofs.Steady
import Passwise.Proofs.Strides
import Passwise.Proofs.Subgradient
import Passwise.Proofs.Tables
import Passwise.Proofs.Targets
import Passwise.Proofs.TieGroups
import Passwise.Proofs.Trace
import Passwise.Proofs.Undefined
import Passwise.Proofs.Uniform
import Passwise.Proofs.Unjoined
import Passwise.Proofs.Update
import Passwise.Proofs.Values
import Passwise.Proofs.Wald
import Passwise.Proofs.Winning
import Passwise.Report
import Passwise.RiskSet
import Passwise.Run
import Passwise.Run.Fit
import Passwise.Run.Progress
import Passwise.Scalar
import Passwise.Scalar.Double
import Passwise.Scalar.Numeral
import Passwise.Search
import Passwise.Search.Cells
import Passwise.Settings.Example
import Passwise.Settings.Fields
import Passwise.Settings.Optimizer
import Passwise.Settings.Run
import Passwise.Settings.Search
import Passwise.Settings.Snapshot
import Passwise.Settings.Store
import Passwise.Settings.Task
import Passwise.Settings.Values
import Passwise.Snapshot
import Passwise.Snapshot.Cells
import Passwise.Source
import Passwise.Source.Dataset
import Passwise.Source.Generator
import Passwise.Store
import Passwise.Strategy
import Passwise.Table
import Passwise.Table.Cell
import Passwise.Table.Column
import Passwise.Table.Csv
import Passwise.Table.Csv.Field
import Passwise.Table.Csv.Header
import Passwise.Table.Csv.Read
import Passwise.Table.Csv.Scan
import Passwise.Task
import Passwise.Text.Digit
import Passwise.Text.Lines
import Passwise.Text.Printable
import Passwise.Text.Quoted
import Passwise.Text.Wildcard
import Passwise.Totals
import Passwise.Trials
import Passwise.Word
