import LinearProgram.Power
import LinearProgram.Scalar
import LinearProgram.Fault
import LinearProgram.Place
import LinearProgram.Label
import LinearProgram.Cell
import LinearProgram.Grid
import LinearProgram.Problem
import LinearProgram.Problem.Signs
import LinearProgram.Solution
import LinearProgram.Decimal.Reading
import LinearProgram.Decimal.Rounding
import LinearProgram.Decimal.Fixed
import LinearProgram.Decimal.Shortest
import LinearProgram.Decimal.Numeral
import LinearProgram.Decimal.Scalar
import LinearProgram.Text.Blank
import LinearProgram.Text.Digit
import LinearProgram.Text.Hidden
import LinearProgram.Text.Quoted
import LinearProgram.Text.Table
import LinearProgram.Tableau.Basic
import LinearProgram.Tableau.Display
import LinearProgram.Simplex
import LinearProgram.Plane.Border
import LinearProgram.Plane.Display
import LinearProgram.Plane
import LinearProgram.StandardForm
import LinearProgram.General
import LinearProgram.Solve
import LinearProgram.Journal
import LinearProgram.Walkthrough
import LinearProgram.Json.Basic
import LinearProgram.Json.NumberText
import LinearProgram.Json.Printer
import LinearProgram.Json.Verdict
import LinearProgram.Json.Schema
import LinearProgram.Random.Twister
import LinearProgram.Instance
import LinearProgram.Examples
import LinearProgram.Benchmark
import LinearProgram.Service
import LinearProgram.CommandLine
import LinearProgram.Main
import LinearProgram.Proofs.Double.Order
import LinearProgram.Proofs.Simplex.Optimum
import LinearProgram.Proofs.Simplex.Invariants
import LinearProgram.Proofs.Ratio
import LinearProgram.Proofs.Simplex.Trace
import LinearProgram.Proofs.Solve.NegativeLimits
import LinearProgram.Proofs.Solve.Satisfied
import LinearProgram.Proofs.Plane.Optimum
import LinearProgram.Proofs.Tableau.RowSpace
import LinearProgram.Proofs.Double.Rounding
import LinearProgram.Proofs.Double.Arithmetic
import LinearProgram.Proofs.Plane.Accepted
import LinearProgram.Proofs.Simplex.Certificate
import LinearProgram.Proofs.Simplex.Progress
import LinearProgram.Proofs.Simplex.Cycle
import LinearProgram.Proofs.StandardForm
import LinearProgram.Proofs.Solve.Agreement
import LinearProgram.Proofs.Solve.Coherent
import LinearProgram.Proofs.Solve.GeneralRoute
import LinearProgram.Proofs.Solve.Faults
import LinearProgram.Proofs.Simplex.Cap
import LinearProgram.Proofs.StandardForm.Faithful
import LinearProgram.Proofs.Simplex.Rewriting
import LinearProgram.Proofs.Symmetric
import LinearProgram.Proofs.Double.Symmetric
import LinearProgram.Proofs.Solve.Mirror
import LinearProgram.Proofs.Plane.RowOrder
import LinearProgram.Proofs.Plane.Tolerances
import LinearProgram.Proofs.Json.Accepted
import LinearProgram.Proofs.Json.RoundTrip
import LinearProgram.Proofs.Walkthrough.Record
import LinearProgram.Proofs.Walkthrough.Report
import LinearProgram.Proofs.Text.Table
import LinearProgram.Proofs.Text.Number
import LinearProgram.Proofs.Walkthrough.Shown
import LinearProgram.Proofs.Plane.FirstBest
import LinearProgram.Proofs.Simplex.Divisors
import LinearProgram.Proofs.Walkthrough.FinalTable
import LinearProgram.Proofs.Text.Aligned
import LinearProgram.Proofs.Simplex.Undone
import LinearProgram.Proofs.Instance
import LinearProgram.Proofs.Cell
import LinearProgram.Proofs.Simplex.TwinRows
