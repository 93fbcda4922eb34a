import CalendarDial.Bands.Pivoting
import CalendarDial.Bands.Placement
import CalendarDial.Bands.Program
import CalendarDial.Calendar.Date
import CalendarDial.Calendar.Forms
import CalendarDial.Calendar.Relative
import CalendarDial.Calendar.Scan
import CalendarDial.Calendar.Timestamp
import CalendarDial.Command.Arguments
import CalendarDial.Command.Error
import CalendarDial.Command.EventsFile
import CalendarDial.Command.Help
import CalendarDial.Command.Invocation
import CalendarDial.Command.Program
import CalendarDial.Command.Run
import CalendarDial.Command.Time
import CalendarDial.Command.Writing
import CalendarDial.Config.Environment
import CalendarDial.Config.Layers
import CalendarDial.Config.Sources
import CalendarDial.Config.Value
import CalendarDial.Decimal.Double
import CalendarDial.Decimal.Notation
import CalendarDial.DisplayOrder
import CalendarDial.Event
import CalendarDial.Greedy
import CalendarDial.Instant
import CalendarDial.Json.Coded
import CalendarDial.Json.DataModel
import CalendarDial.Json.Lexer
import CalendarDial.Json.Number
import CalendarDial.Json.Parser
import CalendarDial.Json.Printer
import CalendarDial.Json.Quoted
import CalendarDial.Linear.Certificate
import CalendarDial.Linear.Constraint
import CalendarDial.Linear.Elimination
import CalendarDial.Linear.Exact
import CalendarDial.Linear.Inequality
import CalendarDial.Linear.Penalties
import CalendarDial.Linear.Raising
import CalendarDial.Linear.Rows
import CalendarDial.Linear.Solver
import CalendarDial.Main
import CalendarDial.Outcome
import CalendarDial.PositionPairs
import CalendarDial.Proofs.Bands.Demands
import CalendarDial.Proofs.Bands.Depth
import CalendarDial.Proofs.Bands.EvenBands
import CalendarDial.Proofs.Bands.EvenSplit
import CalendarDial.Proofs.Bands.Feasibility
import CalendarDial.Proofs.Bands.Groups
import CalendarDial.Proofs.Bands.Optimality
import CalendarDial.Proofs.Bands.Parts
import CalendarDial.Proofs.Bands.Rounding
import CalendarDial.Proofs.Bands.Separation
import CalendarDial.Proofs.Bands.Solving
import CalendarDial.Proofs.Calendar.Date
import CalendarDial.Proofs.Calendar.Form
import CalendarDial.Proofs.Calendar.Relative
import CalendarDial.Proofs.Calendar.Strict
import CalendarDial.Proofs.Calendar.Timestamp
import CalendarDial.Proofs.Checked
import CalendarDial.Proofs.Command.EventsFile
import CalendarDial.Proofs.Command.Layout
import CalendarDial.Proofs.Command.Report
import CalendarDial.Proofs.Command.Time
import CalendarDial.Proofs.Command.Window
import CalendarDial.Proofs.Command.Writing
import CalendarDial.Proofs.Config.Environment
import CalendarDial.Proofs.Config.Layers
import CalendarDial.Proofs.Config.Merge
import CalendarDial.Proofs.Config.Sources
import CalendarDial.Proofs.Counters
import CalendarDial.Proofs.Display
import CalendarDial.Proofs.DisplayOrder
import CalendarDial.Proofs.DisplayOrder.Sorting
import CalendarDial.Proofs.Fallback
import CalendarDial.Proofs.Greedy.Board
import CalendarDial.Proofs.Greedy.Bounds
import CalendarDial.Proofs.Greedy.Continuation
import CalendarDial.Proofs.Greedy.Extremes
import CalendarDial.Proofs.Greedy.Holes
import CalendarDial.Proofs.Greedy.Marks
import CalendarDial.Proofs.Greedy.Maximality
import CalendarDial.Proofs.Greedy.Occupancy
import CalendarDial.Proofs.Json.Coded
import CalendarDial.Proofs.Json.DataModel
import CalendarDial.Proofs.Json.Lexer
import CalendarDial.Proofs.Json.Number
import CalendarDial.Proofs.Json.Parser
import CalendarDial.Proofs.Json.Printer
import CalendarDial.Proofs.Json.Quoted
import CalendarDial.Proofs.Linear.Certificate
import CalendarDial.Proofs.Linear.Elimination
import CalendarDial.Proofs.Linear.Exact
import CalendarDial.Proofs.Linear.Penalties
import CalendarDial.Proofs.Outcome
import CalendarDial.Proofs.Pattern
import CalendarDial.Proofs.Rational
import CalendarDial.Proofs.Refresh.History
import CalendarDial.Proofs.Refresh.Safety
import CalendarDial.Proofs.Refresh.Ticks
import CalendarDial.Proofs.Refresh.Turns
import CalendarDial.Proofs.Text.Digits
import CalendarDial.Proofs.Text.Runs
import CalendarDial.Proofs.Toml.Document
import CalendarDial.Proofs.Toml.Tables
import CalendarDial.Proofs.Violation
import CalendarDial.Proofs.Violation.Listing
import CalendarDial.Proofs.Wedge
import CalendarDial.Proofs.Window
import CalendarDial.Proofs.Window.Again
import CalendarDial.Proofs.Window.Hours
import CalendarDial.Proofs.Window.Instants
import CalendarDial.Proofs.Zone
import CalendarDial.Refresh.Pipeline
import CalendarDial.Refresh.Session
import CalendarDial.Refresh.Source
import CalendarDial.Report.LayoutJson
import CalendarDial.Report.Lines
import CalendarDial.Settings
import CalendarDial.Text.Characters
import CalendarDial.Text.Digits
import CalendarDial.Toml.Document
import CalendarDial.Toml.Line
import CalendarDial.Toml.Quoted
import CalendarDial.Toml.Scalar
import CalendarDial.Toml.Space
import CalendarDial.Toml.Tables
import CalendarDial.Violation
import CalendarDial.Wedge
import CalendarDial.Window
