import Accumulator.Assembly.Item
import Accumulator.Assembly.Mnemonic
import Accumulator.Assembly.Prompt
import Accumulator.Assembly.SourceUnit
import Accumulator.Command.Arguments
import Accumulator.Command.Listing
import Accumulator.Command.Report
import Accumulator.Command.Run
import Accumulator.Console.Output
import Accumulator.Console.TokenReader
import Accumulator.Decimal.Binary64
import Accumulator.Decimal.Shortest
import Accumulator.Execution
import Accumulator.Failure
import Accumulator.Fault
import Accumulator.Files
import Accumulator.Instruction
import Accumulator.Limit
import Accumulator.Loading
import Accumulator.Log
import Accumulator.Machine
import Accumulator.Machine.Run
import Accumulator.Machine.Step
import Accumulator.Main
import Accumulator.Numeral
import Accumulator.Path
import Accumulator.Program
import Accumulator.Proofs.Acceptance
import Accumulator.Proofs.Accounting
import Accumulator.Proofs.Atomicity
import Accumulator.Proofs.Attempts
import Accumulator.Proofs.Construction
import Accumulator.Proofs.DeclaredTypes
import Accumulator.Proofs.Execution
import Accumulator.Proofs.ExitCodes
import Accumulator.Proofs.Factorial
import Accumulator.Proofs.Failures
import Accumulator.Proofs.ForwardJumps
import Accumulator.Proofs.Framing
import Accumulator.Proofs.Grammar
import Accumulator.Proofs.Halting
import Accumulator.Proofs.Indentation
import Accumulator.Proofs.Insertion
import Accumulator.Proofs.Issuing
import Accumulator.Proofs.Joining
import Accumulator.Proofs.Labels
import Accumulator.Proofs.Layers
import Accumulator.Proofs.LineEnds
import Accumulator.Proofs.Lines
import Accumulator.Proofs.Linking
import Accumulator.Proofs.Listings
import Accumulator.Proofs.Lockstep
import Accumulator.Proofs.Names
import Accumulator.Proofs.NextItem
import Accumulator.Proofs.Numerals
import Accumulator.Proofs.Printing
import Accumulator.Proofs.ProgramCounter
import Accumulator.Proofs.Provenance
import Accumulator.Proofs.Quotation
import Accumulator.Proofs.ReadBack
import Accumulator.Proofs.Ranking
import Accumulator.Proofs.Reading
import Accumulator.Proofs.Recognition
import Accumulator.Proofs.Reference
import Accumulator.Proofs.Refinement
import Accumulator.Proofs.Relocation
import Accumulator.Proofs.Renaming
import Accumulator.Proofs.Rendering
import Accumulator.Proofs.Runs
import Accumulator.Proofs.Scanning
import Accumulator.Proofs.Session
import Accumulator.Proofs.Snapshots
import Accumulator.Proofs.Step
import Accumulator.Proofs.StraightLine
import Accumulator.Proofs.Sums
import Accumulator.Proofs.TabStops
import Accumulator.Proofs.Tables
import Accumulator.Proofs.Tabs
import Accumulator.Proofs.Tokens
import Accumulator.Proofs.Tracing
import Accumulator.Proofs.TruthValues
import Accumulator.Registers
import Accumulator.Settings
import Accumulator.Settings.Document
import Accumulator.Text.Alphanumeric
import Accumulator.Text.Blank
import Accumulator.Text.ControlSequence
import Accumulator.Text.DecimalDigit
import Accumulator.Text.Hexadecimal
import Accumulator.Text.Lines
import Accumulator.Text.Printable
import Accumulator.Text.Quoted
import Accumulator.Text.Ranges
import Accumulator.Text.TabStop
import Accumulator.Text.Utf8
import Accumulator.Toml.Document
import Accumulator.Toml.Moment
import Accumulator.Toml.Number
import Accumulator.Toml.Order
import Accumulator.Toml.Quotation
import Accumulator.Toml.Reader
import Accumulator.Toml.Table
import Accumulator.Toml.Value
import Accumulator.Value
