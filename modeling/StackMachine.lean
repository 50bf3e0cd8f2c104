import StackMachine.Assembly.Error
import StackMachine.Assembly.Expression.Call
import StackMachine.Assembly.Expression.Eval
import StackMachine.Assembly.Expression.Operator
import StackMachine.Assembly.Expression.Order
import StackMachine.Assembly.Expression.Printed
import StackMachine.Assembly.Expression.Token
import StackMachine.Assembly.Expression.Tree
import StackMachine.Assembly.Expression.Value
import StackMachine.Assembly.Line
import StackMachine.Assembly.Operand
import StackMachine.Assembly.Source
import StackMachine.Assembly.State
import StackMachine.Catalog
import StackMachine.CommandLine.Arguments
import StackMachine.CommandLine.Files
import StackMachine.CommandLine.Flag
import StackMachine.CommandLine.Outcome
import StackMachine.Config
import StackMachine.DataList
import StackMachine.Debugger
import StackMachine.Dictionary
import StackMachine.Fault
import StackMachine.Flags
import StackMachine.Image
import StackMachine.Instr
import StackMachine.Journal
import StackMachine.Machine.Basic
import StackMachine.Machine.Execute
import StackMachine.Machine.Run
import StackMachine.Machine.Snapshot
import StackMachine.Main
import StackMachine.Number.Decimal
import StackMachine.Number.Fraction
import StackMachine.Opcode
import StackMachine.Program.Basic
import StackMachine.Program.Listing
import StackMachine.Report
import StackMachine.Ring
import StackMachine.Session
import StackMachine.Stack
import StackMachine.Text.Blank
import StackMachine.Text.Display
import StackMachine.Text.Glyph
import StackMachine.Text.Grid
import StackMachine.Text.Json
import StackMachine.Text.Letter
import StackMachine.Text.Lines
import StackMachine.Text.Literal
import StackMachine.Text.Message
import StackMachine.Text.Message.Directive
import StackMachine.Text.Message.Form
import StackMachine.Text.Numeral
import StackMachine.Text.Printable
import StackMachine.Text.Quoted
import StackMachine.Text.Width
import StackMachine.Proofs.Machine.Atomicity
import StackMachine.Proofs.Machine.Frame
import StackMachine.Proofs.Machine.Footprint
import StackMachine.Proofs.Machine.Branching
import StackMachine.Proofs.Machine.Reference
import StackMachine.Proofs.Machine.Refinement
import StackMachine.Proofs.Assembly.Changes
import StackMachine.Proofs.Assembly.CoreLanguage
import StackMachine.Proofs.Assembly.CoreLine
import StackMachine.Proofs.Assembly.CoreReading
import StackMachine.Proofs.Assembly.Linking
import StackMachine.Proofs.Assembly.WellLinked
import StackMachine.Proofs.Assembly.CoreCorrectness
import StackMachine.Proofs.Codec
import StackMachine.Proofs.Window
import StackMachine.Proofs.Machine.Steps
import StackMachine.Proofs.Machine.Budgets
import StackMachine.Proofs.Machine.Symbolic
import StackMachine.Proofs.Assembly.CoreWriting
import StackMachine.Proofs.Machine.Consistency
import StackMachine.Proofs.Lookup
import StackMachine.Proofs.Sessions
import StackMachine.Proofs.Assembly.Disassembly
import StackMachine.Proofs.Assembly.Encoding
import StackMachine.Proofs.Assembly.Expansion
import StackMachine.Proofs.Assembly.LocalLabels
import StackMachine.Proofs.Assembly.LocalSources
import StackMachine.Proofs.Assembly.LineNumbers
import StackMachine.Proofs.Assembly.Inlining
import StackMachine.Proofs.Isolation
import StackMachine.Proofs.Machine.RecentPast
import StackMachine.Proofs.Stepping
import StackMachine.Proofs.Placement
import StackMachine.Proofs.Assembly.Derivations
import StackMachine.Proofs.Assembly.Nesting
import StackMachine.Proofs.Assembly.Concatenation
import StackMachine.Proofs.Assembly.Locations
import StackMachine.Proofs.Assembly.Reuse
import StackMachine.Proofs.Assembly.Scoping
import StackMachine.Proofs.Assembly.Classification
import StackMachine.Proofs.Assembly.Expression.Forms
import StackMachine.Proofs.Assembly.Expression.Lexing
import StackMachine.Proofs.Assembly.Expression.Parsing
import StackMachine.Proofs.Assembly.Expression.Evaluation
import StackMachine.Proofs.Assembly.ComputedOperands
import StackMachine.Proofs.Assembly.NamedOperands
import StackMachine.Proofs.Machine.InitialData
import StackMachine.Proofs.ImageFiles
import StackMachine.Proofs.Literals
import StackMachine.Proofs.Text.Hexadecimal
import StackMachine.Proofs.Assembly.SourceLines
import StackMachine.Proofs.Listings
import StackMachine.Proofs.Machine.ReferenceRuns
import StackMachine.Proofs.MemoryCommands
import StackMachine.Proofs.Programs.Basic
import StackMachine.Proofs.Programs.Sum
import StackMachine.Proofs.Programs.Factorial
import StackMachine.Proofs.Assembly.Independence
