import TwoStack.Opcode
import TwoStack.Text.Layout
import TwoStack.Text.Printable
import TwoStack.Decimal.Binary
import TwoStack.Decimal.Shortest
import TwoStack.File
import TwoStack.Program
import TwoStack.Item
import TwoStack.Listing
import TwoStack.Stack
import TwoStack.Fault
import TwoStack.Statistics
import TwoStack.Statistics.Report
import TwoStack.Trace
import TwoStack.Machine
import TwoStack.Run
import TwoStack.Document
import TwoStack.Report
import TwoStack.Json.Lexeme
import TwoStack.Json.Skip
import TwoStack.Json.Number
import TwoStack.Config.Problem
import TwoStack.Config.Reader
import TwoStack.Config
import TwoStack.Log
import TwoStack.Console
import TwoStack.CommandLine
import TwoStack.Command
import TwoStack.Main
import TwoStack.Proofs.Word
import TwoStack.Proofs.Step
import TwoStack.Proofs.Table
import TwoStack.Proofs.FaultLaw
import TwoStack.Proofs.Steps
import TwoStack.Proofs.Iteration
import TwoStack.Proofs.Budget
import TwoStack.Proofs.Observers
import TwoStack.Proofs.Replay
import TwoStack.Proofs.Decoding
import TwoStack.Proofs.StraightLine
import TwoStack.Proofs.Recording
import TwoStack.Proofs.Tally
import TwoStack.Proofs.Boundaries
import TwoStack.Proofs.Footprint
import TwoStack.Proofs.Cycle
import TwoStack.Proofs.StackFrame
import TwoStack.Proofs.Partition
import TwoStack.Proofs.Assembly
import TwoStack.Proofs.Reporting
import TwoStack.Proofs.ProgramCounter
import TwoStack.Proofs.Layout
import TwoStack.Proofs.ListingText
import TwoStack.Proofs.Literal
import TwoStack.Proofs.ReportText
import TwoStack.Proofs.JsonText
import TwoStack.Proofs.RecordText
import TwoStack.Proofs.ConfigText
import TwoStack.Proofs.AtRest
import TwoStack.Proofs.Forward
import TwoStack.Proofs.PeakDepth
import TwoStack.Proofs.StackGrowth
import TwoStack.Proofs.Concatenation
import TwoStack.Proofs.DumpText
import TwoStack.Proofs.StepLimit
import TwoStack.Proofs.ExitCode
import TwoStack.Proofs.Popping
