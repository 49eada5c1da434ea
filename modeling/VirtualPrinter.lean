import VirtualPrinter.Disk
import VirtualPrinter.Main
import VirtualPrinter.Printer.Gcode
import VirtualPrinter.Printer.Request
import VirtualPrinter.Store.Call
import VirtualPrinter.Proofs.Binary64.Fraction
import VirtualPrinter.Proofs.Machine.Progress
import VirtualPrinter.Proofs.Machine.Run
import VirtualPrinter.Proofs.Program.Size
import VirtualPrinter.Proofs.Binary64.Order
import VirtualPrinter.Proofs.Machine.Completion
import VirtualPrinter.Proofs.Binary64.Finite
import VirtualPrinter.Proofs.Motion.Path
import VirtualPrinter.Proofs.Program.Layers
import VirtualPrinter.Proofs.Machine.Head
import VirtualPrinter.Proofs.Store.Refinement
import VirtualPrinter.Proofs.Text.Utf8
import VirtualPrinter.Proofs.Machine.Coherence
import VirtualPrinter.Proofs.Machine.Clock
import VirtualPrinter.Proofs.Machine.Pacing
import VirtualPrinter.Proofs.Machine.Pausing
import VirtualPrinter.Proofs.Binary64.Monotone
import VirtualPrinter.Proofs.Machine.Monotone
import VirtualPrinter.Proofs.Machine.Restart
import VirtualPrinter.Proofs.Motion.Encoding
import VirtualPrinter.Proofs.Motion.Separation
import VirtualPrinter.Proofs.GCode.Numerals
import VirtualPrinter.Proofs.Binary64.Nearest
import VirtualPrinter.Proofs.GCode.Words
import VirtualPrinter.Proofs.Motion.Faults
import VirtualPrinter.Proofs.Binary64.Digits
import VirtualPrinter.Proofs.GCode.Names
import VirtualPrinter.Proofs.Printer.Start
import VirtualPrinter.Proofs.Printer.Files
import VirtualPrinter.Proofs.GCode.Significant
import VirtualPrinter.Proofs.Motion.Streaming
import VirtualPrinter.Proofs.Motion.Surface
import VirtualPrinter.Proofs.Machine.Watching
import VirtualPrinter.Proofs.Machine.Range
import VirtualPrinter.Proofs.Config.Ranges
import VirtualPrinter.Proofs.Printer.StartCommand
import VirtualPrinter.Proofs.Printer.Commands
import VirtualPrinter.Proofs.Machine.Early
import VirtualPrinter.Proofs.Printer.Durations
import VirtualPrinter.Proofs.Store.Removal
import VirtualPrinter.Proofs.Machine.Polling
import VirtualPrinter.Proofs.Binary64.Extremes
import VirtualPrinter.Proofs.Binary64.Nonneg
import VirtualPrinter.Proofs.Program.Hull
import VirtualPrinter.Proofs.Program.Estimate
import VirtualPrinter.Proofs.Program.Spelling
import VirtualPrinter.Proofs.Text.Grammar
import VirtualPrinter.Proofs.Text.Documents
import VirtualPrinter.Proofs.Binary64.ShortestText
import VirtualPrinter.Proofs.Printer.Seeding
import VirtualPrinter.Proofs.Machine.Shown
import VirtualPrinter.Proofs.CommandLine.Session
import VirtualPrinter.Proofs.CommandLine.Lines
import VirtualPrinter.Proofs.CommandLine.Transcript
