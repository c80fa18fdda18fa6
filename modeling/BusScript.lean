import BusScript.Bench.Recording
import BusScript.Main
import BusScript.Proofs.Command.Containment
import BusScript.Proofs.Command.WellFormed
import BusScript.Proofs.Memory.Transfer
import BusScript.Proofs.Bench.Model
import BusScript.Proofs.Run.Accounting
import BusScript.Proofs.Run.Completion
import BusScript.Proofs.Run.OnModel
import BusScript.Proofs.Bench.Noted
import BusScript.Proofs.Run.Rejection
import BusScript.Proofs.Run.Serial
import BusScript.Proofs.Command.Letters
import BusScript.Proofs.Command.Written
import BusScript.Proofs.Command.Faults
import BusScript.Proofs.Run.Complete
import BusScript.Proofs.Script.Numbers
import BusScript.Proofs.CommandLine.Checking
import BusScript.Proofs.Bus.Address
import BusScript.Proofs.Memory.Beats
import BusScript.Proofs.Bench.Bursts
import BusScript.Proofs.Run.Issuing
import BusScript.Proofs.Command.Numbering
import BusScript.Proofs.Run.Calls
import BusScript.Proofs.Run.Parallel
import BusScript.Proofs.Bench.Overlap
import BusScript.Proofs.Text.Decoding
import BusScript.Proofs.Text.Lines
import BusScript.Proofs.Script.Physical
import BusScript.Proofs.Script.Reading
import BusScript.Proofs.Run.Inserted
import BusScript.Proofs.Bench.Rotation
import BusScript.Proofs.Run.Timeouts
import BusScript.Proofs.Run.Reopening
import BusScript.Proofs.Script.Faults
import BusScript.Proofs.Run.Unreadable
import BusScript.Proofs.Run.Outstanding
import BusScript.Proofs.Run.Diagnostics
import BusScript.Proofs.Run.Polling
import BusScript.Proofs.Run.Scoring
import BusScript.Proofs.Script.Reference
import BusScript.Proofs.Command.Respelled
import BusScript.Proofs.Command.Widening
import BusScript.Proofs.Command.Cutting
import BusScript.Proofs.Command.Hexadecimal
import BusScript.Proofs.Memory.History
import BusScript.Proofs.Bench.Loads
import BusScript.Proofs.Bench.Settling
import BusScript.Proofs.Number.Numeral
import BusScript.Proofs.Memory.Marks
import BusScript.Proofs.Memory.Format
import BusScript.Proofs.Memory.Placement
import BusScript.Proofs.Memory.Comments
import BusScript.Proofs.Trace.Csv
import BusScript.Proofs.Trace.JsonLines
import BusScript.Proofs.Run.Shown
import BusScript.Proofs.Run.Metered
import BusScript.Proofs.Bus.Container
import BusScript.Proofs.Command.Taking
import BusScript.Proofs.Config.Overrides
