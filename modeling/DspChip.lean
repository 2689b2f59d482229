import DspChip.Main
import DspChip.Proofs.Assembly.Grammar
import DspChip.Proofs.Assembly.Layout
import DspChip.Proofs.Assembly.Listing
import DspChip.Proofs.Assembly.Number
import DspChip.Proofs.Catalog.Words
import DspChip.Proofs.Chip.Case
import DspChip.Proofs.Chip.Concatenation
import DspChip.Proofs.Chip.Confidentiality
import DspChip.Proofs.Chip.Dispatch
import DspChip.Proofs.Chip.Extension
import DspChip.Proofs.Chip.Faults
import DspChip.Proofs.Chip.Independence
import DspChip.Proofs.Chip.LineEndings
import DspChip.Proofs.Chip.Policy
import DspChip.Proofs.Chip.Representation
import DspChip.Proofs.Chip.Reset
import DspChip.Proofs.CommandLine.Agreement
import DspChip.Proofs.Descriptor.Written
import DspChip.Proofs.Instruction.Bits
import DspChip.Proofs.Instruction.Normal
import DspChip.Proofs.Instruction.Operands
import DspChip.Proofs.Instruction.Scan
import DspChip.Proofs.Instruction.Shift
import DspChip.Proofs.Instruction.Sum
import DspChip.Proofs.Number.Spelling
import DspChip.Proofs.Register.Dump
import DspChip.Proofs.Register.Resolution
import DspChip.Proofs.Register.Write
import DspChip.Proofs.Text.Case
import DspChip.Proofs.Text.Lines
import DspChip.Proofs.Trace.Limit
import DspChip.Proofs.Trace.Listing
import DspChip.Proofs.Trace.Replay
import DspChip.Proofs.Trace.Run
import DspChip.Proofs.Trace.Window
