import Dcpu16.Json.Instruction
import Dcpu16.Main
import Dcpu16.Proofs.Assembly.Meaning
import Dcpu16.Proofs.Assembly.Layout
import Dcpu16.Proofs.Assembly.OneShot
import Dcpu16.Proofs.Traversal
import Dcpu16.Proofs.Assembly.Decoded
import Dcpu16.Proofs.Machine.Contents
import Dcpu16.Proofs.Machine.Located
import Dcpu16.Proofs.Machine.Accesses
import Dcpu16.Proofs.Machine.Effects
import Dcpu16.Proofs.Machine.Executions
import Dcpu16.Proofs.Processor.Step
import Dcpu16.Proofs.Processor.Dataflow
import Dcpu16.Proofs.Processor.ControlFlow
import Dcpu16.Proofs.Processor.Subroutine
import Dcpu16.Proofs.Processor.Updates
import Dcpu16.Proofs.Processor.Agreement
import Dcpu16.Proofs.Text.Lines
import Dcpu16.Proofs.Source.Digits
import Dcpu16.Proofs.Source.Scanning
import Dcpu16.Proofs.Source.Rendering
import Dcpu16.Proofs.Source.Numbers
import Dcpu16.Proofs.Listing.Sweep
import Dcpu16.Proofs.Listing.Written
import Dcpu16.Proofs.Listing.Rendered
import Dcpu16.Proofs.Listing.RoundTrip
import Dcpu16.Proofs.Machine.Changes
import Dcpu16.Proofs.Machine.Uniform
import Dcpu16.Proofs.Machine.Replay
import Dcpu16.Proofs.Machine.Journal
import Dcpu16.Proofs.Processor.Limits
import Dcpu16.Proofs.Processor.Operations
import Dcpu16.Proofs.Processor.Loading
import Dcpu16.Proofs.Processor.Images
import Dcpu16.Proofs.Processor.Journal
import Dcpu16.Proofs.Processor.Runs
import Dcpu16.Proofs.Machine.Stack
import Dcpu16.Proofs.Machine.Keyboard
import Dcpu16.Proofs.Machine.Captured
import Dcpu16.Proofs.Machine.StackPointer
import Dcpu16.Proofs.Image
import Dcpu16.Proofs.Arithmetic
import Dcpu16.Proofs.Processor.Faults
import Dcpu16.Proofs.CommandLine.Storage
import Dcpu16.Proofs.CommandLine.Tracing
import Dcpu16.Proofs.CommandLine.Reports
import Dcpu16.Proofs.CommandLine.Agreement
import Dcpu16.Proofs.Assembly.Problems
import Dcpu16.Proofs.Assembly.Diagnosis
import Dcpu16.Proofs.Arithmetic.Exact
import Dcpu16.Proofs.Processor.Halting
import Dcpu16.Proofs.Machine.ShortForms
import Dcpu16.Proofs.Processor.Frames
import Dcpu16.Proofs.Processor.JumpMark
import Dcpu16.Proofs.Processor.Decoding
import Dcpu16.Proofs.Listing.Coverage
import Dcpu16.Proofs.Assembly.TokenLines
import Dcpu16.Proofs.Assembly.Labels
import Dcpu16.Proofs.Assembly.LetterCase
