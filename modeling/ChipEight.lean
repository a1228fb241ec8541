import ChipEight.CallStack
import ChipEight.Clock
import ChipEight.CommandLine.Settings
import ChipEight.CommandLine.Switch
import ChipEight.CommandLine.Word
import ChipEight.Event
import ChipEight.Fault
import ChipEight.FileTree
import ChipEight.Instruction
import ChipEight.Keypad
import ChipEight.Log
import ChipEight.Machine
import ChipEight.Main
import ChipEight.Memory
import ChipEight.Opcode
import ChipEight.Pacer
import ChipEight.Processor.Basic
import ChipEight.Processor.Execute
import ChipEight.Processor.Step
import ChipEight.Processor.Trace
import ChipEight.Registers
import ChipEight.Screen
import ChipEight.Session
import ChipEight.Text.Nearest
import ChipEight.Text.Numeral
import ChipEight.Text.Printable
import ChipEight.Text.Quoted
import ChipEight.Window.Basic
import ChipEight.Window.HostKey
import ChipEight.Window.Picture
import ChipEight.Proofs.Effect
import ChipEight.Proofs.Step
import ChipEight.Proofs.Action
import ChipEight.Proofs.Allowed
import ChipEight.Proofs.Memory
import ChipEight.Proofs.Bounds
import ChipEight.Proofs.Calls
import ChipEight.Proofs.Pacing
import ChipEight.Proofs.Course
import ChipEight.Proofs.Decoding
import ChipEight.Proofs.InRange
import ChipEight.Proofs.Isolation
import ChipEight.Proofs.Refusal
import ChipEight.Proofs.Queue
import ChipEight.Proofs.Suspension
import ChipEight.Proofs.Deadlines
import ChipEight.Proofs.Happening
import ChipEight.Proofs.Picture
import ChipEight.Proofs.Events
import ChipEight.Proofs.Protocol
import ChipEight.Proofs.Alike
import ChipEight.Proofs.Bare
import ChipEight.Proofs.Uncontrolled
import ChipEight.Proofs.Pause
import ChipEight.Proofs.Hexadecimal
import ChipEight.Proofs.Tracing
import ChipEight.Proofs.WriteSet
import ChipEight.Proofs.Keys
import ChipEight.Proofs.Timers
import ChipEight.Proofs.Blocks
import ChipEight.Proofs.Capped
import ChipEight.Proofs.Sprite
import ChipEight.Proofs.Shifts
import ChipEight.Proofs.ExitStatus
import ChipEight.Proofs.Arithmetic
import ChipEight.Proofs.ControlFlow
import ChipEight.Proofs.Saving
import ChipEight.Proofs.Accessors
import ChipEight.Proofs.Image
import ChipEight.Proofs.Halted
import ChipEight.Proofs.Resumption
