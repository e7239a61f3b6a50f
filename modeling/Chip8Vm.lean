import Chip8Vm.HexPad.Wait
import Chip8Vm.Main
import Chip8Vm.Pace.Script
import Chip8Vm.Random.ChaCha
import Chip8Vm.Terminal.Watch
import Chip8Vm.Proofs.Console.Step
import Chip8Vm.Proofs.Pace.Turn
import Chip8Vm.Proofs.Console.InTune
import Chip8Vm.Proofs.Session.Release
import Chip8Vm.Proofs.Console.Unnoted
import Chip8Vm.Proofs.Pace.Timetable
import Chip8Vm.Proofs.Pace.Steady
import Chip8Vm.Proofs.Pace.OnTime
import Chip8Vm.Proofs.Pace.Exact
import Chip8Vm.Proofs.Bare.Machine
import Chip8Vm.Proofs.Bare.Opcode
import Chip8Vm.Proofs.Bare.Work
import Chip8Vm.Proofs.Bare.Simulation
import Chip8Vm.Proofs.Console.Operation
import Chip8Vm.Proofs.Bare.Picture
import Chip8Vm.Proofs.Bare.Step
import Chip8Vm.Proofs.Bare.Console
import Chip8Vm.Proofs.Console.History
import Chip8Vm.Proofs.Machine.Step
import Chip8Vm.Proofs.Console.Faults
import Chip8Vm.Proofs.Console.Nesting
import Chip8Vm.Proofs.Console.KeyWait
import Chip8Vm.Proofs.Device.Showing
import Chip8Vm.Proofs.Console.Shown
import Chip8Vm.Proofs.Session.Shown
import Chip8Vm.Proofs.Ram.Outside
import Chip8Vm.Proofs.Machine.Confined
import Chip8Vm.Proofs.Console.ToneOrder
import Chip8Vm.Proofs.Session.Silence
import Chip8Vm.Proofs.Pace.Starts
import Chip8Vm.Proofs.Pace.Ending
import Chip8Vm.Proofs.Console.Confined
import Chip8Vm.Proofs.Console.Glyphs
import Chip8Vm.Proofs.Console.Failure
import Chip8Vm.Proofs.Machine.Flow
import Chip8Vm.Proofs.Console.Flow
import Chip8Vm.Proofs.Console.Commute
import Chip8Vm.Proofs.Console.Countdown
import Chip8Vm.Proofs.Opcode.Pattern
import Chip8Vm.Proofs.Bitmap.Blit
import Chip8Vm.Proofs.HexPad.History
import Chip8Vm.Proofs.HexPad.Contention
import Chip8Vm.Proofs.Ram.Written
import Chip8Vm.Proofs.Console.Loading
import Chip8Vm.Proofs.Bitmap.Order
import Chip8Vm.Proofs.Machine.Transfer
import Chip8Vm.Proofs.Console.Transfer
import Chip8Vm.Proofs.Machine.Arithmetic
import Chip8Vm.Proofs.Console.Arithmetic
import Chip8Vm.Proofs.Pace.Sleeps
import Chip8Vm.Proofs.Bitmap.Text
import Chip8Vm.Proofs.Terminal.Planes
import Chip8Vm.Proofs.Terminal.Keystroke
import Chip8Vm.Proofs.Terminal.Agreement
import Chip8Vm.Proofs.Console.RandomBytes
import Chip8Vm.Proofs.Opcode.Disassembly
import Chip8Vm.Proofs.Console.TraceLog
import Chip8Vm.Proofs.Bitmap.Access
import Chip8Vm.Proofs.Ram.Calls
import Chip8Vm.Proofs.Ram.Around
import Chip8Vm.Proofs.Pace.Deadline
