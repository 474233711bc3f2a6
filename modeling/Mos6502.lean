import Mos6502.Main
import Mos6502.Proofs.Run.Ending
import Mos6502.Proofs.Instruction.Address
import Mos6502.Proofs.Instruction.Footprint
import Mos6502.Proofs.Instruction.Locality
import Mos6502.Proofs.Stack.Discipline
import Mos6502.Proofs.Arithmetic.Integers
import Mos6502.Proofs.Instruction.Semantics
import Mos6502.Proofs.Instruction.Advance
import Mos6502.Proofs.Run.StraightLine
import Mos6502.Proofs.Arithmetic.Digits
import Mos6502.Proofs.Run.Multibyte
import Mos6502.Proofs.SaveState.Reading
import Mos6502.Proofs.SaveState.Acceptance
import Mos6502.Proofs.Instruction.Cost
import Mos6502.Proofs.Run.Bounds
import Mos6502.Proofs.Run.CycleCounter
import Mos6502.Proofs.Run.Truncation
import Mos6502.Proofs.Log.Notice
import Mos6502.Proofs.Log.Transcript
import Mos6502.Proofs.Instruction.Resolution
import Mos6502.Proofs.Instruction.Charge
import Mos6502.Proofs.Log.Ration
import Mos6502.Proofs.Program.Rows
import Mos6502.Proofs.Program.Outcome
import Mos6502.Proofs.Instruction.Continuation
import Mos6502.Proofs.Arithmetic.Decimal
import Mos6502.Proofs.Log.Verdicts
import Mos6502.Proofs.Log.Course
import Mos6502.Proofs.Log.Reports
import Mos6502.Proofs.Memory.Wrapping
import Mos6502.Proofs.Program.Listing.Grammar
import Mos6502.Proofs.Program.Readback
import Mos6502.Proofs.Program.Address
