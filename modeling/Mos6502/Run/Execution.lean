import Mos6502.Cpu.Step
import Mos6502.Run.Machine

/-!
# Running a program

A program is written to memory and run from its first byte until the program counter leaves
its bytes.  A program that does not end below the top of memory is refused, and then the
machine stays as it was.
-/

namespace Mos6502

/-- Why a program was not run to its end. -/
inductive RunError where
  /-- The program does not end below the top of memory. -/
  | outOfRange (entry : Word) (length : Nat)
  /-- A bound was met, with the program counter among the program's bytes. -/
  | limitReached (tally : Tally) (pc : Word)
deriving DecidableEq, Repr

/-- The text of an error. -/
def RunError.message : RunError → String
  | .outOfRange entry length =>
      "program of " ++ toString length ++ " bytes at $" ++ Word.hex entry
        ++ " does not fit below $10000"
  | .limitReached tally pc =>
      "run limit reached after " ++ toString tally.instructions ++ " instructions ("
        ++ toString tally.cycles ++ " cycles) at PC=" ++ Word.hex pc

/-- What became of a program: the state it left and what it did, or why it was not run to
its end. -/
structure Execution (σ : Type) where
  state : σ
  result : Except RunError Tally

namespace Cpu

/-- The machine that executes instructions and nothing else. -/
def machine : Machine Cpu where
  pc cpu := cpu.pc
  step cpu :=
    let effect := cpu.step
    (effect.cpu, effect.cycles)

/-- A program is written to memory and the program counter put at its first byte. -/
def loadProgram (cpu : Cpu) (entry : Word) (program : List Byte) : Cpu :=
  { cpu with memory := cpu.memory.load entry program, pc := entry }

/-- The answer to whoever asked for a run. -/
def conclude (run : Run Cpu) : Execution Cpu :=
  match run.ending with
  | .left => ⟨run.state, .ok run.tally⟩
  | .limited => ⟨run.state, .error (.limitReached run.tally run.state.pc)⟩

/-- A program is loaded and run; `none` means that it was still going when the number of
instructions to spend was spent. -/
def execute (cpu : Cpu) (entry : Word) (program : List Byte) (limit : Limit) (fuel : Nat) :
    Option (Execution Cpu) :=
  let window : Window := ⟨entry, program.length⟩
  if window.fits then
    (machine.run window limit fuel .zero (cpu.loadProgram entry program)).map conclude
  else
    some ⟨cpu, .error (.outOfRange entry program.length)⟩

end Cpu

end Mos6502
