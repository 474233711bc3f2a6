import Mos6502.Log.Category
import Mos6502.Log.Level
import Mos6502.Run.Execution

/-!
# Events

What a machine tells about itself.  An event is data; its text is made only when a line is
written.
-/

namespace Mos6502.Log

/-- Something that can be told. -/
inductive Event where
  /-- The opcode byte of an instruction was fetched, with the registers and the cycle
  counter before the instruction. -/
  | fetched (registers : Registers) (byte : Byte) (cycles : UInt64)
  /-- The byte has no meaning. -/
  | undocumented (byte : Byte) (pc : Word)
  /-- The instruction is a break. -/
  | breakpoint (pc : Word)
  /-- A byte was pushed or pulled. -/
  | stack (access : StackAccess)
  /-- A program was loaded and its run begins. -/
  | started (window : Window) (limit : Limit)
  /-- A run was cut short. -/
  | cutShort (tally : Tally) (pc : Word)
  /-- A run left the program. -/
  | leftWindow (tally : Tally) (pc : Word)
  /-- A message from outside the machine. -/
  | note (category : Category) (level : Level) (text : String)
deriving DecidableEq, Repr

namespace Event

/-- What an event is about. -/
def category : Event → Category
  | fetched .. | started .. | cutShort .. | leftWindow .. => .cpu
  | undocumented .. | breakpoint .. => .stubs
  | stack .. => .stack
  | note category .. => category

/-- How detailed an event is. -/
def level : Event → Level
  | fetched .. | stack .. => .trace
  | started .. | cutShort .. | leftWindow .. | breakpoint .. => .debug
  | undocumented .. => .warn
  | note _ level _ => level

/-- The text of an event. -/
def text : Event → String
  | fetched registers byte cycles =>
      let opcode := Opcode.decode byte
      Word.hex registers.pc ++ "  " ++ Byte.hex byte ++ "  " ++ opcode.operation.mnemonic ++ " "
        ++ opcode.mode.name ++ "  "
        ++ Registers.summary { registers with pc := registers.pc + 1 } ++ "  CYC="
        ++ toString cycles.toNat
  | undocumented byte pc =>
      "undocumented opcode $" ++ Byte.hex byte ++ " at " ++ Word.hex pc ++ " executed as NOP"
  | breakpoint pc => "BRK at " ++ Word.hex pc ++ ": no interrupt sequence, 7 cycles"
  | stack (.push byte cell) => "push " ++ Byte.hex byte ++ " -> " ++ Word.hex cell
  | stack (.pull byte cell) => "pull " ++ Byte.hex byte ++ " <- " ++ Word.hex cell
  | started window limit =>
      "run: " ++ toString window.length ++ " bytes at $" ++ Word.hex window.entry ++ ", limit "
        ++ limit.text
  | cutShort tally pc =>
      "run: limit reached after " ++ toString tally.instructions ++ " instructions at PC="
        ++ Word.hex pc
  | leftWindow tally pc =>
      "run: left window at PC=" ++ Word.hex pc ++ " after " ++ toString tally.instructions
        ++ " instructions, " ++ toString tally.cycles ++ " cycles"
  | note _ _ text => text

end Event

end Mos6502.Log

namespace Mos6502.Cpu

/-- What the machine tells before it executes its next instruction: what the instruction is,
and whether something stands in for what the byte would do. -/
def announcements (cpu : Cpu) : List Log.Event :=
  let byte := cpu.memory.read cpu.pc
  .fetched cpu.toRegisters byte cpu.cycles ::
    match (Opcode.decode byte).operation with
    | .undocumented => [.undocumented byte cpu.pc]
    | .brk => [.breakpoint cpu.pc]
    | _ => []

end Mos6502.Cpu
