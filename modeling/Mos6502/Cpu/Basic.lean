import Mos6502.Flags
import Mos6502.Memory

/-!
# The machine

Registers, a cycle counter and memory.  This file holds the state, what a fresh machine
looks like, and the primitive movements from which instructions are made: fetching at the
program counter, pushing and pulling on page one, and replacing a register by a result.
-/

namespace Mos6502

/-- The registers of the processor. -/
structure Registers where
  /-- The accumulator. -/
  a : Byte
  /-- The first index register. -/
  x : Byte
  /-- The second index register. -/
  y : Byte
  /-- The place in page one that the next push writes. -/
  sp : Byte
  /-- The address of the next byte to fetch. -/
  pc : Word
  flags : Flags
deriving DecidableEq, Repr

/-- The registers in one line, in hexadecimal, with the flags as letters. -/
def Registers.summary (r : Registers) : String :=
  "A=" ++ Byte.hex r.a ++ " X=" ++ Byte.hex r.x ++ " Y=" ++ Byte.hex r.y ++ " SP="
    ++ Byte.hex r.sp ++ " PC=" ++ Word.hex r.pc ++ " P=" ++ r.flags.text

/-- The whole machine. -/
structure Cpu extends Registers where
  /-- The cycles spent since power-on. -/
  cycles : UInt64
  memory : Memory
deriving DecidableEq

namespace Cpu

/-- The machine at power-on: all zero, except that the stack is empty. -/
def fresh : Cpu where
  a := 0
  x := 0
  y := 0
  sp := 0xFF
  pc := 0
  flags := Flags.clear
  cycles := 0
  memory := Memory.zero

/-- The first address of the display window. -/
def displayStart : Word := 0x0200

/-- The cells in one row of the display. -/
def displayWidth : Nat := 32

/-- The rows of the display. -/
def displayHeight : Nat := 32

/-- The cells of the display window, row by row. -/
def displayWindow (cpu : Cpu) : List Byte :=
  cpu.memory.slice displayStart (displayWidth * displayHeight)

/-! ## Fetching -/

/-- The byte at the program counter, which moves on by one. -/
@[inline]
def fetch (cpu : Cpu) : Byte × Cpu :=
  let byte := cpu.memory.read cpu.pc
  (byte, { cpu with pc := cpu.pc + 1 })

/-- The address at the program counter, low byte first; the program counter moves on by two. -/
@[inline]
def fetchWord (cpu : Cpu) : Word × Cpu :=
  let (low, cpu) := cpu.fetch
  let (high, cpu) := cpu.fetch
  (Word.ofBytes high low, cpu)

/-! ## The stack -/

/-- A byte is stored at the stack pointer, which then moves down inside page one. -/
def push (cpu : Cpu) (byte : Byte) : Cpu :=
  let cell := Word.stack cpu.sp
  { cpu with memory := cpu.memory.write cell byte, sp := cpu.sp - 1 }

/-- The stack pointer moves up inside page one, and the byte found there is taken. -/
def pull (cpu : Cpu) : Byte × Cpu :=
  let byte := cpu.memory.read (Word.stack (cpu.sp + 1))
  (byte, { cpu with sp := cpu.sp + 1 })

/-! ## Results -/

/-- The flags Z and N describe a result. -/
def withResult (cpu : Cpu) (result : Byte) : Cpu :=
  { cpu with flags := cpu.flags.withResult result }

/-- A result goes to the accumulator. -/
def setA (cpu : Cpu) (result : Byte) : Cpu :=
  { cpu with a := result, flags := cpu.flags.withResult result }

/-- A result goes to X. -/
def setX (cpu : Cpu) (result : Byte) : Cpu :=
  { cpu with x := result, flags := cpu.flags.withResult result }

/-- A result goes to Y. -/
def setY (cpu : Cpu) (result : Byte) : Cpu :=
  { cpu with y := result, flags := cpu.flags.withResult result }

/-- The carry is replaced, and Z and N describe a result. -/
def withCarry (cpu : Cpu) (carry : Bool) (result : Byte) : Cpu :=
  { cpu with flags := { cpu.flags with carry }.withResult result }

end Cpu

end Mos6502
