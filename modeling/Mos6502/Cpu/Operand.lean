import Mos6502.Cpu.Basic
import Mos6502.Instruction.Mode

/-!
# Operands

How an addressing mode finds what an instruction works on.  Resolving a mode consumes
exactly its operand bytes at the program counter (`resolve_snd`) and tells whether an
index carried into another page.
-/

namespace Mos6502

/-- What an instruction works on. -/
inductive Operand where
  /-- Nothing. -/
  | implied
  /-- The accumulator. -/
  | accumulator
  /-- A byte of the instruction itself. -/
  | immediate (value : Byte)
  /-- A cell, or a place to jump to. -/
  | address (address : Word)
  /-- A signed distance from the next instruction. -/
  | relative (distance : Int8)
deriving DecidableEq, Repr

/-- An operand, and whether indexing changed the page of its address. -/
structure Resolved where
  operand : Operand
  pageCrossed : Bool
deriving DecidableEq, Repr

namespace Resolved

/-- An operand that was found without crossing a page. -/
def plain (operand : Operand) : Resolved :=
  ⟨operand, false⟩

/-- The cell at an index from a base address. -/
def indexed (base : Word) (index : Byte) : Resolved :=
  let address := base + index.toUInt16
  ⟨.address address, !Word.samePage base address⟩

end Resolved

namespace Memory

/-- The address stored in page zero; after place 255 comes place 0. -/
def zeroPagePointer (m : Memory) (place : Byte) : Word :=
  Word.ofBytes (m.read (Word.zeroPage (place + 1))) (m.read (Word.zeroPage place))

/-- The address that an indirect jump reads: its two bytes come from one page, so after the
last place of the page comes the first. -/
def jumpPointer (m : Memory) (pointer : Word) : Word :=
  Word.ofBytes (m.read (Word.nextInPage pointer)) (m.read pointer)

end Memory

namespace Cpu

/-- The operand that a mode names, with the program counter at the first operand byte; the
program counter moves past the operand. -/
def resolve (cpu : Cpu) : Mode → Resolved × Cpu
  | .implied => (.plain .implied, cpu)
  | .accumulator => (.plain .accumulator, cpu)
  | .immediate =>
      let (byte, cpu) := cpu.fetch
      (.plain (.immediate byte), cpu)
  | .zeroPage =>
      let (byte, cpu) := cpu.fetch
      (.plain (.address (Word.zeroPage byte)), cpu)
  | .zeroPageX =>
      let (byte, cpu) := cpu.fetch
      (.plain (.address (Word.zeroPage (byte + cpu.x))), cpu)
  | .zeroPageY =>
      let (byte, cpu) := cpu.fetch
      (.plain (.address (Word.zeroPage (byte + cpu.y))), cpu)
  | .relative =>
      let (byte, cpu) := cpu.fetch
      (.plain (.relative byte.toInt8), cpu)
  | .absolute =>
      let (address, cpu) := cpu.fetchWord
      (.plain (.address address), cpu)
  | .absoluteX =>
      let (base, cpu) := cpu.fetchWord
      (.indexed base cpu.x, cpu)
  | .absoluteY =>
      let (base, cpu) := cpu.fetchWord
      (.indexed base cpu.y, cpu)
  | .indirect =>
      let (pointer, cpu) := cpu.fetchWord
      (.plain (.address (cpu.memory.jumpPointer pointer)), cpu)
  | .indirectX =>
      let (byte, cpu) := cpu.fetch
      (.plain (.address (cpu.memory.zeroPagePointer (byte + cpu.x))), cpu)
  | .indirectY =>
      let (byte, cpu) := cpu.fetch
      (.indexed (cpu.memory.zeroPagePointer byte) cpu.y, cpu)

/-- The byte that an operand stands for. -/
def value (cpu : Cpu) : Operand → Byte
  | .immediate byte => byte
  | .address address => cpu.memory.read address
  | .accumulator => cpu.a
  | .implied | .relative _ => 0

/-- A byte goes back to where the operand came from, if that is a cell or the accumulator. -/
def store (cpu : Cpu) (operand : Operand) (byte : Byte) : Cpu :=
  match operand with
  | .address address => { cpu with memory := cpu.memory.write address byte }
  | .accumulator => { cpu with a := byte }
  | .implied | .immediate _ | .relative _ => cpu

/-! ## What resolving leaves alone -/

/-- Resolving moves the program counter past the operand bytes and changes nothing else. -/
@[simp]
theorem resolve_snd (cpu : Cpu) (mode : Mode) :
    (cpu.resolve mode).2 = { cpu with pc := cpu.pc + UInt16.ofNat mode.operandBytes } := by
  have htwo : cpu.pc + 1 + 1 = cpu.pc + 2 := by
    rw [UInt16.add_assoc]
    rfl
  cases mode <;> simp [resolve, fetch, fetchWord, Mode.operandBytes, htwo]

end Cpu

end Mos6502
