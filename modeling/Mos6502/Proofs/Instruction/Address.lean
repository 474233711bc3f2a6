import Mos6502.Cpu.Step

/-!
# The address an instruction names

The operand of the instruction at the program counter, said for each addressing mode by
what stands in memory: `operandByte` and `operandWord` are the bytes after the opcode, and
`effectiveAddress` is the cell they lead to, where the mode leads to one.  `operand_eq` is
what `Cpu.resolve` finds in these terms; later files use it instead of `Cpu.resolve`.
-/

namespace Mos6502.Cpu

/-- The byte after the opcode. -/
def operandByte (cpu : Cpu) : Byte :=
  cpu.memory.read (cpu.pc + 1)

/-- The two bytes after the opcode as an address, low byte first. -/
def operandWord (cpu : Cpu) : Word :=
  Word.ofBytes (cpu.memory.read (cpu.pc + 2)) (cpu.memory.read (cpu.pc + 1))

/-- The cell that the instruction at the program counter names, if its mode leads to one. -/
def effectiveAddress (cpu : Cpu) : Option Word :=
  match cpu.opcode.mode with
  | .implied | .accumulator | .immediate | .relative => none
  | .zeroPage => some (Word.zeroPage cpu.operandByte)
  | .zeroPageX => some (Word.zeroPage (cpu.operandByte + cpu.x))
  | .zeroPageY => some (Word.zeroPage (cpu.operandByte + cpu.y))
  | .absolute => some cpu.operandWord
  | .absoluteX => some (cpu.operandWord + cpu.x.toUInt16)
  | .absoluteY => some (cpu.operandWord + cpu.y.toUInt16)
  | .indirect => some (cpu.memory.jumpPointer cpu.operandWord)
  | .indirectX => some (cpu.memory.zeroPagePointer (cpu.operandByte + cpu.x))
  | .indirectY => some (cpu.memory.zeroPagePointer cpu.operandByte + cpu.y.toUInt16)

/-- The byte that the instruction at the program counter works on: the accumulator, the
operand byte itself or the cell it names.  Some modes name no byte. -/
def selectedByte (cpu : Cpu) : Option Byte :=
  match cpu.opcode.mode with
  | .accumulator => some cpu.a
  | .immediate => some cpu.operandByte
  | _ => cpu.effectiveAddress.map cpu.memory.read

/-! ## What resolving finds -/

theorem operand_eq (cpu : Cpu) :
    cpu.operand =
      match cpu.opcode.mode with
      | .implied => .plain .implied
      | .accumulator => .plain .accumulator
      | .immediate => .plain (.immediate cpu.operandByte)
      | .zeroPage => .plain (.address (Word.zeroPage cpu.operandByte))
      | .zeroPageX => .plain (.address (Word.zeroPage (cpu.operandByte + cpu.x)))
      | .zeroPageY => .plain (.address (Word.zeroPage (cpu.operandByte + cpu.y)))
      | .relative => .plain (.relative cpu.operandByte.toInt8)
      | .absolute => .plain (.address cpu.operandWord)
      | .absoluteX => .indexed cpu.operandWord cpu.x
      | .absoluteY => .indexed cpu.operandWord cpu.y
      | .indirect => .plain (.address (cpu.memory.jumpPointer cpu.operandWord))
      | .indirectX => .plain (.address (cpu.memory.zeroPagePointer (cpu.operandByte + cpu.x)))
      | .indirectY => .indexed (cpu.memory.zeroPagePointer cpu.operandByte) cpu.y := by
  have hnext : cpu.pc + 1 + 1 = cpu.pc + 2 := by
    rw [UInt16.add_assoc]
    rfl
  unfold operand
  cases cpu.opcode.mode <;> simp only [resolve, fetch, fetchWord, hnext] <;> rfl

/-- The operand is a cell exactly when the mode leads to one, and then it is that cell. -/
theorem operand_eq_address_iff {cpu : Cpu} {address : Word} :
    cpu.operand.operand = .address address ↔ cpu.effectiveAddress = some address := by
  rw [operand_eq]
  unfold effectiveAddress
  cases cpu.opcode.mode <;> simp [Resolved.plain, Resolved.indexed]

theorem operand_of_accumulator {cpu : Cpu} (hmode : cpu.opcode.mode = .accumulator) :
    cpu.operand.operand = .accumulator := by
  rw [operand_eq, hmode]
  rfl

/-- The byte that an operand stands for when the instruction is about to be performed. -/
theorem value_of_selectedByte {cpu : Cpu} {byte : Byte}
    (hbyte : cpu.selectedByte = some byte) : cpu.ready.value cpu.operand.operand = byte := by
  unfold selectedByte effectiveAddress at hbyte
  rw [operand_eq]
  cases hmode : cpu.opcode.mode <;> simp only [hmode] at hbyte <;> cases hbyte <;> rfl

end Mos6502.Cpu
