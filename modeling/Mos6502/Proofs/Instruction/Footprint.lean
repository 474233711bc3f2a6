import Mos6502.Proofs.Instruction.Address

/-!
# The cells an instruction reads and writes

The footprint of the instruction at the program counter, as lists of cells:

* it reads `instructionCells`, the opcode and its operand bytes; `pointerCells`, where an
  indirect mode finds an address; `operandCells`, the cell it names if the operation looks at
  it; and `pulledCells`, what it takes from the stack;
* it writes `storedCells`, the cell it names if the operation replaces it, and `pushedCells`.

`perform_withMemory` is the one place where the operations are gone through.  It runs an
operation with another memory in place: as long as that memory holds the same bytes in the
cells that the operation reads, all that differs afterwards is the memory, and it is the
other memory with `writes` carried out.
-/

namespace Mos6502

/-! ## Kinds of operations -/

namespace Operation

/-- The operations that look at the byte their operand names. -/
def readsOperand : Operation → Bool
  | lda | ldx | ldy | and | ora | eor | adc | sbc | cmp | cpx | cpy | bit
  | inc | dec | asl | lsr | rol | ror => true
  | _ => false

/-- The operations that put a byte where their operand leads to. -/
def writesOperand : Operation → Bool
  | sta | stx | sty | inc | dec | asl | lsr | rol | ror => true
  | _ => false

/-- How many bytes an operation pushes. -/
def pushedBytes : Operation → Nat
  | jsr => 2
  | pha | php => 1
  | _ => 0

/-- How many bytes an operation pulls. -/
def pulledBytes : Operation → Nat
  | rti => 3
  | rts => 2
  | pla | plp => 1
  | _ => 0

end Operation

/-- An operation that looks at its operand has a mode that names a byte, and one that replaces
it a mode that leads to a place; a register is never stored to the accumulator. -/
theorem Opcode.mode_of_decode (byte : Byte) :
    ((decode byte).operation.readsOperand = true → (decode byte).mode ∉ [.implied, .relative]) ∧
    ((decode byte).operation.writesOperand = true →
      (decode byte).mode ∉ [.implied, .immediate, .relative]) ∧
    ((decode byte).operation ∈ [.sta, .stx, .sty] → (decode byte).mode ≠ .accumulator) :=
  forall_decode (p := fun o =>
    (o.operation.readsOperand = true → o.mode ∉ [.implied, .relative]) ∧
    (o.operation.writesOperand = true → o.mode ∉ [.implied, .immediate, .relative]) ∧
    (o.operation ∈ [.sta, .stx, .sty] → o.mode ≠ .accumulator)) (by decide +kernel) byte

/-! ## The footprint -/

namespace Cpu

/-- The cells of the opcode and its operand bytes. -/
def instructionCells (cpu : Cpu) : List Word :=
  (List.range cpu.opcode.size).map fun i => cpu.pc + UInt16.ofNat i

/-- The cells in which an indirect mode finds an address, low byte first. -/
def pointerCells (cpu : Cpu) : List Word :=
  match cpu.opcode.mode with
  | .indirect => [cpu.operandWord, Word.nextInPage cpu.operandWord]
  | .indirectX =>
      [Word.zeroPage (cpu.operandByte + cpu.x), Word.zeroPage (cpu.operandByte + cpu.x + 1)]
  | .indirectY => [Word.zeroPage cpu.operandByte, Word.zeroPage (cpu.operandByte + 1)]
  | _ => []

/-- The cell that the instruction names, if the operation looks at it. -/
def operandCells (cpu : Cpu) : List Word :=
  if cpu.opcode.operation.readsOperand then cpu.effectiveAddress.toList else []

/-- The cells in page one that an operation pulls, first to last. -/
def cellsPulledBy (cpu : Cpu) (operation : Operation) : List Word :=
  (List.range operation.pulledBytes).map fun i => Word.stack (cpu.sp + UInt8.ofNat (i + 1))

def pulledCells (cpu : Cpu) : List Word :=
  cpu.cellsPulledBy cpu.opcode.operation

/-- Every cell that the instruction at the program counter reads. -/
def readCells (cpu : Cpu) : List Word :=
  cpu.instructionCells ++ cpu.pointerCells ++ cpu.operandCells ++ cpu.pulledCells

/-- The cell that the instruction names, if the operation replaces it. -/
def storedCells (cpu : Cpu) : List Word :=
  if cpu.opcode.operation.writesOperand then cpu.effectiveAddress.toList else []

/-- The cells in page one that the instruction pushes to, first to last. -/
def pushedCells (cpu : Cpu) : List Word :=
  (List.range cpu.opcode.operation.pushedBytes).map fun i => Word.stack (cpu.sp - UInt8.ofNat i)

/-- Every cell that the instruction at the program counter writes. -/
def writtenCells (cpu : Cpu) : List Word :=
  cpu.storedCells ++ cpu.pushedCells

end Cpu

/-! ## Bytes written, with their cells -/

namespace Memory

/-- Bytes are written to their cells, first to last. -/
def writeAll (m : Memory) (writes : List (Word × Byte)) : Memory :=
  writes.foldl (fun m entry => m.write entry.1 entry.2) m

theorem read_writeAll_of_notMem {writes : List (Word × Byte)} {cell : Word}
    (hcell : cell ∉ writes.map Prod.fst) (m : Memory) :
    (m.writeAll writes).read cell = m.read cell := by
  induction writes generalizing m with
  | nil => rfl
  | cons entry rest ih =>
      rw [List.map_cons, List.mem_cons, not_or] at hcell
      exact (ih hcell.2 _).trans (read_write_of_ne _ _ (Ne.symm hcell.1))

end Memory

/-- The byte that goes to the cell an operand names, if it names one. -/
def Operand.stored (operand : Operand) (byte : Byte) : List (Word × Byte) :=
  match operand with
  | .address cell => [(cell, byte)]
  | _ => []

namespace Cpu

/-- The bytes that an operation writes to memory, each with its cell, first to last. -/
def writes (cpu : Cpu) (operation : Operation) (operand : Operand) : List (Word × Byte) :=
  match operation with
  | .sta => operand.stored cpu.a
  | .stx => operand.stored cpu.x
  | .sty => operand.stored cpu.y
  | .inc => operand.stored (cpu.value operand + 1)
  | .dec => operand.stored (cpu.value operand - 1)
  | .asl => operand.stored (Arithmetic.shiftLeft (cpu.value operand)).value
  | .lsr => operand.stored (Arithmetic.shiftRight (cpu.value operand)).value
  | .rol => operand.stored (Arithmetic.rotateLeft (cpu.value operand) cpu.flags.carry).value
  | .ror => operand.stored (Arithmetic.rotateRight (cpu.value operand) cpu.flags.carry).value
  | .pha => [(Word.stack cpu.sp, cpu.a)]
  | .php => [(Word.stack cpu.sp, cpu.flags.pack)]
  | .jsr =>
      match operand with
      | .address _ =>
          [(Word.stack cpu.sp, Word.high (cpu.pc - 1)),
            (Word.stack (cpu.sp - 1), Word.low (cpu.pc - 1))]
      | _ => []
  | _ => []

/-- An operation does to a machine with another memory what it does to the machine itself,
provided that the two memories hold the same bytes in the cells that the operation reads. -/
theorem perform_withMemory (cpu : Cpu) (m : Memory) (operation : Operation) (operand : Operand)
    (hvalue : operation.readsOperand = true →
      value { cpu with memory := m } operand = cpu.value operand)
    (hpulled : ∀ cell ∈ cpu.cellsPulledBy operation, m.read cell = cpu.memory.read cell) :
    perform { cpu with memory := m } operation operand =
      (cpu.perform operation operand).map fun after =>
        { after with memory := m.writeAll (cpu.writes operation operand) } := by
  have hread : ∀ i < operation.pulledBytes,
      m.read (Word.stack (cpu.sp + UInt8.ofNat (i + 1))) =
        cpu.memory.read (Word.stack (cpu.sp + UInt8.ofNat (i + 1))) :=
    fun i hi => hpulled _ (List.mem_map_of_mem (List.mem_range.mpr hi))
  -- the stack pointer moves up one place at a time, the footprint counts from where it stood
  have htwo : cpu.sp + 1 + 1 = cpu.sp + UInt8.ofNat 2 := UInt8.add_assoc ..
  have hthree : cpu.sp + UInt8.ofNat 2 + 1 = cpu.sp + UInt8.ofNat 3 := UInt8.add_assoc ..
  cases operation
  case lda | ldx | ldy | and | ora | eor | adc | sbc | cmp | cpx | cpy | bit =>
    simp only [perform, hvalue rfl]
    rfl
  case sta | stx | sty => cases operand <;> rfl
  case asl | lsr | rol | ror | inc | dec =>
    simp only [perform, hvalue rfl]
    cases operand <;> rfl
  case jmp | jsr => cases operand <;> rfl
  case bcc | bcs | bne | beq | bpl | bmi | bvc | bvs =>
    cases operand
    case relative => simp only [perform, branch]; split <;> rfl
    all_goals rfl
  case pla | plp =>
    have hfirst : m.read (Word.stack (cpu.sp + 1)) = _ := hread 0 (by decide)
    simp only [perform, Effect.pull, Effect.still, pull, hfirst]
    rfl
  case rts =>
    have hfirst : m.read (Word.stack (cpu.sp + 1)) = _ := hread 0 (by decide)
    have hsecond := hread 1 (by decide)
    simp only [perform, returnTo, Effect.pull, Effect.still, pull, htwo, hfirst, hsecond]
    rfl
  case rti =>
    have hfirst : m.read (Word.stack (cpu.sp + 1)) = _ := hread 0 (by decide)
    have hsecond := hread 1 (by decide)
    have hthird := hread 2 (by decide)
    simp only [perform, returnTo, Effect.pull, Effect.still, Effect.map, pull, htwo, hthree,
      hfirst, hsecond, hthird]
    rfl
  all_goals rfl

/-! ## The writes of a step -/

theorem registers_step (cpu : Cpu) :
    cpu.step.cpu.toRegisters =
      (cpu.ready.perform cpu.opcode.operation cpu.operand.operand).cpu.toRegisters := by
  rw [step_eq]

/-- A step leaves memory as it was but for the bytes that its operation writes. -/
theorem memory_step (cpu : Cpu) :
    cpu.step.cpu.memory =
      cpu.memory.writeAll (cpu.ready.writes cpu.opcode.operation cpu.operand.operand) := by
  have hsame := perform_withMemory cpu.ready cpu.memory cpu.opcode.operation
    cpu.operand.operand (fun _ => rfl) (fun _ _ => rfl)
  rw [step_eq]
  exact congrArg (fun effect : Effect => effect.cpu.memory) hsame

theorem map_fst_stored (cpu : Cpu) (byte : Byte) :
    (cpu.operand.operand.stored byte).map Prod.fst = cpu.effectiveAddress.toList := by
  cases hoperand : cpu.operand.operand with
  | address cell =>
      rw [operand_eq_address_iff.mp hoperand]
      rfl
  | _ =>
      have hnone : cpu.effectiveAddress = none := by
        refine Option.eq_none_iff_forall_ne_some.mpr fun address haddress => ?_
        rw [operand_eq_address_iff.mpr haddress] at hoperand
        cases hoperand
      rw [hnone]
      rfl

theorem mode_of_jsr {cpu : Cpu} (hjsr : cpu.opcode.operation = .jsr) :
    cpu.opcode.mode = .absolute :=
  Opcode.forall_decode (p := fun o => o.operation = .jsr → o.mode = .absolute)
    (by decide +kernel) _ hjsr

/-- A call names its target in the two bytes after the opcode. -/
theorem effectiveAddress_of_jsr {cpu : Cpu} (hjsr : cpu.opcode.operation = .jsr) :
    cpu.effectiveAddress = some cpu.operandWord := by
  rw [effectiveAddress, mode_of_jsr hjsr]

/-- The cells that a step writes are the one its operation stores to and those it pushes to. -/
theorem map_fst_writes (cpu : Cpu) :
    (cpu.ready.writes cpu.opcode.operation cpu.operand.operand).map Prod.fst =
      cpu.writtenCells := by
  unfold writtenCells storedCells pushedCells
  cases hoperation : cpu.opcode.operation
  case sta | stx | sty | inc | dec | asl | lsr | rol | ror =>
    simp only [writes, map_fst_stored]
    exact (List.append_nil _).symm
  case jsr =>
    rw [operand_eq_address_iff.mpr (effectiveAddress_of_jsr hoperation)]
    simp [writes, Operation.writesOperand, Operation.pushedBytes, List.range_succ, ready]
  case pha | php => simp [writes, Operation.writesOperand, Operation.pushedBytes, ready]
  all_goals rfl

/-- A step changes no cell outside its footprint. -/
theorem read_step_of_notMem {cpu : Cpu} {cell : Word} (hcell : cell ∉ cpu.writtenCells) :
    cpu.step.cpu.memory.read cell = cpu.memory.read cell := by
  rw [← map_fst_writes] at hcell
  rw [memory_step, Memory.read_writeAll_of_notMem hcell]

end Cpu

end Mos6502
