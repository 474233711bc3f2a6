import Mathlib.Logic.Basic
import Mos6502.Proofs.Instruction.Footprint
import Mos6502.Run.Execution

/-!
# A step looks at its footprint only

Two machines with the same registers and cycle counter whose memories hold the same bytes in
the cells that the next instruction of the first one reads execute the same instruction with
the same operand (`opcode_withMemory`, `operand_withMemory`), at the same cost and with the
same outcome, and write the same bytes to the same cells (`step_withMemory`, `step_local`).
The second machine is the first one with another memory in place, which is the form in which
the lemmas treat it.
-/

namespace Mos6502.Cpu

section Reads

variable {cpu : Cpu} {m : Memory}
  (hread : ∀ cell ∈ cpu.readCells, m.read cell = cpu.memory.read cell)

include hread

theorem read_pc_add {i : Nat} (hi : i < cpu.opcode.size) :
    m.read (cpu.pc + UInt16.ofNat i) = cpu.memory.read (cpu.pc + UInt16.ofNat i) := by
  refine hread _ ?_
  simp only [readCells, instructionCells, List.mem_append, List.mem_map, List.mem_range]
  exact .inl (.inl (.inl ⟨i, hi, rfl⟩))

theorem read_pointer {cell : Word} (hcell : cell ∈ cpu.pointerCells) :
    m.read cell = cpu.memory.read cell := by
  refine hread _ ?_
  simp only [readCells, List.mem_append]
  exact .inl (.inl (.inr hcell))

theorem opcode_withMemory : opcode { cpu with memory := m } = cpu.opcode := by
  have hpc : m.read (cpu.pc + UInt16.ofNat 0) = cpu.memory.read (cpu.pc + UInt16.ofNat 0) :=
    read_pc_add hread (Opcode.size_decode _).1
  have hzero : cpu.pc + UInt16.ofNat 0 = cpu.pc := UInt16.add_zero _
  rw [hzero] at hpc
  exact congrArg Opcode.decode hpc

theorem operand_withMemory : operand { cpu with memory := m } = cpu.operand := by
  have hbyte : 1 ≤ cpu.opcode.mode.operandBytes →
      operandByte { cpu with memory := m } = cpu.operandByte :=
    fun hone => read_pc_add hread (i := 1) (Nat.add_lt_add_left hone 1)
  have hword : 2 ≤ cpu.opcode.mode.operandBytes →
      operandWord { cpu with memory := m } = cpu.operandWord := by
    intro htwo
    have hlow := hbyte (by omega)
    have hhigh := read_pc_add hread (i := 2) (Nat.add_lt_add_left htwo 1)
    exact congrArg₂ Word.ofBytes hhigh hlow
  have hpointer : ∀ cell ∈ cpu.pointerCells, m.read cell = cpu.memory.read cell :=
    fun cell hcell => read_pointer hread hcell
  rw [operand_eq, operand_eq, opcode_withMemory hread]
  unfold pointerCells at hpointer
  cases hmode : cpu.opcode.mode <;> rw [hmode] at hbyte hword hpointer
  case immediate | zeroPage | zeroPageX | zeroPageY | relative =>
    simp only [hbyte (by decide)]
  case absolute | absoluteX | absoluteY =>
    simp only [hword (by decide)]
  case indirect =>
    have haddress : m.jumpPointer cpu.operandWord = cpu.memory.jumpPointer cpu.operandWord :=
      congrArg₂ Word.ofBytes (hpointer _ (by simp)) (hpointer _ (by simp))
    simp only [hword (by decide), haddress]
  case indirectX =>
    have haddress : m.zeroPagePointer (cpu.operandByte + cpu.x) =
        cpu.memory.zeroPagePointer (cpu.operandByte + cpu.x) :=
      congrArg₂ Word.ofBytes (hpointer _ (by simp)) (hpointer _ (by simp))
    simp only [hbyte (by decide), haddress]
  case indirectY =>
    have haddress : m.zeroPagePointer cpu.operandByte =
        cpu.memory.zeroPagePointer cpu.operandByte :=
      congrArg₂ Word.ofBytes (hpointer _ (by simp)) (hpointer _ (by simp))
    simp only [hbyte (by decide), haddress]

theorem ready_withMemory : ready { cpu with memory := m } = { cpu.ready with memory := m } := by
  unfold ready
  rw [opcode_withMemory hread]

/-- The operation reads the cell that its operand names only if that is in the footprint. -/
theorem value_withMemory (hreads : cpu.opcode.operation.readsOperand = true) :
    value { cpu.ready with memory := m } cpu.operand.operand =
      cpu.ready.value cpu.operand.operand := by
  cases hoperand : cpu.operand.operand with
  | address cell =>
      refine hread cell ?_
      simp only [readCells, operandCells, hreads, operand_eq_address_iff.mp hoperand,
        List.mem_append]
      exact .inl (.inr (by simp))
  | _ => rfl

/-- A step of a machine with another memory in place that holds the same bytes in the cells
of the footprint: the cost is the same, and so is the outcome but for the memory. -/
theorem step_withMemory :
    step { cpu with memory := m } =
      cpu.step.map fun after =>
        { after with
          memory := m.writeAll
            (cpu.ready.writes cpu.opcode.operation cpu.operand.operand) } := by
  have hperform := perform_withMemory cpu.ready m cpu.opcode.operation cpu.operand.operand
    (value_withMemory hread) fun cell hcell => hread cell (List.mem_append_right _ hcell)
  rw [step_eq, step_eq, opcode_withMemory hread, operand_withMemory hread,
    ready_withMemory hread, hperform]
  rfl

end Reads

/-- Machines that agree in the registers, the cycle counter and the cells that the next
instruction reads execute it alike: at the same cost, to the same registers and counter, and
with the same bytes written to the same cells.  The cells written are those of
`writtenCells`; each machine keeps its own bytes in all others. -/
theorem step_local {s t : Cpu} (hregisters : s.toRegisters = t.toRegisters)
    (hcycles : s.cycles = t.cycles)
    (hread : ∀ cell ∈ s.readCells, s.memory.read cell = t.memory.read cell) :
    s.step.cycles = t.step.cycles ∧
      s.step.cpu.toRegisters = t.step.cpu.toRegisters ∧
      s.step.cpu.cycles = t.step.cpu.cycles ∧
      (∃ writes : List (Word × Byte), writes.map Prod.fst = s.writtenCells ∧
        s.step.cpu.memory = s.memory.writeAll writes ∧
        t.step.cpu.memory = t.memory.writeAll writes) ∧
      ∀ cell ∉ s.writtenCells,
        s.step.cpu.memory.read cell = s.memory.read cell ∧
          t.step.cpu.memory.read cell = t.memory.read cell := by
  obtain ⟨registers, cycles, memory⟩ := t
  obtain rfl : s.toRegisters = registers := hregisters
  obtain rfl : s.cycles = cycles := hcycles
  have hstep := step_withMemory (m := memory) fun cell hcell => (hread cell hcell).symm
  have hwrites := s.map_fst_writes
  have hmemory : (step { s with memory }).cpu.memory =
      memory.writeAll (s.ready.writes s.opcode.operation s.operand.operand) := by
    rw [hstep]
    rfl
  refine ⟨?_, ?_, ?_, ⟨_, hwrites, s.memory_step, hmemory⟩, fun cell hcell => ?_⟩
  · rw [hstep]
    rfl
  · rw [hstep]
    rfl
  · rw [hstep]
    rfl
  · rw [hmemory]
    exact ⟨read_step_of_notMem hcell, Memory.read_writeAll_of_notMem (hwrites ▸ hcell) _⟩

/-- An increment of cell `3` by two machines that differ in cell `2` only. -/
theorem step_local_of_increment :
    (fresh.loadProgram 0 [0xE6, 3, 0, 0x7F]).writtenCells = [3] ∧
      (fresh.loadProgram 0 [0xE6, 3, 0, 0x7F]).step.cpu.toRegisters =
        (fresh.loadProgram 0 [0xE6, 3, 1, 0x7F]).step.cpu.toRegisters ∧
      (fresh.loadProgram 0 [0xE6, 3, 0, 0x7F]).step.cpu.memory.read 2 = 0 ∧
      (fresh.loadProgram 0 [0xE6, 3, 1, 0x7F]).step.cpu.memory.read 2 = 1 := by
  have hwritten : (fresh.loadProgram 0 [0xE6, 3, 0, 0x7F]).writtenCells = [3] := by
    decide +kernel
  have hread : (fresh.loadProgram 0 [0xE6, 3, 0, 0x7F]).readCells.all (fun cell =>
      (fresh.loadProgram 0 [0xE6, 3, 0, 0x7F]).memory.read cell ==
        (fresh.loadProgram 0 [0xE6, 3, 1, 0x7F]).memory.read cell) = true := by
    decide +kernel
  obtain ⟨-, hregisters, -, -, hothers⟩ :=
    step_local (s := fresh.loadProgram 0 [0xE6, 3, 0, 0x7F])
      (t := fresh.loadProgram 0 [0xE6, 3, 1, 0x7F]) rfl rfl
      fun cell hcell => eq_of_beq (List.all_eq_true.mp hread cell hcell)
  obtain ⟨hs, ht⟩ := hothers 2 (by rw [hwritten]; decide)
  refine ⟨hwritten, hregisters, hs.trans ?_, ht.trans ?_⟩
  · decide +kernel
  · decide +kernel

end Mos6502.Cpu
