import Mos6502.Proofs.Instruction.Semantics

/-!
# How far a step moves and what it costs

A step changes the program counter and the cycle counter too, and this file says how.  The
operations leave the cycle counter alone, so a step raises it by its cost (`cycles_step`) and a
run by the sum of its costs (`cycles_after`).  A plain operation leaves the program counter
alone as well and adds nothing to the cost: the step moves past the instruction
(`pc_step_of_plain`), at the price in the table and one cycle more when a reading operation is
indexed into another page (`cost_step_of_plain`).
-/

namespace Mos6502.Cpu

/-! ## Operations and the counters -/

/-- No operation counts cycles; that is left to the step. -/
theorem cycles_perform (cpu : Cpu) (operation : Operation) (operand : Operand) :
    (cpu.perform operation operand).cpu.cycles = cpu.cycles := by
  cases operation
  case sta | stx | sty | asl | lsr | rol | ror | inc | dec | jmp | jsr => cases operand <;> rfl
  case bcc | bcs | bne | beq | bpl | bmi | bvc | bvs =>
    cases operand
    case relative =>
      simp only [perform, branch]
      split <;> rfl
    all_goals rfl
  all_goals rfl

theorem pc_perform_of_plain (cpu : Cpu) {operation : Operation}
    (hplain : operation.redirects = false) (operand : Operand) :
    (cpu.perform operation operand).cpu.pc = cpu.pc ∧
      (cpu.perform operation operand).cycles = 0 := by
  cases operation
  case bcc | bcs | bne | beq | bpl | bmi | bvc | bvs | jmp | jsr | rts | rti => cases hplain
  case sta | stx | sty | asl | lsr | rol | ror | inc | dec => cases operand <;> exact ⟨rfl, rfl⟩
  all_goals exact ⟨rfl, rfl⟩

/-! ## The cycle counter -/

theorem cycles_step (cpu : Cpu) :
    cpu.step.cpu.cycles = cpu.cycles + UInt64.ofNat cpu.step.cycles := by
  rw [step_eq]
  exact congrArg (· + _) (cycles_perform ..)

/-- A run raises the cycle counter by what its instructions cost. -/
theorem cycles_after (cpu : Cpu) (n : Nat) :
    (cpu.after n).cycles = cpu.cycles + UInt64.ofNat (cpu.spent n) := by
  induction n with
  | zero => exact (UInt64.add_zero _).symm
  | succ n ih =>
      rw [after, cycles_step, ih, spent, UInt64.ofNat_add, UInt64.add_assoc]

/-! ## Plain instructions -/

/-- The address that the index of the instruction is added to, for the modes that add one to a
full address. -/
def indexBase (cpu : Cpu) : Option Word :=
  match cpu.opcode.mode with
  | .absoluteX | .absoluteY => some cpu.operandWord
  | .indirectY => some (cpu.memory.zeroPagePointer cpu.operandByte)
  | _ => none

/-- Whether indexing leads to another page than that of the address it starts from. -/
def indexCarries (cpu : Cpu) : Bool :=
  match cpu.indexBase, cpu.effectiveAddress with
  | some base, some address => base.toNat / 256 != address.toNat / 256
  | _, _ => false

/-- Whether the instruction only reads the cell it names and indexing led to another page. -/
def paysForCarry (cpu : Cpu) : Bool :=
  cpu.opcode.operation ∈ [.lda, .ldx, .ldy, .adc, .sbc, .and, .ora, .eor, .cmp]
    && cpu.indexCarries

theorem indexCarries_eq (cpu : Cpu) :
    cpu.indexCarries = (cpu.opcode.mode.indexesAcrossPages && cpu.operand.pageCrossed) := by
  have hpage (base address : Word) :
      (base.toNat / 256 != address.toNat / 256) = !Word.samePage base address := by
    rw [bne, Bool.not_inj_iff, Bool.eq_iff_iff, beq_iff_eq, Word.samePage_iff]
  rw [operand_eq]
  unfold indexCarries indexBase effectiveAddress
  cases cpu.opcode.mode
  case absoluteX | absoluteY | indirectY => exact hpage _ _
  all_goals rfl

theorem paysForPageCrossing_eq (operation : Operation) :
    operation.paysForPageCrossing =
      decide (operation ∈ [.lda, .ldx, .ldy, .adc, .sbc, .and, .ora, .eor, .cmp]) := by
  cases operation <;> rfl

theorem paysForCarry_eq (cpu : Cpu) :
    cpu.paysForCarry = (cpu.opcode.pagePenalty && cpu.operand.pageCrossed) := by
  rw [paysForCarry, ← paysForPageCrossing_eq, indexCarries_eq, Opcode.pagePenalty, Bool.and_assoc]

theorem pc_step_of_plain {cpu : Cpu} (hplain : cpu.opcode.operation.redirects = false) :
    cpu.step.cpu.pc = cpu.pc + UInt16.ofNat cpu.opcode.size := by
  rw [registers_step]
  exact (pc_perform_of_plain _ hplain _).1

theorem cost_step_of_plain {cpu : Cpu} (hplain : cpu.opcode.operation.redirects = false) :
    cpu.step.cycles = cpu.opcode.cycles + cpu.paysForCarry.toNat := by
  rw [step_eq, paysForCarry_eq]
  dsimp only
  rw [(pc_perform_of_plain _ hplain _).2, Nat.add_zero]

end Mos6502.Cpu
