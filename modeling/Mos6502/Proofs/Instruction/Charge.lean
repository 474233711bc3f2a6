import Mos6502.Proofs.Instruction.Cost
import Mos6502.Proofs.Instruction.Resolution
import Mos6502.Run.Execution

/-!
# What an instruction is charged for

The price of an instruction is its entry in the table, one cycle for an index that carries out of
the low byte of a base address while the operation only reads (`indexCharge`), and one or two
cycles for a branch that is taken (`branchCharge`).  Nothing else is charged: `step_charges` says
that a step costs exactly this much and adds as much to the cycle counter.

The step itself finds the first charge by comparing pages (`indexCharge_eq`), and the second one
where it moves the program counter (`branchCharge_eq`).
-/

namespace Mos6502

/-- Whether the flags send a conditional branch to its target. -/
def Flags.takes (flags : Flags) : Operation → Bool
  | .bcc => !flags.carry
  | .bcs => flags.carry
  | .bne => !flags.zero
  | .beq => flags.zero
  | .bpl => !flags.negative
  | .bmi => flags.negative
  | .bvc => !flags.overflow
  | .bvs => flags.overflow
  | _ => false

theorem Flags.takes_of_not_branches (flags : Flags) {operation : Operation}
    (hstays : operation.branches = false) : flags.takes operation = false := by
  cases operation
  case bcc | bcs | bne | beq | bpl | bmi | bvc | bvs => cases hstays
  all_goals rfl

namespace Cpu

/-- The cycle for an index that carries out of the low byte of the base address. -/
def indexCharge (cpu : Cpu) : Nat :=
  if cpu.opcode.operation ∈ [.lda, .ldx, .ldy, .adc, .sbc, .and, .ora, .eor, .cmp] then
    match cpu.fetch.2.indexing cpu.opcode.mode with
    | some (base, index) => if 256 ≤ base % 256 + index then 1 else 0
    | none => 0
  else
    0

/-- The address that a branch at the program counter goes to, counted from the next instruction. -/
def branchTarget (cpu : Cpu) : Nat :=
  ((cpu.pc.toNat + 2 + cpu.operandByte.signed) % 65536).toNat

/-- The cycles for a branch that is taken: one, or two when it leaves the page of the next
instruction. -/
def branchCharge (cpu : Cpu) : Nat :=
  if cpu.flags.takes cpu.opcode.operation then
    if cpu.branchTarget / 256 = (cpu.pc.toNat + 2) % 65536 / 256 then 1 else 2
  else
    0

/-! ## The index -/

theorem indexesAcrossPages_eq (cpu : Cpu) (mode : Mode) :
    mode.indexesAcrossPages = (cpu.indexing mode).isSome := by
  cases mode <;> rfl

/-- The table and the resolved operand together tell whether the index is charged for. -/
theorem indexCharge_eq (cpu : Cpu) :
    cpu.indexCharge = (cpu.opcode.pagePenalty && cpu.operand.pageCrossed).toNat := by
  have hcrossed : cpu.operand.pageCrossed = true ↔ _ :=
    pageCrossed_resolve_iff cpu.fetch.2 cpu.opcode.mode
  rw [indexCharge, Opcode.pagePenalty, paysForPageCrossing_eq,
    indexesAcrossPages_eq cpu.fetch.2]
  by_cases hreads : cpu.opcode.operation ∈ [.lda, .ldx, .ldy, .adc, .sbc, .and, .ora, .eor, .cmp]
  · rw [if_pos hreads, decide_eq_true hreads]
    cases hindexing : cpu.fetch.2.indexing cpu.opcode.mode with
    | none => rfl
    | some found =>
        obtain ⟨base, index⟩ := found
        by_cases hcarry : 256 ≤ base % 256 + index
        · have htrue : cpu.operand.pageCrossed = true :=
            hcrossed.mpr ⟨base, index, hindexing, hcarry⟩
          simp [hcarry, htrue]
        · have hfalse : cpu.operand.pageCrossed = false := by
            rw [← Bool.not_eq_true, hcrossed]
            rintro ⟨base', index', hsome, hcarry'⟩
            rw [hindexing] at hsome
            cases hsome
            exact hcarry hcarry'
          simp [hcarry, hfalse]
  · rw [if_neg hreads, decide_eq_false hreads]
    rfl

/-! ## The branch -/

theorem mode_of_branches {cpu : Cpu} (hbranches : cpu.opcode.operation.branches = true) :
    cpu.opcode.mode = .relative :=
  Opcode.forall_decode (p := fun o => o.operation.branches = true → o.mode = .relative)
    (by decide +kernel) _ hbranches

theorem operand_of_branches {cpu : Cpu} (hbranches : cpu.opcode.operation.branches = true) :
    cpu.operand.operand = .relative cpu.operandByte.toInt8 := by
  rw [operand_eq, mode_of_branches hbranches]
  rfl

theorem toNat_pc_ready_of_branches {cpu : Cpu}
    (hbranches : cpu.opcode.operation.branches = true) :
    cpu.ready.pc.toNat = (cpu.pc.toNat + 2) % 65536 := by
  have hsize : cpu.opcode.size = 2 := by
    rw [Opcode.size, mode_of_branches hbranches]
    rfl
  rw [ready, hsize]
  exact UInt16.toNat_add ..

/-- A branch looks at one flag and moves by the distance after the opcode. -/
theorem perform_of_branches {cpu : Cpu} (hbranches : cpu.opcode.operation.branches = true) :
    cpu.ready.perform cpu.opcode.operation cpu.operand.operand =
      cpu.ready.branch (cpu.flags.takes cpu.opcode.operation)
        (.relative cpu.operandByte.toInt8) := by
  rw [operand_of_branches hbranches]
  cases hoperation : cpu.opcode.operation
  case bcc | bcs | bne | beq | bpl | bmi | bvc | bvs => rfl
  all_goals
    rw [hoperation] at hbranches
    cases hbranches

theorem toNat_displace_ready {cpu : Cpu} (hbranches : cpu.opcode.operation.branches = true) :
    (Word.displace cpu.ready.pc cpu.operandByte.toInt8).toNat = cpu.branchTarget := by
  have hnext := toNat_pc_ready_of_branches hbranches
  rw [Word.toNat_displace, hnext, branchTarget, Byte.signed]
  omega

theorem branchCharge_eq (cpu : Cpu) :
    cpu.branchCharge =
      (cpu.ready.perform cpu.opcode.operation cpu.operand.operand).cycles := by
  cases hbranches : cpu.opcode.operation.branches with
  | false =>
      rw [cycles_perform_of_not_branches _ hbranches, branchCharge,
        Flags.takes_of_not_branches _ hbranches]
      rfl
  | true =>
      rw [perform_of_branches hbranches, branchCharge]
      cases htakes : cpu.flags.takes cpu.opcode.operation with
      | false => rfl
      | true =>
          have hpage : Word.samePage cpu.ready.pc
              (Word.displace cpu.ready.pc cpu.operandByte.toInt8) = true ↔
                cpu.branchTarget / 256 = (cpu.pc.toNat + 2) % 65536 / 256 := by
            rw [Word.samePage_iff, toNat_displace_ready hbranches,
              toNat_pc_ready_of_branches hbranches, eq_comm]
          simp only [branch, if_true, hpage]

/-! ## The price of a step -/

/-- A step costs its entry in the table, what is charged for an index and what is charged for a
branch, and adds as much to the cycle counter.  An operation that does not read through an index
and does not branch costs what the table says. -/
theorem step_charges (cpu : Cpu)
    (hcounts : cpu.cycles.toNat + cpu.step.cycles < UInt64.size) :
    cpu.step.cycles =
        (Opcode.decode (cpu.memory.read cpu.pc)).cycles + cpu.indexCharge + cpu.branchCharge ∧
      cpu.step.cpu.cycles.toNat = cpu.cycles.toNat + cpu.step.cycles ∧
      (cpu.opcode.operation ∉ [.lda, .ldx, .ldy, .adc, .sbc, .and, .ora, .eor, .cmp] →
        cpu.flags.takes cpu.opcode.operation = false →
        cpu.step.cycles = (Opcode.decode (cpu.memory.read cpu.pc)).cycles) ∧
      2 ≤ cpu.step.cycles ∧ cpu.step.cycles ≤ 7 := by
  have hcost : cpu.step.cycles =
      (Opcode.decode (cpu.memory.read cpu.pc)).cycles + cpu.indexCharge + cpu.branchCharge := by
    rw [step_eq, indexCharge_eq, branchCharge_eq]
    rfl
  refine ⟨hcost, ?_, fun hreads htakes => ?_, cpu.two_le_cost_step, cpu.cost_step_le_seven⟩
  · rw [cycles_step, UInt64.toNat_add, UInt64.toNat_ofNat']
    rw [UInt64.size] at hcounts
    omega
  · rw [hcost, indexCharge, if_neg hreads, branchCharge, htakes]
    rfl

/-- An index that leads past the end of memory, with room for five more cycles in the counter. -/
theorem step_charges_past_end_of_memory :
    (step ⟨⟨0, 2, 0, 0xFF, 0, .clear⟩, 0xFFFFFFFFFFFFFFFA,
      Memory.zero.load 0 [0xBD, 0xFF, 0xFF]⟩).cycles = 5 ∧
    (step ⟨⟨0, 2, 0, 0xFF, 0, .clear⟩, 0xFFFFFFFFFFFFFFFA,
      Memory.zero.load 0 [0xBD, 0xFF, 0xFF]⟩).cpu.cycles.toNat = UInt64.size - 1 := by
  have hcounts : (cycles ⟨⟨0, 2, 0, 0xFF, 0, .clear⟩, 0xFFFFFFFFFFFFFFFA,
        Memory.zero.load 0 [0xBD, 0xFF, 0xFF]⟩).toNat
      + (step ⟨⟨0, 2, 0, 0xFF, 0, .clear⟩, 0xFFFFFFFFFFFFFFFA,
        Memory.zero.load 0 [0xBD, 0xFF, 0xFF]⟩).cycles < UInt64.size := by
    decide +kernel
  obtain ⟨hcost, hcounter, -⟩ := step_charges _ hcounts
  have hfive : _ = 5 := hcost.trans (by decide +kernel)
  rw [hfive] at hcounter
  exact ⟨hfive, hcounter.trans (by decide +kernel)⟩

end Cpu

end Mos6502
