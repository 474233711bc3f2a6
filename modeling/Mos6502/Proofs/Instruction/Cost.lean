import Mos6502.Proofs.Instruction.Advance

/-!
# The cost of an instruction lies between two and seven cycles

Three things make up the cost of a step: the entry of the table, one cycle for an index that
carries into another page, and what a taken branch adds.  No operation but a conditional branch
adds anything of its own (`cycles_perform_of_not_branches`), and a branch adds two at most
(`cycles_perform_le`).  The table leaves room for that: `Opcode.cycles_add_le` counts an entry
together with everything that can still be charged on top of it.

A run of `n` instructions therefore takes between `2 * n` and `7 * n` cycles.
-/

namespace Mos6502

/-- The conditional branches. -/
def Operation.branches : Operation → Bool
  | bcc | bcs | beq | bne | bmi | bpl | bvc | bvs => true
  | _ => false

/-- With every penalty that its entry admits, an instruction costs no more than seven cycles. -/
theorem Opcode.cycles_add_le (byte : Byte) :
    (decode byte).cycles + (decode byte).pagePenalty.toNat
      + 2 * (decode byte).operation.branches.toNat ≤ 7 :=
  forall_decode (p := fun o =>
    o.cycles + o.pagePenalty.toNat + 2 * o.operation.branches.toNat ≤ 7) (by decide +kernel) byte

namespace Cpu

/-! ## What operations add to the table -/

theorem cycles_branch_le (cpu : Cpu) (condition : Bool) (operand : Operand) :
    (cpu.branch condition operand).cycles ≤ 2 := by
  cases operand with
  | relative distance =>
      by_cases htaken : condition = true
      · simp only [branch, if_pos htaken]
        split <;> omega
      · simp only [branch, if_neg htaken]
        exact Nat.zero_le 2
  | _ => exact Nat.zero_le 2

theorem cycles_perform_of_not_branches (cpu : Cpu) {operation : Operation}
    (hstays : operation.branches = false) (operand : Operand) :
    (cpu.perform operation operand).cycles = 0 := by
  by_cases hplain : operation.redirects = false
  · exact (pc_perform_of_plain cpu hplain operand).2
  · cases operation
    case jmp | jsr => cases operand <;> rfl
    case rts | rti => rfl
    case bcc | bcs | bne | beq | bpl | bmi | bvc | bvs => cases hstays
    all_goals exact absurd rfl hplain

theorem cycles_perform_le (cpu : Cpu) (operation : Operation) (operand : Operand) :
    (cpu.perform operation operand).cycles ≤ 2 * operation.branches.toNat := by
  cases hbranch : operation.branches with
  | false =>
      rw [cycles_perform_of_not_branches cpu hbranch operand]
      exact Nat.zero_le _
  | true =>
      cases operation
      case bcc | bcs | bne | beq | bpl | bmi | bvc | bvs => exact cycles_branch_le _ _ _
      all_goals cases hbranch

/-! ## The cost of a step -/

theorem two_le_cost_step (cpu : Cpu) : 2 ≤ cpu.step.cycles := by
  have htable : 2 ≤ cpu.opcode.cycles := (Opcode.cycles_decode _).1
  rw [step_eq]
  dsimp only
  omega

theorem cost_step_le_seven (cpu : Cpu) : cpu.step.cycles ≤ 7 := by
  have htable : cpu.opcode.cycles + cpu.opcode.pagePenalty.toNat
      + 2 * cpu.opcode.operation.branches.toNat ≤ 7 := Opcode.cycles_add_le _
  have hbranch := cycles_perform_le cpu.ready cpu.opcode.operation cpu.operand.operand
  have hpage : (cpu.opcode.pagePenalty && cpu.operand.pageCrossed).toNat
      ≤ cpu.opcode.pagePenalty.toNat := by
    cases cpu.opcode.pagePenalty
    · exact Nat.le_refl _
    · exact Bool.toNat_le _
  rw [step_eq]
  dsimp only
  omega

/-! ## The cost of a run -/

theorem two_mul_le_spent (cpu : Cpu) (n : Nat) : 2 * n ≤ cpu.spent n := by
  induction n with
  | zero => exact Nat.zero_le _
  | succ n ih => exact Nat.add_le_add ih (two_le_cost_step _)

theorem spent_le_seven_mul (cpu : Cpu) (n : Nat) : cpu.spent n ≤ 7 * n := by
  induction n with
  | zero => exact Nat.le_refl _
  | succ n ih => exact Nat.add_le_add ih (cost_step_le_seven _)

/-- A run goes on from any of its states as a run from that state. -/
theorem after_add (cpu : Cpu) (m n : Nat) : cpu.after (m + n) = (cpu.after m).after n := by
  induction n with
  | zero => rfl
  | succ n ih => exact congrArg (fun s : Cpu => s.step.cpu) ih

theorem spent_add (cpu : Cpu) (m n : Nat) :
    cpu.spent (m + n) = cpu.spent m + (cpu.after m).spent n := by
  induction n with
  | zero => rfl
  | succ n ih => rw [← Nat.add_assoc m n 1, spent, spent, ih, after_add, Nat.add_assoc]

end Cpu

end Mos6502
