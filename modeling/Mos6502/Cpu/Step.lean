import Mos6502.Cpu.Effect
import Mos6502.Instruction.Opcode

/-!
# One instruction

A step fetches the byte at the program counter, looks it up, finds the operand and
performs the operation.  Its cost is the cost in the table, one cycle more when an index
of a reading operation carries into another page, and the cycles of a taken branch.

`step_eq` takes a step apart into the three things that depend on the machine before it:
the table entry, the operand, and the machine as the operation finds it.
-/

namespace Mos6502.Cpu

/-- The table entry of the instruction at the program counter. -/
def opcode (cpu : Cpu) : Opcode :=
  Opcode.decode (cpu.memory.read cpu.pc)

/-- The operand of the instruction at the program counter. -/
def operand (cpu : Cpu) : Resolved :=
  (cpu.fetch.2.resolve cpu.opcode.mode).1

/-- The machine as the operation finds it, with the program counter at the next instruction. -/
def ready (cpu : Cpu) : Cpu :=
  { cpu with pc := cpu.pc + UInt16.ofNat cpu.opcode.size }

/-- The machine executes the instruction at the program counter. -/
def step (cpu : Cpu) : Effect :=
  let (byte, cpu) := cpu.fetch
  let opcode := Opcode.decode byte
  let (resolved, cpu) := cpu.resolve opcode.mode
  let ⟨cpu, extra, traffic⟩ := cpu.perform opcode.operation resolved.operand
  let cost := opcode.cycles + (opcode.pagePenalty && resolved.pageCrossed).toNat + extra
  ⟨{ cpu with cycles := cpu.cycles + UInt64.ofNat cost }, cost, traffic⟩

/-- The machine after a number of instructions. -/
def after (cpu : Cpu) : Nat → Cpu
  | 0 => cpu
  | n + 1 => (cpu.after n).step.cpu

/-- The cycles of the first instructions of a machine. -/
def spent (cpu : Cpu) : Nat → Nat
  | 0 => 0
  | n + 1 => cpu.spent n + (cpu.after n).step.cycles

/-- Fetching the opcode and resolving its mode leaves the machine ready for the operation. -/
theorem resolve_fetch (cpu : Cpu) :
    cpu.fetch.2.resolve cpu.opcode.mode = (cpu.operand, cpu.ready) := by
  have hpc : cpu.pc + 1 + UInt16.ofNat cpu.opcode.mode.operandBytes
      = cpu.pc + UInt16.ofNat cpu.opcode.size := by
    rw [Opcode.size, UInt16.ofNat_add, UInt16.add_assoc]
    rfl
  refine Prod.ext rfl ?_
  rw [resolve_snd]
  simp only [fetch, ready, hpc]

/-- A step performs the operation on the machine that is ready for it, and counts the cost. -/
theorem step_eq (cpu : Cpu) :
    let effect := cpu.ready.perform cpu.opcode.operation cpu.operand.operand
    let cost := cpu.opcode.cycles + (cpu.opcode.pagePenalty && cpu.operand.pageCrossed).toNat
      + effect.cycles
    cpu.step =
      ⟨{ effect.cpu with cycles := effect.cpu.cycles + UInt64.ofNat cost }, cost,
        effect.traffic⟩ := by
  have hresolve := cpu.resolve_fetch
  simp only [opcode] at hresolve
  simp only [step]
  rw [show cpu.fetch.1 = cpu.memory.read cpu.pc from rfl, hresolve]
  rfl

end Mos6502.Cpu
