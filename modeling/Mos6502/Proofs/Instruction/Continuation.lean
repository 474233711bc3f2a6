import Mos6502.Proofs.Instruction.Charge
import Mos6502.Proofs.Stack.Discipline

/-!
# Where the machine goes on

The address of the instruction that comes next, for every opcode byte and in natural numbers
(`Cpu.continuation`): a branch looks at one flag, a jump and a call go where their operand leads, a
return goes where two cells of the stack say, and everything else goes on to the bytes that follow.
All of it is read off the machine before the step, so an instruction that overwrites its own bytes,
or a call whose return address lands on its operand, goes where it would have gone anyway.

The plain instructions and the branches are settled by the lemmas about what they cost.  What is
left are the four operations that take an address from memory (`pc_step_of_jumps`,
`toNat_pc_step_of_rts`, `toNat_pc_step_of_rti`).
-/

namespace Mos6502

/-- Two branches on one flag, the first taken when it is clear and the second when it is set. -/
inductive Operation.Opposes : Operation → Operation → Prop
  | carry : Opposes .bcc .bcs
  | zero : Opposes .bne .beq
  | negative : Opposes .bpl .bmi
  | overflow : Opposes .bvc .bvs

/-- Of two opposed branches the flags take exactly one. -/
theorem Flags.takes_of_opposes (flags : Flags) {clear set : Operation} (h : clear.Opposes set) :
    flags.takes set = !flags.takes clear := by
  cases h <;> simp [takes]

namespace Cpu

/-! ## The next instruction -/

/-- The address of the byte after the instruction at the program counter. -/
def nextAddress (cpu : Cpu) : Nat :=
  (cpu.pc.toNat + cpu.opcode.size) % 65536

/-- The address that a jump or a call names: its operand bytes, or for an indirect jump the two
cells that they lead to.  These cells lie in one page. -/
def jumpTarget (cpu : Cpu) : Nat :=
  let pointer := cpu.fetch.2.operandPair
  match cpu.opcode.mode with
  | .indirect => cpu.memory.pair pointer (256 * (pointer / 256) + (pointer + 1) % 256)
  | _ => pointer

/-- The cell of page one that many places above the stack pointer; after the last comes the
first. -/
def stackPlace (cpu : Cpu) (offset : Nat) : Nat :=
  256 + (cpu.sp.toNat + offset) % 256

/-- The address at which the machine goes on after the instruction at the program counter. -/
def continuation (cpu : Cpu) : Nat :=
  match cpu.opcode.operation with
  | .bcc | .bcs | .bne | .beq | .bpl | .bmi | .bvc | .bvs =>
      if cpu.flags.takes cpu.opcode.operation then cpu.branchTarget else cpu.nextAddress
  | .jmp | .jsr => cpu.jumpTarget
  | .rts => (cpu.memory.pair (cpu.stackPlace 1) (cpu.stackPlace 2) + 1) % 65536
  | .rti => cpu.memory.pair (cpu.stackPlace 2) (cpu.stackPlace 3)
  | _ => cpu.nextAddress

variable {cpu : Cpu}

theorem toNat_pc_ready (cpu : Cpu) : cpu.ready.pc.toNat = cpu.nextAddress := by
  have hsize := (Opcode.size_decode (cpu.memory.read cpu.pc)).2
  rw [ready, UInt16.toNat_add, UInt16.toNat_ofNat', nextAddress]
  change cpu.opcode.size ≤ 3 at hsize
  omega

theorem toNat_stack_add (cpu : Cpu) (offset : Nat) :
    (Word.stack (cpu.sp + UInt8.ofNat offset)).toNat = cpu.stackPlace offset := by
  rw [Word.toNat_stack, UInt8.toNat_add, UInt8.toNat_ofNat', stackPlace]
  omega

/-! ## Plain instructions and branches -/

theorem toNat_pc_step_of_plain (hplain : cpu.opcode.operation.redirects = false) :
    cpu.step.cpu.pc.toNat = cpu.nextAddress := by
  rw [pc_step_of_plain hplain]
  exact cpu.toNat_pc_ready

theorem toNat_pc_step_of_branches (hbranches : cpu.opcode.operation.branches = true) :
    cpu.step.cpu.pc.toNat =
      if cpu.flags.takes cpu.opcode.operation then cpu.branchTarget else cpu.nextAddress := by
  rw [registers_step, perform_of_branches hbranches]
  cases htakes : cpu.flags.takes cpu.opcode.operation with
  | false => exact cpu.toNat_pc_ready
  | true => exact toNat_displace_ready hbranches

/-! ## Jumps and calls -/

theorem mode_of_jumps (hjumps : cpu.opcode.operation = .jmp ∨ cpu.opcode.operation = .jsr) :
    cpu.opcode.mode = .absolute ∨ cpu.opcode.mode = .indirect :=
  Opcode.forall_decode
    (p := fun o =>
      o.operation = .jmp ∨ o.operation = .jsr → o.mode = .absolute ∨ o.mode = .indirect)
    (by decide +kernel) _ hjumps

theorem exists_operand_of_jumps
    (hjumps : cpu.opcode.operation = .jmp ∨ cpu.opcode.operation = .jsr) :
    ∃ target : Word, cpu.operand.operand = .address target ∧
      target.toNat = cpu.jumpTarget := by
  have hfinds : cpu.fetch.2.Finds cpu.opcode.mode cpu.operand.operand := finds_resolve ..
  unfold jumpTarget
  generalize cpu.operand.operand = operand at hfinds
  rcases mode_of_jumps hjumps with hmode | hmode
  · rw [hmode] at hfinds ⊢
    cases hfinds with
    | absolute haddress => exact ⟨_, rfl, haddress⟩
  · rw [hmode] at hfinds ⊢
    cases hfinds with
    | indirect haddress => exact ⟨_, rfl, haddress⟩

theorem toNat_pc_step_of_jumps
    (hjumps : cpu.opcode.operation = .jmp ∨ cpu.opcode.operation = .jsr) :
    cpu.step.cpu.pc.toNat = cpu.jumpTarget := by
  obtain ⟨target, hoperand, htarget⟩ := exists_operand_of_jumps hjumps
  have hpc : cpu.step.cpu.pc = target := by
    rw [registers_step, hoperand]
    rcases hjumps with hoperation | hoperation
    all_goals
      rw [hoperation]
      rfl
  rw [hpc, htarget]

/-- A call leaves the address of its own last byte on the stack, the high byte on top of the
page and the low byte below it. -/
theorem pair_step_of_jsr (hcall : cpu.opcode.operation = .jsr) :
    cpu.step.cpu.memory.pair (cpu.stackPlace 255) (cpu.stackPlace 0) =
      (cpu.pc.toNat + 2) % 65536 := by
  have hlow : cpu.sp - 1 = cpu.sp + UInt8.ofNat 255 := by grind
  have hhigh : cpu.sp = cpu.sp + UInt8.ofNat 0 := by grind
  have hne : Word.stack (cpu.sp - 1) ≠ Word.stack cpu.sp := by
    rw [ne_eq, Word.stack_inj]
    grind
  have hlast : (cpu.pc + 2).toNat = (cpu.pc.toNat + 2) % 65536 := UInt16.toNat_add ..
  rw [← toNat_stack_add, ← toNat_stack_add, ← hlow, ← hhigh, ← Memory.toNat_ofBytes_read,
    memory_step_of_jsr hcall, Memory.read_write_self, Memory.read_write_of_ne _ _ hne,
    Memory.read_write_self, Word.ofBytes_high_low, hlast]

/-! ## Returns -/

theorem toNat_pc_step_of_rts (hreturn : cpu.opcode.operation = .rts) :
    cpu.step.cpu.pc.toNat =
      (cpu.memory.pair (cpu.stackPlace 1) (cpu.stackPlace 2) + 1) % 65536 := by
  rw [pc_step_of_rts hreturn, UInt16.toNat_add, Memory.toNat_ofBytes_read, ← toNat_stack_add,
    ← toNat_stack_add]
  rfl

theorem toNat_pc_step_of_rti (hreturn : cpu.opcode.operation = .rti) :
    cpu.step.cpu.pc.toNat = cpu.memory.pair (cpu.stackPlace 2) (cpu.stackPlace 3) := by
  have htwo : cpu.sp + 1 + 1 = cpu.sp + UInt8.ofNat 2 := UInt8.add_assoc ..
  have hthree : cpu.sp + UInt8.ofNat 2 + 1 = cpu.sp + UInt8.ofNat 3 := UInt8.add_assoc ..
  have hpc : cpu.step.cpu.pc =
      Word.ofBytes (cpu.memory.read (Word.stack (cpu.sp + 1 + 1 + 1)))
        (cpu.memory.read (Word.stack (cpu.sp + 1 + 1))) + 0 := by
    rw [registers_step, hreturn]
    rfl
  rw [hpc, UInt16.add_zero, htwo, hthree, Memory.toNat_ofBytes_read, toNat_stack_add,
    toNat_stack_add]

theorem flags_step_of_rti (hreturn : cpu.opcode.operation = .rti) :
    cpu.step.cpu.flags = Flags.unpack (cpu.memory.read (Word.stack (cpu.sp + 1))) := by
  rw [registers_step, hreturn]
  rfl

/-! ## Every instruction -/

/-- A step goes on where `continuation` says, which takes exactly one of two opposed branches.  A
call leaves the address of its last byte on the stack, and a return from an interrupt takes the
flags from there. -/
theorem step_continues (cpu : Cpu) :
    cpu.step.cpu.pc.toNat = cpu.continuation ∧
      (∀ clear set : Operation, clear.Opposes set →
        cpu.flags.takes set = !cpu.flags.takes clear) ∧
      (cpu.opcode.operation = .jsr →
        cpu.step.cpu.memory.pair (cpu.stackPlace 255) (cpu.stackPlace 0) =
          (cpu.pc.toNat + 2) % 65536) ∧
      (cpu.opcode.operation = .rti →
        cpu.step.cpu.flags = Flags.unpack (cpu.memory.read (Word.stack (cpu.sp + 1)))) := by
  refine ⟨?_, fun _ _ => cpu.flags.takes_of_opposes, pair_step_of_jsr, flags_step_of_rti⟩
  unfold continuation
  cases hoperation : cpu.opcode.operation
  case bcc | bcs | bne | beq | bpl | bmi | bvc | bvs =>
    have hbranches : cpu.opcode.operation.branches = true := by
      rw [hoperation]
      rfl
    have hpc := toNat_pc_step_of_branches hbranches
    rwa [hoperation] at hpc
  case jmp => exact toNat_pc_step_of_jumps (.inl hoperation)
  case jsr => exact toNat_pc_step_of_jumps (.inr hoperation)
  case rts => exact toNat_pc_step_of_rts hoperation
  case rti => exact toNat_pc_step_of_rti hoperation
  all_goals exact toNat_pc_step_of_plain (by rw [hoperation]; rfl)

/-- A call in the stack page whose return address lands on the bytes that name its target. -/
theorem step_continues_of_call_overwritten :
    (step ⟨⟨0, 0, 0, 0xFF, 0x01FD, .clear⟩, 0,
      Memory.zero.load 0x01FD [0x20, 0x34, 0x12]⟩).cpu.pc.toNat = 0x1234 ∧
    (step ⟨⟨0, 0, 0, 0xFF, 0x01FD, .clear⟩, 0,
      Memory.zero.load 0x01FD [0x20, 0x34, 0x12]⟩).cpu.memory.pair 0x01FE 0x01FF = 0x01FF := by
  obtain ⟨hpc, -, hcall, -⟩ := step_continues ⟨⟨0, 0, 0, 0xFF, 0x01FD, .clear⟩, 0,
    Memory.zero.load 0x01FD [0x20, 0x34, 0x12]⟩
  exact ⟨hpc.trans (by decide +kernel), hcall (by decide +kernel)⟩

end Cpu

end Mos6502
