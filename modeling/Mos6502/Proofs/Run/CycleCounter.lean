import Mos6502.Proofs.Run.Bounds

/-!
# The cycle counter takes no part in execution

A machine whose cycle counter is further on executes the same instructions at the same cost, and
its counter stays further on by the same amount (`step_advanced`).  The bounds of a run are on
what the run itself has done, so a run comes to the same answer (`execute_advanced`).

Hence two states of a run that differ in the counter only are as good as equal: from the later
one the run goes through the same states again (`after_add_of_repeat`), and if it has stayed
among the bytes of the program so far it never leaves them (`covers_of_repeat`).
-/

namespace Mos6502.Cpu

/-- The machine with its cycle counter further on; the counter wraps. -/
def advanced (cpu : Cpu) (k : UInt64) : Cpu :=
  { cpu with cycles := cpu.cycles + k }

/-! ## Two machines in step -/

theorem branch_advanced (cpu : Cpu) (k : UInt64) (condition : Bool) (operand : Operand) :
    (cpu.advanced k).branch condition operand
      = (cpu.branch condition operand).map (·.advanced k) := by
  cases operand with
  | relative distance =>
      by_cases htaken : condition = true
      · simp only [branch, if_pos htaken]
        rfl
      · simp only [branch, if_neg htaken]
        rfl
  | _ => rfl

theorem perform_advanced (cpu : Cpu) (k : UInt64) (operation : Operation) (operand : Operand) :
    (cpu.advanced k).perform operation operand
      = (cpu.perform operation operand).map (·.advanced k) := by
  cases operation
  case bcc | bcs | bne | beq | bpl | bmi | bvc | bvs => exact branch_advanced ..
  case sta | stx | sty | asl | lsr | rol | ror | inc | dec | jmp | jsr => cases operand <;> rfl
  all_goals rfl

theorem step_advanced (cpu : Cpu) (k : UInt64) :
    (cpu.advanced k).step = cpu.step.map (·.advanced k) := by
  have hopcode : (cpu.advanced k).opcode = cpu.opcode := rfl
  have hready : (cpu.advanced k).ready = cpu.ready.advanced k := rfl
  have hoperand : (cpu.advanced k).operand = cpu.operand := by
    rw [operand_eq, operand_eq]
    rfl
  -- the counter goes up by `k` and by the cost, in either order
  have hswap (c d : UInt64) : c + k + d = c + d + k := by
    rw [UInt64.add_assoc, UInt64.add_comm k, ← UInt64.add_assoc]
  rw [step_eq, step_eq, hopcode, hready, hoperand, perform_advanced]
  simp only [Effect.map, advanced, hswap]

theorem after_advanced (cpu : Cpu) (k : UInt64) (n : Nat) :
    (cpu.advanced k).after n = (cpu.after n).advanced k := by
  induction n with
  | zero => rfl
  | succ n ih =>
      rw [after, ih, step_advanced]
      rfl

theorem spent_advanced (cpu : Cpu) (k : UInt64) (n : Nat) :
    (cpu.advanced k).spent n = cpu.spent n := by
  induction n with
  | zero => rfl
  | succ n ih =>
      rw [spent, ih, after_advanced, step_advanced]
      rfl

theorem execute_advanced (cpu : Cpu) (k : UInt64) (entry : Word) (program : List Byte)
    (limit : Limit) (fuel : Nat) :
    (cpu.advanced k).execute entry program limit fuel =
      (cpu.execute entry program limit fuel).map
        fun execution => ⟨execution.state.advanced k, execution.result⟩ := by
  unfold execute
  dsimp only
  split
  · have hrun := Machine.run_map machine machine (·.advanced k) (fun _ => rfl)
      (fun cpu => by simp only [machine, step_advanced]; rfl)
      ⟨entry, program.length⟩ limit fuel .zero (cpu.loadProgram entry program)
    have hload : (cpu.advanced k).loadProgram entry program
        = (cpu.loadProgram entry program).advanced k := rfl
    rw [hload, hrun, Option.map_map, Option.map_map]
    congr 1
    funext ⟨state, tally, ending⟩
    cases ending <;> rfl
  · rfl

/-! ## A state that comes back -/

section Repeat

variable {start : Cpu} {window : Window} {i j : Nat}

theorem exists_eq_advanced {s t : Cpu} (hregisters : s.toRegisters = t.toRegisters)
    (hmemory : s.memory = t.memory) : ∃ k, t = s.advanced k := by
  refine ⟨t.cycles - s.cycles, ?_⟩
  obtain ⟨registers, cycles, memory⟩ := t
  obtain rfl : s.toRegisters = registers := hregisters
  obtain rfl : s.memory = memory := hmemory
  have hcycles : cycles = s.cycles + (cycles - s.cycles) := by
    rw [UInt64.add_comm, UInt64.sub_add_cancel]
  exact congrArg (fun c => Cpu.mk s.toRegisters c s.memory) hcycles

theorem after_add_of_repeat {k : UInt64} (hsame : start.after j = (start.after i).advanced k)
    (n : Nat) : start.after (j + n) = (start.after (i + n)).advanced k := by
  rw [after_add, hsame, after_advanced, after_add]

/-- A run that has come back to a state inside the window stays inside. -/
theorem covers_of_repeat {k : UInt64} (hlt : i < j)
    (hsame : start.after j = (start.after i).advanced k)
    (hinside : ∀ n ≤ j, window.Covers (start.after n).pc) (n : Nat) :
    window.Covers (start.after n).pc := by
  induction n using Nat.strong_induction_on with
  | _ n ih =>
      by_cases hn : n ≤ j
      · exact hinside n hn
      · -- what comes after the later state came after the earlier one before
        obtain ⟨m, rfl⟩ : ∃ m, n = j + m := ⟨n - j, by omega⟩
        rw [after_add_of_repeat hsame]
        exact ih (i + m) (by omega)

theorem not_over_unlimited {n : Nat} (hcovers : window.Covers (start.after n).pc) :
    ¬ start.Over window .unlimited n := by
  rintro (hleft | ⟨bound, hbound, -⟩ | ⟨bound, hbound, -⟩)
  · exact hleft hcovers
  · cases hbound
  · cases hbound

end Repeat

/-- A cycle counter that is further on changes neither the answer of a run nor any state but
for the counter itself.  So a run that is twice in the same state, the counter apart, with the
program counter among the bytes of the program ever since the start, goes on for ever: it has
no answer without a bound, it is cut short by every bound, and no state is outside. -/
theorem counter_inert (cpu : Cpu) (entry : Word) (program : List Byte) :
    (∀ (k : UInt64) (limit : Limit) (fuel : Nat),
      (cpu.advanced k).execute entry program limit fuel =
        (cpu.execute entry program limit fuel).map
          fun execution => ⟨execution.state.advanced k, execution.result⟩) ∧
    (∀ (k : UInt64) (n : Nat),
      (cpu.advanced k).after n = (cpu.after n).advanced k ∧
        (cpu.advanced k).spent n = cpu.spent n) ∧
    ∀ i j : Nat, i < j → entry.toNat + program.length ≤ Memory.size →
      (∀ n ≤ j, Window.Covers ⟨entry, program.length⟩
        ((cpu.loadProgram entry program).after n).pc) →
      ((cpu.loadProgram entry program).after i).toRegisters =
        ((cpu.loadProgram entry program).after j).toRegisters →
      ((cpu.loadProgram entry program).after i).memory =
        ((cpu.loadProgram entry program).after j).memory →
      (∀ n, Window.Covers ⟨entry, program.length⟩
        ((cpu.loadProgram entry program).after n).pc) ∧
      (∀ fuel, cpu.execute entry program .unlimited fuel = none) ∧
      ∀ limit, limit ≠ .unlimited → ∃ tally execution,
        cpu.Returns entry program limit tally.instructions execution ∧
          execution.result = .error (.limitReached tally execution.state.pc) := by
  refine ⟨fun k => execute_advanced cpu k entry program,
    fun k n => ⟨after_advanced cpu k n, spent_advanced cpu k n⟩, ?_⟩
  intro i j hlt hfits hinside hregisters hmemory
  obtain ⟨k, hsame⟩ := exists_eq_advanced hregisters hmemory
  have hcovers := covers_of_repeat hlt hsame hinside
  refine ⟨hcovers, fun fuel => ?_, fun limit hlimit => ?_⟩
  · rw [Option.eq_none_iff_forall_ne_some]
    intro execution hexecute
    obtain ⟨n, -, hleast, -⟩ := (execute_eq_some_iff_of_fits cpu hfits _ _ _).mp hexecute
    exact not_over_unlimited (hcovers n) hleast.1
  · obtain ⟨n, hleast⟩ := exists_isLeast_of_ne_unlimited (cpu.loadProgram entry program)
      ⟨entry, program.length⟩ hlimit
    have hreturns := returns_of_isLeast hfits hleast
    rw [answer_of_covers (hcovers n)] at hreturns
    exact ⟨(cpu.loadProgram entry program).tally n, _, hreturns, rfl⟩

/-- `INX`, and then a loop of `NOP` and a jump back to it: the state after one instruction comes
back after three. -/
theorem counter_inert_of_loop_of_two :
    (∀ fuel, fresh.execute 0 [0xE8, 0xEA, 0x4C, 1, 0] .unlimited fuel = none) ∧
      ∃ tally execution,
        fresh.Returns 0 [0xE8, 0xEA, 0x4C, 1, 0] ⟨some 1000000, none⟩ tally.instructions execution ∧
          execution.result = .error (.limitReached tally execution.state.pc) := by
  obtain ⟨-, -, hloop⟩ := counter_inert fresh 0 [0xE8, 0xEA, 0x4C, 1, 0]
  have hinside : ∀ n ≤ 3, Window.Covers ⟨0, 5⟩
      ((fresh.loadProgram 0 [0xE8, 0xEA, 0x4C, 1, 0]).after n).pc := by
    decide +kernel
  have hregisters : ((fresh.loadProgram 0 [0xE8, 0xEA, 0x4C, 1, 0]).after 1).toRegisters =
      ((fresh.loadProgram 0 [0xE8, 0xEA, 0x4C, 1, 0]).after 3).toRegisters := by
    decide +kernel
  have hwritten : ∀ k < 3,
      ((fresh.loadProgram 0 [0xE8, 0xEA, 0x4C, 1, 0]).after k).writtenCells = [] := by
    decide +kernel
  generalize fresh.loadProgram 0 [0xE8, 0xEA, 0x4C, 1, 0] = start at *
  have hmemory : (start.after 1).memory = (start.after 3).memory := by
    refine Memory.ext fun cell => ?_
    have hkept (k : Nat) (hk : k < 3) :
        (start.after (k + 1)).memory.read cell = (start.after k).memory.read cell := by
      refine read_step_of_notMem ?_
      rw [hwritten k hk]
      exact List.not_mem_nil
    exact ((hkept 2 (by decide)).trans (hkept 1 (by decide))).symm
  obtain ⟨-, hendless, hcut⟩ := hloop 1 3 (by decide) (by decide) hinside hregisters hmemory
  exact ⟨hendless, hcut ⟨some 1000000, none⟩ (by decide)⟩

end Mos6502.Cpu
