import Mos6502.Proofs.Instruction.Cost
import Mos6502.Proofs.Run.Ending

/-!
# Bounded runs come to an end

`Returns` says after how many instructions a program is brought to an answer: with fewer to
spend there is none, with as many or more it is always the same.  For a program that fits this
number is the least state at which the run is over (`returns_iff_isLeast`).

A bound on the instructions is met after that many.  A bound on the cycles has no counter of
its own; it is met because every instruction takes two cycles (`over_of_cycles`), and it is
exceeded by no more than one instruction takes, because one instruction earlier it was not yet
met (`spent_lt_of_isLeast`).
-/

namespace Mos6502

/-- What a bounded run may have done when it is over. -/
structure Tally.Within (tally : Tally) (limit : Limit) : Prop where
  instructions_le : ∀ bound, limit.instructions = some bound → tally.instructions ≤ bound
  instructions_le_half : ∀ bound, limit.cycles = some bound → tally.instructions ≤ (bound + 1) / 2
  cycles_lt : ∀ bound, limit.cycles = some bound → tally.cycles < bound + 7
  two_mul_le_cycles : 2 * tally.instructions ≤ tally.cycles
  cycles_le_seven_mul : tally.cycles ≤ 7 * tally.instructions

namespace Cpu

/-- A program is brought to an answer by `n` instructions and not by fewer. -/
def Returns (cpu : Cpu) (entry : Word) (program : List Byte) (limit : Limit) (n : Nat)
    (execution : Execution Cpu) : Prop :=
  ∀ fuel, cpu.execute entry program limit fuel = if n ≤ fuel then some execution else none

/-- What a run that is over at its `n`-th state hands back. -/
def answer (start : Cpu) (window : Window) (n : Nat) : Execution Cpu :=
  conclude ⟨start.after n, start.tally n, start.ending window n⟩

section Answer

variable {start : Cpu} {window : Window} {n : Nat}

theorem answer_of_covers (hcovers : window.Covers (start.after n).pc) :
    start.answer window n =
      ⟨start.after n, .error (.limitReached (start.tally n) (start.after n).pc)⟩ := by
  rw [answer, ending, if_pos hcovers]
  rfl

theorem answer_of_not_covers (hleft : ¬ window.Covers (start.after n).pc) :
    start.answer window n = ⟨start.after n, .ok (start.tally n)⟩ := by
  rw [answer, ending, if_neg hleft]
  rfl

theorem state_answer (start : Cpu) (window : Window) (n : Nat) :
    (start.answer window n).state = start.after n := by
  by_cases hcovers : window.Covers (start.after n).pc
  · rw [answer_of_covers hcovers]
  · rw [answer_of_not_covers hcovers]

end Answer

/-! ## The number of instructions of a run -/

section Returns

variable {cpu : Cpu} {entry : Word} {program : List Byte} {limit : Limit} {n : Nat}
  {execution : Execution Cpu}

theorem Returns.execute_eq (h : cpu.Returns entry program limit n execution) {fuel : Nat}
    (hle : n ≤ fuel) : cpu.execute entry program limit fuel = some execution :=
  (h fuel).trans (if_pos hle)

theorem Returns.le_of_isSome (h : cpu.Returns entry program limit n execution) {fuel : Nat}
    (hsome : (cpu.execute entry program limit fuel).isSome = true) : n ≤ fuel := by
  by_contra hlt
  rw [h fuel, if_neg hlt] at hsome
  cases hsome

/-- A run has one answer, and one number of instructions that brings it about. -/
theorem Returns.unique (h : cpu.Returns entry program limit n execution) {m : Nat}
    {other : Execution Cpu} (h' : cpu.Returns entry program limit m other) :
    m = n ∧ other = execution := by
  have hle : n ≤ m := h.le_of_isSome (by rw [h'.execute_eq le_rfl]; rfl)
  have hge : m ≤ n := h'.le_of_isSome (by rw [h.execute_eq le_rfl]; rfl)
  have hanswer := (h'.execute_eq le_rfl).symm.trans (h.execute_eq hle)
  exact ⟨le_antisymm hge hle, Option.some.inj hanswer⟩

variable (hfits : entry.toNat + program.length ≤ Memory.size)

include hfits

theorem returns_of_isLeast
    (hleast : IsLeast
      {k | (cpu.loadProgram entry program).Over ⟨entry, program.length⟩ limit k} n) :
    cpu.Returns entry program limit n
      ((cpu.loadProgram entry program).answer ⟨entry, program.length⟩ n) := by
  intro fuel
  by_cases hfuel : n ≤ fuel
  · rw [if_pos hfuel, execute_eq_some_iff_of_fits cpu hfits]
    exact ⟨n, hfuel, hleast, (concludes_iff _ _ _ _).mpr rfl⟩
  · rw [if_neg hfuel, Option.eq_none_iff_forall_ne_some]
    intro other hother
    obtain ⟨m, hm, hleast', -⟩ := (execute_eq_some_iff_of_fits cpu hfits _ _ _).mp hother
    exact hfuel (hleast.unique hleast' ▸ hm)

/-- A program that fits returns after as many instructions as it takes until its run is over. -/
theorem returns_iff_isLeast :
    cpu.Returns entry program limit n execution ↔
      IsLeast {k | (cpu.loadProgram entry program).Over ⟨entry, program.length⟩ limit k} n ∧
        execution = (cpu.loadProgram entry program).answer ⟨entry, program.length⟩ n := by
  constructor
  · intro h
    have hanswer := h.execute_eq le_rfl
    rw [execute_eq_some_iff_of_fits cpu hfits] at hanswer
    obtain ⟨m, -, hleast, -⟩ := hanswer
    obtain ⟨rfl, rfl⟩ := h.unique (returns_of_isLeast hfits hleast)
    exact ⟨hleast, rfl⟩
  · rintro ⟨hleast, rfl⟩
    exact returns_of_isLeast hfits hleast

end Returns

/-! ## When a bounded run is over -/

section Over

variable {start : Cpu} {window : Window} {limit : Limit} {bound n : Nat}

theorem over_of_instructions (hbound : limit.instructions = some bound) :
    start.Over window limit bound :=
  .inr (.inl ⟨bound, hbound, le_rfl⟩)

/-- Half as many instructions as there are cycles to spend use them up. -/
theorem over_of_cycles (hbound : limit.cycles = some bound) :
    start.Over window limit ((bound + 1) / 2) := by
  have hspent := two_mul_le_spent start ((bound + 1) / 2)
  refine .inr (.inr ⟨bound, hbound, ?_⟩)
  omega

theorem isLeast_of_not_over (hover : start.Over window limit n)
    (hgoing : ∀ k < n, ¬ start.Over window limit k) : IsLeast {k | start.Over window limit k} n :=
  ⟨hover, fun k hk => not_lt.mp fun hlt => hgoing k hlt hk⟩

theorem exists_isLeast_over (hover : start.Over window limit n) :
    ∃ m, IsLeast {k | start.Over window limit k} m := by
  have hex : ∃ k, start.Over window limit k := ⟨n, hover⟩
  exact ⟨Nat.find hex, Nat.find_spec hex, fun k hk => Nat.find_min' hex hk⟩

theorem exists_isLeast_of_ne_unlimited (start : Cpu) (window : Window)
    (hlimit : limit ≠ .unlimited) : ∃ m, IsLeast {k | start.Over window limit k} m := by
  obtain ⟨instructions, cycles⟩ := limit
  cases instructions with
  | some bound => exact exists_isLeast_over (over_of_instructions rfl)
  | none =>
      cases cycles with
      | some bound => exact exists_isLeast_over (over_of_cycles rfl)
      | none => exact absurd rfl hlimit

/-- The instruction that meets a bound on the cycles began before the bound was met. -/
theorem spent_lt_of_isLeast (hleast : IsLeast {k | start.Over window limit k} n)
    (hbound : limit.cycles = some bound) : start.spent n < bound + 7 := by
  cases n with
  | zero => exact Nat.succ_pos _
  | succ n =>
      have hgoing : ¬ start.Over window limit n := fun hover => absurd (hleast.2 hover) (by omega)
      have hbefore : start.spent n < bound := by
        by_contra hmet
        exact hgoing (.inr (.inr ⟨bound, hbound, not_lt.mp hmet⟩))
      have hcost := cost_step_le_seven (start.after n)
      rw [spent]
      omega

theorem tally_within_of_isLeast (hleast : IsLeast {k | start.Over window limit k} n) :
    (start.tally n).Within limit where
  instructions_le _ hbound := hleast.2 (over_of_instructions hbound)
  instructions_le_half _ hbound := hleast.2 (over_of_cycles hbound)
  cycles_lt _ hbound := spent_lt_of_isLeast hleast hbound
  two_mul_le_cycles := two_mul_le_spent start n
  cycles_le_seven_mul := spent_le_seven_mul start n

/-- A run that is over inside the window has met its bound on the instructions exactly, or its
bound on the cycles. -/
theorem met_of_isLeast_of_covers (hleast : IsLeast {k | start.Over window limit k} n)
    (hcovers : window.Covers (start.after n).pc) :
    limit.instructions = some n ∨ ∃ bound, limit.cycles = some bound ∧ bound ≤ start.spent n := by
  rcases hleast.1 with hleft | ⟨bound, hbound, hle⟩ | hcycles
  · exact absurd hcovers hleft
  · have hge : n ≤ bound := hleast.2 (over_of_instructions hbound)
    exact .inl (le_antisymm hge hle ▸ hbound)
  · exact .inr hcycles

end Over

/-- A run with at least one bound comes to an end, after as many instructions as the bounds
allow, the cycles counted by two, and it goes beyond a bound on the cycles by less than seven.
A run that is cut short has met a bound, with the program counter still among the bytes of the
program. -/
theorem exists_returns_within (cpu : Cpu) {entry : Word} {program : List Byte}
    (hfits : entry.toNat + program.length ≤ Memory.size) {limit : Limit}
    (hlimit : limit ≠ .unlimited) :
    ∃ (tally : Tally) (execution : Execution Cpu),
      cpu.Returns entry program limit tally.instructions execution ∧ tally.Within limit ∧
      (execution.result = .ok tally ∨
        execution.result = .error (.limitReached tally execution.state.pc)) ∧
      ∀ cut pc, execution.result = .error (.limitReached cut pc) →
        (limit.instructions = some cut.instructions ∨
          ∃ bound, limit.cycles = some bound ∧ bound ≤ cut.cycles) ∧
        pc = execution.state.pc ∧ Window.Covers ⟨entry, program.length⟩ pc := by
  obtain ⟨n, hleast⟩ := exists_isLeast_of_ne_unlimited (cpu.loadProgram entry program)
    ⟨entry, program.length⟩ hlimit
  refine ⟨(cpu.loadProgram entry program).tally n,
    (cpu.loadProgram entry program).answer ⟨entry, program.length⟩ n,
    returns_of_isLeast hfits hleast, tally_within_of_isLeast hleast, ?_⟩
  by_cases hcovers :
      Window.Covers ⟨entry, program.length⟩ ((cpu.loadProgram entry program).after n).pc
  · rw [answer_of_covers hcovers]
    refine ⟨.inr rfl, fun cut pc hcut => ?_⟩
    cases hcut
    exact ⟨met_of_isLeast_of_covers hleast hcovers, rfl, hcovers⟩
  · rw [answer_of_not_covers hcovers]
    exact ⟨.inl rfl, fun cut pc hcut => nomatch hcut⟩

/-- One cycle to spend, and an instruction that takes seven. -/
theorem exists_returns_within_one_cycle :
    ∃ execution, fresh.Returns 0 [0xFE, 0, 0x10, 0xEA] ⟨none, some 1⟩ 1 execution ∧
      execution.result = .error (.limitReached ⟨1, 7⟩ 3) := by
  have hfits : (0 : Word).toNat + ([0xFE, 0, 0x10, 0xEA] : List Byte).length ≤ Memory.size := by
    decide
  have hlimit : (⟨none, some 1⟩ : Limit) ≠ .unlimited := by decide
  obtain ⟨tally, execution, hreturns, hwithin, hresult, -⟩ :=
    exists_returns_within fresh hfits hlimit
  have hle : tally.instructions ≤ 1 := hwithin.instructions_le_half 1 rfl
  have hrun : (fresh.execute 0 [0xFE, 0, 0x10, 0xEA] ⟨none, some 1⟩ 1).map (·.result) =
      some (.error (.limitReached ⟨1, 7⟩ 3)) := by
    decide +kernel
  rw [hreturns 1, if_pos hle, Option.map_some, Option.some_inj] at hrun
  rw [hrun] at hresult
  rcases hresult with hleft | hlimited
  · cases hleft
  · rw [Except.error.injEq, RunError.limitReached.injEq] at hlimited
    obtain ⟨rfl, -⟩ := hlimited
    exact ⟨execution, hreturns, hrun⟩

end Cpu

end Mos6502
