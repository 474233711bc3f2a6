import Mathlib.Data.Nat.Find
import Mathlib.Order.Bounds.Basic
import Mos6502.Proofs.Memory.Loading
import Mos6502.Run.Execution

/-!
# Where a run ends

A run follows the states `start.after 0, start.after 1, …` and stops at the first of them at
which the program counter is outside the program or a bound is met.  The loop of
`Machine.run` carries a tally along; on the orbit of `start` the tally at the `n`-th state
is `start.tally n`, so the loop at that state depends on `n` and on what is left to spend
only:

* `run_of_over`: at a state where the run is over the loop answers at once;
* `run_succ_of_not_over`, `run_zero_of_not_over`: anywhere else it goes on to the next state,
  or gives up when nothing is left;
* `run_eq_some_iff`: so the answer is the one at the least such state, whenever as many
  instructions as that may be spent.

`execute_eq_some_iff_of_fits` says this of a loaded program.
-/

namespace Mos6502

/-! ## Windows and bounds -/

namespace Window

/-- The addresses from the entry on, one for each byte of the program. -/
def Covers (window : Window) (address : Word) : Prop :=
  window.entry.toNat ≤ address.toNat ∧ address.toNat < window.entry.toNat + window.length

instance (window : Window) (address : Word) : Decidable (window.Covers address) :=
  inferInstanceAs (Decidable (_ ∧ _))

theorem contains_iff (window : Window) (address : Word) :
    window.contains address = true ↔ window.Covers address := by
  simp only [contains, Bool.and_eq_true, decide_eq_true_eq, UInt16.le_iff_toNat_le]
  rfl

theorem fits_iff (window : Window) :
    window.fits = true ↔ window.entry.toNat + window.length ≤ Memory.size := by
  simp only [fits, decide_eq_true_eq]
  rfl

/-- The cells of a window that fits are counted from its entry. -/
theorem covers_add {entry : Word} {length i : Nat} (hfits : entry.toNat + length ≤ Memory.size)
    (hi : i < length) : Covers ⟨entry, length⟩ (entry + UInt16.ofNat i) := by
  have hplace := Word.toNat_add_ofNat (Nat.lt_of_lt_of_le (Nat.add_lt_add_left hi _) hfits)
  exact ⟨hplace ▸ Nat.le_add_right .., hplace ▸ Nat.add_lt_add_left hi _⟩

end Window

namespace Limit

/-- One of the bounds that are present is met. -/
def Met (limit : Limit) (instructions cycles : Nat) : Prop :=
  (∃ bound, limit.instructions = some bound ∧ bound ≤ instructions) ∨
    ∃ bound, limit.cycles = some bound ∧ bound ≤ cycles

theorem reached_iff (limit : Limit) (tally : Tally) :
    limit.reached tally = true ↔ limit.Met tally.instructions tally.cycles := by
  simp [reached, Met, Option.any_eq_true]

instance (limit : Limit) (instructions cycles : Nat) :
    Decidable (limit.Met instructions cycles) :=
  decidable_of_iff _ (limit.reached_iff ⟨instructions, cycles⟩)

end Limit

namespace Cpu

/-- What a run has done when it has reached its `n`-th state. -/
def tally (start : Cpu) (n : Nat) : Tally :=
  ⟨n, start.spent n⟩

/-- A run is over at its `n`-th state: the program counter is outside the window, or a bound
is met. -/
def Over (start : Cpu) (window : Window) (limit : Limit) (n : Nat) : Prop :=
  ¬ window.Covers (start.after n).pc ∨ limit.Met n (start.spent n)

instance (start : Cpu) (window : Window) (limit : Limit) :
    DecidablePred (start.Over window limit) :=
  fun _ => inferInstanceAs (Decidable (_ ∨ _))

/-- How a run that is over at its `n`-th state is over; leaving the window comes first. -/
def ending (start : Cpu) (window : Window) (n : Nat) : Ending :=
  if window.Covers (start.after n).pc then .limited else .left

/-! ## The loop on an orbit -/

section Loop

variable {start : Cpu} {window : Window} {limit : Limit} {n : Nat}

theorem run_of_over (hover : start.Over window limit n) (fuel : Nat) :
    machine.run window limit fuel (start.tally n) (start.after n) =
      some ⟨start.after n, start.tally n, start.ending window n⟩ := by
  unfold Machine.run ending
  by_cases hcovers : window.Covers (start.after n).pc
  · have hcontains : window.contains (machine.pc (start.after n)) = true :=
      (window.contains_iff _).mpr hcovers
    have hreached : limit.reached (start.tally n) = true :=
      (limit.reached_iff _).mpr (hover.resolve_left (not_not.mpr hcovers))
    rw [if_pos hcontains, if_pos hreached, if_pos hcovers]
  · have hcontains : ¬ window.contains (machine.pc (start.after n)) = true :=
      (window.contains_iff _).not.mpr hcovers
    rw [if_neg hcontains, if_neg hcovers]

/-- A run that is not over is inside the window with no bound met. -/
theorem contains_and_not_reached_of_not_over (hgoing : ¬ start.Over window limit n) :
    window.contains (machine.pc (start.after n)) = true ∧
      ¬ limit.reached (start.tally n) = true := by
  obtain ⟨hcovers, hmet⟩ := not_or.mp hgoing
  exact ⟨(window.contains_iff _).mpr (not_not.mp hcovers), (limit.reached_iff _).not.mpr hmet⟩

theorem run_zero_of_not_over (hgoing : ¬ start.Over window limit n) :
    machine.run window limit 0 (start.tally n) (start.after n) = none := by
  obtain ⟨hcontains, hreached⟩ := contains_and_not_reached_of_not_over hgoing
  unfold Machine.run
  rw [if_pos hcontains, if_neg hreached]

theorem run_succ_of_not_over (hgoing : ¬ start.Over window limit n) (fuel : Nat) :
    machine.run window limit (fuel + 1) (start.tally n) (start.after n) =
      machine.run window limit fuel (start.tally (n + 1)) (start.after (n + 1)) := by
  obtain ⟨hcontains, hreached⟩ := contains_and_not_reached_of_not_over hgoing
  rw [Machine.run, if_pos hcontains, if_neg hreached]
  rfl

/-- As long as the run is not over, each instruction to spend takes it one state further. -/
theorem run_add_of_forall_not_over (hgoing : ∀ k < n, ¬ start.Over window limit k) (fuel : Nat) :
    machine.run window limit (fuel + n) .zero start =
      machine.run window limit fuel (start.tally n) (start.after n) := by
  induction n generalizing fuel with
  | zero => rfl
  | succ n ih =>
      have hbefore : ∀ k < n, ¬ start.Over window limit k := fun k hk => hgoing k (by omega)
      rw [show fuel + (n + 1) = fuel + 1 + n by omega, ih hbefore (fuel + 1)]
      exact run_succ_of_not_over (hgoing n (by omega)) fuel

/-- The answer of a run is the one at the least state at which it is over. -/
theorem run_eq_some_iff {fuel : Nat} {run : Run Cpu} :
    machine.run window limit fuel .zero start = some run ↔
      ∃ n ≤ fuel, IsLeast {k | start.Over window limit k} n ∧
        run = ⟨start.after n, start.tally n, start.ending window n⟩ := by
  constructor
  · intro hrun
    by_cases hex : ∃ n ≤ fuel, start.Over window limit n
    · obtain ⟨hle, hover⟩ := Nat.find_spec hex
      have hbefore : ∀ k < Nat.find hex, ¬ start.Over window limit k := by
        intro k hk hk'
        exact Nat.find_min hex hk ⟨by omega, hk'⟩
      rw [show fuel = fuel - Nat.find hex + Nat.find hex by omega,
        run_add_of_forall_not_over hbefore, run_of_over hover] at hrun
      refine ⟨Nat.find hex, hle, ⟨hover, fun k hk => ?_⟩, (Option.some.inj hrun).symm⟩
      exact not_lt.mp fun hlt => hbefore k hlt hk
    · -- the run is still going when everything is spent, so it has no answer
      have hgoing : ∀ k ≤ fuel, ¬ start.Over window limit k :=
        fun k hk hover => hex ⟨k, hk, hover⟩
      rw [← Nat.zero_add fuel, run_add_of_forall_not_over fun k hk => hgoing k hk.le,
        run_zero_of_not_over (hgoing fuel le_rfl)] at hrun
      cases hrun
  · rintro ⟨n, hle, ⟨hover, hleast⟩, rfl⟩
    have hbefore : ∀ k < n, ¬ start.Over window limit k :=
      fun k hk hk' => absurd (hleast hk') (not_le.mpr hk)
    rw [show fuel = fuel - n + n by omega, run_add_of_forall_not_over hbefore, run_of_over hover]

end Loop

/-! ## Running a program -/

/-- The machine `start` is `cpu` with a program in its cells and the program counter at the
program's first byte. -/
structure Loads (cpu : Cpu) (entry : Word) (program : List Byte) (start : Cpu) : Prop where
  registers : start.toRegisters = { cpu.toRegisters with pc := entry }
  cycles : start.cycles = cpu.cycles
  bytes : ∀ (i : Nat) (hi : i < program.length),
    start.memory.read (entry + UInt16.ofNat i) = program[i]
  elsewhere : ∀ address, ¬ Window.Covers ⟨entry, program.length⟩ address →
    start.memory.read address = cpu.memory.read address

/-- What is handed back by a run that is over at its `n`-th state. -/
structure Concludes (start : Cpu) (window : Window) (n : Nat) (execution : Execution Cpu) :
    Prop where
  state : execution.state = start.after n
  left : execution.result = .ok ⟨n, start.spent n⟩ ↔ ¬ window.Covers (start.after n).pc
  limited : execution.result = .error (.limitReached ⟨n, start.spent n⟩ (start.after n).pc) ↔
    window.Covers (start.after n).pc

theorem loads_loadProgram (cpu : Cpu) (entry : Word) (program : List Byte)
    (hfits : entry.toNat + program.length ≤ Memory.size) :
    cpu.Loads entry program (cpu.loadProgram entry program) where
  registers := rfl
  cycles := rfl
  bytes := fun i hi => Memory.read_load_of_lt _ _ (by omega) hi
  elsewhere := by
    intro address hnot
    refine Memory.read_load_of_notMem _ _ _ _ fun i hi heq => hnot ?_
    rw [Memory.size] at hfits
    have haddress : address.toNat = entry.toNat + i := by
      rw [← heq, UInt16.toNat_add, UInt16.toNat_ofNat']
      omega
    exact ⟨haddress ▸ Nat.le_add_right _ _, haddress ▸ Nat.add_lt_add_left hi _⟩

theorem concludes_iff (start : Cpu) (window : Window) (n : Nat) (execution : Execution Cpu) :
    start.Concludes window n execution ↔
      execution = conclude ⟨start.after n, start.tally n, start.ending window n⟩ := by
  obtain ⟨state, result⟩ := execution
  by_cases hcovers : window.Covers (start.after n).pc
  · have hending : start.ending window n = .limited := if_pos hcovers
    rw [hending]
    constructor
    · rintro ⟨rfl, -, hlimited⟩
      obtain rfl := hlimited.mpr hcovers
      rfl
    · intro h
      cases h
      exact ⟨rfl, by simp [hcovers], by simp [hcovers, tally]⟩
  · have hending : start.ending window n = .left := if_neg hcovers
    rw [hending]
    constructor
    · rintro ⟨rfl, hleft, -⟩
      obtain rfl := hleft.mpr hcovers
      rfl
    · intro h
      cases h
      exact ⟨rfl, by simp [hcovers, tally], by simp [hcovers]⟩

/-- A run of a program that fits has an answer exactly when it is over at a state that the
instructions to spend reach, and then the answer is the one at the least such state. -/
theorem execute_eq_some_iff_of_fits (cpu : Cpu) {entry : Word} {program : List Byte}
    (hfits : entry.toNat + program.length ≤ Memory.size) (limit : Limit) (fuel : Nat)
    (execution : Execution Cpu) :
    cpu.execute entry program limit fuel = some execution ↔
      ∃ n ≤ fuel,
        IsLeast {k | (cpu.loadProgram entry program).Over ⟨entry, program.length⟩ limit k} n ∧
        (cpu.loadProgram entry program).Concludes ⟨entry, program.length⟩ n execution := by
  have hwindow : Window.fits ⟨entry, program.length⟩ = true := (Window.fits_iff _).mpr hfits
  simp only [execute, hwindow, if_true, Option.map_eq_some_iff, run_eq_some_iff, concludes_iff]
  constructor
  · rintro ⟨run, ⟨n, hle, hleast, rfl⟩, rfl⟩
    exact ⟨n, hle, hleast, rfl⟩
  · rintro ⟨n, hle, hleast, rfl⟩
    exact ⟨_, ⟨n, hle, hleast, rfl⟩, rfl⟩

/-- Without a bound, a program whose run stays inside it up to the `n`-th state and is outside
there comes to its end at that state. -/
theorem execute_of_leaves (cpu : Cpu) {entry : Word} {program : List Byte}
    (hfits : entry.toNat + program.length ≤ Memory.size) {n : Nat}
    (hinside : ∀ k < n, Window.Covers ⟨entry, program.length⟩
      ((cpu.loadProgram entry program).after k).pc)
    (houtside : ¬ Window.Covers ⟨entry, program.length⟩
      ((cpu.loadProgram entry program).after n).pc) {fuel : Nat} (hfuel : n ≤ fuel) :
    cpu.execute entry program .unlimited fuel =
      some ⟨(cpu.loadProgram entry program).after n,
        .ok ⟨n, (cpu.loadProgram entry program).spent n⟩⟩ := by
  have hleast : IsLeast
      {k | (cpu.loadProgram entry program).Over ⟨entry, program.length⟩ .unlimited k} n := by
    refine ⟨.inl houtside, fun k hover => not_lt.mp fun hk => ?_⟩
    rcases hover with hleft | ⟨bound, hbound, -⟩ | ⟨bound, hbound, -⟩
    · exact hleft (hinside k hk)
    · cases hbound
    · cases hbound
  refine (execute_eq_some_iff_of_fits cpu hfits _ _ _).mpr ⟨n, hfuel, hleast, ?_⟩
  rw [concludes_iff, ending, if_neg houtside]
  rfl

/-- A program that does not fit is refused and the machine stays as it was.  Any other is
loaded; its run comes to an end exactly when it is over at some state, and then the answer
is the one at the least such state: a completed run when the program counter is outside the
program there, whether or not a bound is met as well, and a run cut short otherwise. -/
theorem execute_ends_at_least_state (cpu : Cpu) (entry : Word) (program : List Byte)
    (limit : Limit) :
    (Memory.size < entry.toNat + program.length → ∀ fuel,
      cpu.execute entry program limit fuel =
        some ⟨cpu, .error (.outOfRange entry program.length)⟩) ∧
    (entry.toNat + program.length ≤ Memory.size →
      cpu.Loads entry program (cpu.loadProgram entry program) ∧
      ((∃ fuel execution, cpu.execute entry program limit fuel = some execution) ↔
        ∃ n, (cpu.loadProgram entry program).Over ⟨entry, program.length⟩ limit n) ∧
      ∀ fuel execution, cpu.execute entry program limit fuel = some execution ↔
        ∃ n ≤ fuel,
          IsLeast {k | (cpu.loadProgram entry program).Over ⟨entry, program.length⟩ limit k} n ∧
          (cpu.loadProgram entry program).Concludes ⟨entry, program.length⟩ n execution) := by
  constructor
  · intro hlarge fuel
    have hwindow : ¬ Window.fits ⟨entry, program.length⟩ = true :=
      (Window.fits_iff _).not.mpr (not_le.mpr hlarge)
    exact if_neg hwindow
  · intro hfits
    have hanswer := cpu.execute_eq_some_iff_of_fits hfits limit
    refine ⟨loads_loadProgram cpu entry program hfits, ?_, hanswer⟩
    constructor
    · rintro ⟨fuel, execution, hexecute⟩
      obtain ⟨n, -, hleast, -⟩ := (hanswer fuel execution).mp hexecute
      exact ⟨n, hleast.1⟩
    · intro hex
      have hleast : IsLeast
          {k | (cpu.loadProgram entry program).Over ⟨entry, program.length⟩ limit k}
          (Nat.find hex) :=
        ⟨Nat.find_spec hex, fun k hk => Nat.find_min' hex hk⟩
      exact ⟨_, _, (hanswer _ _).mpr ⟨_, le_rfl, hleast, (concludes_iff _ _ _ _).mpr rfl⟩⟩

/-- A program that reaches past the top of memory is refused.  One that leaves its bytes by
the very instruction that meets the bound counts as completed. -/
theorem execute_leaving_with_bound_met :
    (∀ fuel, fresh.execute 0xFFFF [0xEA, 0xEA] ⟨some 1, none⟩ fuel =
      some ⟨fresh, .error (.outOfRange 0xFFFF 2)⟩) ∧
    ∃ execution, fresh.execute 0 [0xEA] ⟨some 1, none⟩ 1 = some execution ∧
      execution.result = .ok ⟨1, 2⟩ := by
  refine ⟨(execute_ends_at_least_state fresh 0xFFFF [0xEA, 0xEA] ⟨some 1, none⟩).1 (by decide),
    ?_⟩
  obtain ⟨-, -, hanswer⟩ :=
    (execute_ends_at_least_state fresh 0 [0xEA] ⟨some 1, none⟩).2 (by decide)
  have hfirst : ¬ (fresh.loadProgram 0 [0xEA]).Over ⟨0, 1⟩ ⟨some 1, none⟩ 0 := by
    decide +kernel
  have hsecond : (fresh.loadProgram 0 [0xEA]).Over ⟨0, 1⟩ ⟨some 1, none⟩ 1 := by
    decide +kernel
  have hleast : IsLeast {k | (fresh.loadProgram 0 [0xEA]).Over ⟨0, 1⟩ ⟨some 1, none⟩ k} 1 := by
    refine ⟨hsecond, fun k hk => Nat.one_le_iff_ne_zero.mpr ?_⟩
    rintro rfl
    exact hfirst hk
  have hspent : (fresh.loadProgram 0 [0xEA]).spent 1 = 2 := by
    decide +kernel
  have houtside : ¬ Window.Covers ⟨0, 1⟩ ((fresh.loadProgram 0 [0xEA]).after 1).pc := by
    decide +kernel
  have hconcludes := (concludes_iff (fresh.loadProgram 0 [0xEA]) ⟨0, 1⟩ 1 _).mpr rfl
  have hresult := hconcludes.left.mpr houtside
  rw [hspent] at hresult
  exact ⟨_, (hanswer 1 _).mpr ⟨1, le_rfl, hleast, hconcludes⟩, hresult⟩

end Cpu

end Mos6502
