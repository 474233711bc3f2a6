import Mos6502.Run.Limit

/-!
# Runs of a machine

A machine runs until its program counter leaves a window of addresses, or until a limit is
met while it is still inside.  A run has no bound of its own, so it is given the number of
instructions that it may take: `none` means that it was still going.

* `Machine.isSome_run`: a limit on instructions bounds the run.
* `Machine.run_map`: machines that move in step have runs in step.
-/

namespace Mos6502

/-- How a run is over. -/
inductive Ending where
  /-- The program counter is outside the window. -/
  | left
  /-- A bound is met and the program counter is inside the window. -/
  | limited
deriving DecidableEq, Repr

/-- A run that is over. -/
structure Run (σ : Type) where
  state : σ
  tally : Tally
  ending : Ending
deriving DecidableEq

namespace Run

/-- A run seen through a view of its states. -/
def map (f : σ → τ) (run : Run σ) : Run τ :=
  ⟨f run.state, run.tally, run.ending⟩

end Run

/-- Anything with a program counter that executes one instruction at a time, at a cost. -/
structure Machine (σ : Type) where
  pc : σ → Word
  step : σ → σ × Nat

namespace Machine

/-- The run of a machine from a state and a tally, with a number of instructions to spend. -/
def run (machine : Machine σ) (window : Window) (limit : Limit) :
    (fuel : Nat) → Tally → σ → Option (Run σ)
  | fuel, tally, state =>
      if window.contains (machine.pc state) then
        if limit.reached tally then
          some ⟨state, tally, .limited⟩
        else
          match fuel with
          | 0 => none
          | fuel + 1 =>
              let (state, cost) := machine.step state
              run machine window limit fuel (tally.add cost) state
      else
        some ⟨state, tally, .left⟩

/-- A bound on instructions bounds a run. -/
theorem isSome_run (machine : Machine σ) (window : Window) (limit : Limit) {bound : Nat}
    (hbound : limit.instructions = some bound) (fuel : Nat) (tally : Tally) (state : σ)
    (hfuel : bound ≤ tally.instructions + fuel) :
    (machine.run window limit fuel tally state).isSome = true := by
  induction fuel generalizing tally state with
  | zero =>
      have hreached : limit.reached tally = true := by
        simp [Limit.reached, hbound]
        omega
      unfold run
      split <;> simp_all
  | succ fuel ih =>
      unfold run
      split
      · split
        · rfl
        · exact ih _ _ (by simp only [Tally.add]; omega)
      · rfl

/-- Machines whose steps agree through a view have runs that agree through it. -/
theorem run_map (first : Machine σ) (second : Machine τ) (view : σ → τ)
    (hpc : ∀ s, second.pc (view s) = first.pc s)
    (hstep : ∀ s, second.step (view s) = ((first.step s).map view id))
    (window : Window) (limit : Limit) (fuel : Nat) (tally : Tally) (state : σ) :
    second.run window limit fuel tally (view state)
      = (first.run window limit fuel tally state).map (Run.map view) := by
  induction fuel generalizing tally state with
  | zero =>
      unfold run
      rw [hpc]
      split
      · split <;> rfl
      · rfl
  | succ fuel ih =>
      unfold run
      rw [hpc]
      split
      · split
        · rfl
        · simp only [hstep, Prod.map_fst, Prod.map_snd, id_eq]
          exact ih _ _
      · rfl

end Machine

end Mos6502
