import Mos6502.Log.Basic
import Mos6502.SaveState

/-!
# A machine with a log

The same operations as on the machine alone, each telling the log what it does.  Anything that
can be told events may stand in the place of the log.  The machine takes no notice of it:
`execute_map_cpu` says that a program does to the machine what it does to the machine alone.
-/

namespace Mos6502

/-- A machine and the log it tells. -/
structure Session (ℓ : Type := Log) where
  cpu : Cpu
  log : ℓ
deriving DecidableEq

namespace Session

/-- A fresh machine with a fresh log. -/
def fresh : Session :=
  ⟨.fresh, .fresh⟩

variable {ℓ : Type} [Listener ℓ]

/-- One instruction, at its cost.  The instruction is announced first; the bytes that go over
the stack follow in their order. -/
def step : Session ℓ → Session ℓ × Nat
  | ⟨cpu, log⟩ =>
      let announced := cpu.announcements
      let ⟨cpu, cycles, traffic⟩ := cpu.step
      (⟨cpu, Listener.emitAll log (announced ++ traffic.map .stack)⟩, cycles)

/-- The machine that executes instructions and tells its log. -/
def machine : Machine (Session ℓ) where
  pc session := session.cpu.pc
  step := step

/-- A program is loaded and its start is told. -/
def start : Session ℓ → (entry : Word) → (program : List Byte) → Limit → Session ℓ
  | ⟨cpu, log⟩, entry, program, limit =>
      ⟨cpu.loadProgram entry program,
        Listener.emit log (.started ⟨entry, program.length⟩ limit)⟩

/-- The answer to whoever asked for a run, and its end is told. -/
def conclude : Run (Session ℓ) → Execution (Session ℓ)
  | ⟨⟨cpu, log⟩, tally, .left⟩ =>
      ⟨⟨cpu, Listener.emit log (.leftWindow tally cpu.pc)⟩, .ok tally⟩
  | ⟨⟨cpu, log⟩, tally, .limited⟩ =>
      ⟨⟨cpu, Listener.emit log (.cutShort tally cpu.pc)⟩, .error (.limitReached tally cpu.pc)⟩

/-- A program is loaded and run; `none` means that it was still going when the number of
instructions to spend was spent. -/
def execute (session : Session ℓ) (entry : Word) (program : List Byte) (limit : Limit)
    (fuel : Nat) : Option (Execution (Session ℓ)) :=
  let window : Window := ⟨entry, program.length⟩
  if window.fits then
    (machine.run window limit fuel .zero (session.start entry program limit)).map conclude
  else
    some ⟨session, .error (.outOfRange entry program.length)⟩

/-- With a bound on the instructions a program is always run to an answer. -/
theorem isSome_execute (session : Session ℓ) (entry : Word) (program : List Byte)
    (maxInstructions : Nat) (maxCycles : Option Nat) :
    (session.execute entry program ⟨some maxInstructions, maxCycles⟩ maxInstructions).isSome
      = true := by
  unfold execute
  dsimp only
  split
  · rw [Option.isSome_map]
    exact Machine.isSome_run _ _ _ rfl _ _ _ (by simp [Tally.zero])
  · rfl

/-- A program is loaded and run for a bounded number of instructions. -/
def executeWithin (session : Session ℓ) (entry : Word) (program : List Byte)
    (maxInstructions : Nat) (maxCycles : Option Nat) : Execution (Session ℓ) :=
  (session.execute entry program ⟨some maxInstructions, maxCycles⟩ maxInstructions).get
    (session.isSome_execute entry program maxInstructions maxCycles)

/-- The machine goes back to power-on. -/
def reset (session : Session ℓ) : Session ℓ :=
  { session with cpu := .fresh }

/-- The machine takes on the state in a document, or stays as it is. -/
def restore (session : Session ℓ) (document : Json) : Except SaveState.Error Unit × Session ℓ :=
  let (result, cpu) := session.cpu.restore document
  (result, { session with cpu })

/-- A program does to the machine of a session what it does to the machine alone. -/
theorem execute_map_cpu (session : Session ℓ) (entry : Word) (program : List Byte)
    (limit : Limit) (fuel : Nat) :
    (session.execute entry program limit fuel).map (fun e => (e.state.cpu, e.result))
      = (session.cpu.execute entry program limit fuel).map (fun e => (e.state, e.result)) := by
  unfold execute Cpu.execute
  dsimp only
  split
  · have hview := Machine.run_map machine Cpu.machine Session.cpu
      (fun _ => rfl) (fun _ => rfl) ⟨entry, program.length⟩ limit fuel .zero
      (session.start entry program limit)
    have hstart : (session.start entry program limit).cpu
        = session.cpu.loadProgram entry program := rfl
    rw [hstart] at hview
    rw [hview]
    simp only [Option.map_map]
    congr 1
    funext run
    obtain ⟨⟨cpu, log⟩, tally, ending⟩ := run
    cases ending <;> rfl
  · rfl

end Session

end Mos6502
