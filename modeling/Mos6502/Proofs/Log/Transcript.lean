import Mos6502.Proofs.Log.Notice
import Mos6502.Proofs.Run.Ending
import Mos6502.Proofs.Stack.Discipline
import Mos6502.Session

/-!
# What a machine with a log does and tells

A `Device` is anything that can be asked for a step, a run, a reset, a save or a restore: the
machine alone, and the machine with a listener, such as a log in one span of time or a log for
which time passes.  All are asked the same requests, and what was asked, answered and reached is
a list of `Exchange`s.

What an exchange tells can be read off the machine before and after it (`Exchange.notices`):
the bytes and cells of the stack come from the footprint of the instruction and from memory.
`serveAll_session` says that a machine with a listener answers and moves as the machine alone does
and tells the listener these notices.  It is built up along the levels of the program, one equation
for each: `step_eq` for an instruction, `run_along` for the loop, `execute_eq` for a program
and `serve_session` for a request.  The history comes from the machine alone, hence the listener
has no influence; and what a log with room does with notices is in `Hears.lines_eq`.
-/

namespace Mos6502

open Listener (tellAll tellAll_append)

/-! ## Requests and answers -/

/-- What a machine can be asked. -/
inductive Request where
  | step
  | execute (entry : Word) (program : List Byte) (limit : Limit)
  | reset
  | save
  | restore (document : Json)

/-- What a machine answers. -/
inductive Reply where
  | cost (cycles : Nat)
  | ran (result : Except RunError Tally)
  | done
  | saved (document : Json)
  | restored (result : Except SaveState.Error Unit)

/-- A request with its reply, and the machine before and after. -/
structure Exchange where
  before : Cpu
  request : Request
  reply : Reply
  after : Cpu

/-- Something around a machine that serves requests. -/
structure Device (σ : Type) where
  cpu : σ → Cpu
  step : σ → σ × Nat
  execute : σ → Word → List Byte → Limit → (fuel : Nat) → Option (Execution σ)
  reset : σ → σ
  restore : σ → Json → Except SaveState.Error Unit × σ

namespace Device

/-- One request is served; `none` means that a run was still going. -/
def serve (device : Device σ) (fuel : Nat) (state : σ) : Request → Option (Reply × σ)
  | .step =>
      let (state, cycles) := device.step state
      some (.cost cycles, state)
  | .execute entry program limit =>
      (device.execute state entry program limit fuel).map fun execution =>
        (.ran execution.result, execution.state)
  | .reset => some (.done, device.reset state)
  | .save => some (.saved (SaveState.encode (device.cpu state)), state)
  | .restore document =>
      let (result, state) := device.restore state document
      some (.restored result, state)

/-- Requests are served one after the other. -/
def serveAll (device : Device σ) (fuel : Nat) : σ → List Request → Option (List Exchange × σ)
  | state, [] => some ([], state)
  | state, request :: requests =>
      (device.serve fuel state request).bind fun (reply, next) =>
        (device.serveAll fuel next requests).map fun (history, last) =>
          (⟨device.cpu state, request, reply, device.cpu next⟩ :: history, last)

end Device

/-- The machine alone. -/
def Cpu.device : Device Cpu where
  cpu := id
  step := machine.step
  execute := execute
  reset _ := .fresh
  restore := restore

/-- The machine with a listener. -/
def Session.device {ℓ : Type} [Listener ℓ] : Device (Session ℓ) where
  cpu := cpu
  step := step
  execute := execute
  reset := reset
  restore := restore

/-! ## What is told -/

namespace Cpu

/-- The bytes that an instruction pushes or pulls, each with its cell, first to last. -/
def accesses (cpu : Cpu) : List StackAccess :=
  cpu.pushedCells.map (fun cell => .push (cpu.step.cpu.memory.read cell) cell)
    ++ cpu.pulledCells.map fun cell => .pull (cpu.memory.read cell) cell

/-- What one instruction tells. -/
def stepNotices (cpu : Cpu) : List Log.Notice :=
  ⟨.cpu, .trace, .fetched cpu.toRegisters (cpu.memory.read cpu.pc) cpu.cycles, rfl, rfl⟩ ::
    (if cpu.opcode.operation = .undocumented then
      [⟨.stubs, .warn, .undocumented (cpu.memory.read cpu.pc) cpu.pc, rfl, rfl⟩]
    else if cpu.opcode.operation = .brk then
      [⟨.stubs, .debug, .breakpoint cpu.pc, rfl, rfl⟩]
    else
      [])
    ++ cpu.accesses.map fun access => ⟨.stack, .trace, .stack access, rfl, rfl⟩

/-- What the first instructions of a machine tell. -/
def firstNotices (start : Cpu) (n : Nat) : List Log.Notice :=
  (List.range n).flatMap fun k => (start.after k).stepNotices

/-- What a run of a program tells: its start, its instructions, and how it ended.  A program
that is refused tells nothing. -/
def executeNotices (cpu : Cpu) (entry : Word) (program : List Byte) (limit : Limit)
    (execution : Execution Cpu) : List Log.Notice :=
  let started : Log.Notice := ⟨.cpu, .debug, .started ⟨entry, program.length⟩ limit, rfl, rfl⟩
  let start := cpu.loadProgram entry program
  match execution.result with
  | .ok tally =>
      started :: start.firstNotices tally.instructions
        ++ [⟨.cpu, .debug, .leftWindow tally execution.state.pc, rfl, rfl⟩]
  | .error (.limitReached tally pc) =>
      started :: start.firstNotices tally.instructions
        ++ [⟨.cpu, .debug, .cutShort tally pc, rfl, rfl⟩]
  | .error (.outOfRange ..) => []

end Cpu

/-- What is told in the course of an exchange. -/
def Exchange.notices : Exchange → List Log.Notice
  | ⟨before, .step, _, _⟩ => before.stepNotices
  | ⟨before, .execute entry program limit, .ran result, after⟩ =>
      before.executeNotices entry program limit ⟨after, result⟩
  | _ => []

/-- What is told in the course of a history, first to last. -/
def Exchange.told (history : List Exchange) : List Log.Notice :=
  history.flatMap notices

/-! ## An instruction -/

namespace Cpu

/-- What goes over the stack is what the footprint of the instruction says. -/
theorem traffic_step (cpu : Cpu) : cpu.step.traffic = cpu.accesses := by
  have hperform : cpu.step.traffic =
      (cpu.ready.perform cpu.opcode.operation cpu.operand.operand).traffic := by
    rw [cpu.step_eq]
  have hmemory := cpu.memory_step
  -- the stack pointer moves up one place at a time, the footprint counts from where it stood
  have htwo : cpu.sp + 1 + 1 = cpu.sp + 2 := UInt8.add_assoc ..
  have hthree : cpu.sp + 2 + 1 = cpu.sp + 3 := UInt8.add_assoc ..
  rw [hperform]
  unfold accesses pushedCells pulledCells cellsPulledBy
  cases hoperation : cpu.opcode.operation <;> rw [hoperation] at hmemory
  case pha | php =>
    simp [perform, Effect.push, Effect.still, hmemory, writes, Memory.writeAll,
      Operation.pushedBytes, Operation.pulledBytes, ready]
  case jsr =>
    have hoperand := operand_eq_address_iff.mpr (effectiveAddress_of_jsr hoperation)
    have hne : Word.stack (cpu.sp - 1) ≠ Word.stack cpu.sp := by
      rw [Ne, Word.stack_inj]
      grind
    rw [hoperand] at hmemory ⊢
    simp [perform, call, Effect.push, Effect.map, Effect.still, push, hmemory, writes,
      Memory.writeAll, Memory.read_write_of_ne _ _ hne, List.range_succ, Operation.pushedBytes,
      Operation.pulledBytes, ready]
  case rts | rti =>
    simp [perform, returnTo, Effect.pull, Effect.map, Effect.still, pull, List.range_succ,
      Operation.pushedBytes, Operation.pulledBytes, ready, htwo, hthree]
  case jmp => cases cpu.operand.operand <;> rfl
  case bcc | bcs | bne | beq | bpl | bmi | bvc | bvs =>
    cases cpu.operand.operand
    case relative =>
      simp only [perform, branch]
      split <;> rfl
    all_goals rfl
  all_goals rfl

theorem firstNotices_succ (start : Cpu) (n : Nat) :
    start.firstNotices (n + 1) = start.firstNotices n ++ (start.after n).stepNotices := by
  rw [firstNotices, List.range_succ, List.flatMap_append, List.flatMap_singleton]
  rfl

/-- What a session announces and passes on are the events of the notices. -/
theorem map_event_stepNotices (cpu : Cpu) :
    cpu.stepNotices.map Log.Notice.event = cpu.announcements ++ cpu.step.traffic.map .stack := by
  have hopcode : Opcode.decode (cpu.memory.read cpu.pc) = cpu.opcode := rfl
  rw [traffic_step, stepNotices, announcements]
  simp only [hopcode]
  cases cpu.opcode.operation <;> simp

end Cpu

namespace Session

variable {ℓ : Type} [Listener ℓ]

theorem step_eq (cpu : Cpu) (log : ℓ) :
    step ⟨cpu, log⟩ = (⟨cpu.step.cpu, tellAll log cpu.stepNotices⟩, cpu.step.cycles) := by
  rw [tellAll, cpu.map_event_stepNotices]
  rfl

/-! ## A run -/

/-- The loop of a session goes along with the loop of its machine, and has told at each state
what the instructions up to there tell. -/
theorem run_along (start : Cpu) (log : ℓ) (window : Window) (limit : Limit) (fuel n : Nat) :
    machine.run window limit fuel (start.tally n)
        ⟨start.after n, tellAll log (start.firstNotices n)⟩ =
      (Cpu.machine.run window limit fuel (start.tally n) (start.after n)).map fun run =>
        ⟨⟨run.state, tellAll log (start.firstNotices run.tally.instructions)⟩, run.tally,
          run.ending⟩ := by
  have hpc : ∀ (cpu : Cpu) (log : ℓ), machine.pc ⟨cpu, log⟩ = Cpu.machine.pc cpu :=
    fun _ _ => rfl
  induction fuel generalizing n with
  | zero =>
      unfold Machine.run
      rw [hpc]
      split
      · split <;> rfl
      · rfl
  | succ fuel ih =>
      have hstep : machine.step ⟨start.after n, tellAll log (start.firstNotices n)⟩ =
          (⟨start.after (n + 1), tellAll log (start.firstNotices (n + 1))⟩,
            (start.after n).step.cycles) := by
        rw [start.firstNotices_succ, tellAll_append]
        exact step_eq _ _
      unfold Machine.run
      rw [hpc, hstep]
      split
      · split
        · rfl
        · exact ih (n + 1)
      · rfl

/-- The end of a run is told after its instructions. -/
theorem conclude_eq (cpu : Cpu) (log : ℓ) (entry : Word) (program : List Byte) (limit : Limit)
    (run : Run Cpu) :
    conclude
        ⟨⟨run.state, tellAll (Listener.emit log (.started ⟨entry, program.length⟩ limit))
            ((cpu.loadProgram entry program).firstNotices run.tally.instructions)⟩,
          run.tally, run.ending⟩ =
      ⟨⟨(Cpu.conclude run).state,
          tellAll log (cpu.executeNotices entry program limit (Cpu.conclude run))⟩,
        (Cpu.conclude run).result⟩ := by
  obtain ⟨state, tally, ending⟩ := run
  cases ending <;> simp only [Cpu.conclude, Cpu.executeNotices, tellAll_append] <;> rfl

/-- A program is run as on the machine alone, and what it tells can be read off the answer. -/
theorem execute_eq (cpu : Cpu) (log : ℓ) (entry : Word) (program : List Byte) (limit : Limit)
    (fuel : Nat) :
    execute ⟨cpu, log⟩ entry program limit fuel =
      (cpu.execute entry program limit fuel).map fun execution =>
        ⟨⟨execution.state, tellAll log (cpu.executeNotices entry program limit execution)⟩,
          execution.result⟩ := by
  have hrun : machine.run ⟨entry, program.length⟩ limit fuel .zero
      (start ⟨cpu, log⟩ entry program limit) = _ :=
    run_along (cpu.loadProgram entry program)
      (Listener.emit log (.started ⟨entry, program.length⟩ limit)) ⟨entry, program.length⟩ limit
      fuel 0
  unfold execute Cpu.execute
  dsimp only
  split
  · rw [hrun, Option.map_map, Option.map_map]
    exact congrArg (Option.map · _) (funext (conclude_eq cpu log entry program limit))
  · rfl

/-! ## A request, and all requests -/

theorem serve_session (fuel : Nat) (cpu : Cpu) (log : ℓ) (request : Request) :
    device.serve fuel ⟨cpu, log⟩ request =
      (Cpu.device.serve fuel cpu request).map fun (reply, next) =>
        (reply, ⟨next, tellAll log (Exchange.notices ⟨cpu, request, reply, next⟩)⟩) := by
  cases request with
  | execute entry program limit =>
      simp only [Device.serve]
      rw [show device.execute = execute from rfl, execute_eq, Option.map_map, Option.map_map]
      rfl
  | step => exact congrArg some (Prod.ext rfl (congrArg Prod.fst (step_eq cpu log)))
  | reset => rfl
  | save => rfl
  | restore document => rfl

theorem serveAll_session (fuel : Nat) (cpu : Cpu) (log : ℓ) (requests : List Request) :
    device.serveAll fuel ⟨cpu, log⟩ requests =
      (Cpu.device.serveAll fuel cpu requests).map fun (history, last) =>
        (history, ⟨last, tellAll log (Exchange.told history)⟩) := by
  induction requests generalizing cpu log with
  | nil => rfl
  | cons request requests ih =>
      simp only [Device.serveAll]
      rw [serve_session]
      cases Cpu.device.serve fuel cpu request with
      | none => rfl
      | some served =>
          obtain ⟨reply, next⟩ := served
          simp only [Option.map_some, Option.bind_some]
          rw [ih]
          cases Cpu.device.serveAll fuel next requests with
          | none => rfl
          | some rest =>
              obtain ⟨history, last⟩ := rest
              simp only [Option.map_some, ← tellAll_append]
              rfl

theorem log_eq_tellAll {fuel : Nat} {cpu : Cpu} {log : ℓ} {requests : List Request}
    {history : List Exchange} {final : Session ℓ}
    (hserve : device.serveAll fuel ⟨cpu, log⟩ requests = some (history, final)) :
    final.log = tellAll log (Exchange.told history) := by
  rw [serveAll_session] at hserve
  obtain ⟨⟨_, last⟩, -, hserved⟩ := Option.map_eq_some_iff.mp hserve
  cases hserved
  rfl

end Session

end Mos6502
