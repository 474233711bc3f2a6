import Mos6502.Proofs.Program.Deeds
import Mos6502.Proofs.Program.Rows
import Mos6502.Proofs.Run.Bounds
import Mos6502.Proofs.SaveState.Reading

/-!
# What comes of a command line

Options that were accepted name a file, and the file either supplies the bytes of a program
(`Supplies`) or it does not.  The bytes are run on a fresh machine under a bound on the
instructions, so the run always has an answer, and the log does not influence it
(`Session.executeWithin_of_returns`).

From there on there are two kinds of failure.  A file that supplies no program, and a program that
does not fit, end everything at once: nothing is printed or saved.  A run that is cut short is
reported like any other (`runBytes_of_counts`) and fails after everything else is done.  Nothing
but the bytes and the other options comes into the report, so a listing and the bytes that it
stands for are told apart by nobody.
-/

namespace Mos6502

/-! ## A run under the bounds of a command line -/

/-- The answer to a run tells what it did, whether it was completed or cut short. -/
def Execution.Counts (execution : Execution Cpu) (tally : Tally) : Prop :=
  execution.result = .ok tally ∨
    execution.result = .error (.limitReached tally execution.state.pc)

/-- A bound on the instructions is enough for an answer. -/
theorem Cpu.exists_returns_counts (cpu : Cpu) {entry : Word} {program : List Byte}
    (hfits : entry.toNat + program.length ≤ Memory.size) (bound : Nat) (cycles : Option Nat) :
    ∃ n ≤ bound, ∃ execution tally,
      cpu.Returns entry program ⟨some bound, cycles⟩ n execution ∧ execution.Counts tally := by
  have hover : (cpu.loadProgram entry program).Over ⟨entry, program.length⟩
      ⟨some bound, cycles⟩ bound := over_of_instructions rfl
  obtain ⟨n, hleast⟩ := exists_isLeast_over hover
  refine ⟨n, hleast.2 hover, _, (cpu.loadProgram entry program).tally n,
    returns_of_isLeast hfits hleast, ?_⟩
  by_cases hcovers :
      Window.Covers ⟨entry, program.length⟩ ((cpu.loadProgram entry program).after n).pc
  · rw [answer_of_covers hcovers]
    exact .inr rfl
  · rw [answer_of_not_covers hcovers]
    exact .inl rfl

theorem Cpu.returns_of_not_fits (cpu : Cpu) {entry : Word} {program : List Byte}
    (hlarge : Memory.size < entry.toNat + program.length) (limit : Limit) :
    cpu.Returns entry program limit 0 ⟨cpu, .error (.outOfRange entry program.length)⟩ := by
  intro fuel
  have hwindow : ¬ Window.fits ⟨entry, program.length⟩ = true :=
    (Window.fits_iff _).not.mpr (not_le.mpr hlarge)
  rw [if_pos (Nat.zero_le fuel)]
  exact if_neg hwindow

theorem Session.executeWithin_of_returns (session : Session) {entry : Word}
    {program : List Byte} {maxInstructions : Nat} {maxCycles : Option Nat} {n : Nat}
    {execution : Execution Cpu}
    (hreturns : session.cpu.Returns entry program ⟨some maxInstructions, maxCycles⟩ n execution)
    (hle : n ≤ maxInstructions) :
    ∃ log, session.executeWithin entry program maxInstructions maxCycles =
      ⟨⟨execution.state, log⟩, execution.result⟩ := by
  have hmap := session.execute_map_cpu entry program ⟨some maxInstructions, maxCycles⟩
    maxInstructions
  rw [hreturns.execute_eq hle, Option.map_some] at hmap
  obtain ⟨⟨⟨cpu, log⟩, result⟩, hexecute, hpair⟩ := Option.map_eq_some_iff.mp hmap
  obtain ⟨rfl, rfl⟩ := Prod.mk.inj hpair
  exact ⟨log, Option.get_of_eq_some _ hexecute⟩

namespace Program

/-! ## What is given and what is asked for -/

/-- The program file holds bytes, as they are or as a listing of them. -/
def Supplies (answers : Answers) (options : Options) (bytes : List Byte) : Prop :=
  ∃ contents, answers.read options.program = .ok contents ∧
    if options.hex then
      ∃ text, String.fromUTF8? contents = some text ∧ Listing.parse text = .ok bytes
    else
      contents.data.toList = bytes

/-- The lines about a machine that was run for a number of instructions. -/
def linesAbout (options : Options) (cpu : Cpu) (instructions : Nat) : List String :=
  (if options.quiet then []
    else [cpu.toRegisters.summary, "cycles: " ++ toString cpu.cycles.toNat,
      "instructions: " ++ toString instructions])
  ++ if options.display then
      (List.range 32).map fun row => " ".intercalate ((Display.rowOf cpu row).map Byte.hex)
    else []

/-- What comes of a run.  The lines about the machine at its end are printed, then its save state
is written to a new file if there is to be one, and nothing else is done but to complain.  The exit
code is zero exactly when the run was completed. -/
structure Outcome.Describes (outcome : Outcome) (options : Options) (execution : Execution Cpu)
    (tally : Tally) : Prop where
  deeds : ∃ (logged failed : List String) (document : Json),
    outcome.deeds =
      logged.map .complain
        ++ ((linesAbout options execution.state tally.instructions).map .print
          ++ options.save.toList.flatMap fun path =>
            [.create path, .write path document.pretty])
        ++ failed.map .complain ∧
    ∀ cpu : Cpu, cpu.restore document = (.ok (), execution.state)
  exitCode : outcome.exitCode = 0 ∧ execution.result = .ok tally ∨
    outcome.exitCode = 1 ∧
      execution.result = .error (.limitReached tally execution.state.pc)

/-! ## The program file -/

section Reading

variable {answers : Answers} {options : Options} {bytes : List Byte}

theorem readBytes_eq_ok_iff :
    readBytes options (answers.read options.program) = .ok bytes ↔
      Supplies answers options bytes := by
  unfold readBytes Supplies
  cases answers.read options.program with
  | error cause => simp
  | ok contents =>
      cases options.hex with
      | false => simp
      | true =>
          cases htext : String.fromUTF8? contents with
          | none => simp [htext]
          | some text => cases hparse : Listing.parse text <;> simp [htext, hparse, Except.mapError]

theorem report_of_supplies (hsupplies : Supplies answers options bytes) :
    report options (answers.read options.program) = runBytes options bytes := by
  rw [report, readBytes_eq_ok_iff.mpr hsupplies]

theorem report_of_not_supplies (hnone : ∀ bytes, ¬ Supplies answers options bytes) :
    ∃ failure, report options (answers.read options.program) = .failed [] failure := by
  rw [report]
  cases hread : readBytes options (answers.read options.program) with
  | error failure => exact ⟨failure, rfl⟩
  | ok bytes => exact absurd (readBytes_eq_ok_iff.mp hread) (hnone bytes)

end Reading

/-! ## The report of a run -/

section Running

variable {options : Options} {bytes : List Byte}

theorem describes_outcome_reportRun {execution : Execution Cpu} {tally : Tally}
    {failure : Option Failure}
    (hfailure : failure = none ∧ execution.result = .ok tally ∨
      failure.isSome = true ∧
        execution.result = .error (.limitReached tally execution.state.pc)) (log : Log) :
    (reportRun options ⟨execution.state, log⟩ tally failure).outcome.Describes options execution
      tally := by
  have houtput : outputLines options execution.state tally =
      linesAbout options execution.state tally.instructions := by
    rw [outputLines, Display.rows_displayWindow]
    rfl
  constructor
  · refine ⟨log.lines.toList.map Log.Line.text, failure.toList.map Failure.text,
      SaveState.encode execution.state, ?_, fun cpu => ?_⟩
    · simp only [Report.outcome, Report.deeds, reportRun, houtput, List.map_map]
      cases options.save <;> rfl
    · rw [Cpu.restore, SaveState.decode_encode]
  · rcases hfailure with ⟨rfl, hok⟩ | ⟨hsome, hcut⟩
    · exact .inl ⟨rfl, hok⟩
    · exact .inr ⟨if_pos hsome, hcut⟩

theorem runBytes_of_counts {n : Nat} {execution : Execution Cpu} {tally : Tally}
    (hreturns : Cpu.fresh.Returns options.entry bytes
      ⟨some options.maxInstructions, options.maxCycles⟩ n execution)
    (hle : n ≤ options.maxInstructions) (hcounts : execution.Counts tally) :
    (runBytes options bytes).outcome.Describes options execution tally := by
  obtain ⟨log, hwithin⟩ :=
    Session.executeWithin_of_returns ⟨.fresh, startLog options⟩ hreturns hle
  rcases hcounts with hok | hcut
  · have hreport : runBytes options bytes =
        reportRun options ⟨execution.state, log⟩ tally none := by
      simp only [runBytes, hwithin, hok]
    rw [hreport]
    exact describes_outcome_reportRun (.inl ⟨rfl, hok⟩) log
  · have hreport : runBytes options bytes =
        reportRun options ⟨execution.state, log⟩ tally
          (some (.cutShort (.limitReached tally execution.state.pc))) := by
      simp only [runBytes, hwithin, hcut]
    rw [hreport]
    exact describes_outcome_reportRun (.inr ⟨rfl, hcut⟩) log

theorem runBytes_of_not_fits (hlarge : Memory.size < options.entry.toNat + bytes.length) :
    ∃ log failure, runBytes options bytes = .failed log failure := by
  have hreturns := Cpu.returns_of_not_fits .fresh hlarge
    ⟨some options.maxInstructions, options.maxCycles⟩
  obtain ⟨log, hwithin⟩ :=
    Session.executeWithin_of_returns ⟨.fresh, startLog options⟩ hreturns (Nat.zero_le _)
  refine ⟨log.lines.toList, .running (.outOfRange options.entry bytes.length), ?_⟩
  simp only [runBytes, hwithin]

end Running

/-! ## The command line -/

section CommandLine

variable {answers : Answers} {options : Options} (haccepts : Accepts answers options)

include haccepts

/-- A file that supplies no program, or none that fits, ends everything at once. -/
theorem outcome_of_forall_not_fits
    (hlarge : ∀ bytes, Supplies answers options bytes →
      Memory.size < options.entry.toNat + bytes.length) :
    ∃ complaints : List String, outcome answers options = ⟨1, complaints.map .complain⟩ := by
  have hfailed : ∃ log failure,
      report options (answers.read options.program) = .failed log failure := by
    by_cases hsupplies : ∃ bytes, Supplies answers options bytes
    · obtain ⟨bytes, hbytes⟩ := hsupplies
      rw [report_of_supplies hbytes]
      exact runBytes_of_not_fits (hlarge bytes hbytes)
    · exact ⟨[], report_of_not_supplies (not_exists.mp hsupplies)⟩
  obtain ⟨log, failure, hreport⟩ := hfailed
  refine ⟨log.map Log.Line.text ++ [failure.text], ?_⟩
  rw [outcome_eq haccepts, hreport]
  simp [Report.outcome, Report.deeds, Report.failed]

theorem outcome_of_supplies {bytes : List Byte} (hsupplies : Supplies answers options bytes) :
    outcome answers options = (runBytes options bytes).outcome := by
  rw [outcome_eq haccepts, report_of_supplies hsupplies]

end CommandLine

/-- A system that has the same bytes for every file, and refuses nothing. -/
def Answers.holding (contents : ByteArray) : Answers :=
  ⟨fun _ => .ok contents, fun _ => .ok (), fun _ => .ok (), fun _ _ => .ok ()⟩

/-- What asks for three instructions of a program, and for a save state after them. -/
def Options.threeInstructions (hex : Bool) : Options :=
  ⟨"p", 0x600, hex, 3, none, some "s", false, false, .off, none, none⟩

end Program

end Mos6502
