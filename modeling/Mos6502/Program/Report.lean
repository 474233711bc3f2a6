import Mos6502.Program.Display
import Mos6502.Program.Listing
import Mos6502.Program.Options.Reading
import Mos6502.Program.World
import Mos6502.Session

/-!
# What options come to

The file is read as machine code or as a listing and run on a fresh machine.  The report
says what is logged and printed, which document is saved, and what failed.  A run that is cut
short by a limit is reported like any other and fails afterwards.
-/

namespace Mos6502.Program

/-- Why the program fails. -/
inductive Failure where
  /-- The program file cannot be read. -/
  | reading (path : String) (cause : FileError)
  /-- The program file is no listing. -/
  | parsing (path : String) (cause : ListingError)
  /-- The program does not fit in memory. -/
  | running (cause : RunError)
  /-- The run was cut short. -/
  | cutShort (cause : RunError)
  /-- The file for the save state cannot be created. -/
  | creating (path : String) (cause : FileError)
  /-- The save state cannot be written. -/
  | writing (cause : FileError)
  /-- The file for the log cannot be opened. -/
  | openingLog (path : String) (cause : FileError)
deriving DecidableEq, Repr

namespace Failure

/-- What failed, and its causes from the nearest to the first. -/
def chain : Failure → String × List String
  | reading path cause => ("reading " ++ path, [cause.message])
  | parsing path cause => ("parsing " ++ path, [cause.place, cause.cause.message])
  | running cause => (cause.message, [])
  | cutShort cause => ("program did not leave its address range", [cause.message])
  | creating path cause => ("creating " ++ path, [cause.message])
  | writing cause => (cause.message, [])
  | openingLog path cause => ("opening log file " ++ path, [cause.message])

/-- Causes under one another; several are numbered from zero. -/
def causeLines : List String → List String
  | [] => []
  | [cause] => ["", "Caused by:", "    " ++ cause]
  | causes =>
      "" :: "Caused by:" :: causes.zipIdx.map fun (cause, index) =>
        "    " ++ toString index ++ ": " ++ cause

/-- The text that tells of a failure. -/
def text (failure : Failure) : String :=
  "\n".intercalate (("Error: " ++ failure.chain.1) :: causeLines failure.chain.2)

end Failure

/-- What options come to. -/
structure Report where
  /-- The lines of the log. -/
  log : List Log.Line
  /-- The printed lines. -/
  output : List String
  /-- The file for the save state and its document. -/
  document : Option (String × Json)
  failure : Option Failure

/-- The report of a program that fails before its run has begun. -/
def Report.failed (log : List Log.Line) (failure : Failure) : Report :=
  ⟨log, [], none, some failure⟩

/-- The bytes of the program in a file. -/
def readBytes (options : Options) (contents : Except FileError ByteArray) :
    Except Failure (List Byte) :=
  match contents with
  | .error cause => .error (.reading options.program cause)
  | .ok contents =>
      if options.hex then
        match String.fromUTF8? contents with
        | none => .error (.reading options.program .notText)
        | some text => (Listing.parse text).mapError (.parsing options.program)
      else
        .ok contents.data.toList

/-- The log as the options set it. -/
def startLog (options : Options) : Log :=
  let settings := { Log.Settings.quiet with overall := options.logLevel }
  let settings :=
    match options.logCpu with
    | none => settings
    | some level => { settings with own := settings.own.set .cpu level }
  { Log.fresh with settings }

/-- The three lines about a machine after a run. -/
def summaryLines (cpu : Cpu) (tally : Tally) : List String :=
  [cpu.toRegisters.summary, "cycles: " ++ toString cpu.cycles.toNat,
    "instructions: " ++ toString tally.instructions]

/-- What is printed about a machine after a run. -/
def outputLines (options : Options) (cpu : Cpu) (tally : Tally) : List String :=
  (if options.quiet then [] else summaryLines cpu tally)
    ++ if options.display then Display.rows cpu.displayWindow else []

/-- The report of a machine after a run. -/
def reportRun (options : Options) (session : Session) (tally : Tally)
    (failure : Option Failure) : Report where
  log := session.log.lines.toList
  output := outputLines options session.cpu tally
  document := options.save.map fun path => (path, SaveState.encode session.cpu)
  failure := failure

/-- The bytes of a program are run on a fresh machine. -/
def runBytes (options : Options) (bytes : List Byte) : Report :=
  let session : Session := ⟨.fresh, startLog options⟩
  let execution :=
    session.executeWithin options.entry bytes options.maxInstructions options.maxCycles
  match execution.result with
  | .ok tally => reportRun options execution.state tally none
  | .error (.limitReached tally pc) =>
      reportRun options execution.state tally (some (.cutShort (.limitReached tally pc)))
  | .error (.outOfRange entry length) =>
      .failed execution.state.log.lines.toList (.running (.outOfRange entry length))

/-- What options come to, given the contents of the program file. -/
def report (options : Options) (contents : Except FileError ByteArray) : Report :=
  match readBytes options contents with
  | .error failure => .failed [] failure
  | .ok bytes => runBytes options bytes

end Mos6502.Program
