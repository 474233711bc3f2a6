import Mos6502.Json.Printer
import Mos6502.Program.Report

/-!
# The command line at work

The program from its words to its exit code, in any world.  The file for the log is opened
first, then the program file is read, and its report is published: the log, what is printed,
and the document.  A failure ends all this at the place where it comes up, and is told last;
the failure of a run that was cut short comes up after everything else.
-/

namespace Mos6502.Program

namespace World

variable {m : Type → Type} {φ : Type} [Monad m] (world : World m φ)

/-- Lines are printed one after the other. -/
def printAll (lines : List String) : m Unit :=
  lines.forM world.print

/-- The file for the log is opened, if there is to be one. -/
def openLog (options : Options) : ExceptT Failure m (Option φ) :=
  match options.logFile with
  | none => return none
  | some path => do
      match ← world.append path with
      | .ok file => return some file
      | .error cause => throw (.openingLog path cause)

/-- The lines of the log go to the file for it, which may refuse them, or to the error stream
if there is none. -/
def writeLog (file : Option φ) (log : List Log.Line) : m Unit :=
  log.forM fun line =>
    match file with
    | none => world.complain line.text
    | some file => discard (world.write file (line.text ++ "\n"))

/-- A document goes to a new file. -/
def saveDocument (path : String) (document : Json) : ExceptT Failure m Unit := do
  match ← world.create path with
  | .error cause => throw (.creating path cause)
  | .ok file =>
      match ← world.write file document.pretty with
      | .error cause => throw (.writing cause)
      | .ok _ => return

/-- A report is made known. -/
def publish (logFile : Option φ) (report : Report) : ExceptT Failure m Unit := do
  world.writeLog logFile report.log
  world.printAll report.output
  if let some (path, document) := report.document then
    world.saveDocument path document
  if let some failure := report.failure then
    throw failure

/-- What the options ask for is done. -/
def perform (options : Options) : ExceptT Failure m Unit := do
  let logFile ← world.openLog options
  let contents ← world.read options.program
  world.publish logFile (report options contents)

/-- The exit code; a failure is told. -/
def conclude : Except Failure Unit → m Nat
  | .ok _ => return 0
  | .error failure => do
      world.complain failure.text
      return 1

/-- Options are carried out, down to the exit code. -/
def run (options : Options) : m Nat := do
  world.conclude (← (world.perform options).run)

/-- A command line is carried out, down to the exit code. -/
def carryOut (words : List String) : m Nat := do
  match Options.parse words with
  | .error error =>
      if error = .help then
        world.print error.message
      else
        world.complain error.message
      return error.exitCode
  | .ok options => world.run options

end World

/-- How the program exits, and what it did until then. -/
structure Outcome where
  exitCode : Nat
  deeds : List Deed
deriving DecidableEq, Repr

/-- What comes of options where the system gives certain answers. -/
def outcome (answers : Answers) (options : Options) : Outcome :=
  let (exitCode, deeds) := ((World.recording answers).run options).run []
  ⟨exitCode, deeds⟩

end Mos6502.Program
