import Mos6502.Program.Command

/-!
# The program

The program on the files and the streams of the operating system.
-/

namespace Mos6502.Program

/-- Whether an error code, which may come with its sign changed, is the given one. -/
def isCode (code : UInt32) (number : UInt32) : Bool :=
  code == number || code == 0 - number

/-- The cause behind a failed file operation. -/
def FileError.ofError (error : IO.Error) : FileError :=
  match error with
  | .noFileOrDirectory .. | .noSuchThing .. => .notFound
  | .permissionDenied .. => .permissionDenied
  | .inappropriateType _ code _ =>
      if isCode code 20 then .notADirectory
      else if isCode code 21 then .isADirectory
      else .other error.toString
  | .invalidArgument _ code _ =>
      if isCode code 36 then .nameTooLong else .other error.toString
  | _ => .other error.toString

/-- Carries out a file operation and keeps its cause of failure. -/
def attempt (action : IO α) : IO (Except FileError α) := do
  try
    return .ok (← action)
  catch error =>
    return .error (.ofError error)

/-- The files and the streams of the operating system. -/
def World.system : World IO IO.FS.Handle where
  read path := attempt (IO.FS.readBinFile path)
  create path := attempt (IO.FS.Handle.mk path .write)
  append path := attempt (IO.FS.Handle.mk path .append)
  write file text := attempt do
    file.putStr text
    file.flush
  print line := IO.println line
  complain text := IO.eprintln text

end Mos6502.Program

/-- The program. -/
def main (words : List String) : IO UInt32 := do
  return (← Mos6502.Program.World.system.carryOut words).toUInt32
