import Mos6502.Log.Level
import Mos6502.Word

/-!
# Options

What a command line can ask for, and why one is not carried out.  Options are long words: a
setting takes a value and a switch takes none.
-/

namespace Mos6502.Program

/-- What a command line asks for. -/
structure Options where
  /-- The file with the program. -/
  program : String
  /-- Where the program is loaded and entered. -/
  entry : Word
  /-- The file is a hexadecimal listing. -/
  hex : Bool
  maxInstructions : Nat
  maxCycles : Option Nat
  /-- The file that takes the save state. -/
  save : Option String
  /-- The display window is printed. -/
  display : Bool
  /-- The register summary is left out. -/
  quiet : Bool
  logLevel : Log.Level
  logCpu : Option Log.Level
  /-- The file that takes the log. -/
  logFile : Option String
deriving DecidableEq, Repr

/-- An option with a value. -/
inductive Setting where
  | entry
  | maxInstructions
  | maxCycles
  | save
  | logLevel
  | logCpu
  | logFile
deriving DecidableEq, Repr

/-- An option without a value. -/
inductive Switch where
  | hex
  | display
  | quiet
  | help
deriving DecidableEq, Repr

/-- Why a command line is not carried out. -/
inductive UsageError where
  /-- No word names the program. -/
  | missingProgram
  /-- A word is no option, or is one word too many. -/
  | unknownArgument (word : String)
  /-- A setting or the program has no value, or a file has an empty name. -/
  | missingValue (option : String)
  /-- A value is refused. -/
  | refusedValue (option value reason : String)
  /-- An option is given twice. -/
  | repeated (option : String)
  /-- A switch is given a value. -/
  | unwantedValue (option : String)
  /-- Help is asked for, which ends the reading. -/
  | help
deriving DecidableEq, Repr

namespace UsageError

/-- The text of an error. -/
def message : UsageError → String
  | missingProgram => "error: the program file is missing"
  | unknownArgument word => "error: unexpected argument '" ++ word ++ "'"
  | missingValue option => "error: a value is required for '" ++ option ++ "'"
  | refusedValue option value reason =>
      "error: invalid value '" ++ value ++ "' for '" ++ option ++ "': " ++ reason
  | repeated option => "error: '" ++ option ++ "' cannot be used more than once"
  | unwantedValue option => "error: '" ++ option ++ "' takes no value"
  | help =>
      "Run a 6502 program until PC leaves the bytes it was loaded into.\n"
        ++ "Arguments: PROGRAM [--entry ADDRESS] [--hex] [--max-instructions N]\n"
        ++ "  [--max-cycles N] [--save FILE] [--display] [--quiet] [--log-level LEVEL]\n"
        ++ "  [--log-cpu LEVEL] [--log-file FILE]"

/-- The exit code of a command line that is not carried out. -/
def exitCode : UsageError → Nat
  | help => 0
  | _ => 2

end UsageError

namespace Setting

/-- Every setting. -/
def all : List Setting :=
  [entry, maxInstructions, maxCycles, save, logLevel, logCpu, logFile]

/-- The name of a setting. -/
def name : Setting → String
  | entry => "entry"
  | maxInstructions => "max-instructions"
  | maxCycles => "max-cycles"
  | save => "save"
  | logLevel => "log-level"
  | logCpu => "log-cpu"
  | logFile => "log-file"

end Setting

namespace Switch

/-- Every switch. -/
def all : List Switch :=
  [hex, display, quiet, help]

/-- The name of a switch. -/
def name : Switch → String
  | hex => "hex"
  | display => "display"
  | quiet => "quiet"
  | help => "help"

end Switch

end Mos6502.Program
