import Mos6502.Program.Address
import Mos6502.Program.Options.Basic

/-!
# Drafts of options

The options that have been examined so far.  A setting must have a value of the right form,
and neither a setting nor a switch may be given twice.
-/

namespace Mos6502.Program.Options

/-- What has been read and examined so far. -/
structure Draft where
  program : Option String
  entry : Option Word
  hex : Bool
  maxInstructions : Option Nat
  maxCycles : Option Nat
  save : Option String
  display : Bool
  quiet : Bool
  logLevel : Option Log.Level
  logCpu : Option Log.Level
  logFile : Option String
deriving DecidableEq, Repr

namespace Draft

/-- Nothing has been read. -/
def empty : Draft :=
  ⟨none, none, false, none, none, none, false, false, none, none, none⟩

/-- Whether a setting has been examined. -/
def has (draft : Draft) : Setting → Bool
  | .entry => draft.entry.isSome
  | .maxInstructions => draft.maxInstructions.isSome
  | .maxCycles => draft.maxCycles.isSome
  | .save => draft.save.isSome
  | .logLevel => draft.logLevel.isSome
  | .logCpu => draft.logCpu.isSome
  | .logFile => draft.logFile.isSome

end Draft

/-- A value that is an address. -/
def readAddress (option value : String) : Except UsageError Word :=
  (Address.parse value).mapError fun error => .refusedValue option value error.message

/-- A value that is a number of at most 64 bits. -/
def readCount (option value : String) : Except UsageError Nat :=
  (Text.Numeral.read 10 (UInt64.size - 1) value.toList).mapError fun cause =>
    .refusedValue option value cause.message

/-- Why a word is no level. -/
def levelMessage (word : String) : String :=
  "unknown log level " ++ Text.quote word

/-- A value that is a level. -/
def readLevel (option value : String) : Except UsageError Log.Level :=
  (Log.Level.parse? value).elim (.error (.refusedValue option value (levelMessage value))) .ok

/-- A value that is the name of a file. -/
def readName (option value : String) : Except UsageError String :=
  if value.isEmpty then .error (.missingValue option) else .ok value

/-- A setting is examined: it must have a value, be new, and have the right form. -/
def Draft.set (draft : Draft) (setting : Setting) (value : Option String) :
    Except UsageError Draft :=
  let option := "--" ++ setting.name
  match value with
  | none => .error (.missingValue option)
  | some value =>
      if draft.has setting then
        .error (.repeated option)
      else
        match setting with
        | .entry => return { draft with entry := ← readAddress option value }
        | .maxInstructions => return { draft with maxInstructions := ← readCount option value }
        | .maxCycles => return { draft with maxCycles := ← readCount option value }
        | .save => return { draft with save := ← readName option value }
        | .logLevel => return { draft with logLevel := ← readLevel option value }
        | .logCpu => return { draft with logCpu := ← readLevel option value }
        | .logFile => return { draft with logFile := ← readName option value }

/-- A switch is turned on, once. -/
def Draft.turnOn (draft : Draft) (switch : Switch) : Except UsageError Draft :=
  let turn (given : Bool) (draft : Draft) : Except UsageError Draft :=
    if given then .error (.repeated ("--" ++ switch.name)) else .ok draft
  match switch with
  | .hex => turn draft.hex { draft with hex := true }
  | .display => turn draft.display { draft with display := true }
  | .quiet => turn draft.quiet { draft with quiet := true }
  | .help => .error .help

/-- The options of a draft, with what holds where nothing is asked for. -/
def ofDraft (draft : Draft) : Except UsageError Options :=
  match draft.program with
  | none => .error .missingProgram
  | some program =>
      .ok
        { program
          entry := draft.entry.getD 0x0600
          hex := draft.hex
          maxInstructions := draft.maxInstructions.getD 10000000
          maxCycles := draft.maxCycles
          save := draft.save
          display := draft.display
          quiet := draft.quiet
          logLevel := draft.logLevel.getD .off
          logCpu := draft.logCpu
          logFile := draft.logFile }

end Mos6502.Program.Options
