import Mos6502.Cpu.Basic
import Mos6502.Json.Basic
import Mos6502.Text.Quoted

/-!
# Save states

The whole machine as a JSON document, and the machine that a document describes.  A
document names its version and its system before anything else, and a document that is
refused leaves the machine as it was.

The members of an object are read in the order of their names, and the first member that
has the wrong form decides the outcome; members that are missing count last.  Members with
other names are passed over.  The flags may also be an array of seven truth values, and the
status an array of its eight parts, each in the order of declaration.
-/

namespace Mos6502.SaveState

/-- Why a document is refused. -/
inductive Error where
  /-- The version is another one; it counts as zero if it is no natural number. -/
  | version (found : Nat)
  /-- The system is another one; it counts as empty if it is no text. -/
  | system (found : String)
  /-- The memory has another number of cells. -/
  | memorySize (found : Nat)
  /-- A part is missing or has the wrong form. -/
  | malformed
deriving DecidableEq, Repr

/-- The text of a refusal. -/
def Error.message : Error → String
  | .version found => "Unsupported save state version " ++ toString found
  | .system found => "Save state is for system " ++ Text.quote found
  | .memorySize found =>
      "Invalid save state: invalid length " ++ toString found ++ ", expected 65536 bytes"
  | .malformed => "Invalid save state: a part is missing or has the wrong form"

/-- The version of the documents written here. -/
def currentVersion : Nat := 1

/-- The system that the documents are for. -/
def systemName : String := "6502"

/-- The largest cycle count. -/
def largestCount : Nat := UInt64.size - 1

/-! ## Writing -/

/-- Flags as an object of truth values. -/
def encodeFlags (f : Flags) : Json :=
  .object
    [("break_command", .bool f.breakCommand), ("carry", .bool f.carry),
      ("decimal", .bool f.decimal), ("interrupt", .bool f.interrupt),
      ("negative", .bool f.negative), ("overflow", .bool f.overflow), ("zero", .bool f.zero)]

/-- Memory as an array of its cells. -/
def encodeMemory (m : Memory) : Json :=
  .array (m.toList.map fun byte => .natural byte.toNat)

/-- Registers, counter and memory as an object. -/
def encodeStatus (cpu : Cpu) : Json :=
  .object
    [("a", .natural cpu.a.toNat), ("cycles", .natural cpu.cycles.toNat),
      ("flags", encodeFlags cpu.flags), ("memory", encodeMemory cpu.memory),
      ("pc", .natural cpu.pc.toNat), ("sp", .natural cpu.sp.toNat),
      ("x", .natural cpu.x.toNat), ("y", .natural cpu.y.toNat)]

/-- The document of a machine. -/
def encode (cpu : Cpu) : Json :=
  .object
    [("status", encodeStatus cpu), ("system", .string systemName),
      ("version", .natural currentVersion)]

/-! ## Reading -/

/-- A byte. -/
def byte? (document : Json) : Option Byte :=
  (document.natural? 255).map UInt8.ofNat

/-- An address. -/
def word? (document : Json) : Option Word :=
  (document.natural? 65535).map UInt16.ofNat

/-- A cycle count. -/
def count? (document : Json) : Option UInt64 :=
  (document.natural? largestCount).map UInt64.ofNat

/-- Flags, as an object or in a row. -/
def flags? : Json → Option Flags
  | .array [carry, zero, interrupt, decimal, breakCommand, overflow, negative] =>
      return {
        carry := ← carry.bool?
        zero := ← zero.bool?
        interrupt := ← interrupt.bool?
        decimal := ← decimal.bool?
        breakCommand := ← breakCommand.bool?
        overflow := ← overflow.bool?
        negative := ← negative.bool? }
  | .object members => do
      let member (key : String) : Option Bool := (members.lookup key).bind Json.bool?
      return {
        carry := ← member "carry"
        zero := ← member "zero"
        interrupt := ← member "interrupt"
        decimal := ← member "decimal"
        breakCommand := ← member "break_command"
        overflow := ← member "overflow"
        negative := ← member "negative" }
  | _ => none

/-- A part that has the right form. -/
def part (read : Json → Option α) (document : Json) : Except Error α :=
  (read document).elim (.error .malformed) .ok

/-- Memory; its cells are read before they are counted. -/
def memory (document : Json) : Except Error Memory := do
  match document with
  | .array items =>
      let bytes ← part (fun _ => items.mapM byte?) document
      (Memory.ofList? bytes).elim (.error (.memorySize bytes.length)) .ok
  | _ => .error .malformed

/-- A member that has the right form, if it is there. -/
def member (members : List (String × Json)) (key : String) (read : Json → Except Error α) :
    Except Error (Option α) :=
  match members.lookup key with
  | some document => some <$> read document
  | none => .ok none

/-- The machine whose parts are the members of an object. -/
def ofMembers (members : List (String × Json)) : Except Error Cpu := do
  let a ← member members "a" (part byte?)
  let cycles ← member members "cycles" (part count?)
  let flags ← member members "flags" (part flags?)
  let memory ← member members "memory" memory
  let pc ← member members "pc" (part word?)
  let sp ← member members "sp" (part byte?)
  let x ← member members "x" (part byte?)
  let y ← member members "y" (part byte?)
  match a, cycles, flags, memory, pc, sp, x, y with
  | some a, some cycles, some flags, some memory, some pc, some sp, some x, some y =>
      return { a, x, y, sp, pc, flags, cycles, memory }
  | _, _, _, _, _, _, _, _ => .error .malformed

/-- The machine whose parts stand in a row. -/
def ofRow : List Json → Except Error Cpu
  | a :: x :: y :: sp :: pc :: flags :: cycles :: cells :: rest => do
      let a ← part byte? a
      let x ← part byte? x
      let y ← part byte? y
      let sp ← part byte? sp
      let pc ← part word? pc
      let flags ← part flags? flags
      let cycles ← part count? cycles
      let memory ← memory cells
      if rest.isEmpty then return { a, x, y, sp, pc, flags, cycles, memory }
      else .error .malformed
  | _ => .error .malformed

/-- The machine that the status of a document describes. -/
def decodeStatus : Json → Except Error Cpu
  | .object members => ofMembers members
  | .array items => ofRow items
  | _ => .error .malformed

/-- The machine that a document describes. -/
def decode (document : Json) : Except Error Cpu := do
  let version := ((document.get? "version").bind (Json.natural? largestCount)).getD 0
  if version ≠ currentVersion then
    .error (.version version)
  else
    let system := ((document.get? "system").bind Json.string?).getD ""
    if system ≠ systemName then
      .error (.system system)
    else
      (document.get? "status").elim (.error .malformed) decodeStatus

end SaveState

/-- A machine takes on the state in a document, or stays as it is when the document is refused. -/
def Cpu.restore (cpu : Cpu) (document : Json) : Except SaveState.Error Unit × Cpu :=
  match SaveState.decode document with
  | .ok restored => (.ok (), restored)
  | .error error => (.error error, cpu)

end Mos6502
